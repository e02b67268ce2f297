import StyleObjects.Proofs.Stylesheet.Declared

/-!
# Quoted values

A string is taken whole, whatever marks it has in it: it ends at the next quote of its kind, unless a
backslash or the end of the line comes first.  So a declaration whose value is a string is read as
what it is the text of.  Comments alone are removed from strings as they are from any other text.
-/

namespace StyleObjects

/-- The text between double quotes. -/
def Text.doubleQuoted (text : String) : String :=
  "\"" ++ text ++ "\""

@[simp] theorem Text.toList_doubleQuoted (text : String) :
    (doubleQuoted text).toList = '"' :: (text.toList ++ ['"']) := by
  simp [doubleQuoted]

/-- Nothing in the text ends a string in double quotes, or protects what follows it. -/
def Text.isStringBody (text : String) : Bool :=
  text.toList.all fun c => c != '"' && c != '\\' && c != '\n'

theorem Text.isStringBody_stripComments {text : String} (body : isStringBody text = true) :
    isStringBody (stripComments text) = true := by
  rw [isStringBody, stripComments, String.toList_ofList, List.all_eq_true]
  intro c member
  exact List.all_eq_true.mp body c (Comment.mem_of_mem_strip member)

/-- Removing comments leaves the quotes where they are. -/
theorem Text.stripComments_doubleQuoted (text : String) :
    stripComments (doubleQuoted text) = doubleQuoted (stripComments text) := by
  have quote : '/' ∉ ['"'] := by decide
  have surrounded := Comment.strip_surrounded quote quote text.toList
  apply String.toList_inj.mp
  rw [toList_doubleQuoted, stripComments, stripComments, String.toList_ofList,
    String.toList_ofList, toList_doubleQuoted]
  exact surrounded

/-- Nothing is trimmed off a text in quotes. -/
theorem Text.trim_doubleQuoted (text : String) :
    trim (doubleQuoted text).toList = (doubleQuoted text).toList := by
  have quotes : isBlank '"' = false := by decide
  exact Stylesheet.trim_of_visible (by simp [quotes]) (by simp [List.getLast?_cons, quotes])

namespace Token

variable {quote : Char} {cs string rest : List Char}

/-- A string ends at the next quote. -/
theorem takeString?_append (plain : ∀ c ∈ cs, c ≠ quote ∧ c ≠ '\\' ∧ c ≠ '\n') (rest : List Char) :
    takeString? quote (cs ++ quote :: rest) = some (cs ++ [quote], rest) := by
  induction cs with
  | nil => cases rest <;> simp [takeString?]
  | cons c cs ih =>
      rw [List.forall_mem_cons] at plain
      have others := ih plain.2
      -- At least the quote follows the character.
      cases after : cs ++ quote :: rest with
      | nil => simp at after
      | cons d tail =>
          rw [after] at others
          rw [List.cons_append, after, takeString?, if_neg plain.1.1, if_neg plain.1.2.2,
            if_neg plain.1.2.1, others]
          rfl

/-- A value goes on after a string. -/
theorem takeValue_string (quoted : quote = '"' ∨ quote = '\'')
    (taken : takeString? quote cs = some (string, rest)) :
    takeValue (quote :: cs) = (quote :: string ++ (takeValue rest).1, (takeValue rest).2) := by
  have unmarked : isMark quote = false := by rcases quoted with rfl | rfl <;> decide
  rw [takeValue.eq_def]
  simp only [unmarked, Bool.false_eq_true, quoted, ↓reduceIte]
  split
  · rename_i found
    rw [taken] at found
    cases found
    rfl
  · rename_i none
    rw [taken] at none
    cases none

/-- A text that starts with a string reaches its end behind the string. -/
theorem reachesEnd_string (quoted : quote = '"' ∨ quote = '\'')
    (taken : takeString? quote cs = some (string, rest)) :
    reachesEnd (quote :: cs) = reachesEnd rest := by
  have others : quote ≠ ';' ∧ quote ≠ '\x7d' ∧ quote ≠ '\x7b' := by
    rcases quoted with rfl | rfl <;> decide
  rw [reachesEnd.eq_def]
  simp only [others, or_self, quoted, ↓reduceIte]
  split
  · rename_i found
    rw [taken] at found
    cases found
    rfl
  · rename_i none
    rw [taken] at none
    cases none

section DoubleQuoted

variable {text : String} (body : Text.isStringBody text = true)

include body

/-- A text in quotes is a string. -/
theorem takeString?_doubleQuoted (rest : List Char) :
    takeString? '"' (text.toList ++ '"' :: rest) = some (text.toList ++ ['"'], rest) := by
  apply takeString?_append
  intro c member
  simpa [and_assoc] using List.all_eq_true.mp body c member

/-- A text in quotes is a value, with the blanks around it. -/
theorem takeValue_doubleQuoted :
    takeValue (' ' :: ((Text.doubleQuoted text).toList ++ [' ', '\x7d'])) =
      ([' '] ++ (Text.doubleQuoted text).toList ++ [' '], ['\x7d']) := by
  have last : takeValue [' ', '\x7d'] = ([' '], ['\x7d']) := by decide +kernel
  rw [takeValue_cons (by decide) (by decide) (by decide), Text.toList_doubleQuoted,
    List.cons_append, List.append_assoc, List.singleton_append,
    takeValue_string (.inl rfl) (takeString?_doubleQuoted body _), last]
  simp

/-- A value in quotes reaches the end of its rule. -/
theorem reachesEnd_doubleQuoted :
    reachesEnd (' ' :: ((Text.doubleQuoted text).toList ++ [' ', '\x7d'])) = true := by
  rw [reachesEnd_cons (by decide) (by decide) (by decide), Text.toList_doubleQuoted,
    List.cons_append, List.append_assoc, List.singleton_append,
    reachesEnd_string (.inl rfl) (takeString?_doubleQuoted body _)]
  decide +kernel

end DoubleQuoted

end Token

namespace Stylesheet

/-- A declaration whose value is a string is read as what it is the text of without comments. -/
theorem parse_ruleText_doubleQuoted {property text : String}
    (named : isPropertyName property.toList = true) (body : Text.isStringBody text = true) :
    parse ((⟨property, Text.doubleQuoted text⟩ : Declaration).ruleText ".a") =
      .ok [.style [".a"] [⟨property, Text.doubleQuoted (stripComments text)⟩]] := by
  have bodyLeft := Text.isStringBody_stripComments body
  have left : Comment.strip (Text.doubleQuoted text).toList =
      (Text.doubleQuoted (stripComments text)).toList := by
    rw [← Text.stripComments_doubleQuoted, stripComments, String.toList_ofList]
  have declared : declarationOf property.toList
      ([' '] ++ (Text.doubleQuoted (stripComments text)).toList ++ [' ']) =
        ⟨property, Text.doubleQuoted (stripComments text)⟩ := by
    rw [Progress.declarationOf_of_isPropertyName named,
      Text.trim_blanks_append (by decide) (by decide), Text.trim_doubleQuoted,
      String.ofList_toList, String.ofList_toList]
  have ruled : isSelector ".a".toList = true := by decide
  rw [parse_ruleText_iff ruled named left (Token.reachesEnd_doubleQuoted bodyLeft), ← declared]
  exact Progress.accepts_of_takeValue (Token.takeValue_doubleQuoted bodyLeft) (by simp)

end Stylesheet

end StyleObjects
