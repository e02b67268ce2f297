import StyleObjects.Proofs.Json.Leaves
import StyleObjects.Proofs.Json.Strings

/-!
# JSON text read back

Whatever the layout, the text of a value is cut into the tokens of the value, and these are built up
to the value again.
-/

namespace StyleObjects.Json

/-- Something holds of all real numbers in a value. -/
inductive EveryReal (holds : Binary64 → Prop) : Json → Prop where
  | null : EveryReal holds .null
  | bool (value : Bool) : EveryReal holds (.bool value)
  | integer (value : Int) : EveryReal holds (.integer value)
  | real {value : Binary64} (known : holds value) : EveryReal holds (.real value)
  | text (value : String) : EveryReal holds (.text value)
  | array {items : List Json} (every : ∀ item ∈ items, EveryReal holds item) :
      EveryReal holds (.array items)
  | object {fields : List (String × Json)} (every : ∀ field ∈ fields, EveryReal holds field.2) :
      EveryReal holds (.object fields)

theorem EveryReal.and {holds others : Binary64 → Prop} {json : Json}
    (first : json.EveryReal holds) (second : json.EveryReal others) :
    json.EveryReal fun value => holds value ∧ others value := by
  induction first with
  | null => exact .null
  | bool value => exact .bool value
  | integer value => exact .integer value
  | real known =>
      cases second with
      | real also => exact .real ⟨known, also⟩
  | text value => exact .text value
  | array _ ih =>
      cases second with
      | array others => exact .array fun item member => ih item member (others item member)
  | object _ ih =>
      cases second with
      | object others => exact .object fun field member => ih field member (others field member)

/-! ## Tokens -/

theorem renderItems_eq (layout : Layout) (level : Nat) (items : List Json) :
    renderItems layout level items = items.map (renderAt layout level) := by
  induction items with
  | nil => rfl
  | cons item items ih => rw [renderItems, ih, List.map_cons]

theorem renderFields_eq (layout : Layout) (level : Nat) (fields : List (String × Json)) :
    renderFields layout level fields =
      fields.map fun field => quotedText field.1 ++ ": " ++ renderAt layout level field.2 := by
  induction fields with
  | nil => rfl
  | cons field fields ih => rw [renderFields, ih, List.map_cons]

mutual

/-- The tokens of a value. -/
def tokens : Json → List Token
  | .null => [.leaf .null]
  | .bool value => [.leaf (.bool value)]
  | .integer value => [.leaf (.integer value)]
  | .real value => [.leaf (.real value)]
  | .text value => [.leaf (.text value)]
  | .array items => .openArray :: [.comma].intercalate (itemTokens items) ++ [.closeArray]
  | .object fields => .openObject :: [.comma].intercalate (fieldTokens fields) ++ [.closeObject]

/-- The tokens of the items of an array. -/
def itemTokens : List Json → List (List Token)
  | [] => []
  | item :: items => tokens item :: itemTokens items

/-- The tokens of the fields of an object. -/
def fieldTokens : List (String × Json) → List (List Token)
  | [] => []
  | (name, value) :: fields =>
    (.leaf (.text name) :: .colon :: tokens value) :: fieldTokens fields

end

namespace Token

/-- A text is cut into tokens, whatever comes after it that does not continue a number or a word. -/
def Reads (text : List Char) (tokens : List Token) : Prop :=
  ∀ rest : List Char, rest.head?.any isLeafChar = false →
    readAll? (text ++ rest) = (readAll? rest).map (tokens ++ ·)

theorem readAll?_of_take? {c : Char} {cs rest : List Char} {token : Token}
    (found : take? (c :: cs) = some (token, rest)) (visible : isSpace c = false) :
    readAll? (c :: cs) = (readAll? rest).map (token :: ·) := by
  have start : (c :: cs).dropWhile isSpace = c :: cs := by
    rw [List.dropWhile_cons, visible]
    rfl
  rw [readAll?, if_neg (by simp [start])]
  split
  · rename_i other after again
    rw [start, found] at again
    cases again
    rfl
  · rename_i none
    rw [start, found] at none
    cases none

theorem readAll?_punctuation {c : Char} {token : Token} (mark : punctuation? c = some token)
    (rest : List Char) : readAll? (c :: rest) = (readAll? rest).map (token :: ·) := by
  apply readAll?_of_take?
  · rw [take?, mark]
  · unfold punctuation? at mark
    split at mark <;> first | rfl | cases mark

theorem readAll?_spaces {spaces : List Char} (blank : spaces.all isSpace = true)
    (rest : List Char) : readAll? (spaces ++ rest) = readAll? rest := by
  have skipped : (spaces ++ rest).dropWhile isSpace = rest.dropWhile isSpace :=
    List.dropWhile_append_of_pos (List.all_eq_true.mp blank)
  rw [readAll?, readAll?, skipped]

theorem apart_of_isLeafChar {c : Char} (leaf : isLeafChar c = true) :
    punctuation? c = none ∧ c ≠ '"' ∧ isSpace c = false := by
  refine ⟨?_, ?_, ?_⟩
  · unfold punctuation?
    split <;> first | rfl | cases leaf
  · rintro rfl
    cases leaf
  · rw [Bool.eq_false_iff]
    intro space
    simp only [isSpace, Bool.or_eq_true, beq_iff_eq] at space
    rcases space with ((rfl | rfl) | rfl) | rfl <;> cases leaf

/-- A run of leaf characters is one token. -/
theorem reads_leaf {word : List Char} {value : Json} (filled : word ≠ [])
    (written : word.all isLeafChar = true) (read : readLeaf? word = some value) :
    Reads word [.leaf value] := by
  intro rest stop
  rcases List.exists_cons_of_ne_nil filled with ⟨first, word, rfl⟩
  rw [List.all_cons, Bool.and_eq_true] at written
  rcases apart_of_isLeafChar written.1 with ⟨unmarked, unquoted, visible⟩
  have inside := List.all_eq_true.mp written.2
  have ends : rest.takeWhile isLeafChar = [] ∧ rest.dropWhile isLeafChar = rest := by
    cases rest with
    | nil => exact ⟨rfl, rfl⟩
    | cons c rest =>
        have stop : isLeafChar c = false := stop
        simp [stop]
  refine readAll?_of_take? ?_ visible
  change take? (first :: (word ++ rest)) = _
  rw [take?, unmarked]
  simp only [if_neg unquoted, if_pos written.1, List.takeWhile_append_of_pos inside,
    List.dropWhile_append_of_pos inside, ends.1, ends.2, List.append_nil, read, Option.map_some]

theorem reads_signedText {numeral : Numeral} (plain : numeral.IsPlain) {negative : Bool}
    {value : Json} (read : readLeaf? (numeral.signedText negative) = some value) :
    Reads (numeral.signedText negative) [.leaf value] := by
  rcases plain.exists_cons with ⟨first, rest, same, -⟩
  refine reads_leaf (by simp [Numeral.signedText, same]) ?_ read
  exact List.all_eq_true.mpr fun c member =>
    isLeafChar_of_isTextChar (List.all_eq_true.mp (plain.all_isTextChar negative) c member)

theorem reads_integer (value : Int) : Reads (toString value).toList [.leaf (.integer value)] := by
  have read := readLeaf?_integer value
  rw [Numeral.toList_toString] at read ⊢
  exact reads_signedText (Numeral.isPlain_ofNat value.natAbs) read

theorem reads_real {value : Binary64} (normal : value.IsNormal) :
    Reads (value.textWith "Infinity" "NaN").toList [.leaf (.real value)] := by
  have read := readLeaf?_real normal
  cases value with
  | finite negative significand exponent =>
      rcases Binary64.exists_numeral_of_isNormal normal with ⟨numeral, plain, -, same, -⟩
      have text : ((Binary64.finite negative significand exponent).textWith "Infinity" "NaN").toList =
          numeral.signedText negative := same
      rw [text] at read ⊢
      exact reads_signedText plain read
  | infinite negative => cases negative <;> exact reads_leaf (by decide) (by decide) read
  | undefined => exact reads_leaf (by decide) (by decide) read

theorem readAll?_quotedText (s : String) (rest : List Char) :
    readAll? ((quotedText s).toList ++ rest) = (readAll? rest).map (.leaf (.text s) :: ·) := by
  have found := take?_quotedText s rest
  rw [quotedText, String.toList_ofList] at found ⊢
  exact readAll?_of_take? found rfl

/-- Texts that are cut into tokens, with separators in between. -/
theorem reads_intercalate {texts : List String} {tokens : List (List Token)} {separator : List Char}
    (separates : ∀ rest, readAll? (',' :: separator ++ rest) = (readAll? rest).map (.comma :: ·))
    (same : List.Forall₂ (fun text tokens => Reads text.toList tokens) texts tokens) :
    Reads ((',' :: separator).intercalate (texts.map String.toList))
      ([.comma].intercalate tokens) := by
  induction same with
  | nil =>
      intro rest _
      simp
  | @cons text own texts others first same ih =>
      cases same with
      | nil => simpa using first
      | cons second more =>
          intro rest stop
          rw [List.map_cons, List.map_cons, List.intercalate_cons_cons,
            List.intercalate_cons_cons, List.append_assoc, List.append_assoc,
            first _ rfl, separates]
          rw [← List.map_cons, ih rest stop, Option.map_map, Option.map_map]
          congr 1
          funext tokens
          simp

end Token

open Token

/-- Brackets with texts in between: there is white space after the opening bracket, after every
comma and before the closing bracket. -/
theorem Layout.toList_enclose (layout : Layout) (level : Nat) (opening closing : String)
    (texts : List String) :
    ∃ before spaces after : List Char,
      before.all isSpace = true ∧ spaces.all isSpace = true ∧ after.all isSpace = true ∧
      (layout.enclose level opening closing texts).toList =
        opening.toList ++ (before ++ ((',' :: spaces).intercalate (texts.map String.toList) ++
          (after ++ closing.toList))) := by
  cases texts with
  | nil => exact ⟨[], [], [], rfl, rfl, rfl, by simp [enclose]⟩
  | cons text texts =>
      have blank : ∀ level, (layout.lineBreak level).toList.all isSpace = true := by
        intro level
        cases layout with
        | compact => rfl
        | indented width => simp [lineBreak, isSpace]
      have comma : ∃ spaces, spaces.all isSpace = true ∧
          (layout.separator (level + 1)).toList = ',' :: spaces := by
        cases layout with
        | compact => exact ⟨[' '], rfl, by rw [separator]; rfl⟩
        | indented width => exact ⟨_, blank (level + 1), by simp [separator]⟩
      rcases comma with ⟨spaces, space, separates⟩
      refine ⟨_, spaces, _, blank (level + 1), space, blank level, ?_⟩
      simp only [enclose, List.isEmpty_cons, Bool.false_eq_true, if_false, String.toList_append,
        String.toList_intercalate, separates, List.append_assoc]

/-- A bracket after white space continues no number or word. -/
theorem stops_punctuation {after : List Char} (blank : after.all isSpace = true) {closing : Char}
    {last : Token} (closes : punctuation? closing = some last) (rest : List Char) :
    (after ++ closing :: rest).head?.any isLeafChar = false := by
  rw [Bool.eq_false_iff]
  intro leaf
  cases after with
  | nil =>
      rw [(apart_of_isLeafChar leaf).1] at closes
      cases closes
  | cons c after =>
      rw [List.all_cons, (apart_of_isLeafChar leaf).2.2] at blank
      cases blank

/-- The text of brackets with texts in between. -/
theorem reads_enclose {texts : List String} {tokens : List (List Token)} (layout : Layout)
    (level : Nat) {opening closing : Char} {first last : Token}
    (opens : punctuation? opening = some first) (closes : punctuation? closing = some last)
    (same : List.Forall₂ (fun text tokens => Reads text.toList tokens) texts tokens) :
    Reads (layout.enclose level (String.ofList [opening]) (String.ofList [closing]) texts).toList
      (first :: [.comma].intercalate tokens ++ [last]) := by
  intro rest _
  rcases layout.toList_enclose level (String.ofList [opening]) (String.ofList [closing]) texts with
    ⟨before, spaces, after, leading, space, trailing, laid⟩
  have separates : ∀ rest, readAll? (',' :: spaces ++ rest) = (readAll? rest).map (.comma :: ·) :=
    fun rest => by rw [List.cons_append, readAll?_punctuation rfl, readAll?_spaces space]
  have inner := reads_intercalate separates same
  simp only [laid, String.toList_ofList, List.append_assoc, List.cons_append, List.nil_append]
  rw [readAll?_punctuation opens, readAll?_spaces leading,
    inner _ (stops_punctuation trailing closes rest), readAll?_spaces trailing,
    readAll?_punctuation closes]
  simp only [Option.map_map]
  rfl

theorem reads_renderItems {items : List Json} {layout : Layout} {level : Nat}
    (known : ∀ item ∈ items, Reads (renderAt layout level item).toList item.tokens) :
    List.Forall₂ (fun text tokens => Reads text.toList tokens) (renderItems layout level items)
      (itemTokens items) := by
  induction items with
  | nil => exact .nil
  | cons item items ih =>
      rw [List.forall_mem_cons] at known
      exact .cons known.1 (ih known.2)

theorem reads_renderFields {fields : List (String × Json)} {layout : Layout} {level : Nat}
    (known : ∀ field ∈ fields, Reads (renderAt layout level field.2).toList field.2.tokens) :
    List.Forall₂ (fun text tokens => Reads text.toList tokens) (renderFields layout level fields)
      (fieldTokens fields) := by
  induction fields with
  | nil => exact .nil
  | cons field fields ih =>
      rw [List.forall_mem_cons] at known
      refine .cons ?_ (ih known.2)
      intro rest stop
      have colon : (": ").toList = [':', ' '] := rfl
      simp only [String.toList_append, List.append_assoc, colon, List.cons_append, List.nil_append]
      rw [readAll?_quotedText, readAll?_punctuation rfl]
      have blank : ∀ rest, readAll? (' ' :: rest) = readAll? rest := fun rest =>
        readAll?_spaces (rfl : [' '].all isSpace = true) rest
      rw [blank, known.1 rest stop]
      simp only [Option.map_map]
      rfl

/-- The text of a value is cut into the tokens of the value. -/
theorem reads_renderAt {value : Json} (normal : value.EveryReal Binary64.IsNormal)
    (layout : Layout) (level : Nat) : Reads (renderAt layout level value).toList value.tokens := by
  induction normal generalizing level with
  | null =>
      rw [renderAt, tokens]
      exact reads_leaf (by decide) (by decide) rfl
  | bool value =>
      rw [renderAt, tokens]
      cases value <;> exact reads_leaf (by decide) (by decide) rfl
  | integer value =>
      rw [renderAt, tokens]
      exact reads_integer value
  | real known =>
      rw [renderAt, tokens]
      exact reads_real known
  | text value =>
      rw [renderAt, tokens]
      exact fun rest _ => readAll?_quotedText value rest
  | array _ ih =>
      rw [renderAt, tokens]
      exact reads_enclose layout level rfl rfl
        (reads_renderItems fun item member => ih item member (level + 1))
  | object _ ih =>
      rw [renderAt, tokens]
      exact reads_enclose layout level rfl rfl
        (reads_renderFields fun field member => ih field member (level + 1))

/-! ## Values -/

/-- The first item of an array is built like any other. -/
theorem build?_arrayStart (value : Json) (parts : List OpenPart) (rest : List Token) :
    build? .arrayStart parts (value.tokens ++ rest) =
      build? .before (.array [] :: parts) (value.tokens ++ rest) := by
  cases value <;> simp [tokens, build?]

theorem intercalate_cons (first : List Token) (others : List (List Token)) :
    [.comma].intercalate (first :: others) = first ++ others.flatMap (.comma :: ·) := by
  induction others generalizing first with
  | nil => simp
  | cons second others ih =>
      rw [List.intercalate_cons_cons, ih, List.flatMap_cons, List.append_assoc,
        List.singleton_append, List.cons_append]

mutual

/-- The tokens of a value are built up to the value. -/
theorem build?_tokens (value : Json) (parts : List OpenPart) (rest : List Token) :
    build? .before parts (value.tokens ++ rest) = build? (.after value) parts rest := by
  match value with
  | .null | .bool _ | .integer _ | .real _ | .text _ => simp [tokens, build?]
  | .array [] => simp [tokens, itemTokens, build?]
  | .array (item :: items) =>
      rw [tokens, itemTokens, intercalate_cons]
      simp only [List.cons_append, List.append_assoc, List.nil_append]
      rw [build?, build?_arrayStart, build?_tokens item, build?_itemTokens items]
      rfl
  | .object [] => simp [tokens, fieldTokens, build?]
  | .object ((name, field) :: fields) =>
      rw [tokens, fieldTokens, intercalate_cons]
      simp only [List.cons_append, List.append_assoc, List.nil_append]
      rw [build?, build?, build?_tokens field, build?_fieldTokens fields]
      rfl

/-- The tokens of items are built up to the array that starts with the items already built. -/
theorem build?_itemTokens (items done : List Json) (value : Json) (parts : List OpenPart)
    (rest : List Token) :
    build? (.after value) (.array done :: parts)
        ((itemTokens items).flatMap (.comma :: ·) ++ .closeArray :: rest) =
      build? (.after (.array (done.reverse ++ value :: items))) parts rest := by
  match items with
  | [] => simp [itemTokens, build?]
  | item :: items =>
      rw [itemTokens, List.flatMap_cons]
      simp only [List.cons_append, List.append_assoc]
      rw [build?, build?_tokens item, build?_itemTokens items]
      simp

/-- The tokens of fields are built up to the object that starts with the fields already built. -/
theorem build?_fieldTokens (fields done : List (String × Json)) (name : String) (value : Json)
    (parts : List OpenPart) (rest : List Token) :
    build? (.after value) (.object done name :: parts)
        ((fieldTokens fields).flatMap (.comma :: ·) ++ .closeObject :: rest) =
      build? (.after (.object (done.reverse ++ (name, value) :: fields))) parts rest := by
  match fields with
  | [] => simp [fieldTokens, build?]
  | (next, field) :: fields =>
      rw [fieldTokens, List.flatMap_cons]
      simp only [List.cons_append, List.append_assoc]
      rw [build?, build?_tokens field, build?_fieldTokens fields]
      simp

end

/-- The text of a value whose numbers are in normal form is read back as the value. -/
theorem parse?_render {value : Json} (normal : value.EveryReal Binary64.IsNormal)
    (layout : Layout) : parse? (render layout value) = some value := by
  have read := reads_renderAt normal layout 0 [] rfl
  have none : readAll? [] = some [] := by rw [readAll?]; rfl
  have built := build?_tokens value [] []
  rw [List.append_nil] at read built
  rw [parse?, render, read, none, Option.map_some, List.append_nil, Option.bind_some, built]
  rfl

end StyleObjects.Json
