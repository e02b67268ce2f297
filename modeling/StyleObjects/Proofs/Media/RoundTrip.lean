import StyleObjects.Proofs.Media.Expressions
import StyleObjects.Proofs.Media.Lists

/-!
# Media queries are read as they are written

A list of canonical queries is read again from its text.  A type may be a word of the grammar: the
type is the longest name at its place, and where a query starts with a qualifier that is its type,
what follows is no type with a tail.
-/

namespace StyleObjects

open Text
open Stylesheet (isLowerName isLowerNameChar)

namespace MediaQuery

variable {query : MediaQuery} {type : List Char} {expressions : List MediaExpression}

/-! ## Types and tails -/

/-- What is written of expressions after a type. -/
def tailText (expressions : List MediaExpression) : List Char :=
  (expressions.map (·.text.toList)).flatMap (joint ++ ·)

/-- What follows the first `and` of a tail. -/
def tailOf? : List MediaExpression → Option (List Char)
  | [] => none
  | first :: others => some (first.text.toList ++ tailText others)

theorem tailText_cons (first : MediaExpression) (others : List MediaExpression) :
    tailText (first :: others) = joint ++ (first.text.toList ++ tailText others) := by
  rw [tailText, List.map_cons, List.flatMap_cons, List.append_assoc]
  rfl

theorem takeTail?_tailText (canonical : expressions.all MediaExpression.isCanonical = true) :
    takeTail? (tailText expressions) = some (tailOf? expressions) := by
  cases expressions with
  | nil => rfl
  | cons first others =>
      simp only [List.all_cons, Bool.and_eq_true] at canonical
      rw [tailText_cons, tailOf?, MediaExpression.toList_text canonical.1]
      rfl

theorem tailText_stops (expressions : List MediaExpression) :
    (tailText expressions).head?.any isNameChar = false ∧
      (tailText expressions).head?.any Token.isNameChar = false := by
  cases expressions with
  | nil => exact ⟨rfl, rfl⟩
  | cons => exact ⟨rfl, rfl⟩

theorem all_isLowerNameChar_of_isLowerName (typed : isLowerName (· == '_') type = true) :
    type.all isLowerNameChar = true := by
  rcases Stylesheet.exists_of_isLowerName typed with ⟨c, word, rfl, starting, inside⟩
  simp [Stylesheet.isLowerNameChar_of_starts starting, inside]

theorem head?_of_isLowerName (typed : isLowerName (· == '_') type = true) (more : List Char) :
    (type ++ more).head?.any (!isBlank ·) = true := by
  rcases Stylesheet.exists_of_isLowerName typed with ⟨c, word, rfl, starting, -⟩
  have lower := Stylesheet.isLowerNameChar_of_starts starting
  simp [(isNameChar_of_isLowerNameChar lower).2.1]

theorem getLast?_of_isLowerName (typed : isLowerName (· == '_') type = true) :
    type.getLast?.any (!isBlank ·) = true := by
  have lower := all_isLowerNameChar_of_isLowerName typed
  cases last : type.getLast? with
  | none =>
      rw [List.getLast?_eq_none_iff] at last
      simp [last, isLowerName] at typed
  | some c =>
      have named := List.all_eq_true.mp lower c (List.mem_of_getLast? last)
      simp [(isNameChar_of_isLowerNameChar named).2.1]

/-- A type is read as it is written, and leaves the tail. -/
theorem takeTyped?_append (typed : isLowerName (· == '_') type = true)
    (canonical : expressions.all MediaExpression.isCanonical = true) :
    takeTyped? (type ++ tailText expressions) = some (type, tailOf? expressions) := by
  have names := all_isNameChar (all_isLowerNameChar_of_isLowerName typed)
  have taken := Lists.takeWhile_append_of_stop names (tailText_stops expressions).1
  rcases Stylesheet.exists_of_isLowerName typed with ⟨c, word, rfl, starting, inside⟩
  rw [takeTyped?, taken]
  simp [startsName_of_starts starting, takeType?, takeTail?_tailText canonical]

/-- The rest of a query whose type is taken for a qualifier starts with `and`, which is no type
before a parenthesis. -/
theorem takeTyped?_joint (more : List Char) :
    takeTyped? (skipBlanks (joint ++ '(' :: more)) = none := rfl

/-- What follows a type is not taken for a type behind a qualifier. -/
theorem takeTyped?_of_dropQualifier? (typed : isLowerName (· == '_') type = true)
    (canonical : expressions.all MediaExpression.isCanonical = true) {word : List Char}
    (letters : word.all Char.isLower = true) :
    (dropQualifier? word (type ++ tailText expressions)).bind takeTyped? = none := by
  rw [Option.bind_eq_none_iff]
  intro rest taken
  rcases Option.bind_eq_some_iff.mp taken with ⟨after, dropped, spaced⟩
  have lower := all_isLowerNameChar_of_isLowerName typed
  rcases Stylesheet.exists_of_dropKeyword? letters lower (tailText_stops expressions).2 dropped with
    ⟨ending, rfl, rfl⟩
  rw [Option.ite_none_right_eq_some] at spaced
  -- A qualifier ends with the type, as blanks follow it.
  cases ending with
  | cons c ending =>
      have named := List.all_eq_true.mp lower c (by simp)
      simp [(isNameChar_of_isLowerNameChar named).2.1] at spaced
  | nil =>
      cases expressions with
      | nil => cases spaced.1
      | cons first others =>
          simp only [List.all_cons, Bool.and_eq_true] at canonical
          rw [← Option.some.inj spaced.2, List.nil_append, tailText_cons,
            MediaExpression.toList_text canonical.1]
          exact takeTyped?_joint _

theorem toList_text (query : MediaQuery) :
    query.text.toList =
      (if query.inverse then ['n', 'o', 't', ' '] else []) ++ query.type.toList ++
        tailText query.expressions := by
  have negated : "not ".toList = ['n', 'o', 't', ' '] := rfl
  have joined : " and ".toList = joint := rfl
  rw [text, String.toList_append, String.toList_append, String.toList_join, List.flatMap_map,
    tailText, List.flatMap_map, apply_ite String.toList, negated]
  simp only [String.toList_append, joined]
  rfl

theorem dropQualifier?_only_not (cs : List Char) :
    dropQualifier? ['o', 'n', 'l', 'y'] ('n' :: 'o' :: 't' :: ' ' :: cs) = none := rfl

theorem dropQualifier?_not {cs : List Char} (visible : cs.head?.any (!isBlank ·) = true) :
    dropQualifier? ['n', 'o', 't'] ('n' :: 'o' :: 't' :: ' ' :: cs) = some cs :=
  congrArg some (Stylesheet.skipBlanks_of_visible visible)

/-- A query is taken apart as it is written, whatever word of the grammar its type is. -/
theorem outline?_text (canonical : query.isCanonical = true) :
    outline? query.text.toList =
      some ⟨query.inverse, query.type.toList, none, tailOf? query.expressions⟩ := by
  simp only [isCanonical, Bool.and_eq_true] at canonical
  have typed := takeTyped?_append canonical.1 canonical.2
  rw [toList_text]
  cases query.inverse with
  | false =>
      -- Both qualifiers are tried before the type, which may be one of them.
      have only := takeTyped?_of_dropQualifier? canonical.1 canonical.2
        (show ['o', 'n', 'l', 'y'].all Char.isLower = true by decide)
      have negated := takeTyped?_of_dropQualifier? canonical.1 canonical.2
        (show ['n', 'o', 't'].all Char.isLower = true by decide)
      simp [outline?, takeQualified?, takeUnqualified?, only, negated, typed]
  | true =>
      have visible := head?_of_isLowerName canonical.1 (tailText query.expressions)
      simp [outline?, takeQualified?, dropQualifier?_only_not, dropQualifier?_not visible, typed]

/-! ## Whole queries -/

/-- A list of expressions ends with a parenthesis. -/
theorem getLast?_tail {first : MediaExpression} {others : List MediaExpression}
    (canonical : (first :: others).all MediaExpression.isCanonical = true) :
    (first.text.toList ++ tailText others).getLast? = some ')' := by
  induction others generalizing first with
  | nil =>
      simp only [List.all_cons, Bool.and_eq_true] at canonical
      rw [MediaExpression.toList_text canonical.1, tailText, List.map_nil, List.flatMap_nil,
        List.append_nil, List.getLast?_concat]
  | cons next others ih =>
      rw [List.all_cons, Bool.and_eq_true] at canonical
      rw [tailText_cons, List.getLast?_append, List.getLast?_append, ih canonical.2]
      rfl

/-- The expressions of a query come apart as they are written. -/
theorem expressions?_tailOf? (inverse : Bool) (type : List Char)
    (canonical : expressions.all MediaExpression.isCanonical = true) :
    (Outline.mk inverse type none (tailOf? expressions)).expressions? =
      some (expressions.map (·.text.toList)) := by
  cases expressions with
  | nil => rfl
  | cons first others =>
      have enclosed : ∀ piece ∈ (first :: others).map (·.text.toList), IsEnclosed piece := by
        intro piece member
        rcases List.mem_map.mp member with ⟨expression, listed, rfl⟩
        exact MediaExpression.isEnclosed_text (List.all_eq_true.mp canonical expression listed)
      have pieces := splitTail_enclosed enclosed
      rw [← tailText] at pieces
      rcases enclosed _ List.mem_cons_self with ⟨cs, spelled, -⟩
      have trimmed : trim (first.text.toList ++ tailText others) =
          first.text.toList ++ tailText others :=
        trim_of_parentheses (by simp [spelled]) (getLast?_tail canonical)
      have nonempty : (first.text.toList ++ tailText others).isEmpty = false := by simp [spelled]
      simp only [Outline.expressions?, tailOf?, trimmed, nonempty, pieces]
      simp

/-- A query has no blanks at its ends. -/
theorem trim_append_text (canonical : query.isCanonical = true) {before : List Char}
    (blank : before.all isBlank = true) :
    trim (before ++ query.text.toList) = query.text.toList := by
  simp only [isCanonical, Bool.and_eq_true] at canonical
  have first : query.text.toList.head?.any (!isBlank ·) = true := by
    rw [toList_text, List.append_assoc]
    cases query.inverse with
    | false => exact head?_of_isLowerName canonical.1 _
    | true => rfl
  have last : query.text.toList.getLast?.any (!isBlank ·) = true := by
    rw [toList_text]
    cases listed : query.expressions with
    | nil =>
        have word := getLast?_of_isLowerName canonical.1
        rw [tailText, List.map_nil, List.flatMap_nil, List.append_nil, List.getLast?_append]
        cases ends : query.type.toList.getLast? with
        | none => simp [ends] at word
        | some c => simpa [ends] using word
    | cons first others =>
        rw [tailText_cons, List.getLast?_append, List.getLast?_append,
          getLast?_tail (listed ▸ canonical.2)]
        rfl
  simpa using Stylesheet.trim_surrounded blank first last (show [].all isBlank = true from rfl)

/-- A query is read as it is written, with blanks before it. -/
theorem readQuery?_text (canonical : query.isCanonical = true) {before : List Char}
    (blank : before.all isBlank = true) :
    readQuery? (before ++ query.text.toList) = some query := by
  have outlined := outline?_text canonical
  have trimmed := trim_append_text canonical blank
  simp only [isCanonical, Bool.and_eq_true] at canonical
  have read : (query.expressions.map (·.text.toList)).mapM readExpression? =
      some query.expressions := by
    rw [Lists.mapM_eq_some_iff, List.forall₂_map_left_iff, List.forall₂_same]
    exact fun expression member =>
      MediaExpression.readExpression?_text (List.all_eq_true.mp canonical.2 expression member)
  have lowered : lower query.type.toList = query.type.toList :=
    Stylesheet.lower_of_isLowerNameChar (all_isLowerNameChar_of_isLowerName canonical.1)
  simp [readQuery?, trimmed, outlined, expressions?_tailOf? _ _ canonical.2, read, lowered]

/-! ## Lists of queries -/

/-- A canonical query has no comma. -/
theorem notMem_text (canonical : query.isCanonical = true) : ',' ∉ query.text.toList := by
  simp only [isCanonical, Bool.and_eq_true] at canonical
  rw [toList_text]
  simp only [List.mem_append, not_or]
  refine ⟨⟨?negation, fun member => ?type⟩, fun member => ?tail⟩
  case negation => cases query.inverse <;> decide
  case type =>
    have lower := all_isLowerNameChar_of_isLowerName canonical.1
    exact absurd (List.all_eq_true.mp lower _ member) (by decide)
  case tail =>
    rcases List.mem_flatMap.mp member with ⟨piece, listed, inside⟩
    rcases List.mem_map.mp listed with ⟨expression, written, rfl⟩
    have plain := List.all_eq_true.mp canonical.2 expression written
    rw [MediaExpression.toList_text plain] at inside
    have commas := MediaExpression.notMem_inner plain (show ',' ∈ ['(', ')', ','] by decide)
    simp [joint, commas] at inside

/-- A list of canonical queries is read as it is written. -/
theorem parse?_listText {queries : List MediaQuery} (filled : queries ≠ [])
    (canonical : queries.all isCanonical = true) : parse? (listText queries) = some queries := by
  rcases queries with _ | ⟨query, queries⟩
  · exact absurd rfl filled
  · have canonicals := List.all_eq_true.mp canonical
    have commas : ∀ piece ∈ query.text.toList :: queries.map (·.text.toList), ',' ∉ piece := by
      simpa using fun other listed => notMem_text (canonicals other listed)
    have separator : ", ".toList = [',', ' '] := rfl
    have joined : (listText (query :: queries)).toList =
        [',', ' '].intercalate (query.text.toList :: queries.map (·.text.toList)) := by
      rw [listText, String.toList_intercalate, separator, List.map_map]
      rfl
    rw [parse?_eq_some_iff, joined, splitAt_intercalate (by decide) commas, List.map_map]
    refine .cons ?_ ?_
    · have alone := readQuery?_text (canonicals query List.mem_cons_self)
        (show [].all isBlank = true from rfl)
      rwa [List.nil_append] at alone
    · rw [List.forall₂_map_left_iff, List.forall₂_same]
      intro other listed
      have spaced := readQuery?_text (canonicals other (List.mem_cons_of_mem query listed))
        (show [' '].all isBlank = true by decide)
      rwa [List.singleton_append] at spaced

/-- Queries whose types are words of the grammar, with and without a negation and a tail. -/
def keywordTypes : List MediaQuery := [
  ⟨false, "only", []⟩,
  ⟨false, "not", [⟨some .min, "width", some "1px and-so on"⟩, ⟨none, "and", none⟩]⟩,
  ⟨true, "and", [⟨none, "-x", some "and."⟩]⟩,
  ⟨true, "not", []⟩]

theorem parse?_listText_of_keywordTypes :
    keywordTypes ≠ [] ∧ keywordTypes.all isCanonical = true ∧
      parse? (listText keywordTypes) = some keywordTypes := by
  have canonical : keywordTypes.all isCanonical = true := by decide +kernel
  exact ⟨by decide, canonical, parse?_listText (by decide) canonical⟩

end MediaQuery

end StyleObjects
