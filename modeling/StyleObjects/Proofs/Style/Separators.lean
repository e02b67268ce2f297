import StyleObjects.Proofs.Style.Words
import StyleObjects.Proofs.Text.Blanks

/-!
# Values that meet at a separator

A scan of a value sees no blanks: outside of strings they change nothing, and no string is opened or
closed by one.  So two values that meet at a separator outside of strings and parentheses have the
words, or the items, of both, and words or items that are joined by a separator come apart again.
-/

namespace StyleObjects

open Text

/-! ## Blanks in a scan -/

namespace Nesting

theorem staysOnBlanks_plain (depth : Nat) : StaysOnBlanks next (.plain depth) :=
  fun _ blank => next_of_isBlank blank depth

theorem staysOnBlanks_quoted {quote : Char} (visible : isBlank quote = false) (depth : Nat) :
    StaysOnBlanks next (.quoted quote depth) := by
  intro c blank
  have other : c ≠ quote := by
    rintro rfl
    exact Bool.false_ne_true (visible.symm.trans blank)
  rw [next, if_neg other]

/-- Strings are opened by quotes, which are no blanks. -/
theorem staysOnBlanks_next {nesting : Nesting} (stays : StaysOnBlanks next nesting) (c : Char) :
    StaysOnBlanks next (nesting.next c) := by
  cases nesting with
  | quoted quote depth =>
      rw [next]
      split
      · exact staysOnBlanks_plain depth
      · exact stays
  | plain depth =>
      rw [next]
      split
      · rename_i mark
        have quotes : ['"', '\''].all (!isBlank ·) = true := by decide
        have visible := List.all_eq_true.mp quotes c (by simpa using mark)
        exact staysOnBlanks_quoted (by simpa using visible) depth
      · split
        · exact staysOnBlanks_plain _
        · split <;> exact staysOnBlanks_plain _

theorem staysOnBlanks_foldl (cs : List Char) : StaysOnBlanks next (cs.foldl next (.plain 0)) :=
  List.foldlRecOn cs next (staysOnBlanks_plain 0) fun _ stays c _ => staysOnBlanks_next stays c

/-- Where a scan of a whole value ends. -/
def after (value : String) : Nesting :=
  value.toList.foldl next (.plain 0)

end Nesting

/-! ## Separators -/

/-- What separates the parts of a value. -/
inductive Separator where
  /-- White space separates words. -/
  | blank
  /-- Commas separate items. -/
  | comma
  deriving DecidableEq, Repr

namespace Separator

/-- The characters that separate. -/
def accepts : Separator → Char → Bool
  | .blank => isBlank
  | .comma => (· == ',')

/-- The parts between the separators. -/
def split : Separator → String → List String
  | .blank => words
  | .comma => items

theorem next_of_accepts {separator : Separator} {c : Char} (accepted : separator.accepts c = true) :
    Nesting.next (.plain 0) c = .plain 0 := by
  cases separator with
  | blank => exact Nesting.next_of_isBlank accepted 0
  | comma =>
      rw [eq_of_beq accepted]
      rfl

/-- The way in which values are cut at separators. -/
def splitter (separator : Separator) : Splitter Nesting where
  next := Nesting.next
  cuts := cutsParts separator.accepts
  home := .plain 0
  tidy := trim
  eq_home := by
    intro nesting c cut
    rw [cutsParts, Bool.and_eq_true] at cut
    exact of_decide_eq_true cut.1
  next_home := by
    intro c cut
    rw [cutsParts, Bool.and_eq_true] at cut
    exact next_of_accepts cut.2
  tidy_nil := rfl
  tidy_append := trim_append_trim
  isWhole_tidy := (Nesting.staysOnBlanks_plain 0).isWhole_trim
  foldl_tidy := fun cs =>
    (Nesting.staysOnBlanks_plain 0).foldl_trim cs (Nesting.staysOnBlanks_foldl (trim cs))

theorem split_eq (separator : Separator) (value : String) :
    separator.split value = (separator.splitter.parts value.toList).map String.ofList := by
  cases separator with
  | blank => rfl
  | comma => rfl

variable {separator : Separator} {c : Char} (accepted : separator.accepts c = true)

theorem isTrimmed_of_mem_split {value part : String} (member : part ∈ separator.split value) :
    IsTrimmed part := by
  rw [split_eq] at member
  obtain ⟨cs, listed, rfl⟩ := List.mem_map.mp member
  obtain ⟨filled, piece, rfl⟩ := separator.splitter.exists_of_mem_parts listed
  constructor
  · intro empty
    exact filled (String.ofList_inj.mp empty)
  · intro c first
    rw [String.toList_ofList] at first
    exact isBlank_of_head?_trim first
  · intro c last
    rw [String.toList_ofList] at last
    exact isBlank_of_getLast?_trim last

theorem whole_of_mem_split {value part : String} (member : part ∈ separator.split value) :
    separator.splitter.Whole part.toList := by
  rw [split_eq] at member
  obtain ⟨cs, listed, rfl⟩ := List.mem_map.mp member
  rw [String.toList_ofList]
  exact (Splitter.settled_parts value.toList).whole listed

/-- A part of a value is its own only part. -/
theorem split_of_mem_split {value part : String} (member : part ∈ separator.split value) :
    separator.split part = [part] := by
  rw [split_eq] at member
  obtain ⟨cs, listed, rfl⟩ := List.mem_map.mp member
  rw [split_eq, String.toList_ofList, Splitter.parts_of_mem_parts listed, List.map_singleton]

include accepted

theorem cuts_of_accepts : separator.splitter.cuts separator.splitter.home c = true :=
  accepted

/-- Texts that a separator joins are the parts of what they make, if each is one trimmed part and
only the last one may end inside of a string or a parenthesis. -/
theorem split_intercalate {parts : List String}
    (whole : ∀ part ∈ parts, separator.splitter.Whole part.toList)
    (trimmed : ∀ part ∈ parts, IsTrimmed part)
    (outside : ∀ part ∈ parts.dropLast, Nesting.after part = .plain 0) :
    separator.split ((String.singleton c).intercalate parts) = parts := by
  have settled : separator.splitter.Settled (parts.map String.toList) := by
    apply Splitter.settled_of_dropLast
    · simpa using whole
    · rw [← List.map_dropLast, List.forall_mem_map]
      exact outside
  have tidy : ∀ cs ∈ parts.map String.toList,
      cs ≠ [] ∧ ∃ piece, separator.splitter.tidy piece = cs := by
    rw [List.forall_mem_map]
    intro part member
    have own := trimmed part member
    exact ⟨fun empty => own.filled (String.toList_eq_nil_iff.mp empty), part.toList, own.trim_eq⟩
  have again := settled.parts_intercalate (cuts_of_accepts accepted) tidy
    (rfl : [].all isBlank = true) (fun whole => whole) (fun _ => rfl)
  rw [split_eq, String.toList_intercalate, String.toList_singleton, again, List.map_map]
  exact (List.map_congr_left fun part _ => String.ofList_toList).trans (List.map_id parts)

/-- Two values that meet at a separator outside of strings and parentheses have the parts of both.
No part is empty or has a blank at an end, and parts that are joined by a separator come apart
again. -/
theorem split_append_and_intercalate :
    (∀ first second : String, Nesting.after first = .plain 0 →
      separator.split (first ++ String.singleton c ++ second) =
        separator.split first ++ separator.split second) ∧
    ∀ value : String, (∀ part ∈ separator.split value, IsTrimmed part) ∧
      separator.split ((String.singleton c).intercalate (separator.split value)) =
        separator.split value := by
  have cut := cuts_of_accepts accepted
  constructor
  · intro first second outside
    have meet : (first ++ String.singleton c ++ second).toList =
        first.toList ++ c :: second.toList := by simp
    rw [split_eq, meet, Splitter.parts_append cut outside, List.map_append, ← split_eq, ← split_eq]
  · intro value
    constructor
    · intro part member
      exact isTrimmed_of_mem_split member
    · have joined : ((String.singleton c).intercalate (separator.split value)).toList =
          [c].intercalate (separator.splitter.parts value.toList) := by
        rw [split_eq, toList_intercalate_ofList, String.toList_singleton]
      have again := Splitter.parts_intercalate cut (rfl : [].all isBlank = true)
        (fun whole => whole) (fun _ => rfl) value.toList
      rw [split_eq, joined, again, ← split_eq]

omit accepted

/-- Marks in strings, a parenthesis that closes none, an empty item, and a string without an end. -/
theorem split_append_and_intercalate_of_openString :
    let first := ") f(a, \")\"), '(' b "
    let second := " , \"open, ("
    let parts := [") f(a, \")\")", "'(' b", "\"open, ("]
    Separator.comma.accepts ',' = true ∧ Nesting.after first = .plain 0 ∧
      items (first ++ String.singleton ',' ++ second) = parts ∧
      items ((String.singleton ',').intercalate parts) = parts := by
  intro first second parts
  have accepted : Separator.comma.accepts ',' = true := rfl
  have outside : Nesting.after first = .plain 0 := by decide +kernel
  have both : Separator.comma.split first ++ Separator.comma.split second = parts := by
    decide +kernel
  have meet := (split_append_and_intercalate accepted).1 first second outside
  have again := ((split_append_and_intercalate accepted).2
    (first ++ String.singleton ',' ++ second)).2
  rw [meet, both] at again
  exact ⟨accepted, outside, meet.trans both, again⟩

end Separator

end StyleObjects
