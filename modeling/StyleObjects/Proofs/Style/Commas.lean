import StyleObjects.Proofs.Style.Measures
import StyleObjects.Proofs.Style.Separators
import StyleObjects.Proofs.Style.Slots

/-!
# Commas in words

At a blank between two words a scan stands outside of strings and parentheses, where it has begun.
So a value has a comma at its top level if and only if one of its words has.  No number has a comma,
so a slot that holds a word with a comma holds no other word.
-/

namespace StyleObjects

open Text

/-- All commas of a value stand in strings and parentheses. -/
def HidesCommas (value : String) : Prop :=
  ∀ before after : String, value = before ++ "," ++ after → Nesting.after before ≠ .plain 0

/-! ## Commas of words -/

namespace Separator

theorem cuts_comma_eq_false_iff {nesting : Nesting} {c : Char} :
    cutsParts comma.accepts nesting c = false ↔ (c = ',' → nesting ≠ .plain 0) := by
  rw [cutsParts, Nesting.isOutside, accepts]
  grind

theorem hidesCommas_iff_whole {value : String} :
    HidesCommas value ↔ comma.splitter.Whole value.toList := by
  have whole : comma.splitter.Whole value.toList ↔
      ∀ before c after, value.toList = before ++ c :: after →
        cutsParts comma.accepts (before.foldl Nesting.next (.plain 0)) c = false := isWhole_iff
  simp only [whole, cuts_comma_eq_false_iff]
  constructor
  · rintro hides before c after split rfl
    have spelled : value = String.ofList before ++ "," ++ String.ofList after := by
      apply String.toList_injective
      simp [split]
    simpa [Nesting.after] using hides _ _ spelled
  · rintro kept before after rfl
    exact kept before.toList ',' after.toList (by simp) rfl

instance (value : String) : Decidable (HidesCommas value) :=
  decidable_of_iff (comma.splitter.pieces value.toList = [value.toList]) hidesCommas_iff_whole.symm

/-- Blanks are no commas. -/
theorem isWhole_of_blank {cs : List Char} (blank : cs.all isBlank = true) (nesting : Nesting) :
    IsWhole Nesting.next (cutsParts comma.accepts) nesting cs := by
  rw [isWhole_iff]
  rintro before c after rfl
  rw [cuts_comma_eq_false_iff]
  rintro rfl
  exact absurd (List.all_eq_true.mp blank ',' (by simp)) (by decide)

theorem whole_trim_iff {cs : List Char} :
    comma.splitter.Whole (trim cs) ↔ comma.splitter.Whole cs := by
  constructor
  · intro whole
    obtain ⟨before, after, left, right, split⟩ := exists_trim cs
    have stays : before.foldl Nesting.next (.plain 0) = .plain 0 :=
      Nesting.foldl_next_of_blank left 0
    rw [split]
    apply isWhole_append_iff.mpr
    exact ⟨isWhole_append_iff.mpr ⟨isWhole_of_blank left _, stays.symm ▸ whole⟩,
      isWhole_of_blank right _⟩
  · exact comma.splitter.isWhole_tidy

/-- Behind a blank between two words the scan for commas begins again. -/
theorem whole_append_cons_iff {first rest : List Char} {c : Char}
    (outside : first.foldl Nesting.next (.plain 0) = .plain 0) (gap : blank.accepts c = true) :
    comma.splitter.Whole (first ++ c :: rest) ↔
      comma.splitter.Whole first ∧ comma.splitter.Whole rest := by
  have alone : [c].all isBlank = true := by simpa [accepts] using gap
  have kept : cutsParts comma.accepts (.plain 0) c = false :=
    (isWhole_cons_iff.mp (isWhole_of_blank alone _)).1
  change IsWhole Nesting.next (cutsParts comma.accepts) (.plain 0) (first ++ c :: rest) ↔ _
  rw [isWhole_append_iff, isWhole_cons_iff, outside, next_of_accepts gap]
  exact and_congr_right fun _ => and_iff_right kept

/-- Commas cut a text nowhere if they cut none of the pieces between its blanks. -/
theorem whole_iff_pieces (cs : List Char) :
    comma.splitter.Whole cs ↔ ∀ piece ∈ blank.splitter.pieces cs, comma.splitter.Whole piece := by
  have scanned : splitScanning Nesting.next (cutsParts blank.accepts) (.plain 0) cs = [cs] ∨ _ :=
    splitScanning_eq (Nesting.plain 0) cs
  cases scanned with
  | inl whole =>
      have alone : blank.splitter.pieces cs = [cs] := whole
      rw [alone, List.forall_mem_singleton]
  | inr found =>
      obtain ⟨first, c, rest, split, cut, pieces⟩ := found
      have outside : first.foldl Nesting.next (.plain 0) = .plain 0 := blank.splitter.eq_home cut
      rw [cutsParts, Bool.and_eq_true] at cut
      have others : blank.splitter.pieces cs = first :: blank.splitter.pieces rest := by
        rw [outside, next_of_accepts cut.2] at pieces
        exact pieces
      have shorter : rest.length < cs.length := by
        rw [split, List.length_append, List.length_cons]
        omega
      rw [others, List.forall_mem_cons, split, whole_append_cons_iff outside cut.2,
        whole_iff_pieces rest]
termination_by cs.length

theorem whole_iff_parts (cs : List Char) :
    comma.splitter.Whole cs ↔ ∀ part ∈ blank.splitter.parts cs, comma.splitter.Whole part := by
  have nothing : comma.splitter.Whole [] := isWhole_nil _
  simp only [whole_iff_pieces cs, Splitter.parts, Splitter.visible, List.mem_filter, List.mem_map]
  constructor
  · rintro whole part ⟨⟨piece, member, rfl⟩, -⟩
    exact whole_trim_iff.mpr (whole piece member)
  · intro whole piece member
    rw [← whole_trim_iff]
    by_cases filled : trim piece = []
    · rw [filled]
      exact nothing
    · exact whole (trim piece) ⟨⟨piece, member, rfl⟩, by simpa using filled⟩

/-- A value has a comma at its top level if and only if one of its words has. -/
theorem hidesCommas_iff_words {value : String} :
    HidesCommas value ↔ ∀ word ∈ words value, HidesCommas word := by
  have parts : words value = (blank.splitter.parts value.toList).map String.ofList := rfl
  rw [hidesCommas_iff_whole, whole_iff_parts, parts, List.forall_mem_map]
  simp only [hidesCommas_iff_whole, String.toList_ofList]

/-- The only item of a value without a comma at its top level is the value. -/
theorem eq_stripped_of_hidesCommas {value item : String} (hides : HidesCommas value)
    (alone : items value = [item]) : item = stripped value := by
  have whole : comma.splitter.pieces value.toList = [value.toList] :=
    hidesCommas_iff_whole.mp hides
  have parts : items value = (comma.splitter.visible [value.toList]).map String.ofList := by
    rw [← whole]
    rfl
  rw [parts, Splitter.visible, List.map_singleton, List.filter_cons] at alone
  split at alone
  · exact (List.singleton_inj.mp alone).symm
  · cases alone

theorem hidesCommas_of_mem_items {value item : String} (member : item ∈ items value) :
    HidesCommas item := by
  have cut : item ∈ comma.split value := member
  exact hidesCommas_iff_whole.mpr (whole_of_mem_split cut)

end Separator

/-! ## Slots that hold a word with a comma -/

open Value (IsOfWord)

/-- A value that holds a word with a comma at its top level holds no other word. -/
theorem HidesCommas.of_isOfWord {word other : String} (hides : HidesCommas word) {value : Value}
    (own : IsOfWord word value) (also : IsOfWord other value) : HidesCommas other := by
  by_contra shows
  have member : ',' ∈ other.toList := by
    by_contra absent
    refine shows fun before after split _ => absent ?_
    rw [split]
    simp
  have unread : Scalar.read other = .text other :=
    (Scalar.read_cases other).resolve_right fun number =>
      absurd (number.2 ',' member) (by decide)
  have held : value = .text other := by
    cases also with
    | inl text => exact text
    | inr read => rw [read, unread]; rfl
  have same : word = other := by
    rw [held] at own
    cases own with
    | inl text => cases text; rfl
    | inr read => exact Scalar.eq_of_read_eq_text (Value.scalar.inj read).symm
  exact shows (same ▸ hides)

/-- If words that hide their commas fill all slots, then words that show one do not fill them. -/
theorem Fills.hidesCommas {words others : List String} {slots constants : List (Slot × Value)}
    (filled : Fills words slots []) (again : Fills others slots constants)
    (hides : ∀ word ∈ words, HidesCommas word) : ∀ other ∈ others, HidesCommas other := by
  obtain ⟨-, slotOf, -, held, -⟩ := again
  intro other member
  obtain ⟨i, bound, rfl⟩ := List.getElem_of_mem member
  obtain ⟨value, inside, own⟩ := held ⟨i, bound⟩
  obtain ⟨word, listed, also⟩ := filled.exists_word inside
  exact (hides word listed).of_isOfWord also own

end StyleObjects
