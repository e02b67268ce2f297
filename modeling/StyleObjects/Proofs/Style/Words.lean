import StyleObjects.Proofs.Stylesheet.Queries
import StyleObjects.Proofs.Text.Splitting
import StyleObjects.Style.Words

/-!
# Words and items

Blanks around a value change none of its words and items, and a value has a blank inside as soon as
it has two words.
-/

namespace StyleObjects

open Text

/-! ## Parts of a value -/

/-- The trimmed pieces that are not empty. -/
def visibleParts (pieces : List (List Char)) : List (List Char) :=
  (pieces.map trim).filter (!·.isEmpty)

theorem visibleParts_cons (piece : List Char) (pieces : List (List Char)) :
    visibleParts (piece :: pieces) =
      (if (trim piece).isEmpty then [] else [trim piece]) ++ visibleParts pieces := by
  simp only [visibleParts, List.map_cons, List.filter_cons]
  cases (trim piece).isEmpty <;> rfl

theorem visibleParts_of_blank {pieces : List (List Char)}
    (blank : ∀ piece ∈ pieces, piece.all isBlank = true) : visibleParts pieces = [] := by
  rw [visibleParts, List.filter_eq_nil_iff, List.forall_mem_map]
  intro piece member
  simp [trim_of_blank (blank piece member)]

/-- Blank pieces after others add nothing that is visible. -/
theorem visibleParts_joinPieces_right {pieces others : List (List Char)}
    (blank : ∀ piece ∈ others, piece.all isBlank = true) :
    visibleParts (joinPieces pieces others) = visibleParts pieces := by
  induction pieces with
  | nil => exact visibleParts_of_blank blank
  | cons piece pieces ih =>
      cases pieces with
      | nil =>
          cases others with
          | nil => rfl
          | cons other others =>
              rw [List.forall_mem_cons] at blank
              have trimmed : trim ([] ++ piece ++ other) = trim piece :=
                trim_blanks_append rfl blank.1
              rw [List.nil_append] at trimmed
              rw [joinPieces, visibleParts_cons, visibleParts_cons, trimmed,
                visibleParts_of_blank blank.2]
              rfl
      | cons next pieces =>
          rw [joinPieces_cons piece (List.cons_ne_nil next pieces), visibleParts_cons, ih,
            ← visibleParts_cons]

/-- Blank pieces before others add nothing that is visible. -/
theorem visibleParts_joinPieces_left {pieces others : List (List Char)}
    (blank : ∀ piece ∈ pieces, piece.all isBlank = true) (filled : pieces ≠ []) :
    visibleParts (joinPieces pieces others) = visibleParts others := by
  induction pieces with
  | nil => rfl
  | cons piece pieces ih =>
      rw [List.forall_mem_cons] at blank
      cases pieces with
      | nil =>
          cases others with
          | nil => exact visibleParts_of_blank (List.forall_mem_singleton.mpr blank.1)
          | cons other others =>
              have trimmed : trim (piece ++ other ++ []) = trim other :=
                trim_blanks_append blank.1 rfl
              rw [List.append_nil] at trimmed
              rw [joinPieces, visibleParts_cons, visibleParts_cons, trimmed]
      | cons next pieces =>
          rw [joinPieces_cons piece (List.cons_ne_nil next pieces), visibleParts_cons,
            ih blank.2 (List.cons_ne_nil next pieces), trim_of_blank blank.1]
          rfl

namespace Nesting

/-- Blanks leave a scan of a value where it stands. -/
theorem next_of_isBlank {c : Char} (blank : isBlank c = true) (depth : Nat) :
    next (.plain depth) c = .plain depth := by
  have marks : ['"', '\'', '(', ')'].all (!isBlank ·) = true := by decide
  have apart : ∀ mark ∈ ['"', '\'', '(', ')'], c ≠ mark := by
    rintro mark member rfl
    have visible := List.all_eq_true.mp marks c member
    simp [blank] at visible
  simp only [List.forall_mem_cons] at apart
  simp [next, apart]

theorem foldl_next_of_blank {cs : List Char} (blank : cs.all isBlank = true) (depth : Nat) :
    cs.foldl next (.plain depth) = .plain depth := by
  induction cs with
  | nil => rfl
  | cons c cs ih =>
      rw [List.all_cons, Bool.and_eq_true] at blank
      rw [List.foldl_cons, next_of_isBlank blank.1, ih blank.2]

end Nesting

variable {separates : Char → Bool}

/-- A value is cut at a separator outside of strings and parentheses. -/
def cutsParts (separates : Char → Bool) (nesting : Nesting) (c : Char) : Bool :=
  nesting.isOutside && separates c

theorem splitParts_eq (separates : Char → Bool) (cs : List Char) :
    splitParts separates cs =
      visibleParts (splitScanning Nesting.next (cutsParts separates) (.plain 0) cs) := rfl

/-- Blanks around a text are in none of its parts. -/
theorem splitParts_surrounded {before cs after : List Char} (left : before.all isBlank = true)
    (right : after.all isBlank = true) :
    splitParts separates (before ++ cs ++ after) = splitParts separates cs := by
  have blank : ∀ {cs : List Char}, cs.all isBlank = true → ∀ nesting : Nesting,
      ∀ piece ∈ splitScanning Nesting.next (cutsParts separates) nesting cs,
        piece.all isBlank = true := by
    intro cs all nesting piece member
    rw [List.all_eq_true] at all ⊢
    exact fun c inside => all c (subset_of_mem_splitScanning member inside)
  rw [splitParts_eq, splitScanning_append, visibleParts_joinPieces_right (blank right _),
    splitScanning_append,
    visibleParts_joinPieces_left (blank left _) (splitScanning_ne_nil _ _ _ _),
    Nesting.foldl_next_of_blank left]
  rfl

theorem splitParts_trim (cs : List Char) :
    splitParts separates (trim cs) = splitParts separates cs := by
  rcases exists_trim cs with ⟨before, after, left, right, split⟩
  conv_rhs => rw [split]
  exact (splitParts_surrounded left right).symm

@[simp] theorem words_stripped (value : String) : words (stripped value) = words value := by
  rw [words, stripped, String.toList_ofList, splitParts_trim]
  rfl

@[simp] theorem items_stripped (value : String) : items (stripped value) = items value := by
  rw [items, stripped, String.toList_ofList, splitParts_trim]
  rfl

/-! ## Values of one word -/

/-- A text with a visible character has words. -/
theorem splitParts_ne_nil {cs : List Char} {c : Char} (member : c ∈ cs)
    (visible : isBlank c = false) : splitParts isBlank cs ≠ [] := by
  have kept : ∀ nesting, cutsParts isBlank nesting c = false := by
    intro nesting
    rw [cutsParts, visible, Bool.and_false]
  have stands : ∃ piece ∈ splitScanning Nesting.next (cutsParts isBlank) (.plain 0) cs, c ∈ piece :=
    exists_mem_splitScanning kept member _
  rcases stands with ⟨piece, inside, stands⟩
  intro nothing
  rw [splitParts_eq, visibleParts, List.filter_eq_nil_iff, List.forall_mem_map] at nothing
  exact trim_ne_nil stands visible (by simpa using nothing piece inside)

/-- A trimmed text is its only word, or it has several words and a blank between them. -/
theorem splitParts_isBlank_cases {cs : List Char} (trimmed : trim cs = cs) (filled : cs ≠ []) :
    splitParts isBlank cs = [cs] ∨
      1 < (splitParts isBlank cs).length ∧ ∃ c ∈ cs, isBlank c = true := by
  rw [splitParts_eq]
  rcases @splitScanning_eq _ Nesting.next (cutsParts isBlank) (.plain 0) cs with
    whole | ⟨first, c, rest, split, cut, pieces⟩
  · left
    rw [whole, visibleParts_cons, trimmed, List.isEmpty_eq_false_iff.mpr filled]
    rfl
  · right
    rw [cutsParts, Bool.and_eq_true] at cut
    have outside : first.foldl Nesting.next (.plain 0) = .plain 0 := by
      simpa [Nesting.isOutside] using cut.1
    rw [outside, Nesting.next_of_isBlank cut.2] at pieces
    have blank : isBlank c ≠ false := by simp [cut.2]
    -- The first character of the text is visible, so it stands before the cut.
    have opening : trim first ≠ [] := by
      cases first with
      | nil =>
          have head : (trim cs).head? = some c := by
            rw [trimmed, split, List.nil_append, List.head?_cons]
          exact absurd (isBlank_of_head?_trim head) blank
      | cons d first =>
          have head : (trim cs).head? = some d := by
            rw [trimmed, split, List.cons_append, List.head?_cons]
          exact trim_ne_nil List.mem_cons_self (isBlank_of_head?_trim head)
    -- The last one is visible too, so it stands after the cut.
    have closing : splitParts isBlank rest ≠ [] := by
      rcases List.eq_nil_or_concat rest with rfl | ⟨others, d, rfl⟩
      · have last : (trim cs).getLast? = some c := by rw [trimmed, split, List.getLast?_concat]
        exact absurd (isBlank_of_getLast?_trim last) blank
      · have ending : cs = (first ++ c :: others) ++ [d] := by simp [split]
        have last : (trim cs).getLast? = some d := by rw [trimmed, ending, List.getLast?_concat]
        exact splitParts_ne_nil (by simp) (isBlank_of_getLast?_trim last)
    refine ⟨?_, c, by simp [split], cut.2⟩
    rw [pieces, visibleParts_cons, List.isEmpty_eq_false_iff.mpr opening, ← splitParts_eq]
    simpa using List.length_pos_iff.mpr closing

/-- A value with words is one word with blanks around it, or it has a blank inside. -/
theorem words_cases {value : String} (filled : words value ≠ []) :
    words value = [stripped value] ∨
      1 < (words value).length ∧ ∃ c ∈ (stripped value).toList, isBlank c = true := by
  have visible : trim value.toList ≠ [] := by
    intro nothing
    rw [← words_stripped, words, stripped, String.toList_ofList, nothing] at filled
    exact filled rfl
  rw [← words_stripped, words, stripped, String.toList_ofList, List.length_map]
  exact (splitParts_isBlank_cases (trim_trim value.toList) visible).imp_left
    fun whole => by rw [whole]; rfl

end StyleObjects
