import StyleObjects.Media.Validation
import StyleObjects.Proofs.Lists
import StyleObjects.Proofs.Text.Splitting

/-!
# Lists of media queries

A text is read as a list of queries by cutting it at its commas and reading every piece.
-/

namespace StyleObjects

open Text

/-- Cutting at one character cuts at every occurrence of it. -/
theorem Text.splitAt_eq_splitOnP (separator : Char) (cs : List Char) :
    splitAt separator cs = cs.splitOnP (· == separator) := by
  unfold splitAt
  induction cs with
  | nil => rfl
  | cons c cs ih =>
      rw [splitScanning, ih, List.splitOnP_cons_eq_if_modifyHead]
      rcases List.exists_cons_of_ne_nil (List.splitOnP_ne_nil (· == separator) cs) with
        ⟨piece, pieces, cut⟩
      rw [cut]
      rfl

/-- Pieces that are joined by a separator and a space come apart with the spaces, and the first one
with the text before it. -/
theorem Text.splitAt_append_intercalate {separator : Char} (visible : separator ≠ ' ')
    {before first : List Char} {others : List (List Char)} (clean : separator ∉ before)
    (apart : ∀ piece ∈ first :: others, separator ∉ piece) :
    splitAt separator (before ++ [separator, ' '].intercalate (first :: others)) =
      (before ++ first) :: others.map (' ' :: ·) := by
  rw [splitAt_eq_splitOnP]
  induction others generalizing before first with
  | nil =>
      rw [List.intercalate_singleton, List.splitOnP_eq_singleton]
      · rfl
      · have inside := apart first List.mem_cons_self
        grind
  | cons next others ih =>
      rw [List.forall_mem_cons] at apart
      have whole : (before ++ first).splitOnP (· == separator) = [before ++ first] := by
        apply List.splitOnP_eq_singleton
        grind
      have joined : before ++ (first ++ [separator, ' '] ++
          [separator, ' '].intercalate (next :: others)) =
          (before ++ first) ++ separator ::
            ([' '] ++ [separator, ' '].intercalate (next :: others)) := by simp
      rw [List.intercalate_cons_cons, joined, List.splitOnP_append_cons _ _ (by simp), whole,
        ih (by simpa using visible) apart.2]
      rfl

theorem Text.splitAt_intercalate {separator : Char} (visible : separator ≠ ' ')
    {first : List Char} {others : List (List Char)}
    (apart : ∀ piece ∈ first :: others, separator ∉ piece) :
    splitAt separator ([separator, ' '].intercalate (first :: others)) =
      first :: others.map (' ' :: ·) :=
  splitAt_append_intercalate visible List.not_mem_nil apart

namespace MediaQuery

theorem parse?_eq_some_iff {text : String} {queries : List MediaQuery} :
    parse? text = some queries ↔
      List.Forall₂ (fun piece query => readQuery? piece = some query)
        (splitAt ',' text.toList) queries :=
  Lists.mapM_eq_some_iff

/-- A text that is read describes at least one query. -/
theorem ne_nil_of_parse? {text : String} {queries : List MediaQuery}
    (parsed : parse? text = some queries) : queries ≠ [] := by
  rintro rfl
  exact splitScanning_ne_nil _ _ () text.toList
    (List.forall₂_nil_right_iff.mp (parse?_eq_some_iff.mp parsed))

theorem parseAccepted_eq_ok_iff {text : String} {queries : List MediaQuery} :
    parseAccepted text = .ok queries ↔ parse? text = some queries ∧ listError? queries = none := by
  unfold parseAccepted
  split
  · simp_all
  · rename_i described parsed
    rw [parsed, Option.some.injEq]
    split
    · rename_i refused
      simp only [reduceCtorEq, false_iff, not_and]
      rintro rfl
      simp [refused]
    · rename_i accepted
      simp only [Except.ok.injEq, iff_self_and]
      rintro rfl
      exact accepted

end MediaQuery

end StyleObjects
