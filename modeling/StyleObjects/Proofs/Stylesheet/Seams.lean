import StyleObjects.Proofs.Stylesheet.Keyframes

/-!
# Headers that a cut joins

Where a block is cut out of a text, the text before it and the text behind it meet, and a header can
stand across the place.  It is the only kind of header that can be found when what is left is cut
again.  So the cut changes what it has left if and only if the first header there stands across a cut
and its block is closed.
-/

namespace StyleObjects

namespace Keyframes

open Text

/-- A header in what is left of a text stands across a cut: it begins before a block that is cut out
and ends behind it. -/
def Crosses (blocks : List Block) (before header : List Char) : Prop :=
  ∃ firsts others start tail, blocks = firsts ++ others ∧ header = start ++ tail ∧
    start ≠ [] ∧ tail ≠ [] ∧ before ++ start = firsts.flatMap Block.before

theorem Crosses.cons {blocks : List Block} {before header : List Char}
    (crosses : Crosses blocks before header) (block : Block) :
    Crosses (block :: blocks) (block.before ++ before) header := by
  obtain ⟨firsts, others, start, tail, rfl, split, begun, left, place⟩ := crosses
  refine ⟨block :: firsts, others, start, tail, rfl, split, begun, left, ?_⟩
  rw [List.flatMap_cons, List.append_assoc, place]

section First

variable {cs front before header name after : List Char}

/-- The first header behind the start of a text is the first one of the rest. -/
theorem FirstHeader.of_append (found : FirstHeader (front ++ cs) (front ++ before) header name after) :
    FirstHeader cs before header name after where
  split := by
    have split := found.split
    rw [List.append_assoc] at split
    exact List.append_cancel_left split
  isHeader := found.isHeader
  first := by
    intro earlier other called rest split isOther
    have behind := found.first (front ++ earlier) other called rest
      (by rw [split, List.append_assoc]) isOther
    simpa using behind

/-- No header stands in the text before the first one. -/
theorem FirstHeader.not_append (found : FirstHeader cs before header name after)
    {start other called rest : List Char} (isOther : IsHeader other called) :
    before ≠ start ++ (other ++ rest) := by
  intro inside
  have behind := found.first start other called (rest ++ (header ++ after))
    (by rw [found.split, inside]; simp) isOther
  have length := congrArg List.length inside
  have filled := List.length_pos_iff.mpr isOther.ne_nil
  simp only [List.length_append] at length
  omega

end First

/-- Of what is left of a text, only a header that stands across a cut can be the first one and have a
closed block. -/
theorem Factors.crosses {cs last before header name body rest : List Char} {blocks : List Block}
    (factors : Factors cs blocks last)
    (found : FirstHeader (blocks.flatMap Block.before ++ last) before header name
      (body ++ '\x7d' :: rest))
    (balanced : Balances 0 body) : Crosses blocks before header := by
  induction factors generalizing before with
  | last unclosed => exact absurd balanced (unclosed _ _ _ _ found body rest rfl)
  | @block piece _ _ _ _ last blocks own closed others ih =>
      rw [List.flatMap_cons, List.append_assoc] at found
      rcases Lists.behind_or_before_or_across found.split with
        ⟨inner, rfl⟩ | ⟨more, within⟩ | ⟨start, tail, ends, across, begun, left⟩
      · exact (ih found.of_append).cons _
      · -- In the text before the block it would have been the first header.
        exact absurd within (own.not_append found.isHeader)
      · refine ⟨_ :: [], blocks, start, tail, rfl, across, begun, left, ?_⟩
        rw [List.flatMap_cons, List.flatMap_nil, List.append_nil]
        exact ends.symm

/-- A text is left as it is if and only if the block of its first header is not closed. -/
theorem cut_eq_self_iff {cs : List Char} :
    cut cs = (cs, []) ↔ ∀ before header name body rest,
      FirstHeader cs before header name (body ++ '\x7d' :: rest) → ¬Balances 0 body := by
  obtain ⟨blocks, last, factors, outside, entries⟩ := exists_factors_cut cs
  constructor
  · intro same before header name body rest found
    rw [same, eq_comm, List.map_eq_nil_iff] at entries
    subst entries
    cases factors with
    | last unclosed => exact unclosed before header name _ found body rest rfl
  · intro unclosed
    cases factors with
    | last => exact Prod.ext outside entries
    | block found closed others => exact absurd closed (unclosed _ _ _ _ _ found)

end Keyframes

open Keyframes

theorem cutKeyframes_eq_self_iff {text : String} :
    cutKeyframes text = ⟨text, []⟩ ↔ cut text.toList = (text.toList, []) := by
  rw [cutKeyframes, KeyframeCut.mk.injEq, List.map_eq_nil_iff, Prod.ext_iff, ← String.toList_inj,
    String.toList_ofList]

/-- A text whose blocks have been cut out is left as it is by a second cut if and only if there is no
block in it that a header across a cut has opened. -/
theorem cutKeyframes_text_eq_self_iff (source : String) :
    ∃ blocks last, Factors source.toList blocks last ∧
      (cutKeyframes source).text.toList = blocks.flatMap Block.before ++ last ∧
      (cutKeyframes (cutKeyframes source).text = ⟨(cutKeyframes source).text, []⟩ ↔
        ¬∃ before header name body rest,
          FirstHeader (cutKeyframes source).text.toList before header name
              (body ++ '\x7d' :: rest) ∧
            Balances 0 body ∧ Crosses blocks before header) := by
  obtain ⟨blocks, last, factors, outside, -⟩ := exists_factors_cut source.toList
  have text : (cutKeyframes source).text.toList = blocks.flatMap Block.before ++ last := by
    rw [cutKeyframes, String.toList_ofList, outside]
  refine ⟨blocks, last, factors, text, ?_⟩
  rw [cutKeyframes_eq_self_iff, cut_eq_self_iff, text]
  constructor
  · rintro unclosed ⟨before, header, name, body, rest, found, balanced, -⟩
    exact unclosed before header name body rest found balanced
  · intro apart before header name body rest found balanced
    exact apart ⟨before, header, name, body, rest, found, balanced, factors.crosses found balanced⟩

/-- A block that stands within the keyword of a header. -/
def joiningText : String := "@key@keyframes x\x7b\x7dframes y\x7b\x7d"

/-- The second cut takes out the block whose header the first one has joined. -/
theorem cutKeyframes_of_joiningText :
    cutKeyframes joiningText = ⟨"@keyframes y\x7b\x7d", [("x", "")]⟩ ∧
      cutKeyframes (cutKeyframes joiningText).text = ⟨"", [("y", "")]⟩ := by
  decide +kernel

end StyleObjects
