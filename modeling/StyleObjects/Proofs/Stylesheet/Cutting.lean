import StyleObjects.Proofs.Stylesheet.Keyframes

/-!
# One step of the cut

The cut goes on behind a block, stops at a header whose block stays open, and passes any other
character.  The count of braces passes text that closes as many blocks as it opens.
-/

namespace StyleObjects.Keyframes

/-! ## Headers -/

theorem IsHeader.exists_cons {header name : List Char} (isHeader : IsHeader header name) :
    ∃ tail, header = '@' :: tail := by
  cases isHeader with
  | spelled apart opens filled named closes => exact ⟨_, rfl⟩

theorem takeHeader?_eq_none_iff {cs : List Char} :
    takeHeader? cs = none ↔ ∀ header name after, IsHeader header name → cs ≠ header ++ after := by
  rw [Option.eq_none_iff_forall_ne_some]
  constructor
  · intro missing header name after isHeader split
    exact missing (name, after) (takeHeader?_eq_some_iff.mpr ⟨header, isHeader, split⟩)
  · rintro startless ⟨name, after⟩ taken
    obtain ⟨header, isHeader, split⟩ := takeHeader?_eq_some_iff.mp taken
    exact startless header name after isHeader split

theorem takeBlock?_of_isHeader {header name : List Char} (isHeader : IsHeader header name)
    (cs : List Char) :
    takeBlock? (header ++ cs) =
      (takeBody? 0 cs).map fun (body, rest) => ((name, body), rest) := by
  rw [takeBlock?, takeHeader?_append isHeader, Option.bind_some]

/-! ## The cut -/

theorem cut_of_startless {c : Char} {cs : List Char} (startless : takeHeader? (c :: cs) = none) :
    cut (c :: cs) = (c :: (cut cs).1, (cut cs).2) := by
  have unblocked : takeBlock? (c :: cs) = none := by rw [takeBlock?, startless, Option.bind_none]
  rw [cut.eq_def]
  split
  · rename_i same
    cases same
  · rename_i same
    cases same
    split
    · rename_i found
      cases unblocked.symm.trans found
    · rw [startless]
      rfl

theorem cut_of_takeBlock? {cs rest : List Char} {block : List Char × List Char}
    (found : takeBlock? cs = some (block, rest)) : cut cs = ((cut rest).1, block :: (cut rest).2) := by
  rw [cut.eq_def]
  split
  · cases found
  · split
    · rename_i again
      cases found.symm.trans again
      rfl
    · rename_i missing
      cases found.symm.trans missing

theorem cut_of_unclosed {cs : List Char} (starts : (takeHeader? cs).isSome = true)
    (unclosed : takeBlock? cs = none) : cut cs = (cs, []) := by
  rw [cut.eq_def]
  split
  · cases starts
  · split
    · rename_i closed
      cases unclosed.symm.trans closed
    · rw [if_pos starts]

/-- Text in which no header begins has no block. -/
theorem cut_append_of_startless {front cs : List Char}
    (startless : ∀ start tail, front = start ++ tail → tail ≠ [] → takeHeader? (tail ++ cs) = none) :
    (cut (front ++ cs)).2 = (cut cs).2 := by
  induction front with
  | nil => rfl
  | cons c front ih =>
      have first : takeHeader? (c :: (front ++ cs)) = none :=
        startless [] (c :: front) rfl (List.cons_ne_nil c front)
      rw [List.cons_append, cut_of_startless first]
      apply ih
      intro start tail split
      exact startless (c :: start) tail (by rw [split, List.cons_append])

/-! ## The count of braces -/

/-- A text does not close the block that it stands in. -/
def StaysOpen (cs : List Char) : Prop :=
  ∀ body rest, cs = body ++ '\x7d' :: rest → ¬Balances 0 body

theorem takeBody?_eq_none_iff {cs : List Char} : takeBody? 0 cs = none ↔ StaysOpen cs := by
  rw [Option.eq_none_iff_forall_ne_some]
  constructor
  · intro unclosed body rest split balanced
    exact unclosed (body, rest) (takeBody?_eq_some_iff.mpr ⟨split, balanced⟩)
  · rintro opened ⟨body, rest⟩ found
    obtain ⟨split, balanced⟩ := takeBody?_eq_some_iff.mp found
    exact opened body rest split balanced

theorem takeBody?_cons {depth : Nat} {c : Char} (inside : ¬(c = '\x7d' ∧ depth = 0))
    (cs : List Char) :
    takeBody? depth (c :: cs) =
      (takeBody? (if c = '\x7b' then depth + 1 else if c = '\x7d' then depth - 1 else depth) cs).map
        fun (body, rest) => (c :: body, rest) := by
  rw [takeBody?, if_neg inside]

/-- A text that closes as many blocks as it opens is passed. -/
theorem takeBody?_append_of_balances {depth more : Nat} {front : List Char}
    (balanced : Balances more front) (cs : List Char) :
    takeBody? (depth + more) (front ++ cs) =
      (takeBody? depth cs).map fun (body, rest) => (front ++ body, rest) := by
  induction front generalizing more with
  | nil =>
      have none : 0 = 0 + more := balanced.whole
      rw [Nat.zero_add] at none
      subst none
      simp
  | cons c front ih =>
      have inside : ¬(c = '\x7d' ∧ more = 0) := by
        rintro ⟨rfl, rfl⟩
        have early := balanced.starts ['\x7d'] (by simp)
        simp at early
      have inner := ih ((balances_cons_iff inside).mp balanced)
      have deeper : (if c = '\x7b' then depth + more + 1 else
          if c = '\x7d' then depth + more - 1 else depth + more) =
          depth + (if c = '\x7b' then more + 1 else if c = '\x7d' then more - 1 else more) := by
        split_ifs with opens closes
        · rfl
        · exact Nat.add_sub_assoc (Nat.pos_of_ne_zero fun zero => inside ⟨closes, zero⟩) depth
        · rfl
      have covered : ¬(c = '\x7d' ∧ depth + more = 0) := by
        rintro ⟨closes, zero⟩
        exact inside ⟨closes, (Nat.add_eq_zero_iff.mp zero).2⟩
      rw [List.cons_append, takeBody?_cons covered, deeper, inner, Option.map_map]
      rfl

theorem balances_of_not_mem {cs : List Char} (opens : '\x7b' ∉ cs) (closes : '\x7d' ∉ cs) :
    Balances 0 cs where
  starts := by
    intro start ahead
    rw [List.count_eq_zero_of_not_mem fun member => closes (ahead.subset member)]
    exact Nat.zero_le _
  whole := by
    rw [List.count_eq_zero_of_not_mem opens, List.count_eq_zero_of_not_mem closes]

theorem Balances.append {cs ds : List Char} (first : Balances 0 cs) (second : Balances 0 ds) :
    Balances 0 (cs ++ ds) where
  starts := by
    intro start ahead
    rcases List.prefix_or_prefix_of_prefix ahead (List.prefix_append cs ds) with early | ⟨rest, rfl⟩
    · exact first.starts start early
    · have before := first.whole
      have behind := second.starts rest ((List.prefix_append_right_inj cs).mp ahead)
      simp only [List.count_append]
      omega
  whole := by
    have before := first.whole
    have behind := second.whole
    simp only [List.count_append]
    omega

end StyleObjects.Keyframes
