import StyleObjects.Proofs.Stylesheet.Canonical
import StyleObjects.Proofs.Table
import StyleObjects.Stylesheet.Keyframes

/-!
# What is cut out of a stylesheet

A text is a row of keyframe blocks with other text before, between and behind them.  Each block is
the first one that begins behind the block before it, and its body has as many opening as closing
braces.  Behind the last block there is no header, or one whose block is never closed.  The blocks
are cut out, and all other characters stay where they are.
-/

namespace StyleObjects

namespace Keyframes

open Text

/-! ## Blocks of a text -/

/-- A header with a name: the keyword, blanks, the name, and a brace, before which there may be
blanks. -/
inductive IsHeader : List Char → List Char → Prop where
  | spelled {gap name blanks : List Char} (apart : gap ≠ []) (opens : gap.all isBlank = true)
      (filled : name ≠ []) (named : name.all isNameChar = true)
      (closes : blanks.all isBlank = true) :
      IsHeader (keyword ++ (gap ++ (name ++ (blanks ++ ['\x7b'])))) name

/-- A text closes as many blocks as it opens and `depth` more, and no start of it closes more. -/
structure Balances (depth : Nat) (cs : List Char) : Prop where
  starts : ∀ start, start <+: cs → start.count '\x7d' ≤ start.count '\x7b' + depth
  whole : cs.count '\x7d' = cs.count '\x7b' + depth

/-- The first header in a text, with the text before it and the text behind it. -/
structure FirstHeader (cs before header name after : List Char) : Prop where
  split : cs = before ++ (header ++ after)
  isHeader : IsHeader header name
  first : ∀ earlier other called rest, cs = earlier ++ (other ++ rest) → IsHeader other called →
    before.length ≤ earlier.length

/-- A block and the text between the block before it and its header. -/
structure Block where
  before : List Char
  header : List Char
  name : List Char
  body : List Char

/-- The text of a block, and the text before it. -/
def Block.text (block : Block) : List Char :=
  block.before ++ (block.header ++ (block.body ++ ['\x7d']))

/-- The name and the trimmed body of a block. -/
def Block.entry (block : Block) : String × String :=
  (String.ofList block.name, String.ofList (trim block.body))

/-- A text is a row of blocks and a last text in which no block is closed. -/
inductive Factors : List Char → List Block → List Char → Prop where
  | last {cs : List Char}
      (unclosed : ∀ before header name after, FirstHeader cs before header name after →
        ∀ body rest, after = body ++ '\x7d' :: rest → ¬Balances 0 body) :
      Factors cs [] cs
  | block {before header name body rest last : List Char} {blocks : List Block}
      (found : FirstHeader (before ++ (header ++ (body ++ '\x7d' :: rest))) before header name
        (body ++ '\x7d' :: rest))
      (balanced : Balances 0 body) (others : Factors rest blocks last) :
      Factors (before ++ (header ++ (body ++ '\x7d' :: rest)))
        (⟨before, header, name, body⟩ :: blocks) last

/-! ## Headers -/

theorem dropStart?_eq_some_iff {word cs rest : List Char} :
    dropStart? word cs = some rest ↔ cs = word ++ rest := by
  fun_induction dropStart? word cs with
  | case1 => simp
  | case2 => simp
  | case3 word c cs ih => simp [ih]
  | case4 w word c cs other => simp [Ne.symm other]

theorem isBlank_of_isNameChar {c : Char} (named : isNameChar c = true) : isBlank c = false := by
  simp only [isNameChar, Bool.and_eq_true, Bool.not_eq_true'] at named
  exact named.1

theorem IsHeader.ne_nil {header name : List Char} (isHeader : IsHeader header name) :
    header ≠ [] := by
  cases isHeader with
  | spelled apart opens filled named closes => simp [keyword]

/-- Blanks and a brace end a name. -/
theorem stops_name {blanks : List Char} (closes : blanks.all isBlank = true) (after : List Char) :
    (blanks ++ '\x7b' :: after).head?.any isNameChar = false := by
  cases blanks with
  | nil => rfl
  | cons c blanks =>
      have blank := List.all_eq_true.mp closes c List.mem_cons_self
      simp [isNameChar, blank]

/-- A header at the start of a text is found, with the name it has. -/
theorem takeHeader?_append {header name : List Char} (isHeader : IsHeader header name)
    (after : List Char) : takeHeader? (header ++ after) = some (name, after) := by
  cases isHeader with
  | spelled apart opens filled named closes =>
      rename_i gap blanks
      have spaced : (gap ++ (name ++ (blanks ++ '\x7b' :: after))).head?.any isBlank = true := by
        cases gap with
        | nil => exact absurd rfl apart
        | cons c gap => exact List.all_eq_true.mp opens c List.mem_cons_self
      have behind : skipBlanks (gap ++ (name ++ (blanks ++ '\x7b' :: after))) =
          name ++ (blanks ++ '\x7b' :: after) := by
        rw [Stylesheet.skipBlanks_append opens]
        apply Stylesheet.skipBlanks_of_visible
        cases name with
        | nil => exact absurd rfl filled
        | cons c name =>
            have visible := isBlank_of_isNameChar (List.all_eq_true.mp named c List.mem_cons_self)
            simp [visible]
      have brace : skipBlanks (blanks ++ '\x7b' :: after) = '\x7b' :: after := by
        rw [Stylesheet.skipBlanks_append closes]
        rfl
      have stop := stops_name closes after
      have whole : keyword ++ (gap ++ (name ++ (blanks ++ ['\x7b']))) ++ after =
          keyword ++ (gap ++ (name ++ (blanks ++ '\x7b' :: after))) := by simp
      rw [takeHeader?, whole, dropStart?_eq_some_iff.mpr rfl]
      simp only [Option.bind_some, behind, Lists.takeWhile_append_of_stop named stop,
        Lists.dropWhile_append_of_stop named stop, brace, spaced,
        List.isEmpty_eq_false_iff.mpr filled, Bool.not_false, Bool.and_self, ↓reduceIte]

theorem exists_of_takeHeader? {cs name after : List Char}
    (taken : takeHeader? cs = some (name, after)) :
    ∃ header, IsHeader header name ∧ cs = header ++ after := by
  rcases Option.bind_eq_some_iff.mp taken with ⟨rest, dropped, taken⟩
  rw [dropStart?_eq_some_iff] at dropped
  simp only [Option.ite_none_right_eq_some, Bool.and_eq_true, Bool.not_eq_true'] at taken
  rcases taken with ⟨⟨starts, filled⟩, taken⟩
  split at taken
  · rename_i body opened
    cases taken
    have apart : rest.takeWhile isBlank ≠ [] := by
      cases rest with
      | nil => cases starts
      | cons c rest => simp_all
    have isHeader := IsHeader.spelled apart List.all_takeWhile (List.isEmpty_eq_false_iff.mp filled)
      List.all_takeWhile (List.all_takeWhile (l := ((skipBlanks rest).dropWhile isNameChar)))
    refine ⟨_, isHeader, ?_⟩
    rw [skipBlanks] at opened
    simp only [List.append_assoc, List.cons_append, List.nil_append, dropped, ← opened]
    simp only [List.takeWhile_append_dropWhile, skipBlanks]
  · cases taken

theorem takeHeader?_eq_some_iff {cs name after : List Char} :
    takeHeader? cs = some (name, after) ↔
      ∃ header, IsHeader header name ∧ cs = header ++ after := by
  constructor
  · exact exists_of_takeHeader?
  · rintro ⟨header, isHeader, rfl⟩
    exact takeHeader?_append isHeader after

/-! ## Bodies -/

theorem balances_cons_iff {depth : Nat} {c : Char} {cs : List Char}
    (inside : ¬(c = '\x7d' ∧ depth = 0)) :
    Balances depth (c :: cs) ↔
      Balances (if c = '\x7b' then depth + 1 else if c = '\x7d' then depth - 1 else depth) cs := by
  constructor
  · rintro ⟨starts, whole⟩
    refine ⟨fun start ahead => ?_, ?_⟩
    · have more := starts (c :: start) (List.cons_prefix_cons.mpr ⟨rfl, ahead⟩)
      grind
    · grind
  · rintro ⟨starts, whole⟩
    refine ⟨fun start ahead => ?_, ?_⟩
    · cases start with
      | nil => simp
      | cons d start =>
          rcases List.cons_prefix_cons.mp ahead with ⟨rfl, inner⟩
          have less := starts start inner
          grind
    · grind

/-- The body of a block is found up to the brace at which it is balanced. -/
theorem takeBody?_eq_some_iff {depth : Nat} {cs body rest : List Char} :
    takeBody? depth cs = some (body, rest) ↔ cs = body ++ '\x7d' :: rest ∧ Balances depth body := by
  induction cs generalizing depth body rest with
  | nil => simp [takeBody?]
  | cons c cs ih =>
      rw [takeBody?]
      split
      · rename_i closing
        rcases closing with ⟨rfl, rfl⟩
        constructor
        · rintro ⟨⟩
          exact ⟨rfl, by simp, rfl⟩
        · rintro ⟨split, balanced⟩
          cases body with
          | nil =>
              cases split
              rfl
          | cons d body =>
              cases split
              have early := balanced.starts ['\x7d'] (by simp)
              simp at early
      · rename_i inside
        simp only [Option.map_eq_some_iff, Prod.exists, Prod.mk.injEq, ih]
        constructor
        · rintro ⟨inner, after, ⟨rfl, balanced⟩, rfl, rfl⟩
          exact ⟨rfl, (balances_cons_iff inside).mpr balanced⟩
        · rintro ⟨split, balanced⟩
          cases body with
          | nil =>
              -- A brace that ends the body at once closes the last of the blocks.
              cases split
              have closed := balanced.whole
              simp_all
          | cons d body =>
              cases split
              exact ⟨body, rest, ⟨rfl, (balances_cons_iff inside).mp balanced⟩, rfl, rfl⟩

theorem takeBlock?_eq_some_iff {cs name body rest : List Char} :
    takeBlock? cs = some ((name, body), rest) ↔ ∃ header, IsHeader header name ∧
      cs = header ++ (body ++ '\x7d' :: rest) ∧ Balances 0 body := by
  simp only [takeBlock?, Option.bind_eq_some_iff, Option.map_eq_some_iff, Prod.exists,
    Prod.mk.injEq, takeHeader?_eq_some_iff, takeBody?_eq_some_iff]
  constructor
  · rintro ⟨name, after, ⟨header, isHeader, rfl⟩, body, rest, ⟨rfl, balanced⟩, ⟨rfl, rfl⟩, rfl⟩
    exact ⟨header, isHeader, rfl, balanced⟩
  · rintro ⟨header, isHeader, rfl, balanced⟩
    exact ⟨name, _, ⟨header, isHeader, rfl⟩, body, rest, ⟨rfl, balanced⟩, ⟨rfl, rfl⟩, rfl⟩

/-! ## First headers -/

section First

variable {cs before header name after : List Char} {c : Char}

theorem FirstHeader.of_start (isHeader : IsHeader header name) :
    FirstHeader (header ++ after) [] header name after :=
  ⟨rfl, isHeader, fun _ _ _ _ _ _ => Nat.zero_le _⟩

/-- Where a header starts a text, no other one is first. -/
theorem FirstHeader.takeHeader?_eq (found : FirstHeader cs before header name after)
    (starts : (takeHeader? cs).isSome = true) : takeHeader? cs = some (name, after) := by
  rcases Option.isSome_iff_exists.mp starts with ⟨⟨called, rest⟩, taken⟩
  rcases takeHeader?_eq_some_iff.mp taken with ⟨other, isHeader, split⟩
  -- The header at the start has nothing before it, so neither has the first one.
  have empty : before = [] := List.length_eq_zero_iff.mp
    (Nat.le_zero.mp (found.first [] other called rest split isHeader))
  rw [found.split, empty, List.nil_append]
  exact takeHeader?_append found.isHeader after

/-- A character that starts no header leaves the first header where it is. -/
theorem firstHeader_cons_iff (startless : takeHeader? (c :: cs) = none) :
    FirstHeader (c :: cs) (c :: before) header name after ↔
      FirstHeader cs before header name after := by
  constructor
  · rintro ⟨split, isHeader, first⟩
    refine ⟨(List.cons.inj split).2, isHeader, fun earlier other called rest same isOther => ?_⟩
    have behind := first (c :: earlier) other called rest (by rw [same]; rfl) isOther
    simpa using behind
  · rintro ⟨split, isHeader, first⟩
    refine ⟨by rw [split]; rfl, isHeader, fun earlier other called rest same isOther => ?_⟩
    cases earlier with
    | nil =>
        rw [same, List.nil_append, takeHeader?_append isOther] at startless
        cases startless
    | cons d earlier =>
        have behind := first earlier other called rest (List.cons.inj same).2 isOther
        simpa using behind

theorem FirstHeader.exists_cons (found : FirstHeader (c :: cs) before header name after)
    (startless : takeHeader? (c :: cs) = none) : ∃ inner, before = c :: inner := by
  cases before with
  | nil =>
      rw [found.split, List.nil_append, takeHeader?_append found.isHeader] at startless
      cases startless
  | cons d inner => exact ⟨inner, by rw [(List.cons.inj found.split).1]⟩

end First

/-! ## The cut -/

/-- A character that starts no header belongs to the text before the first block. -/
theorem Factors.cons {c : Char} {cs last : List Char} {blocks : List Block}
    (factors : Factors cs blocks last) (startless : takeHeader? (c :: cs) = none) :
    ∃ blocks' last', Factors (c :: cs) blocks' last' ∧
      blocks'.flatMap Block.before ++ last' = c :: (blocks.flatMap Block.before ++ last) ∧
      blocks'.map (fun block => (block.name, block.body)) =
        blocks.map fun block => (block.name, block.body) := by
  cases factors with
  | last unclosed =>
      refine ⟨[], c :: cs, .last fun before header name after found => ?_, rfl, rfl⟩
      rcases found.exists_cons startless with ⟨inner, rfl⟩
      exact unclosed inner header name after ((firstHeader_cons_iff startless).mp found)
  | block found balanced others =>
      rename_i before header name body rest blocks
      have moved : Factors (c :: before ++ (header ++ (body ++ '\x7d' :: rest)))
          (⟨c :: before, header, name, body⟩ :: blocks) last :=
        .block ((firstHeader_cons_iff startless).mpr found) balanced others
      exact ⟨_, last, moved, rfl, rfl⟩

/-- A row of blocks is the whole text. -/
theorem Factors.eq_append {cs last : List Char} {blocks : List Block}
    (factors : Factors cs blocks last) : cs = blocks.flatMap Block.text ++ last := by
  induction factors with
  | last => rfl
  | block found balanced others ih => simp [Block.text, ih]

/-- The cut leaves what is outside of the blocks, and gives their names and bodies. -/
theorem exists_factors_cut (cs : List Char) :
    ∃ blocks last, Factors cs blocks last ∧ (cut cs).1 = blocks.flatMap Block.before ++ last ∧
      (cut cs).2 = blocks.map fun block => (block.name, block.body) := by
  -- The cut goes on behind a block, stops at a header whose block stays open, and passes any other
  -- character.
  fun_induction cut cs with
  | case1 =>
      refine ⟨[], [], .last fun before header name after found => ?_, rfl, rfl⟩
      have split := found.split
      cases found.isHeader
      simp [keyword] at split
  | case2 c cs block rest found text blocks others ih =>
      rcases block with ⟨name, body⟩
      rcases takeBlock?_eq_some_iff.mp found with ⟨header, isHeader, split, balanced⟩
      rcases ih with ⟨factored, last, factors, outside, entries⟩
      have starting : Factors ([] ++ (header ++ (body ++ '\x7d' :: rest)))
          (⟨[], header, name, body⟩ :: factored) last :=
        .block (.of_start isHeader) balanced factors
      rw [others] at outside entries
      rw [split]
      exact ⟨_, last, starting, outside, congrArg ((name, body) :: ·) entries⟩
  | case3 c cs unblocked starts =>
      refine ⟨[], c :: cs, .last fun before header name after found body rest closed balanced => ?_,
        rfl, rfl⟩
      rcases takeHeader?_eq_some_iff.mp (found.takeHeader?_eq starts) with ⟨other, isOther, split⟩
      have blocked := takeBlock?_eq_some_iff.mpr ⟨other, isOther, closed ▸ split, balanced⟩
      rw [unblocked] at blocked
      cases blocked
  | case4 c cs unblocked starts text blocks others ih =>
      have startless : takeHeader? (c :: cs) = none := by simpa using starts
      rcases ih with ⟨factored, last, factors, outside, entries⟩
      rcases factors.cons startless with ⟨longer, rest, whole, before, same⟩
      rw [others] at outside entries
      refine ⟨longer, rest, whole, ?_, ?_⟩
      · rw [before, ← outside]
      · rw [same, ← entries]

end Keyframes

open Keyframes

/-- Keyframe blocks are cut out exactly.  A text is a row of blocks with other text around them,
each block the first one behind the block before it, and behind the last of them no block is closed.
All that is outside of the blocks is left, and the table has the trimmed body of the last block of
every name, in the order in which the names first occur. -/
theorem cutKeyframes_factors (source : String) :
    ∃ blocks last, Factors source.toList blocks last ∧
      source.toList = blocks.flatMap Block.text ++ last ∧
      (cutKeyframes source).text.toList = blocks.flatMap Block.before ++ last ∧
      (cutKeyframes source).table.keys = (blocks.map (·.entry.1)).eraseDups ∧
      ∀ name, (cutKeyframes source).table.get? name =
        (blocks.map Block.entry).reverse.lookup name := by
  rcases exists_factors_cut source.toList with ⟨blocks, last, factors, outside, entries⟩
  have found : (cutKeyframes source).blocks = blocks.map Block.entry := by
    rw [cutKeyframes]
    simp only [entries, List.map_map]
    rfl
  refine ⟨blocks, last, factors, factors.eq_append, ?_, ?_, fun name => ?_⟩
  · rw [cutKeyframes, String.toList_ofList, outside]
  · rw [KeyframeCut.table, Table.keys_ofList, found, List.map_map]
    rfl
  · rw [KeyframeCut.table, Table.get?_ofList, found]

end StyleObjects
