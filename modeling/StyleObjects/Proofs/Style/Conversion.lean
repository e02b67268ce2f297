import StyleObjects.Proofs.Style.Pixels
import StyleObjects.Proofs.Text.Blanks

/-!
# Converted values

White space belongs to no length, so the parts of a value on either side of it are converted by
themselves.  A number of pixels neither is a length in root font sizes nor makes one of the text
around it.  So a conversion leaves no length behind, and a second one changes nothing.
-/

namespace StyleObjects

open Numeral (isNumeralChar)

/-! ## White space -/

namespace Text

/-- A code in a block that no range meets is in none of them. -/
theorem inRanges_eq_false {ranges : List (Nat × Nat)} {block : Nat × Nat} {code : Nat}
    (apart : (ranges.all fun range => Nat.blt range.2 block.1 || Nat.blt block.2 range.1) = true)
    (inside : block.1 ≤ code ∧ code ≤ block.2) : inRanges ranges code = false := by
  rw [inRanges, List.any_eq_false]
  intro range member
  have beside := List.all_eq_true.mp apart range member
  rw [Bool.or_eq_true, Nat.blt_eq, Nat.blt_eq] at beside
  rw [Bool.and_eq_true, decide_eq_true_eq, decide_eq_true_eq]
  omega

/-- White space is neither a letter nor a digit of any script. -/
theorem isWord_of_isBlank {c : Char} (blank : isBlank c = true) : isWord c = false := by
  let blocks := [(0x85, 0x85), (0xA0, 0xA0), (0x1680, 0x1680), (0x2000, 0x200A), (0x2028, 0x2029),
    (0x202F, 0x202F), (0x205F, 0x205F), (0x3000, 0x3000)]
  have apart : ∀ block ∈ blocks, (alphanumericRanges.all fun range =>
      Nat.blt range.2 block.1 || Nat.blt block.2 range.1) = true := by
    decide +kernel
  have ascii : ∀ code ∈ List.range' 9 5 ++ List.range' 28 5, isWord (Char.ofNat code) = false := by
    decide
  simp only [isBlank, Bool.or_eq_true, Bool.and_eq_true, decide_eq_true_eq, beq_iff_eq] at blank
  by_cases small : c.toNat < 128
  · have listed : c.toNat ∈ List.range' 9 5 ++ List.range' 28 5 := by
      rw [List.mem_append, List.mem_range'_1, List.mem_range'_1]
      omega
    rw [← Char.ofNat_toNat c]
    exact ascii c.toNat listed
  · have inside : ∃ block ∈ blocks, block.1 ≤ c.toNat ∧ c.toNat ≤ block.2 := by
      simp only [blocks, List.exists_mem_cons_iff, List.not_mem_nil, false_and, exists_false]
      omega
    obtain ⟨block, member, within⟩ := inside
    rw [isWord, if_neg small, inRanges_eq_false (apart block member) within]

end Text

namespace Rem

section Blanks

variable {c : Char} (blank : Text.isBlank c = true)

include blank

theorem isNumeralChar_of_isBlank : isNumeralChar c = false := by
  rw [Bool.eq_false_iff]
  intro spells
  rw [Numeral.isBlank_of_isNumeralChar spells] at blank
  cases blank

theorem not_mem_unit_of_isBlank : c ∉ ['p', 'x'] := by
  have letters : ['p', 'x'].all (!Text.isBlank ·) = true := by decide
  intro member
  have visible := List.all_eq_true.mp letters c member
  simp [blank] at visible

theorem joins_of_isBlank : joins c = false := by
  rw [joins, Text.isWord_of_isBlank blank, Bool.false_or, beq_eq_false_iff_ne]
  rintro rfl
  cases blank

/-- The parts of a value around white space are converted one after the other. -/
theorem toPixels_append (size : RemSize) (first second : String) :
    toPixels size (first ++ String.singleton c ++ second) = do
      let before ← toPixels size first
      return before ++ String.singleton c ++ (← toPixels size second) := by
  have meet : (first ++ String.singleton c ++ second).toList =
      first.toList ++ c :: second.toList := by simp
  rw [toPixels, toPixels, toPixels, meet,
    convert_append_cons (isNumeralChar_of_isBlank blank) (Text.isWord_of_isBlank blank),
    joins_of_isBlank blank]
  cases convert size false first.toList with
  | error fault => rfl
  | ok before =>
      cases convert size false second.toList with
      | error fault => rfl
      | ok after =>
          refine congrArg Except.ok (String.toList_inj.mp ?_)
          simp

end Blanks

/-! ## Lengths in a converted text -/

section Numerals

variable {digits after : List Char} (numeric : digits.all isNumeralChar = true)

include numeric

/-- A length that starts with all characters of numerals at the start of a text has its unit right
behind them. -/
theorem take?_append_iff (stop : after.head?.any isNumeralChar = false) {number : Numeral}
    {rest : List Char} :
    take? (digits ++ after) = some (number, rest) ↔
      Numeral.takeUnsigned? digits = some (number, []) ∧ after = 'r' :: 'e' :: 'm' :: rest ∧
        rest.head?.any Text.isWord = false := by
  rw [take?_eq_some_iff, Numeral.takeUnsigned?_append digits stop, ← and_assoc]
  refine and_congr_left fun _ => ?_
  constructor
  · intro taken
    obtain ⟨⟨other, left⟩, found, same⟩ := Option.map_eq_some_iff.mp taken
    obtain ⟨rfl, unit⟩ := Prod.mk.inj same
    -- What is left of the digits is spelled like a numeral, which no unit is.
    cases left with
    | nil => exact ⟨found, unit⟩
    | cons d left =>
        obtain ⟨spelled, -, split⟩ := Numeral.spells_of_takeUnsigned? found
        have member : d ∈ digits := by
          rw [split]
          exact List.mem_append_right spelled List.mem_cons_self
        have spells := List.all_eq_true.mp numeric d member
        rw [(List.cons.inj unit).1] at spells
        exact absurd spells (by decide)
  · rintro ⟨found, rfl⟩
    rw [found]
    rfl

/-- No length starts in a number of pixels, nor right behind it. -/
theorem lengths_pixels (joined : Bool) (text : List Char) :
    lengths joined (digits ++ 'p' :: 'x' :: text) = lengths true text := by
  have other (cs : List Char) : take? ('p' :: cs) = none :=
    take?_of_not_isNumeralChar (by decide) cs
  induction digits generalizing joined with
  | nil =>
      have joins : joins 'p' = true := by decide
      rw [List.nil_append, lengths_other (by rw [other, ite_self]), joins, lengths_other (by simp)]
      rfl
  | cons d digits ih =>
      have stop : ('p' :: 'x' :: text).head?.any isNumeralChar = false :=
        (by decide : isNumeralChar 'p' = false)
      have none : take? (d :: digits ++ 'p' :: 'x' :: text) = none := by
        rw [Option.eq_none_iff_forall_ne_some]
        rintro ⟨number, rest⟩ taken
        cases ((take?_append_iff numeric stop).mp taken).2.1
      rw [List.all_cons, Bool.and_eq_true] at numeric
      rw [List.cons_append] at none ⊢
      rw [lengths_other (by rw [none, ite_self])]
      exact ih numeric.2 _

end Numerals

section Converted

variable {size : RemSize} {joined : Bool} {cs text : List Char}

/-- Of a number of pixels no `p` comes after a character that does not belong to it. -/
theorem pixels_append_ne {number : Numeral} {inPixels others front rest : List Char} {c : Char}
    (written : pixels size number = .ok inPixels) (apart : isNumeralChar c = false)
    (unit : c ∉ ['p', 'x']) (silent : 'p' ∉ front) : inPixels ++ others ≠ front ++ c :: rest := by
  obtain ⟨digits, numeric, rfl⟩ := exists_of_pixels written
  rw [List.append_assoc]
  intro same
  cases List.append_eq_append_iff.mp same with
  | inl longer =>
      obtain ⟨between, rfl, behind⟩ := longer
      cases between with
      | nil =>
          cases behind
          exact unit List.mem_cons_self
      | cons d between =>
          obtain ⟨rfl, -⟩ := List.cons.inj behind
          exact silent (List.mem_append_right digits List.mem_cons_self)
  | inr shorter =>
      obtain ⟨between, rfl, behind⟩ := shorter
      cases between with
      | nil =>
          cases behind
          exact unit List.mem_cons_self
      | cons d between =>
          obtain ⟨rfl, -⟩ := List.cons.inj behind
          have spells := List.all_eq_true.mp numeric c (List.mem_append_right front List.mem_cons_self)
          rw [apart] at spells
          cases spells

/-- A character that belongs to no number of pixels stands in the text before a conversion too, and
so does all that is before it up to the last number of pixels. -/
theorem Converts.exists_of_append {front rest : List Char} {c : Char}
    (converts : Converts size joined cs (front ++ c :: rest)) (apart : isNumeralChar c = false)
    (unit : c ∉ ['p', 'x']) (silent : 'p' ∉ front) :
    ∃ after, cs = front ++ c :: after ∧ Converts size (joins c) after rest := by
  generalize whole : front ++ c :: rest = text at converts
  induction converts generalizing front with
  | nil joined => simp at whole
  | length found written others ih => exact absurd whole.symm (pixels_append_ne written apart unit silent)
  | other found others ih =>
      cases front with
      | nil =>
          cases whole
          exact ⟨_, rfl, others⟩
      | cons d front =>
          rw [List.cons_append, List.cons.injEq] at whole
          rw [List.mem_cons, not_or] at silent
          obtain ⟨after, rfl, converted⟩ := ih silent.2 whole.2
          refine ⟨after, by rw [whole.1]; rfl, converted⟩

/-- Behind a length the first character stays. -/
theorem Converts.head?_eq (converts : Converts size true cs text) : text.head? = cs.head? := by
  cases converts with
  | nil => rfl
  | length found => cases found
  | other => rfl

/-- A converted text has no lengths. -/
theorem Converts.lengths_eq_nil (converts : Converts size joined cs text) :
    lengths joined text = [] := by
  induction converts with
  | nil joined => rw [lengths]
  | length found written others ih =>
      obtain ⟨digits, numeric, rfl⟩ := exists_of_pixels written
      rw [List.append_assoc]
      exact (lengths_pixels numeric _ _).trans ih
  | @other joined c cs text found others ih =>
      suffices none : (if joined then none else take? (c :: text)) = none by
        rw [lengths_other none, ih]
      cases joined with
      | true => rfl
      | false =>
          -- A length that starts here now has its numeral and its unit from the text before.
          rw [if_neg Bool.false_ne_true, Option.eq_none_iff_forall_ne_some]
          rintro ⟨number, rest⟩ taken
          obtain ⟨spelled, numeric, split⟩ :=
            Numeral.spells_of_takeUnsigned? (take?_eq_some_iff.mp taken).1
          have stop (rest : List Char) :
              ('r' :: 'e' :: 'm' :: rest).head?.any isNumeralChar = false :=
            (by decide : isNumeralChar 'r' = false)
          rw [split, take?_append_iff numeric (stop rest)] at taken
          have silent : 'p' ∉ spelled ++ ['r', 'e'] := by
            intro member
            cases List.mem_append.mp member with
            | inl inside =>
                exact absurd (List.all_eq_true.mp numeric 'p' inside) (by decide)
            | inr inside => exact absurd inside (by decide)
          have whole : Converts size false (c :: cs) ((spelled ++ ['r', 'e']) ++ 'm' :: rest) := by
            rw [List.append_assoc]
            change Converts size false (c :: cs) (spelled ++ 'r' :: 'e' :: 'm' :: rest)
            rw [← split]
            exact .other found others
          obtain ⟨after, before, behind⟩ :=
            whole.exists_of_append (by decide) (by decide) silent
          have joins : joins 'm' = true := by decide
          rw [joins] at behind
          rw [List.append_assoc] at before
          have again : take? (c :: cs) = some (number, after) := by
            rw [before]
            refine (take?_append_iff numeric (stop after)).mpr ⟨taken.1, rfl, ?_⟩
            rw [← behind.head?_eq]
            exact taken.2.2
          rw [if_neg Bool.false_ne_true, again] at found
          cases found

/-- Nothing is converted to nothing. -/
theorem Converts.eq_nil (converts : Converts size joined cs []) : cs = [] := by
  generalize empty : [] = text at converts
  cases converts with
  | nil => rfl
  | length found written others =>
      obtain ⟨digits, -, rfl⟩ := exists_of_pixels written
      simp at empty
  | other found others => cases empty

/-- The last character is from before a conversion, or it ends a number of pixels. -/
theorem Converts.getLast?_eq {c : Char} (converts : Converts size joined cs text)
    (unit : c ≠ 'x') (last : text.getLast? = some c) : cs.getLast? = some c := by
  induction converts with
  | nil joined => cases last
  | @length joined d cs rest inPixels text number found written others ih =>
      obtain ⟨digits, -, rfl⟩ := exists_of_pixels written
      have taken := take?_eq_some_iff.mp (Option.ite_none_left_eq_some.mp found).2
      obtain ⟨spelled, -, split⟩ := Numeral.spells_of_takeUnsigned? taken.1
      have start : spelled ++ 'r' :: 'e' :: 'm' :: rest = (spelled ++ ['r', 'e', 'm']) ++ rest := by
        simp
      rw [split, start, List.getLast?_append]
      rw [List.getLast?_append] at last
      cases ends : text.getLast? with
      | none =>
          simp only [ends, Option.none_or, List.getLast?_append] at last
          have ending : 'x' = c := by simpa using last
          exact absurd ending.symm unit
      | some d =>
          rw [ends, Option.some_or] at last
          rw [ih (ends.trans last), Option.some_or]
  | @other joined d cs text found others ih =>
      cases ends : text.getLast? with
      | none =>
          rw [List.getLast?_eq_none_iff] at ends
          subst ends
          rw [others.eq_nil]
          exact last
      | some d =>
          rw [List.getLast?_cons, ends, Option.getD_some] at last
          rw [List.getLast?_cons, ih (ends.trans last), Option.getD_some]

/-- A conversion puts no white space at the ends of a text. -/
theorem Converts.trim_eq (converts : Converts size joined cs text) (trimmed : Text.trim cs = cs) :
    Text.trim text = text := by
  cases text with
  | nil => rfl
  | cons first rest =>
      have starts : Text.isBlank first = false := by
        rw [Bool.eq_false_iff]
        intro blank
        have front : Converts size joined cs ([] ++ first :: rest) := converts
        obtain ⟨after, before, -⟩ := front.exists_of_append (isNumeralChar_of_isBlank blank)
          (not_mem_unit_of_isBlank blank) List.not_mem_nil
        have head : (Text.trim cs).head? = some first := by
          rw [trimmed, before]
          rfl
        exact Bool.false_ne_true ((Text.isBlank_of_head?_trim head).symm.trans blank)
      have ends (last : Char) (found : (first :: rest).getLast? = some last) :
          Text.isBlank last = false := by
        by_cases unit : last = 'x'
        · rw [unit]
          decide
        · have ending := converts.getLast?_eq unit found
          rw [← trimmed] at ending
          exact Text.isBlank_of_getLast?_trim ending
      apply Stylesheet.trim_of_visible
      · simp [starts]
      · rw [Option.any_eq_true]
        refine ⟨_, List.getLast?_eq_some_getLast (List.cons_ne_nil first rest), ?_⟩
        simp [ends _ (List.getLast?_eq_some_getLast (List.cons_ne_nil first rest))]

end Converted

/-! ## Converted values -/

section Values

variable {size : RemSize} {value inPixels : String}

theorem toPixels_eq_ok_iff :
    toPixels size value = .ok inPixels ↔ Converts size false value.toList inPixels.toList := by
  rw [converts_iff, toPixels]
  cases convert size false value.toList with
  | error fault => simp [Except.map]
  | ok text => simp [Except.map, ← String.toList_inj]

/-- A value in pixels has no lengths in root font sizes. -/
theorem lengths_of_toPixels (converted : toPixels size value = .ok inPixels) :
    lengths false inPixels.toList = [] :=
  (toPixels_eq_ok_iff.mp converted).lengths_eq_nil

/-- A trimmed value is trimmed in pixels. -/
theorem stripped_of_toPixels (trimmed : Text.stripped value = value)
    (converted : toPixels size value = .ok inPixels) : Text.stripped inPixels = inPixels := by
  rw [Text.stripped, ← String.toList_inj, String.toList_ofList] at trimmed ⊢
  exact (toPixels_eq_ok_iff.mp converted).trim_eq trimmed

end Values

/-- The parts of a value around white space are converted by themselves, one after the other.  A
value that has been converted stays as it is when it is converted again, whatever the size then. -/
theorem toPixels_local_and_final (size other : RemSize) (first second : String) {c : Char}
    (blank : Text.isBlank c = true) :
    (toPixels size (first ++ String.singleton c ++ second) = do
      let before ← toPixels size first
      return before ++ String.singleton c ++ (← toPixels size second)) ∧
    (toPixels size first).bind (toPixels other) = toPixels size first := by
  constructor
  · exact toPixels_append blank size first second
  · cases converted : toPixels size first with
    | error fault => rfl
    | ok inPixels => exact toPixels_of_lengths_eq_nil other (lengths_of_toPixels converted)

/-- Lengths with a sign, a point or a power of ten, among texts that are none. -/
theorem toPixels_local_and_final_of_signedLengths :
    let size : RemSize := .ok (.ofInt (-16))
    let first := "x1rem +1.5rem"
    let second := "1e-9rem 2.rem 3rem.5rem"
    Text.isBlank '\t' = true ∧
      toPixels size (first ++ String.singleton '\t' ++ second) =
        .ok "x1rem +-24px\t-1.6e-08px 2.rem -48px.5rem" ∧
      toPixels (.ok (.ofInt 10)) "x1rem +-24px" = .ok "x1rem +-24px" := by
  intro size first second
  have blank : Text.isBlank '\t' = true := rfl
  have left : toPixels size first = .ok "x1rem +-24px" := by decide +kernel
  have right : toPixels size second = .ok "-1.6e-08px 2.rem -48px.5rem" := by decide +kernel
  obtain ⟨apart, again⟩ := toPixels_local_and_final size (.ok (.ofInt 10)) first second blank
  rw [left, right] at apart
  rw [left] at again
  exact ⟨blank, apart, again⟩

end Rem

end StyleObjects
