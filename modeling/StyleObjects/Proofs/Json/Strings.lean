import Mathlib.Tactic.SplitIfs
import StyleObjects.Json.Printer
import StyleObjects.Json.Reader

/-!
# Strings of JSON text

A character stands in a string as one UTF-16 unit or as two, plain or escaped.  The units are read
back and joined to the character.
-/

namespace StyleObjects.Json

open Text

/-- The UTF-16 units of a character. -/
def unitsOf (c : Char) : List Nat :=
  if c.toNat < 0x10000 then [c.toNat]
  else [0xD800 + (c.toNat - 0x10000) / 0x400, 0xDC00 + c.toNat % 0x400]

theorem toNat_valid (c : Char) : c.toNat < 0xD800 ∨ (0xDFFF < c.toNat ∧ c.toNat < 0x110000) :=
  c.valid

/-- The four ways in which a character stands in a string. -/
inductive Escapes (c : Char) : List Char → Prop where
  | short {mark : Char} (found : Token.shortEscape? mark = some c.toNat) : Escapes c ['\\', mark]
  | plain (visible : 32 ≤ c.toNat ∧ c.toNat < 127) (unquoted : c ≠ '"') (unmarked : c ≠ '\\') :
      Escapes c [c]
  | unit (small : c.toNat < 0x10000) : Escapes c (escapeUnit c.toNat)
  | pair (large : ¬c.toNat < 0x10000) :
      Escapes c (escapeUnit (0xD800 + (c.toNat - 0x10000) / 0x400) ++
        escapeUnit (0xDC00 + c.toNat % 0x400))

theorem escapes_escapeChar (c : Char) : Escapes c (escapeChar c) := by
  unfold escapeChar
  dsimp only
  split_ifs with marked feed ret tab form back visible small
  · rcases marked with rfl | rfl <;> exact .short rfl
  · subst feed
    exact .short rfl
  · subst ret
    exact .short rfl
  · subst tab
    exact .short rfl
  · exact .short (congrArg some form.symm)
  · exact .short (congrArg some back.symm)
  · exact .plain visible (fun same => marked (.inl same)) (fun same => marked (.inr same))
  · exact .unit small
  · exact .pair small

namespace Token

/-! ## Units -/

theorem hexValue?_hexDigit : ∀ digit < 16, hexValue? (hexDigit digit) = some digit := by
  decide

theorem hexDigits_four (unit : Nat) :
    hexDigits 4 unit = [hexDigit (unit / 4096 % 16), hexDigit (unit / 256 % 16),
      hexDigit (unit / 16 % 16), hexDigit (unit % 16)] := by
  simp [hexDigits, Nat.div_div_eq_div_mul]

theorem unit?_hexDigits {unit : Nat} (small : unit < 0x10000) :
    unit? (hexDigit (unit / 4096 % 16)) (hexDigit (unit / 256 % 16)) (hexDigit (unit / 16 % 16))
      (hexDigit (unit % 16)) = some unit := by
  have digit : ∀ value, hexValue? (hexDigit (value % 16)) = some (value % 16) := fun value =>
    hexValue?_hexDigit _ (Nat.mod_lt _ (by decide))
  rw [unit?, digit, digit, digit, digit]
  simp only [Option.bind_eq_bind, Option.bind_some, Option.some.injEq, Option.pure_def]
  omega

/-- An escaped unit is read as the unit. -/
theorem takeUnits?_escapeUnit {unit : Nat} (small : unit < 0x10000) (rest : List Char) :
    takeUnits? (escapeUnit unit ++ rest) =
      (takeUnits? rest).map fun (units, rest) => (unit :: units, rest) := by
  rw [escapeUnit, hexDigits_four]
  simp only [List.cons_append, List.nil_append, takeUnits?, unit?_hexDigits small, Option.bind_some]

theorem small_of_shortEscape? {mark : Char} {unit : Nat} (short : shortEscape? mark = some unit) :
    unit < 0x10000 := by
  unfold shortEscape? at short
  split at short <;> simp only [Option.some.injEq, reduceCtorEq] at short <;> omega

/-- A short escape is read as what it stands for. -/
theorem takeUnits?_short {mark : Char} {unit : Nat} (short : shortEscape? mark = some unit)
    (rest : List Char) :
    takeUnits? ('\\' :: mark :: rest) =
      (takeUnits? rest).map fun (units, rest) => (unit :: units, rest) := by
  have other : mark ≠ 'u' := by
    rintro rfl
    cases short
  rw [takeUnits?]
  · rw [short, Option.bind_some]
  · exact fun _ _ _ _ _ same => absurd same other

/-- A character that is no quote and no backslash is read as itself. -/
theorem takeUnits?_plain {c : Char} (unquoted : c ≠ '"') (plain : c ≠ '\\') (rest : List Char) :
    takeUnits? (c :: rest) =
      (takeUnits? rest).map fun (units, rest) => (c.toNat :: units, rest) := by
  rw [takeUnits?]
  · exact unquoted
  · exact fun _ _ _ _ _ same => absurd same plain
  · exact fun _ _ same => absurd same plain

/-- A character in a string is read as its units. -/
theorem takeUnits?_escapeChar (c : Char) (rest : List Char) :
    takeUnits? (escapeChar c ++ rest) =
      (takeUnits? rest).map fun (units, rest) => (unitsOf c ++ units, rest) := by
  have valid := toNat_valid c
  have written := escapes_escapeChar c
  generalize escapeChar c = text at written
  cases written with
  | short found =>
      rw [unitsOf, if_pos (small_of_shortEscape? found)]
      exact takeUnits?_short found rest
  | plain visible unquoted unmarked =>
      rw [unitsOf, if_pos (by omega)]
      exact takeUnits?_plain unquoted unmarked rest
  | unit small =>
      rw [takeUnits?_escapeUnit small, unitsOf, if_pos small]
      rfl
  | pair large =>
      rw [List.append_assoc, takeUnits?_escapeUnit (by omega), takeUnits?_escapeUnit (by omega),
        unitsOf, if_neg large, Option.map_map]
      rfl

theorem takeUnits?_flatMap (cs rest : List Char) :
    takeUnits? (cs.flatMap escapeChar ++ '"' :: rest) = some (cs.flatMap unitsOf, rest) := by
  induction cs with
  | nil => rfl
  | cons c cs ih =>
      rw [List.flatMap_cons, List.append_assoc, takeUnits?_escapeChar, ih]
      rfl

/-! ## Surrogates -/

theorem joinSurrogates_unitsOf (c : Char) (units : List Nat) :
    joinSurrogates (unitsOf c ++ units) = c :: joinSurrogates units := by
  have valid := toNat_valid c
  unfold unitsOf
  split
  · cases units with
    | nil =>
        rw [List.append_nil]
        simp only [joinSurrogates, Char.ofNat_toNat]
        rw [if_neg (by omega)]
    | cons low units =>
        rw [List.cons_append, List.nil_append, joinSurrogates, if_neg (by omega),
          if_neg (by omega), Char.ofNat_toNat]
  · rename_i large
    rw [List.cons_append, List.cons_append, List.nil_append, joinSurrogates, if_pos (by omega)]
    have joined : 0x10000 + (0xD800 + (c.toNat - 0x10000) / 0x400 - 0xD800) * 0x400 +
        (0xDC00 + c.toNat % 0x400 - 0xDC00) = c.toNat := by omega
    rw [joined, Char.ofNat_toNat]

theorem joinSurrogates_flatMap (cs : List Char) : joinSurrogates (cs.flatMap unitsOf) = cs := by
  induction cs with
  | nil => rfl
  | cons c cs ih => rw [List.flatMap_cons, joinSurrogates_unitsOf, ih]

/-- A string between quotes is read back as the string. -/
theorem take?_quotedText (s : String) (rest : List Char) :
    take? ((quotedText s).toList ++ rest) = some (.leaf (.text s), rest) := by
  rw [quotedText, String.toList_ofList]
  have opening : punctuation? '"' = none := rfl
  simp only [List.cons_append, List.append_assoc, List.nil_append, take?, opening, if_pos,
    takeUnits?_flatMap, Option.map_some, joinSurrogates_flatMap, String.ofList_toList]

end Token

end StyleObjects.Json
