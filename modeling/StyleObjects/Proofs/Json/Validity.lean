import StyleObjects.Proofs.Json.Grammar

/-!
# Texts that are not JSON

Outside of its strings, a JSON text has no capital letter but that of a power of ten.  The words for
an infinity and for an undefined number start with one, so a text with such a word is not JSON, and
the text of a value is JSON exactly if all of its numbers are finite.
-/

namespace StyleObjects.Json

/-! ## Inside and outside of strings -/

/-- Where a scan of JSON text stands. -/
inductive Quoting where
  | outside
  | inside
  | escaped
  deriving DecidableEq

namespace Quoting

/-- Where the scan stands after a character. -/
def next : Quoting → Char → Quoting
  | .outside, c => if c = '"' then .inside else .outside
  | .inside, c => if c = '"' then .outside else if c = '\\' then .escaped else .inside
  | .escaped, _ => .inside

/-- A character may stand at some place of a text: anywhere in a string, and outside of strings if
it starts no word for a number that is not finite. -/
def allows (quoting : Quoting) (c : Char) : Bool :=
  quoting != .outside || (c != 'I' && c != 'N')

/-- All characters of a text may stand where they do. -/
def allowsAll : Quoting → List Char → Bool
  | _, [] => true
  | quoting, c :: cs => quoting.allows c && (quoting.next c).allowsAll cs

theorem allowsAll_append (quoting : Quoting) (before after : List Char) :
    quoting.allowsAll (before ++ after) =
      (quoting.allowsAll before && (before.foldl next quoting).allowsAll after) := by
  induction before generalizing quoting with
  | nil => rfl
  | cons c before ih =>
      rw [List.cons_append, allowsAll, ih, allowsAll, List.foldl_cons, Bool.and_assoc]

end Quoting

/-- A text closes all of its strings. -/
def IsClosed (cs : List Char) : Prop :=
  cs.foldl Quoting.next .outside = .outside

/-- A text closes its strings, and its characters may stand where they do. -/
def IsAllowed (cs : List Char) : Prop :=
  IsClosed cs ∧ Quoting.outside.allowsAll cs = true

variable {before after cs : List Char}

theorem IsClosed.append_iff (closed : IsClosed before) :
    IsClosed (before ++ after) ↔ IsClosed after := by
  rw [IsClosed, List.foldl_append, closed, IsClosed]

theorem IsClosed.isAllowed_append_iff (closed : IsClosed before) :
    IsAllowed (before ++ after) ↔ IsAllowed before ∧ IsAllowed after := by
  rw [IsAllowed, IsAllowed, IsAllowed, closed.append_iff, Quoting.allowsAll_append, closed,
    Bool.and_eq_true]
  tauto

/-- A character that may stand outside of strings and opens none. -/
def isPlain (c : Char) : Bool :=
  c != '"' && c != 'I' && c != 'N'

theorem IsAllowed.append (first : IsAllowed before) (second : IsAllowed after) :
    IsAllowed (before ++ after) :=
  first.1.isAllowed_append_iff.mpr ⟨first, second⟩

theorem IsAllowed.cons {c : Char} (plain : isPlain c = true) (allowed : IsAllowed cs) :
    IsAllowed (c :: cs) := by
  simp only [isPlain, Bool.and_eq_true, bne_iff_ne] at plain
  have stays : Quoting.outside.next c = .outside := if_neg plain.1.1
  refine ⟨?_, ?_⟩
  · rw [IsClosed, List.foldl_cons, stays]
    exact allowed.1
  · rw [Quoting.allowsAll, stays, allowed.2]
    simp [Quoting.allows, plain]

theorem isAllowed_nil : IsAllowed [] := ⟨rfl, rfl⟩

theorem isAllowed_of_all (plain : cs.all isPlain = true) : IsAllowed cs := by
  induction cs with
  | nil => exact isAllowed_nil
  | cons c cs ih =>
      rw [List.all_cons, Bool.and_eq_true] at plain
      exact .cons plain.1 (ih plain.2)

section Intercalate

variable {separator : List Char} {items : List (List Char)}

theorem isClosed_intercalate (closed : IsClosed separator) (every : ∀ item ∈ items, IsClosed item) :
    IsClosed (separator.intercalate items) := by
  induction items with
  | nil => rfl
  | cons item items ih =>
      rw [List.forall_mem_cons] at every
      cases items with
      | nil => simpa using every.1
      | cons second items =>
          rw [List.intercalate_cons_cons, List.append_assoc, every.1.append_iff,
            closed.append_iff]
          exact ih every.2

theorem isAllowed_intercalate_iff (allowed : IsAllowed separator)
    (every : ∀ item ∈ items, IsClosed item) :
    IsAllowed (separator.intercalate items) ↔ ∀ item ∈ items, IsAllowed item := by
  induction items with
  | nil => simp [IsAllowed, IsClosed, Quoting.allowsAll]
  | cons item items ih =>
      rw [List.forall_mem_cons] at every
      cases items with
      | nil => simp
      | cons second items =>
          rw [List.intercalate_cons_cons, List.append_assoc, every.1.isAllowed_append_iff,
            allowed.1.isAllowed_append_iff, ih every.2, List.forall_mem_cons (l := second :: items)]
          tauto

end Intercalate

/-! ## Texts that follow the grammar -/

theorem isAllowed_of_imp {holds : Char → Bool} (known : cs.all holds = true)
    (implied : ∀ c, isPlain c = false → holds c = false) : IsAllowed cs := by
  refine isAllowed_of_all (List.all_eq_true.mpr fun c member => ?_)
  by_contra strange
  have none := implied c (Bool.eq_false_iff.mpr strange)
  rw [List.all_eq_true.mp known c member] at none
  cases none

theorem eq_of_isPlain_eq_false {c : Char} (strange : isPlain c = false) :
    c = '"' ∨ c = 'I' ∨ c = 'N' := by
  simp only [isPlain, Bool.and_eq_false_iff, bne_eq_false_iff_eq] at strange
  tauto

theorem IsBlank.isAllowed (blank : IsBlank cs) : IsAllowed cs :=
  isAllowed_of_imp blank fun c strange => by
    rcases eq_of_isPlain_eq_false strange with rfl | rfl | rfl <;> rfl

theorem IsDigits.isAllowed (digits : IsDigits cs) : IsAllowed cs :=
  isAllowed_of_imp digits.2 fun c strange => by
    rcases eq_of_isPlain_eq_false strange with rfl | rfl | rfl <;> rfl

theorem IsNumberText.isAllowed (text : IsNumberText cs) : IsAllowed cs := by
  cases text with
  | parts signed digits lead pointed powered =>
      refine .append ?_ (digits.isAllowed.append (.append ?_ ?_))
      · rcases signed with rfl | rfl <;> exact isAllowed_of_all rfl
      · rcases pointed with rfl | ⟨digits, known, rfl⟩
        · exact isAllowed_nil
        · exact .cons rfl known.isAllowed
      · rcases powered with rfl | ⟨mark, sign, digits, marked, signed, known, rfl⟩
        · exact isAllowed_nil
        · refine .cons ?_ (.append ?_ known.isAllowed)
          · rcases marked with rfl | rfl <;> rfl
          · rcases signed with rfl | rfl | rfl <;> exact isAllowed_of_all rfl

theorem hexValue?_isSome_of_unit? {a b c d : Char} (known : (Token.unit? a b c d).isSome = true) :
    ∀ digit ∈ [a, b, c, d], (Token.hexValue? digit).isSome = true := by
  rcases Option.isSome_iff_exists.mp known with ⟨unit, found⟩
  simp only [Token.unit?, Option.bind_eq_bind, Option.bind_eq_some_iff] at found
  rcases found with ⟨_, first, _, second, _, third, _, fourth, -⟩
  simp [first, second, third, fourth]

/-- What may stand in a string stays in the string. -/
theorem IsStringBody.stays {body : List Char} (inside : IsStringBody body) :
    body.foldl Quoting.next .inside = .inside ∧ Quoting.inside.allowsAll body = true := by
  induction inside with
  | nil => exact ⟨rfl, rfl⟩
  | plain visible unquoted unmarked body ih =>
      simp only [List.foldl_cons, Quoting.allowsAll, Quoting.next, if_neg unquoted,
        if_neg unmarked, ih]
      exact ⟨trivial, rfl⟩
  | short known body ih => exact ih
  | @unit a b c d rest known body ih =>
      have hexadecimal : ∀ digit ∈ [a, b, c, d], Quoting.inside.next digit = .inside := by
        intro digit member
        have known := hexValue?_isSome_of_unit? known digit member
        have unquoted : digit ≠ '"' := by
          rintro rfl
          cases known
        have unmarked : digit ≠ '\\' := by
          rintro rfl
          cases known
        rw [Quoting.next, if_neg unquoted, if_neg unmarked]
      simp only [List.forall_mem_cons] at hexadecimal
      rcases hexadecimal with ⟨first, second, third, fourth, -⟩
      have mark : (Quoting.inside.next '\\').next 'u' = .inside := rfl
      simp only [List.foldl_cons, Quoting.allowsAll, mark, first, second, third, fourth, ih]
      exact ⟨trivial, rfl⟩

theorem IsStringText.isAllowed (text : IsStringText cs) : IsAllowed cs := by
  cases text with
  | quoted inside =>
      have stays := inside.stays
      have opens : Quoting.outside.next '"' = .inside := rfl
      refine ⟨?_, ?_⟩
      · simp only [IsClosed, List.cons_append, List.foldl_cons, List.foldl_append, opens, stays.1]
        rfl
      · rw [List.cons_append, Quoting.allowsAll, opens, Quoting.allowsAll_append, stays.1, stays.2]
        rfl

theorem IsNameText.isAllowed (text : IsNameText cs) : IsAllowed cs := by
  cases text with
  | spaced leading text trailing =>
      exact leading.isAllowed.append (text.isAllowed.append trailing.isAllowed)

theorem isAllowed_intercalate {items : List (List Char)}
    (every : ∀ item ∈ items, IsAllowed item) : IsAllowed ([','].intercalate items) :=
  (isAllowed_intercalate_iff (isAllowed_of_all rfl) fun item member => (every item member).1).mpr
    every

/-- A text that follows the grammar has no word for a number that is not finite. -/
theorem IsJson.isAllowed (text : IsJson cs) : IsAllowed cs := by
  induction text with
  | word known =>
      simp only [words, List.mem_cons, List.not_mem_nil, or_false] at known
      rcases known with rfl | rfl | rfl <;> exact isAllowed_of_all rfl
  | number text => exact text.isAllowed
  | string text => exact text.isAllowed
  | array leading every trailing ih =>
      exact .cons rfl (leading.isAllowed.append ((isAllowed_intercalate ih).append
        (trailing.isAllowed.append (isAllowed_of_all rfl))))
  | object leading names every trailing ih =>
      refine .cons rfl (leading.isAllowed.append ((isAllowed_intercalate ?_).append
        (trailing.isAllowed.append (isAllowed_of_all rfl))))
      intro item member
      rw [List.mem_map] at member
      rcases member with ⟨field, inside, rfl⟩
      exact (names field inside).isAllowed.append (.cons rfl (ih field inside))
  | spaced leading text trailing ih => exact leading.isAllowed.append (ih.append trailing.isAllowed)

/-! ## Texts of values -/

/-- The text of brackets closes all strings if the texts in between do, which may stand where they do
if the whole text may. -/
theorem isAllowed_enclose (layout : Layout) (level : Nat) {opening closing : String}
    (opens : opening.toList.all isPlain = true) (closes : closing.toList.all isPlain = true)
    {texts : List String} (every : ∀ text ∈ texts, IsClosed text.toList) :
    IsClosed (layout.enclose level opening closing texts).toList ∧
      (IsAllowed (layout.enclose level opening closing texts).toList →
        ∀ text ∈ texts, IsAllowed text.toList) := by
  rcases layout.toList_enclose level opening closing texts with
    ⟨before, spaces, after, leading, space, trailing, laid⟩
  have comma : IsAllowed (',' :: spaces) := .cons rfl (IsBlank.isAllowed space)
  have own : ∀ item ∈ texts.map String.toList, IsClosed item := by simpa using every
  have joined := isClosed_intercalate comma.1 own
  rw [laid, (isAllowed_of_all opens).1.append_iff,
    (isAllowed_of_all opens).1.isAllowed_append_iff, (IsBlank.isAllowed leading).1.append_iff,
    (IsBlank.isAllowed leading).1.isAllowed_append_iff, joined.append_iff,
    joined.isAllowed_append_iff, isAllowed_intercalate_iff comma own]
  refine ⟨((IsBlank.isAllowed trailing).append (isAllowed_of_all closes)).1, fun allowed => ?_⟩
  simpa using allowed.2.2.1

/-- The text of a value closes its strings, and if its characters may stand where they do, all
numbers are finite. -/
theorem isAllowed_renderAt {value : Json} (normal : value.EveryReal Binary64.IsNormal)
    (layout : Layout) (level : Nat) :
    IsClosed (renderAt layout level value).toList ∧
      (IsAllowed (renderAt layout level value).toList →
        value.EveryReal fun number => number.isFinite = true) := by
  induction normal generalizing level with
  | null =>
      rw [renderAt]
      exact ⟨rfl, fun _ => .null⟩
  | bool value =>
      rw [renderAt]
      cases value <;> exact ⟨rfl, fun _ => .bool _⟩
  | integer value =>
      rw [renderAt, Numeral.toList_toString]
      exact ⟨(isNumberText_signedText (Numeral.isPlain_ofNat _) _).isAllowed.1, fun _ => .integer _⟩
  | @real value known =>
      rw [renderAt]
      cases value with
      | finite negative significand exponent =>
          rcases Binary64.exists_numeral_of_isNormal known with ⟨numeral, plain, -, same, -⟩
          rw [Binary64.textWith, same]
          exact ⟨(isNumberText_signedText plain negative).isAllowed.1, fun _ => .real rfl⟩
      | infinite negative => cases negative <;> exact ⟨rfl, fun allowed => by cases allowed.2⟩
      | undefined => exact ⟨rfl, fun allowed => by cases allowed.2⟩
  | text value =>
      rw [renderAt]
      exact ⟨(isStringText_quotedText value).isAllowed.1, fun _ => .text _⟩
  | array _ ih =>
      rw [renderAt, renderItems_eq]
      have allowed := isAllowed_enclose layout level (rfl : "[".toList.all isPlain = true)
        (rfl : "]".toList.all isPlain = true)
        (List.forall_mem_map.mpr fun item member => (ih item member (level + 1)).1)
      refine ⟨allowed.1, fun text => .array fun item member => ?_⟩
      exact (ih item member (level + 1)).2 (allowed.2 text _ (List.mem_map_of_mem member))
  | @object fields _ ih =>
      rw [renderAt, renderFields_eq]
      have front : ∀ name, IsAllowed (quotedText name ++ ": ").toList := fun name => by
        rw [String.toList_append]
        exact (isStringText_quotedText name).isAllowed.append (isAllowed_of_all rfl)
      have closed : ∀ text ∈ fields.map fun field =>
          quotedText field.1 ++ ": " ++ renderAt layout (level + 1) field.2,
          IsClosed text.toList := by
        rw [List.forall_mem_map]
        intro field member
        rw [String.toList_append, (front field.1).1.append_iff]
        exact (ih field member (level + 1)).1
      have allowed := isAllowed_enclose layout level (rfl : "\x7b".toList.all isPlain = true)
        (rfl : "\x7d".toList.all isPlain = true) closed
      refine ⟨allowed.1, fun text => .object fun field member => ?_⟩
      have own := List.forall_mem_map.mp (allowed.2 text) field member
      rw [String.toList_append, (front field.1).1.isAllowed_append_iff] at own
      exact (ih field member (level + 1)).2 own.2

/-- The text of a value whose numbers are in normal form is JSON if and only if all of its numbers
are finite. -/
theorem isJson_render_iff {value : Json} (normal : value.EveryReal Binary64.IsNormal)
    (layout : Layout) :
    IsJson (render layout value).toList ↔
      value.EveryReal fun number => number.isFinite = true := by
  refine ⟨fun text => (isAllowed_renderAt normal layout 0).2 text.isAllowed, fun finite => ?_⟩
  exact isJson_renderAt (normal.and finite) layout 0

end StyleObjects.Json
