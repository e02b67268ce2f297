import StyleObjects.Proofs.Json.RoundTrip
import StyleObjects.Proofs.Lists

/-!
# The grammar of JSON

The text of a value follows the grammar of JSON exactly if all numbers in the value are finite: an
infinity is written as a word that the grammar has not, and nothing else is.
-/

namespace StyleObjects.Json

/-! ## The grammar -/

/-- One or more digits. -/
def IsDigits (cs : List Char) : Prop :=
  cs ≠ [] ∧ cs.all Char.isDigit = true

/-- The text of a number: a minus or none, digits of which the first is a zero only if it is the
only one, a point with digits or none, and a power of ten or none. -/
inductive IsNumberText : List Char → Prop where
  | parts {sign whole fraction power : List Char} (signed : sign = [] ∨ sign = ['-'])
      (digits : IsDigits whole) (lead : whole.head? = some '0' → whole = ['0'])
      (pointed : fraction = [] ∨ ∃ digits, IsDigits digits ∧ fraction = '.' :: digits)
      (powered : power = [] ∨ ∃ mark sign digits, (mark = 'e' ∨ mark = 'E') ∧
        (sign = [] ∨ sign = ['+'] ∨ sign = ['-']) ∧ IsDigits digits ∧
          power = mark :: (sign ++ digits)) :
      IsNumberText (sign ++ (whole ++ (fraction ++ power)))

/-- What may stand in a string. -/
inductive IsStringBody : List Char → Prop where
  | nil : IsStringBody []
  | plain {c : Char} {rest : List Char} (visible : 32 ≤ c.toNat) (unquoted : c ≠ '"')
      (unmarked : c ≠ '\\') (body : IsStringBody rest) : IsStringBody (c :: rest)
  | short {mark : Char} {rest : List Char} (known : (Token.shortEscape? mark).isSome = true)
      (body : IsStringBody rest) : IsStringBody ('\\' :: mark :: rest)
  | unit {a b c d : Char} {rest : List Char} (known : (Token.unit? a b c d).isSome = true)
      (body : IsStringBody rest) : IsStringBody ('\\' :: 'u' :: a :: b :: c :: d :: rest)

/-- The text of a string. -/
inductive IsStringText : List Char → Prop where
  | quoted {body : List Char} (inside : IsStringBody body) : IsStringText ('"' :: body ++ ['"'])

/-- White space. -/
def IsBlank (cs : List Char) : Prop :=
  cs.all Token.isSpace = true

/-- A name in an object, with white space around it. -/
inductive IsNameText : List Char → Prop where
  | spaced {before name after : List Char} (leading : IsBlank before) (text : IsStringText name)
      (trailing : IsBlank after) : IsNameText (before ++ (name ++ after))

/-- The text of a field: a name and a value with a colon in between. -/
def fieldText (field : List Char × List Char) : List Char :=
  field.1 ++ ':' :: field.2

/-- The words of JSON. -/
def words : List String := ["null", "false", "true"]

/-- The text of a JSON value, with white space around it. -/
inductive IsJson : List Char → Prop where
  | word {word : String} (known : word ∈ words) : IsJson word.toList
  | number {cs : List Char} (text : IsNumberText cs) : IsJson cs
  | string {cs : List Char} (text : IsStringText cs) : IsJson cs
  | array {before after : List Char} {items : List (List Char)} (leading : IsBlank before)
      (every : ∀ item ∈ items, IsJson item) (trailing : IsBlank after) :
      IsJson ('[' :: (before ++ ([','].intercalate items ++ (after ++ [']']))))
  | object {before after : List Char} {fields : List (List Char × List Char)}
      (leading : IsBlank before) (names : ∀ field ∈ fields, IsNameText field.1)
      (every : ∀ field ∈ fields, IsJson field.2) (trailing : IsBlank after) :
      IsJson ('\x7b' :: (before ++ ([','].intercalate (fields.map fieldText) ++
        (after ++ ['\x7d']))))
  | spaced {before cs after : List Char} (leading : IsBlank before) (text : IsJson cs)
      (trailing : IsBlank after) : IsJson (before ++ (cs ++ after))

/-! ## Finite numbers -/

/-- The text of a plain numeral with a sign is that of a number. -/
theorem isNumberText_signedText {numeral : Numeral} (plain : numeral.IsPlain) (negative : Bool) :
    IsNumberText (numeral.signedText negative) := by
  refine .parts ?_ ⟨plain.filled, plain.whole⟩ plain.lead ?_ ?_
  · cases negative
    · exact .inl rfl
    · exact .inr rfl
  · by_cases pointed : numeral.fraction = []
    · exact .inl (if_pos pointed)
    · exact .inr ⟨_, ⟨pointed, plain.fraction⟩, if_neg pointed⟩
  · by_cases powered : numeral.power = []
    · exact .inl (if_pos powered)
    · refine .inr ⟨'e', [if numeral.powerNegative then '-' else '+'], _, .inl rfl, ?_,
        ⟨powered, plain.power⟩, if_neg powered⟩
      cases numeral.powerNegative
      · exact .inr (.inl rfl)
      · exact .inr (.inr rfl)

theorem IsStringBody.escapeUnit {unit : Nat} (small : unit < 0x10000) {rest : List Char}
    (body : IsStringBody rest) : IsStringBody (Json.escapeUnit unit ++ rest) := by
  rw [Json.escapeUnit, Token.hexDigits_four]
  refine .unit ?_ body
  rw [Token.unit?_hexDigits small]
  rfl

theorem isStringBody_flatMap (cs : List Char) : IsStringBody (cs.flatMap escapeChar) := by
  induction cs with
  | nil => exact .nil
  | cons c cs ih =>
      rw [List.flatMap_cons]
      have valid := toNat_valid c
      have written := escapes_escapeChar c
      generalize escapeChar c = text at written
      cases written with
      | short found => exact .short (Option.isSome_of_eq_some found) ih
      | plain visible unquoted unmarked => exact .plain visible.1 unquoted unmarked ih
      | unit small => exact ih.escapeUnit small
      | pair large =>
          rw [List.append_assoc]
          exact (ih.escapeUnit (by omega)).escapeUnit (by omega)

theorem isStringText_quotedText (s : String) : IsStringText (quotedText s).toList := by
  rw [quotedText, String.toList_ofList]
  exact .quoted (isStringBody_flatMap s.toList)

/-- All texts but the first with something in front of them. -/
def indentOthers (spaces : List Char) : List (List Char) → List (List Char)
  | [] => []
  | first :: others => first :: others.map (spaces ++ ·)

theorem intercalate_indentOthers (spaces : List Char) (texts : List (List Char)) :
    (',' :: spaces).intercalate texts = [','].intercalate (indentOthers spaces texts) := by
  cases texts with
  | nil => rfl
  | cons first others =>
      induction others generalizing first with
      | nil => rfl
      | cons second others ih =>
          have more : [','].intercalate ((spaces ++ second) :: others.map (spaces ++ ·)) =
              spaces ++ [','].intercalate (second :: others.map (spaces ++ ·)) := by
            cases others with
            | nil => simp
            | cons third others => simp [List.intercalate_cons_cons]
          rw [List.intercalate_cons_cons, ih, indentOthers, indentOthers, List.map_cons,
            List.intercalate_cons_cons, more]
          simp

theorem exists_of_mem_indentOthers {spaces : List Char} {texts : List (List Char)}
    {item : List Char} (blank : IsBlank spaces) (member : item ∈ indentOthers spaces texts) :
    ∃ before text, IsBlank before ∧ text ∈ texts ∧ item = before ++ text := by
  cases texts with
  | nil => cases member
  | cons first others =>
      rw [indentOthers, List.mem_cons, List.mem_map] at member
      rcases member with rfl | ⟨text, inside, rfl⟩
      · exact ⟨[], item, rfl, List.mem_cons_self, rfl⟩
      · exact ⟨spaces, text, blank, List.mem_cons_of_mem _ inside, rfl⟩

theorem IsJson.indented {before cs : List Char} (blank : IsBlank before) (text : IsJson cs) :
    IsJson (before ++ cs) := by
  have spaced : IsJson (before ++ (cs ++ [])) := .spaced blank text rfl
  rwa [List.append_nil] at spaced

/-- The text of an array is that of its items. -/
theorem isJson_array {texts : List String} (every : ∀ text ∈ texts, IsJson text.toList)
    (layout : Layout) (level : Nat) : IsJson (layout.enclose level "[" "]" texts).toList := by
  rcases layout.toList_enclose level "[" "]" texts with
    ⟨before, spaces, after, leading, space, trailing, laid⟩
  rw [laid, intercalate_indentOthers]
  refine .array leading ?_ trailing
  intro item member
  rcases exists_of_mem_indentOthers space member with ⟨front, text, blank, inside, rfl⟩
  rw [List.mem_map] at inside
  rcases inside with ⟨text, own, rfl⟩
  exact (every text own).indented blank

/-- The text of a field has white space around its parts. -/
theorem exists_fieldText {before : List Char} (blank : IsBlank before) (name : String)
    {value : List Char} (text : IsJson value) :
    ∃ field : List Char × List Char, IsNameText field.1 ∧ IsJson field.2 ∧
      fieldText field = before ++ ((quotedText name).toList ++ (':' :: ' ' :: value)) := by
  refine ⟨(before ++ ((quotedText name).toList ++ []), [' '] ++ value),
    .spaced blank (isStringText_quotedText name) rfl, text.indented rfl, ?_⟩
  simp [fieldText]

/-- The text of an object is that of its fields. -/
theorem isJson_object {texts : List String}
    (every : ∀ text ∈ texts, ∃ name value, IsJson value ∧
      text.toList = (quotedText name).toList ++ (':' :: ' ' :: value))
    (layout : Layout) (level : Nat) :
    IsJson (layout.enclose level "\x7b" "\x7d" texts).toList := by
  rcases layout.toList_enclose level "\x7b" "\x7d" texts with
    ⟨before, spaces, after, leading, space, trailing, laid⟩
  have indented : ∀ text ∈ indentOthers spaces (texts.map String.toList),
      ∃ field : List Char × List Char,
        (IsNameText field.1 ∧ IsJson field.2) ∧ fieldText field = text := by
    intro text member
    rcases exists_of_mem_indentOthers space member with ⟨front, text, blank, inside, rfl⟩
    rw [List.mem_map] at inside
    rcases inside with ⟨text, own, rfl⟩
    rcases every text own with ⟨name, value, known, same⟩
    rcases exists_fieldText blank name known with ⟨field, named, valued, written⟩
    exact ⟨field, ⟨named, valued⟩, by rw [written, same]⟩
  rcases Lists.exists_map_eq indented with ⟨fields, known, same⟩
  rw [laid, intercalate_indentOthers, ← same]
  exact .object leading (fun field member => (known field member).1)
    (fun field member => (known field member).2) trailing

/-- The text of a value whose numbers are finite follows the grammar. -/
theorem isJson_renderAt {value : Json}
    (finite : value.EveryReal fun number => number.IsNormal ∧ number.isFinite = true)
    (layout : Layout) (level : Nat) : IsJson (renderAt layout level value).toList := by
  induction finite generalizing level with
  | null =>
      rw [renderAt]
      exact .word (by decide)
  | bool value =>
      rw [renderAt]
      cases value <;> exact .word (by decide)
  | integer value =>
      rw [renderAt, Numeral.toList_toString]
      exact .number (isNumberText_signedText (Numeral.isPlain_ofNat value.natAbs) _)
  | @real value known =>
      rw [renderAt]
      cases value with
      | finite negative significand exponent =>
          rcases Binary64.exists_numeral_of_isNormal known.1 with ⟨numeral, plain, -, same, -⟩
          rw [Binary64.textWith, same]
          exact .number (isNumberText_signedText plain negative)
      | infinite negative => cases known.2
      | undefined => cases known.2
  | text value =>
      rw [renderAt]
      exact .string (isStringText_quotedText value)
  | array _ ih =>
      rw [renderAt, renderItems_eq]
      refine isJson_array ?_ layout level
      intro text member
      rw [List.mem_map] at member
      rcases member with ⟨item, inside, rfl⟩
      exact ih item inside (level + 1)
  | object _ ih =>
      rw [renderAt, renderFields_eq]
      refine isJson_object ?_ layout level
      intro text member
      rw [List.mem_map] at member
      rcases member with ⟨field, inside, rfl⟩
      exact ⟨field.1, _, ih field inside (level + 1), by simp [String.toList_append]⟩

end StyleObjects.Json
