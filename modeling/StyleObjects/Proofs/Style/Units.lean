import StyleObjects.Proofs.Lists
import StyleObjects.Proofs.Style.Keys
import StyleObjects.Proofs.Style.Measures
import StyleObjects.Proofs.Style.Words

/-!
# Units that the renderer has not

A length in a unit that the renderer has not is refused where a property reads it as a length.  It
is overlooked where a word may be a color, and where a value of several words is read as a whole.
-/

namespace StyleObjects

open Text

/-! ## Words with such a unit -/

namespace Measure

/-- The units that stylesheets have and the renderer has not. -/
def unsupportedUnits : List String := ["ch", "em", "ex", "cm", "mm", "in", "pc", "pt"]

/-- A trimmed text has no line break at its end. -/
theorem withoutLineBreak_stripped (text : String) :
    withoutLineBreak (stripped text).toList = (stripped text).toList := by
  rw [withoutLineBreak, if_neg]
  intro last
  rw [stripped, String.toList_ofList] at last
  have lineBreak : isBlank '\n' = true := by decide
  rw [isBlank_of_getLast?_trim last] at lineBreak
  cases lineBreak

/-- Units of the viewport are no others: they alone have a `v`. -/
theorem isViewportLength_eq_false {word : String} (unsupported : isUnsupported word = true) :
    isViewportLength word = false := by
  rcases hasUnit_iff.mp unsupported with ⟨measure, found, unit⟩
  rw [Bool.eq_false_iff]
  intro seen
  obtain ⟨own, listed, spelled, -, split⟩ := exists_of_isViewportLength seen
  have written : 'v' ∈ withoutLineBreak word.toList := by
    have units : ∀ unit ∈ viewportUnits, 'v' ∈ unit.toList := by decide
    rw [split]
    exact List.mem_append_right spelled (units own listed)
  have without : ∀ unit ∈ unsupportedUnits, 'v' ∉ unit.toList := by decide
  exact without _ unit (by simpa using mem_unit found written (by decide))

end Measure

namespace Scalar

variable {word : String}

/-- Words that some property reads as they are. -/
def ownWords : List String :=
  lengthKeywords ++ Border.lineStyles ++ ["none", "auto", "inset", "0"]

theorem not_mem_ownWords (unsupported : Measure.isUnsupported word = true) : word ∉ ownWords := by
  have measures : ∀ own ∈ ownWords, Measure.isUnsupported own = false := by decide
  intro member
  rw [measures word member] at unsupported
  cases unsupported

theorem isNumber_eq_false (unsupported : Measure.isUnsupported word = true) :
    Measure.isNumber word = false :=
  Measure.hasUnit_eq_false unsupported (by decide)

theorem isLengthWord_eq_false (unsupported : Measure.isUnsupported word = true) :
    isLengthWord word = false := by
  have pixels : Measure.isPixels word = false := Measure.hasUnit_eq_false unsupported (by decide)
  have percentage : Measure.isPercentage word = false :=
    Measure.hasUnit_eq_false unsupported (by decide)
  rw [isLengthWord, pixels, isNumber_eq_false unsupported, percentage,
    Measure.isViewportLength_eq_false unsupported]
  rfl

theorem readLength?_eq_none (unsupported : Measure.isUnsupported word = true) :
    readLength? word = none := by
  have other : word ∉ lengthKeywords := fun member =>
    not_mem_ownWords unsupported (List.mem_append_left _ (List.mem_append_left _ member))
  simp [readLength?, isLengthWord_eq_false unsupported, other, unsupported]

/-- A text with a blank inside is no measure, and is taken as it is where a length is wanted. -/
theorem isSome_readLength? {value : String} {c : Char} (member : c ∈ (stripped value).toList)
    (blank : isBlank c = true) : (readLength? (stripped value)).isSome = true := by
  have ended := Measure.withoutLineBreak_stripped value
  have unit : ∀ measure, Measure.read? (stripped value) = some measure → c ∈ measure.unit := by
    intro measure found
    refine Measure.mem_unit found (by rwa [ended]) ?_
    rw [Bool.eq_false_iff]
    intro spells
    rw [Numeral.isBlank_of_isNumeralChar spells] at blank
    cases blank
  have supported : Measure.isUnsupported (stripped value) = false := by
    have units : ∀ unit ∈ Measure.unsupportedUnits, unit.toList.all (!isBlank ·) = true := by decide
    rw [Bool.eq_false_iff]
    intro unsupported
    rcases Measure.hasUnit_iff.mp unsupported with ⟨measure, found, listed⟩
    have visible := List.all_eq_true.mp (units _ listed) c (by simpa using unit measure found)
    simp [blank] at visible
  have dimensionless : Measure.isDimension (stripped value) = false := by
    rw [Bool.eq_false_iff]
    intro dimension
    rcases (Option.any_eq_true _ _).mp dimension with ⟨measure, found, letters⟩
    rw [Bool.and_eq_true, List.all_eq_true] at letters
    rw [Stylesheet.isBlank_of_isAlpha (letters.2 c (unit measure found))] at blank
    cases blank
  rw [readLength?]
  split
  · rfl
  · simp [supported, dimensionless]

end Scalar

/-! ## Shorthands -/

section Shorthands

variable {value word : String} (given : word ∈ words value)
  (unsupported : Measure.isUnsupported word = true)

theorem Box.mem_spread? {given spread : List String} (found : spread? given = some spread)
    (member : word ∈ given) : word ∈ spread := by
  unfold spread? at found
  split at found <;> cases found <;> grind

include given unsupported

/-- The value is no word for nothing. -/
theorem stripped_not_mem_ownWords : stripped value ∉ Scalar.ownWords := by
  intro member
  have single : ∀ own ∈ Scalar.ownWords, words own = [own] := by decide +kernel
  have alone := single _ member
  rw [words_stripped] at alone
  rw [alone, List.mem_singleton] at given
  exact Scalar.not_mem_ownWords unsupported (given ▸ member)

theorem Box.lengths?_eq_none (keys : List String) : lengths? keys (stripped value) = none := by
  rw [lengths?, words_stripped]
  cases placed : spread? (words value) with
  | none => rfl
  | some spread =>
      have refused := Scalar.readLength?_eq_none unsupported
      have unread := Lists.mapM_eq_none (mem_spread? placed given) refused
      simp [unread]

/-- One of the words of a flexible item has to be its basis. -/
theorem Flex.flex?_eq_none : flex? (stripped value) = none := by
  have other := stripped_not_mem_ownWords given unsupported
  have none : stripped value ≠ "none" := by
    intro same
    exact other (same ▸ by decide)
  have auto : stripped value ≠ "auto" := by
    intro same
    exact other (same ▸ by decide)
  simp only [flex?, none, auto, ↓reduceIte, words_stripped]
  have basis : word ∈ (words value).filter (!Measure.isNumber ·) := by
    simp [given, Scalar.isNumber_eq_false unsupported]
  have unread := Scalar.readLength?_eq_none unsupported
  generalize (words value).filter (!Measure.isNumber ·) = others at basis
  unfold ofWords?
  split <;> simp_all

end Shorthands

namespace Border

/-- A word that is neither a length nor the style of a line. -/
def isOther (word : String) : Bool :=
  !Scalar.isLengthWord word && !lineStyles.contains word

/-- A word is a length, or the style of a line, or neither. -/
theorem kinds (word : String) :
    (Scalar.isLengthWord word = true ∧ lineStyles.contains word = false) ∨
      (Scalar.isLengthWord word = false ∧ lineStyles.contains word = true) ∨
      (Scalar.isLengthWord word = false ∧ lineStyles.contains word = false) := by
  have styles : ∀ style ∈ lineStyles, Scalar.isLengthWord style = false := by decide
  cases listed : lineStyles.contains word with
  | true => exact .inr (.inl ⟨styles word (List.contains_iff_mem.mp listed), rfl⟩)
  | false =>
      cases Scalar.isLengthWord word with
      | true => exact .inl ⟨rfl, rfl⟩
      | false => exact .inr (.inr ⟨rfl, rfl⟩)

/-- The words that are left for the color when width and style have taken their places: lengths and
styles but the first of each, and words that are neither. -/
def Parts.surplus (parts : Parts) (words : List String) : List String :=
  (words.filter Scalar.isLengthWord).drop parts.width.isNone.toNat
    ++ (words.filter lineStyles.contains).drop parts.lineStyle.isNone.toNat
    ++ words.filter isOther

/-- The first length gives the width, the first style the style, and the first word that is left for
it the color, unless these have been given before. -/
def Parts.fill (parts : Parts) (words : List String) : Parts where
  width := parts.width.or ((words.filter Scalar.isLengthWord).head?.map .read)
  lineStyle := parts.lineStyle.or (words.filter lineStyles.contains).head?
  color := parts.color.or (parts.surplus words).head?

/-- A word takes the place of its kind, or it is left for the color. -/
theorem place?_cases (parts : Parts) (word : String) (words : List String) :
    (∃ next, parts.place? word = some next ∧ next.color = parts.color ∧
      next.surplus words = parts.surplus (word :: words) ∧
      next.fill words = parts.fill (word :: words)) ∨
    parts.place? word =
        (if parts.color.isNone then some { parts with color := some word } else none) ∧
      ∃ before after, parts.surplus (word :: words) = before ++ word :: after ∧
        parts.surplus words = before ++ after ∧
        (parts.fill (word :: words)).width = (parts.fill words).width ∧
        (parts.fill (word :: words)).lineStyle = (parts.fill words).lineStyle := by
  obtain ⟨width, lineStyle, color⟩ := parts
  simp only [Parts.place?, Parts.fill, Parts.surplus, List.filter_cons, isOther]
  rcases kinds word with ⟨length, style⟩ | ⟨length, style⟩ | ⟨length, style⟩ <;>
    simp only [length, style]
  · cases width with
    | none => exact .inl ⟨_, rfl, rfl, rfl, rfl⟩
    | some width => exact .inr ⟨by simp, [], _, rfl, rfl, rfl, rfl⟩
  · cases lineStyle with
    | none => exact .inl ⟨⟨width, some word, color⟩, by simp, rfl, rfl, rfl⟩
    | some lineStyle =>
        exact .inr ⟨by simp, _, _, List.append_assoc .., List.append_assoc .., rfl, rfl⟩
  · exact .inr ⟨by simp, _, _, rfl, rfl, rfl, rfl⟩

/-- Words fill the parts of a border unless more than one of them is left for the color. -/
theorem foldlM_place?_eq (words : List String) (parts : Parts) :
    words.foldlM Parts.place? parts =
      if (parts.surplus words).length ≤ parts.color.isNone.toNat then some (parts.fill words)
      else none := by
  induction words generalizing parts with
  | nil => simp [Parts.surplus, Parts.fill]
  | cons word words ih =>
      rw [List.foldlM_cons]
      rcases place?_cases parts word words with
        ⟨next, placed, color, surplus, fill⟩ | ⟨placed, before, after, surplus, left, width, style⟩
      · rw [placed, Option.bind_eq_bind, Option.bind_some, ih, color, surplus, fill]
      · rw [placed, surplus]
        cases free : parts.color with
        | some color => simp
        | none =>
            have unseen : ({ parts with color := some word } : Parts).surplus words =
                before ++ after := left
            simp only [Option.isNone_none, Option.isNone_some, ↓reduceIte, Option.bind_eq_bind,
              Option.bind_some, ih, unseen, Bool.toNat_true, Bool.toNat_false, Nat.le_zero_eq,
              List.length_eq_zero_iff]
            -- The word takes the place of the color, so there may be no other word for it.
            have single : (before ++ word :: after).length ≤ 1 ↔ before ++ after = [] := by
              rw [← List.length_eq_zero_iff]
              simp only [List.length_append, List.length_cons]
              omega
            simp only [single]
            split
            · rename_i empty
              obtain ⟨rfl, rfl⟩ := List.append_eq_nil_iff.mp empty
              have own : parts.fill (word :: words) =
                  { parts.fill words with color := some word } := by
                simp only [Parts.fill, free, surplus, Parts.mk.injEq] at width style ⊢
                exact ⟨width, style, rfl⟩
              rw [own]
              rfl
            · rfl

/-- Words find their places if and only if at most one of them is left over for the color. -/
theorem isSome_foldlM_place? (words : List String) (parts : Parts) :
    (words.foldlM Parts.place? parts).isSome = true ↔
      (words.countP Scalar.isLengthWord - parts.width.isNone.toNat)
        + (words.countP lineStyles.contains - parts.lineStyle.isNone.toNat)
        + words.countP isOther ≤ parts.color.isNone.toNat := by
  have left : (parts.surplus words).length =
      (words.countP Scalar.isLengthWord - parts.width.isNone.toNat)
        + (words.countP lineStyles.contains - parts.lineStyle.isNone.toNat)
        + words.countP isOther := by
    simp only [Parts.surplus, List.length_append, List.length_drop, List.countP_eq_length_filter]
  rw [foldlM_place?_eq, left]
  split <;> simp_all

/-- A unit that the renderer has not is overlooked in a border if it is taken for the color: it
stands in the only word that is neither a length nor a style, and there is at most one of each. -/
def overlooks (value : String) : Bool :=
  (words value).countP Scalar.isLengthWord ≤ 1 && (words value).countP lineStyles.contains ≤ 1
    && (words value).countP isOther ≤ 1

theorem border?_isSome_iff {value word : String} (given : word ∈ words value)
    (unsupported : Measure.isUnsupported word = true) :
    (border? (stripped value)).isSome = true ↔ overlooks value = true := by
  have other := stripped_not_mem_ownWords given unsupported
  have nothing : ¬(stripped value = "none" ∨ stripped value = "0") := by
    rintro (same | same)
    · exact other (same ▸ by decide)
    · exact other (same ▸ by decide)
  have left : 0 < (words value).countP isOther := by
    have unlisted : word ∉ lineStyles := fun member => Scalar.not_mem_ownWords unsupported
      (List.mem_append_left _ (List.mem_append_right _ member))
    rw [List.countP_pos_iff]
    exact ⟨word, given, by simp [isOther, Scalar.isLengthWord_eq_false unsupported, unlisted]⟩
  rw [border?, if_neg nothing, Option.isSome_map, words_stripped, isSome_foldlM_place?, overlooks]
  simp only [Option.isNone_none, Bool.toNat_true, Bool.and_eq_true, decide_eq_true_eq]
  omega

end Border

namespace Shadow

/-- Words find their places if and only if at most one of them is no length, and that one is not
`inset`. -/
theorem foldlM_place?_eq (words : List String) (parts : Parts) :
    words.foldlM Parts.place? parts =
      if words.countP (!Scalar.isLengthWord ·) ≤ parts.color.isNone.toNat ∧ "inset" ∉ words then
        some ⟨parts.lengths ++ (words.filter Scalar.isLengthWord).map .read,
          parts.color.or (words.find? (!Scalar.isLengthWord ·))⟩
      else none := by
  induction words generalizing parts with
  | nil => simp
  | cons word words ih =>
      have inset : Scalar.isLengthWord "inset" = false := by decide
      rw [List.foldlM_cons, Parts.place?]
      cases length : Scalar.isLengthWord word with
      | true =>
          have apart : "inset" ≠ word := by
            rintro rfl
            rw [length] at inset
            cases inset
          simp [ih, length, apart]
      | false =>
          rcases parts with ⟨lengths, color⟩
          by_cases apart : "inset" = word
          · simp [← apart]
          · cases color with
            | some color => simp [length]
            | none => simp [ih, length, apart, Ne.symm apart]

theorem Parts.isSome_shadow?_iff (parts : Parts) :
    parts.shadow?.isSome = true ↔ parts.lengths.length = 2 ∨ parts.lengths.length = 3 := by
  rcases parts with ⟨lengths, color⟩
  rcases lengths with _ | ⟨width, _ | ⟨height, _ | ⟨radius, _ | ⟨other, others⟩⟩⟩⟩ <;>
    simp [shadow?]

/-- A unit that the renderer has not is overlooked in a shadow if it is taken for the color: it
stands in the only word that is no length, and the other words are enough for a shadow. -/
def overlooks (value : String) : Bool :=
  (items value).length ≤ 1 && (words value).countP (!Scalar.isLengthWord ·) ≤ 1
    && [2, 3].contains ((words value).countP Scalar.isLengthWord)

theorem read?_isSome_iff {value word : String} (given : word ∈ words value)
    (unsupported : Measure.isUnsupported word = true) :
    (read? (stripped value)).isSome = true ↔ overlooks value = true := by
  have other := stripped_not_mem_ownWords given unsupported
  have nothing : stripped value ≠ "none" := by
    intro same
    exact other (same ▸ by decide)
  have length := Scalar.isLengthWord_eq_false unsupported
  -- The word with the unit is the one that is no length, so there is no second one.
  have plain : (words value).countP (!Scalar.isLengthWord ·) ≤ 1 → "inset" ∉ words value := by
    intro single inset
    have kept : ∀ {other : String}, other ∈ words value → Scalar.isLengthWord other = false →
        other ∈ (words value).filter (!Scalar.isLengthWord ·) := by
      intro other member apart
      simp [member, apart]
    have first := kept given length
    have second := kept inset (by decide)
    rw [List.countP_eq_length_filter] at single
    have same : word = "inset" := by
      rcases List.mem_iff_getElem.mp first with ⟨i, inside, found⟩
      rcases List.mem_iff_getElem.mp second with ⟨j, within, also⟩
      have index : i = j := by omega
      subst index
      exact found.symm.trans also
    exact Scalar.not_mem_ownWords unsupported (same ▸ by decide)
  rw [read?, if_neg nothing, items_stripped, words_stripped, foldlM_place?_eq, overlooks]
  by_cases list : (items value).length > 1
  · simp [list, Nat.not_le.mpr list]
  · rw [if_neg list]
    by_cases single : (words value).countP (!Scalar.isLengthWord ·) ≤ 1
    · rw [if_pos ⟨single, plain single⟩, Option.bind_some, Parts.isSome_shadow?_iff]
      simp [Nat.not_lt.mp list, single, ← List.countP_eq_length_filter]
    · simp [single]

end Shadow

/-! ## Properties with lengths -/

namespace Translation

/-- Shorthands that read lengths. -/
def lengthShorthands : List String :=
  ["margin", "padding", "border-width", "border-radius", "border", "flex", "box-shadow",
    "text-shadow"]

/-- A unit that the renderer has not is overlooked in a value of a property: it is taken for a
color, or the property has one length and the value several words. -/
def overlooks (property value : String) : Bool :=
  match property with
  | "border" => Border.overlooks value
  | "box-shadow" | "text-shadow" => Shadow.overlooks value
  | property => Scalar.lengthProperties.contains property && 1 < (words value).length

variable {property value word : String}

/-- A property with one length refuses a single word with such a unit, and takes several words as
they are. -/
theorem expand?_isSome_iff_of_length (listed : property ∈ Scalar.lengthProperties)
    (given : word ∈ words value) (unsupported : Measure.isUnsupported word = true) :
    (expand? property (stripped value)).isSome = true ↔ 1 < (words value).length := by
  have ruled : ∀ property ∈ Scalar.lengthProperties, property ∉ ruledProperties := by
    decide +kernel
  have plain := expand?_of_not_mem_ruledProperties (ruled property listed) (stripped value)
  have custom : Scalar.isCustom property = false := by
    have checked : ∀ property ∈ Scalar.lengthProperties, Scalar.isCustom property = false := by
      decide +kernel
    exact checked property listed
  rw [plain, Single.plain?, Option.isSome_map, Scalar.ofValue?, custom,
    List.contains_iff_mem.mpr listed]
  rcases words_cases (List.ne_nil_of_mem given) with single | ⟨several, c, member, blank⟩
  · rw [single, List.mem_singleton] at given
    subst given
    simp [single, Scalar.readLength?_eq_none unsupported]
  · simp [several, Scalar.isSome_readLength? member blank]

theorem expand?_isSome_iff
    (measured : property ∈ Scalar.lengthProperties ∨ property ∈ lengthShorthands)
    (given : word ∈ words value) (unsupported : Measure.isUnsupported word = true) :
    (expand? property (stripped value)).isSome = true ↔ overlooks property value = true := by
  rcases measured with listed | shorthand
  · rw [expand?_isSome_iff_of_length listed given unsupported]
    unfold overlooks
    split
    · exact absurd listed (by decide)
    · exact absurd listed (by decide)
    · exact absurd listed (by decide)
    · simp [listed]
  · have lengths := Box.lengths?_eq_none given unsupported
    simp only [lengthShorthands, List.mem_cons, List.not_mem_nil, or_false] at shorthand
    have refused : ∀ {property : String}, expand? property (stripped value) = none →
        overlooks property value = false →
          ((expand? property (stripped value)).isSome = true ↔
            overlooks property value = true) := by
      intro property failed strict
      simp [failed, strict]
    rcases shorthand with rfl | rfl | rfl | rfl | rfl | rfl | rfl | rfl
    · exact refused (lengths _) rfl
    · exact refused (lengths _) rfl
    · exact refused (lengths _) rfl
    · refine refused ?_ rfl
      change Box.borderRadius? (stripped value) = none
      rw [Box.borderRadius?]
      split
      · rfl
      · exact lengths _
    · exact Border.border?_isSome_iff given unsupported
    · exact refused (Flex.flex?_eq_none given unsupported) rfl
    · exact (Bool.eq_iff_iff.mp Option.isSome_map).trans (Shadow.read?_isSome_iff given unsupported)
    · exact (Bool.eq_iff_iff.mp Option.isSome_map).trans (Shadow.read?_isSome_iff given unsupported)

end Translation

open Translation (lengthShorthands overlooks)

variable {property value word : String}

/-- A property with lengths refuses a value that has a word with a unit that the renderer has not,
unless it overlooks the unit; then it has styles. -/
theorem translateDeclarations_unsupported
    (measured : property ∈ Scalar.lengthProperties ∨ property ∈ lengthShorthands)
    (given : word ∈ words value) (unsupported : Measure.isUnsupported word = true) :
    (translateDeclarations [⟨property, value⟩] = .error (.inexpressible property (stripped value)) ↔
        overlooks property value = false) ∧
      ((∃ styles, translateDeclarations [⟨property, value⟩] = .ok styles) ↔
        overlooks property value = true) := by
  have named : property ∈ Scalar.lengthProperties ++ lengthShorthands :=
    List.mem_append.mpr measured
  have unmarked : Translation.keyframesName? ⟨property, value⟩ = none := by
    have checked : ∀ property ∈ Scalar.lengthProperties ++ lengthShorthands,
        Translation.keyframesMark.toList.isPrefixOf property.toList = false := by decide +kernel
    rw [Translation.keyframesName?, checked property named]
    rfl
  have plain : property ≠ "animation" ∧ property ≠ "animation-name" := by
    constructor
    · rintro rfl
      exact absurd named (by decide)
    · rintro rfl
      exact absurd named (by decide)
  rw [translateDeclarations_singleton unmarked plain,
    ← Translation.expand?_isSome_iff measured given unsupported, ← Bool.not_eq_true,
    ← Translation.expand?_isSome_iff measured given unsupported]
  cases Translation.expand? property (stripped value) <;> simp

/-- The width of a border that is taken for its color. -/
theorem not_refused_of_emWidth :
    "1em" ∈ words "1em solid" ∧ Measure.isUnsupported "1em" = true ∧
      translateDeclarations [⟨"border", "1em solid"⟩] =
        .ok (.ofList [("borderWidth", .integer 1), ("borderColor", .text "1em"),
          ("borderStyle", .text "solid")]) := by
  decide +kernel

/-- A radius is refused where a color is there already, and overlooked where there is none. -/
theorem translateDeclarations_unsupported_of_shadows :
    ("2em" ∈ words "1px 1px 2em red" ∧ Measure.isUnsupported "2em" = true ∧
      translateDeclarations [⟨"box-shadow", "1px 1px 2em red"⟩] =
        .error (.inexpressible "box-shadow" "1px 1px 2em red")) ∧
    ("2em" ∈ words "1px 1px 2em" ∧
      ∃ styles, translateDeclarations [⟨"text-shadow", "1px 1px 2em"⟩] = .ok styles) := by
  have unsupported : Measure.isUnsupported "2em" = true := by decide
  have colored : "2em" ∈ words "1px 1px 2em red" := by decide +kernel
  have plain : "2em" ∈ words "1px 1px 2em" := by decide +kernel
  have boxed : "box-shadow" ∈ lengthShorthands := by decide
  have texted : "text-shadow" ∈ lengthShorthands := by decide
  have refused := (translateDeclarations_unsupported (.inr boxed) colored unsupported).1
  have taken := (translateDeclarations_unsupported (.inr texted) plain unsupported).2
  exact ⟨⟨colored, unsupported, refused.mpr (by decide +kernel)⟩,
    plain, taken.mpr (by decide +kernel)⟩

end StyleObjects
