import StyleObjects.Proofs.Style.Aligned
import StyleObjects.Proofs.Style.Commas
import StyleObjects.Proofs.Style.Slots
import StyleObjects.Proofs.Style.Translated

/-!
# Words that fill slots

No word of a shorthand that is accepted is lost, and none is used twice: each fills a slot of its
own, in whichever order the words stand.  Only the lines of a decoration share a slot.
-/

namespace StyleObjects

open Value (IsOfWord)
open Accounts (OfSteps)

namespace Translation

/-- The values of a shorthand that are not read word by word. -/
def wholeValues : String → List String
  | "border" => ["none", "0"]
  | "flex" => ["none", "auto"]
  | "box-shadow" | "text-shadow" => ["none"]
  | _ => []

/-- What the slots of a shorthand hold that no word fills. -/
def constants : String → List (Slot × Value)
  | "border" => [(⟨"borderWidth", none⟩, .integer 1), (⟨"borderColor", none⟩, .text "black"),
      (⟨"borderStyle", none⟩, .text "solid")]
  | "flex" => [(⟨"flexGrow", none⟩, .integer 1), (⟨"flexShrink", none⟩, .integer 1),
      (⟨"flexBasis", none⟩, .integer 0)]
  | "flex-flow" => [(⟨"flexDirection", none⟩, .text "row"), (⟨"flexWrap", none⟩, .text "nowrap")]
  | "text-decoration" => [(⟨"textDecorationStyle", none⟩, .text "solid"),
      (⟨"textDecorationColor", none⟩, .text "black")]
  | "box-shadow" => [(⟨"shadowRadius", none⟩, .integer 0), (⟨"shadowColor", none⟩, .text "black"),
      (⟨"shadowOpacity", none⟩, .integer 1)]
  | "text-shadow" => [(⟨"textShadowRadius", none⟩, .integer 0),
      (⟨"textShadowColor", none⟩, .text "black")]
  | _ => []

end Translation

open Translation (wholeValues constants)

/-! ## Borders -/

namespace Border

/-- The slots of a border. -/
def Parts.fields (parts : Parts) : List Field := [
  ⟨⟨"borderWidth", none⟩, parts.width.map .scalar, .integer 1⟩,
  ⟨⟨"borderColor", none⟩, parts.color.map .text, .text "black"⟩,
  ⟨⟨"borderStyle", none⟩, parts.lineStyle.map .text, .text "solid"⟩]

theorem Parts.slots_styles (parts : Parts) : parts.styles.slots = parts.fields.map Field.entry := by
  obtain ⟨width, lineStyle, color⟩ := parts
  cases width <;> cases lineStyle <;> cases color <;> rfl

/-- A word takes one of the places that are free. -/
theorem ofSteps_place? :
    OfSteps (fun _ => true) IsOfWord Parts.place? fun parts => Field.values parts.fields := by
  intro parts word next placed
  rw [if_pos rfl]
  rw [Parts.place?] at placed
  split at placed
  · rename_i free
    rw [Bool.and_eq_true] at free
    cases placed
    exact ⟨_, .inr rfl, Field.perm_values free.1 .scalar _ [] _ _ _⟩
  · split at placed
    · rename_i free
      rw [Bool.and_eq_true] at free
      cases placed
      exact ⟨_, .inl rfl, Field.perm_values free.1 .text _ [_, _] [] _ _⟩
    · split at placed
      · rename_i free
        cases placed
        exact ⟨_, .inl rfl, Field.perm_values free .text _ [_] [_] _ _⟩
      · cases placed

theorem fills_of_border? {value : String} {styles : Styles} (read : value ∉ wholeValues "border")
    (found : border? value = some styles) :
    Fills (words value) styles.slots (constants "border") := by
  rw [border?, if_neg (by simpa [wholeValues] using read), Option.map_eq_some_iff] at found
  obtain ⟨parts, placed, rfl⟩ := found
  have accounts := Accounts.of_foldlM_of_every ofSteps_place? rfl placed
  rw [parts.slots_styles]
  refine .of_accounts ?_ accounts ?_
  · simp [Parts.fields]
  · simp [Parts.fields, Field.constant, constants]

end Border

/-! ## Flexible layout -/

namespace Flex

/-- The slots of growth, shrinkage and basis. -/
def fields (grow shrink basis : Option Scalar) : List Field := [
  ⟨⟨"flexGrow", none⟩, grow.map .scalar, .integer 1⟩,
  ⟨⟨"flexShrink", none⟩, shrink.map .scalar, .integer 1⟩,
  ⟨⟨"flexBasis", none⟩, basis.map .scalar, .integer 0⟩]

/-- A basis is the last word. -/
theorem exists_fields_of_basis {given : List String} {word : String} {found : Styles}
    {grow shrink : Option Scalar}
    (accounts : Accounts given (Field.values (fields grow shrink none)))
    (read : (Scalar.readLength? word).map
      (styles (grow.getD (.integer 1)) (shrink.getD (.integer 1))) = some found) :
    ∃ basis, found.slots = (fields grow shrink basis).map Field.entry ∧
      Accounts (given ++ [word]) (Field.values (fields grow shrink basis)) := by
  obtain ⟨basis, last, rfl⟩ := Option.map_eq_some_iff.mp read
  obtain ⟨values, related, ordered⟩ := accounts
  refine ⟨some basis, ?_, values ++ [.scalar basis], ?_, ?_⟩
  · cases grow <;> cases shrink <;> rfl
  · exact List.rel_append related (.cons (Scalar.isOfWord_of_readLength? last) .nil)
  · have added : Field.values (fields grow shrink (some basis)) =
        Field.values (fields grow shrink none) ++ [.scalar basis] := by
      cases grow <;> cases shrink <;> rfl
    rw [added]
    exact ordered.append_right _

/-- The first two numbers are growth and shrinkage, and a third number or another word the basis. -/
theorem exists_fields_of_ofWords? {numbers others : List String} {styles : Styles}
    (found : ofWords? numbers others = some styles) :
    ∃ grow shrink basis, styles.slots = (fields grow shrink basis).map Field.entry ∧
      Accounts (numbers ++ others) (Field.values (fields grow shrink basis)) := by
  have number (word : String) : IsOfWord word (.scalar (.read word)) := .inr rfl
  have neither : Accounts [] (Field.values (fields none none none)) := ⟨_, .nil, .refl _⟩
  have growth (grow : String) :
      Accounts [grow] (Field.values (fields (some (.read grow)) none none)) :=
    ⟨_, .cons (number grow) .nil, .refl _⟩
  have both (grow shrink : String) :
      Accounts [grow, shrink]
        (Field.values (fields (some (.read grow)) (some (.read shrink)) none)) :=
    ⟨_, .cons (number grow) (.cons (number shrink) .nil), .refl _⟩
  unfold ofWords? at found
  split at found
  · cases found
    exact ⟨_, _, _, rfl, neither⟩
  · cases found
    exact ⟨_, _, _, rfl, growth _⟩
  · cases found
    exact ⟨_, _, _, rfl, both _ _⟩
  · exact ⟨_, _, exists_fields_of_basis (both _ _) found⟩
  · exact ⟨_, _, exists_fields_of_basis neither found⟩
  · exact ⟨_, _, exists_fields_of_basis (growth _) found⟩
  · exact ⟨_, _, exists_fields_of_basis (both _ _) found⟩
  · cases found

theorem fills_of_flex? {value : String} {styles : Styles} (read : value ∉ wholeValues "flex")
    (found : flex? value = some styles) : Fills (words value) styles.slots (constants "flex") := by
  have unequal : value ≠ "none" ∧ value ≠ "auto" := by simpa [wholeValues] using read
  rw [flex?, if_neg unequal.1, if_neg unequal.2] at found
  obtain ⟨grow, shrink, basis, slots, accounts⟩ := exists_fields_of_ofWords? found
  rw [slots]
  refine .of_accounts ?_ (accounts.perm (List.filter_append_perm _ _).symm) ?_
  · simp [fields]
  · simp [fields, Field.constant, constants]

/-- The slots of a flow. -/
def Flow.fields (flow : Flow) : List Field := [
  ⟨⟨"flexDirection", none⟩, flow.direction.map .text, .text "row"⟩,
  ⟨⟨"flexWrap", none⟩, flow.wrap.map .text, .text "nowrap"⟩]

theorem ofSteps_place? :
    OfSteps (fun _ => true) IsOfWord Flow.place? fun flow => Field.values flow.fields := by
  intro flow word next placed
  rw [if_pos rfl]
  rw [Flow.place?] at placed
  split at placed
  · rename_i free
    rw [Bool.and_eq_true] at free
    cases placed
    exact ⟨_, .inl rfl, Field.perm_values free.1 .text _ [] _ _ _⟩
  · split at placed
    · rename_i free
      rw [Bool.and_eq_true] at free
      cases placed
      exact ⟨_, .inl rfl, Field.perm_values free.1 .text _ [_] [] _ _⟩
    · cases placed

theorem fills_of_flow? {value : String} {styles : Styles} (found : flow? value = some styles) :
    Fills (words value) styles.slots (constants "flex-flow") := by
  obtain ⟨flow, placed, rfl⟩ := Option.map_eq_some_iff.mp found
  have accounts := Accounts.of_foldlM_of_every ofSteps_place? rfl placed
  have slots : Styles.slots (.ofList [("flexDirection", .text (flow.direction.getD "row")),
      ("flexWrap", .text (flow.wrap.getD "nowrap"))]) = flow.fields.map Field.entry := by
    obtain ⟨direction, wrap⟩ := flow
    cases direction <;> cases wrap <;> rfl
  rw [slots]
  refine .of_accounts ?_ accounts ?_
  · simp [Flow.fields]
  · simp [Flow.fields, Field.constant, constants]

end Flex

/-! ## Decorations -/

namespace Decoration

/-- The lines among words, as one text. -/
def lineOf (words : List String) : String :=
  let lines := words.filter lineKinds.contains
  if lines.isEmpty then "none" else " ".intercalate lines

/-- The slots of a decoration but that of its lines. -/
def Parts.fields (parts : Parts) : List Field := [
  ⟨⟨"textDecorationStyle", none⟩, parts.lineStyle.map .text, .text "solid"⟩,
  ⟨⟨"textDecorationColor", none⟩, parts.color.map .text, .text "black"⟩]

theorem ofSteps_place? :
    OfSteps (!lineKinds.contains ·) IsOfWord Parts.place?
      fun parts => Field.values parts.fields := by
  intro parts word next placed
  rw [Parts.place?] at placed
  split at placed
  · rename_i line
    cases placed
    simp only [line, Bool.not_true, Bool.false_eq_true, if_false]
    rfl
  · rename_i other
    rw [if_pos (by simpa using other)]
    split at placed
    · rename_i free
      rw [Bool.and_eq_true] at free
      cases placed
      exact ⟨_, .inl rfl, Field.perm_values free.1 .text _ [] _ _ _⟩
    · split at placed
      · rename_i free
        cases placed
        exact ⟨_, .inl rfl, Field.perm_values free .text _ [_] [] _ _⟩
      · cases placed

/-- The lines are kept in their order. -/
theorem lines_of_foldlM {words : List String} {parts final : Parts}
    (found : words.foldlM Parts.place? parts = some final) :
    final.lines = parts.lines ++ words.filter lineKinds.contains := by
  induction words generalizing parts with
  | nil =>
      cases found
      simp
  | cons word words ih =>
      rw [List.foldlM_cons, Option.bind_eq_bind, Option.bind_eq_some_iff] at found
      obtain ⟨next, placed, others⟩ := found
      rw [ih others]
      unfold Parts.place? at placed
      split at placed
      · rename_i line
        cases placed
        rw [List.filter_cons_of_pos line, List.append_assoc, List.singleton_append]
      · rename_i other
        rw [List.filter_cons_of_neg other]
        split at placed
        · cases placed
          rfl
        · split at placed <;> cases placed
          rfl

/-- The lines share a slot, and each other word has its own. -/
theorem fills_of_decoration? {value : String} {styles : Styles}
    (found : decoration? value = some styles) :
    ∃ others, styles.slots =
        (⟨"textDecorationLine", none⟩, .text (lineOf (words value))) :: others ∧
      Fills ((words value).filter (!lineKinds.contains ·)) others
        (constants "text-decoration") := by
  obtain ⟨parts, placed, consistent⟩ := Option.bind_eq_some_iff.mp found
  rw [Option.ite_none_right_eq_some] at consistent
  cases consistent.2
  have accounts := Accounts.of_foldlM ofSteps_place? rfl placed
  have lines : parts.lines = (words value).filter lineKinds.contains := lines_of_foldlM placed
  refine ⟨parts.fields.map Field.entry, ?_, .of_accounts ?_ accounts ?_⟩
  · rw [lineOf, ← lines]
    obtain ⟨lines, lineStyle, color⟩ := parts
    cases lineStyle <;> cases color <;> rfl
  · simp [Parts.fields]
  · simp [Parts.fields, Field.constant, constants]

end Decoration

/-! ## Shadows -/

namespace Shadow

/-- What the words of a shadow have given so far. -/
def Parts.held (parts : Parts) : List Value :=
  parts.lengths.map .scalar ++ parts.color.toList.map .text

theorem ofSteps_place? : OfSteps (fun _ => true) IsOfWord Parts.place? Parts.held := by
  intro parts word next placed
  rw [if_pos rfl]
  unfold Parts.place? at placed
  split at placed
  · cases placed
    refine ⟨_, .inr rfl, ?_⟩
    simp [Parts.held, List.perm_middle]
  · split at placed
    · rename_i free
      rw [Bool.and_eq_true, Option.isNone_iff_eq_none] at free
      cases placed
      refine ⟨_, .inl rfl, ?_⟩
      simp [Parts.held, free.1]
    · cases placed

/-- A shadow has two offsets, and it may have a radius and a color. -/
theorem Parts.exists_of_shadow? {parts : Parts} {shadow : Shadow}
    (found : parts.shadow? = some shadow) :
    ∃ (width height : Scalar) (radius : Option Scalar) (color : Option String),
      parts = ⟨width :: height :: radius.toList, color⟩ ∧
        shadow = ⟨width, height, radius.getD (.integer 0), color.getD "black"⟩ := by
  obtain ⟨lengths, color⟩ := parts
  match lengths with
  | [width, height] =>
      cases found
      exact ⟨width, height, none, color, rfl, rfl⟩
  | [width, height, radius] =>
      cases found
      exact ⟨width, height, some radius, color, rfl, rfl⟩
  | [] | [_] | _ :: _ :: _ :: _ :: _ => cases found

/-- The slots of a shadow under three keys. -/
def slots (shadow : Shadow) (offset radius color : String) : List (Slot × Value) := [
  (⟨offset, some "width"⟩, .scalar shadow.width), (⟨offset, some "height"⟩, .scalar shadow.height),
  (⟨radius, none⟩, .scalar shadow.radius), (⟨color, none⟩, .text shadow.color)]

/-- The offsets of a shadow are always filled; its radius and its color may be constants. -/
theorem fills_of_read? {value : String} (given : value ≠ "none") {shadow : Shadow}
    (found : read? value = some shadow) (offset radius color : String)
    (apart : ((shadow.slots offset radius color).map Prod.fst).Nodup) :
    Fills (words value) (shadow.slots offset radius color)
      [(⟨radius, none⟩, .integer 0), (⟨color, none⟩, .text "black")] := by
  rw [read?, if_neg given, Option.ite_none_left_eq_some, Option.bind_eq_some_iff] at found
  obtain ⟨-, parts, placed, chosen⟩ := found
  have accounts := Accounts.of_foldlM_of_every ofSteps_place? rfl placed
  obtain ⟨width, height, third, own, rfl, rfl⟩ := parts.exists_of_shadow? chosen
  let fields : List Field := [
    ⟨⟨offset, some "width"⟩, some (.scalar width), .integer 0⟩,
    ⟨⟨offset, some "height"⟩, some (.scalar height), .integer 0⟩,
    ⟨⟨radius, none⟩, third.map .scalar, .integer 0⟩,
    ⟨⟨color, none⟩, own.map .text, .text "black"⟩]
  have entries : Shadow.slots ⟨width, height, third.getD (.integer 0), own.getD "black"⟩
      offset radius color = fields.map Field.entry := by
    cases third <;> cases own <;> rfl
  rw [entries]
  refine .of_accounts apart ?_ ?_
  · cases third <;> cases own <;> exact accounts
  · simp [fields, Field.constant]

theorem fills_of_box? {value : String} {styles : Styles} (read : value ∉ wholeValues "box-shadow")
    (found : box? value = some styles) :
    Fills (words value) styles.slots (constants "box-shadow") := by
  obtain ⟨shadow, own, rfl⟩ := Option.map_eq_some_iff.mp found
  have fills := fills_of_read? (by simpa [wholeValues] using read) own "shadowOffset" "shadowRadius"
    "shadowColor" (by simp [slots])
  exact fills.append [(⟨"shadowOpacity", none⟩, .integer 1)] (by simp [slots])

theorem fills_of_text? {value : String} {styles : Styles} (read : value ∉ wholeValues "text-shadow")
    (found : text? value = some styles) :
    Fills (words value) styles.slots (constants "text-shadow") := by
  obtain ⟨shadow, own, rfl⟩ := Option.map_eq_some_iff.mp found
  exact fills_of_read? (by simpa [wholeValues] using read) own "textShadowOffset"
    "textShadowRadius" "textShadowColor" (by simp [slots])

end Shadow

/-! ## Animations -/

namespace Animation

variable {ε : Type} {rejected : ε} {frames : String → Except ε (Option Frames)}

/-- What a word of an animation gives: itself, or the frames that are bound to it. -/
def IsPart (word : String) (value : Value) : Prop :=
  IsOfWord word value ∨ ∃ bound, value = .ofFrames bound

theorem isPart_of_bind {word : String} {value : Value} (found : bind frames word = .ok value) :
    IsPart word value := by
  rw [bind] at found
  cases looked : frames word with
  | error cause => simp [looked, Except.map] at found
  | ok bound =>
      simp only [looked, Except.map, Except.ok.injEq] at found
      cases bound with
      | none => exact .inl (.inl found.symm)
      | some bound => exact .inr ⟨bound, found.symm⟩

/-- A word is entered under a key that is not taken. -/
theorem exists_of_place {styles next : Styles} {word : String}
    (placed : (place rejected frames styles word).toOption = some next) :
    ∃ key value, IsPart word value ∧ key ∉ styles.keys ∧ next = styles.insert key value := by
  have entered : place rejected frames styles word = .ok next := by
    cases result : place rejected frames styles word with
    | error cause => simp [result, Except.toOption] at placed
    | ok found => simpa [result, Except.toOption] using placed
  obtain ⟨key, value, given, free⟩ := place_eq_ok_iff.mp entered
  refine ⟨key, value, ?_, free⟩
  cases given with
  | inl part => exact .inl (isOfWord_of_part? part)
  | inr name => exact isPart_of_bind name.2.2

theorem ofSteps_place? :
    OfSteps (fun _ => true) IsPart
      (fun styles word => (place rejected frames styles word).toOption) Table.values := by
  intro styles word next placed
  obtain ⟨key, value, own, free, rfl⟩ := exists_of_place placed
  rw [if_pos rfl]
  refine ⟨value, own, ?_⟩
  rw [Table.values, Table.entries_insert_of_notMem free, List.map_append]
  exact List.perm_append_singleton value styles.values

/-- One animation has a key for each of its words, and holds the words but for bound frames. -/
theorem fills_of_single {item : String} {styles : Styles}
    (found : single rejected frames item = .ok styles)
    (unbound : ∀ bound, Value.ofFrames bound ∉ styles.values) :
    Fills (words item) styles.slots [] := by
  have run := Lists.foldlM_toOption found
  obtain ⟨given, related, ordered⟩ := Accounts.exists_of_foldlM ofSteps_place? run
  rw [List.filter_true] at related
  have held : given.Perm styles.values := by
    simpa [Table.values, Table.empty] using ordered.symm
  have own : List.Forall₂ IsOfWord (words item) given := by
    have parts := (List.forall₂_and_left _ _).mpr
      ⟨fun value (member : value ∈ given) => held.mem_iff.mp member, related.flip⟩
    refine (parts.imp fun value word part => ?_).flip
    cases part.2 with
    | inl own => exact own
    | inr framed =>
        obtain ⟨bound, same⟩ := framed
        exact absurd (same ▸ part.1) (unbound bound)
  exact .of_values ⟨given, own, held⟩

end Animation

/-! ## All of them -/

namespace Translation

/-- The words of an accepted shorthand fill its slots, unless the value is one that is not read word
by word.  The lines of a decoration share one slot, and the other words fill the other ones.  An
animation is cut at its commas before it is cut into words.  If it has only one item, the words of
this item fill its slots, unless one of them names frames; the words of the value do so if and only
if the value has no comma at its top level. -/
theorem words_fill_slots :
    (∀ property ∈ ["border", "flex", "flex-flow", "box-shadow", "text-shadow"],
      ∀ value ∉ wholeValues property, ∀ styles, expand? property value = some styles →
        Fills (words value) styles.slots (constants property)) ∧
    (∀ value styles, expand? "text-decoration" value = some styles →
      ∃ others, styles.slots =
          (⟨"textDecorationLine", none⟩, .text (Decoration.lineOf (words value))) :: others ∧
        Fills ((words value).filter (!Decoration.lineKinds.contains ·)) others
          (constants "text-decoration")) ∧
    ∀ (ε : Type) (rejected : ε) (frames : String → Except ε (Option Frames))
      (value item : String) (styles : Styles), items value = [item] →
      Animation.animation rejected frames value = .ok styles →
      (∀ bound, Value.ofFrames bound ∉ styles.values) →
        Fills (words item) styles.slots (constants "animation") ∧
          (Fills (words value) styles.slots (constants "animation") ↔ HidesCommas value) := by
  refine ⟨?_, fun value styles => Decoration.fills_of_decoration?, ?_⟩
  · intro property listed value read styles found
    simp only [List.mem_cons, List.not_mem_nil, or_false] at listed
    rcases listed with rfl | rfl | rfl | rfl | rfl
    · exact Border.fills_of_border? read found
    · exact Flex.fills_of_flex? read found
    · exact Flex.fills_of_flow? found
    · exact Shadow.fills_of_box? read found
    · exact Shadow.fills_of_text? read found
  · intro ε rejected frames value item styles alone found unbound
    rw [Animation.animation_of_items_eq_singleton alone] at found
    have filled := Animation.fills_of_single found unbound
    refine ⟨filled, fun own => ?_, fun hides => ?_⟩
    · have hidden : HidesCommas item :=
        Separator.hidesCommas_of_mem_items (alone ▸ List.mem_cons_self)
      rw [Separator.hidesCommas_iff_words] at hidden ⊢
      exact filled.hidesCommas own hidden
    · rw [Separator.eq_stripped_of_hidesCommas hides alone, words_stripped] at filled
      exact filled

/-- Words of a border out of order, of a decoration with two lines, and of animations with a comma
at the end and with commas in parentheses. -/
theorem words_fill_slots_of_anyOrder :
    let border : Styles := .ofList [("borderWidth", .ofNumber (.ofDecimal false 15 (-1))),
      ("borderColor", .text "rgb(0, 0, 0)"), ("borderStyle", .text "solid")]
    let decoration : Styles := .ofList [("textDecorationLine", .text "overline underline"),
      ("textDecorationStyle", .text "solid"), ("textDecorationColor", .text "red")]
    let animation : Styles := .ofList [("animationName", .text "none"),
      ("animationFillMode", .text "none"), ("animationIterationCount", .integer 2)]
    let timed : Styles := .ofList [("animationTimingFunction", .text "steps(2, end)"),
      ("animationName", .text "x")]
    expand? "border" "rgb(0, 0, 0) 1.50px" = some border ∧
      Fills ["rgb(0, 0, 0)", "1.50px"] border.slots (constants "border") ∧
      expand? "text-decoration" "overline red underline" = some decoration ∧
      (∃ others, decoration.slots =
          (⟨"textDecorationLine", none⟩, .text "overline underline") :: others ∧
        Fills ["red"] others (constants "text-decoration")) ∧
      Animation.animation () (fun _ => .ok none) "none none 2.0," = .ok animation ∧
      Fills ["none", "none", "2.0"] animation.slots (constants "animation") ∧
      Animation.animation () (fun _ => .ok none) "steps(2, end) x" = .ok timed ∧
      Fills ["steps(2, end)", "x"] timed.slots (constants "animation") := by
  intro border decoration animation timed
  have bordered : expand? "border" "rgb(0, 0, 0) 1.50px" = some border := by decide +kernel
  have decorated : expand? "text-decoration" "overline red underline" = some decoration := by
    decide +kernel
  have animated : Animation.animation () (fun _ => .ok none) "none none 2.0," = .ok animation := by
    decide +kernel
  have stepped : Animation.animation () (fun _ => .ok none) "steps(2, end) x" = .ok timed := by
    decide +kernel
  obtain ⟨shorthands, decorations, animations⟩ := words_fill_slots
  refine ⟨bordered, ?_, decorated, ?_, animated, ?_, stepped, ?_⟩
  · have cut : words "rgb(0, 0, 0) 1.50px" = ["rgb(0, 0, 0)", "1.50px"] := by decide +kernel
    exact cut ▸ shorthands "border" (by decide) _ (by decide) border bordered
  · have line : Decoration.lineOf (words "overline red underline") = "overline underline" := by
      decide +kernel
    have color : (words "overline red underline").filter (!Decoration.lineKinds.contains ·) =
        ["red"] := by decide +kernel
    have own := decorations _ decoration decorated
    rwa [line, color] at own
  · have cut : words "none none 2.0" = ["none", "none", "2.0"] := by decide +kernel
    have unbound : ∀ bound, Value.ofFrames bound ∉ animation.values := by
      intro bound member
      have held : animation.values = [.text "none", .text "none", .integer 2] := by rfl
      simp [held, Value.ofFrames, Value.text, Value.integer] at member
    exact cut ▸ (animations Unit () _ _ "none none 2.0" animation (by decide +kernel) animated
      unbound).1
  · have cut : words "steps(2, end) x" = ["steps(2, end)", "x"] := by decide +kernel
    have unbound : ∀ bound, Value.ofFrames bound ∉ timed.values := by
      intro bound member
      have held : timed.values = [.text "steps(2, end)", .text "x"] := by rfl
      simp [held, Value.ofFrames, Value.text] at member
    have hides : HidesCommas "steps(2, end) x" := by decide +kernel
    exact cut ▸ (animations Unit () _ _ "steps(2, end) x" timed (by decide +kernel) stepped
      unbound).2.mpr hides

/-- A comma at the end of a single animation is part of the last word of the value, and no slot
holds it. -/
theorem not_words_fill_slots_of_trailingComma :
    let animation : Styles := .ofList [("animationName", .text "x")]
    items "x," = ["x"] ∧
      Animation.animation () (fun _ => .ok none) "x," = .ok animation ∧
      (∀ bound, Value.ofFrames bound ∉ animation.values) ∧
      ¬Fills (words "x,") animation.slots (constants "animation") := by
  intro animation
  refine ⟨by decide +kernel, by decide +kernel, ?_, ?_⟩
  · intro bound member
    have held : animation.values = [.text "x"] := by rfl
    simp [held, Value.ofFrames, Value.text] at member
  · have cut : words "x," = ["x,"] := by decide +kernel
    have slots : animation.slots = [(⟨"animationName", none⟩, .text "x")] := by rfl
    rw [cut, slots]
    rintro ⟨-, slotOf, -, held, -⟩
    obtain ⟨value, inside, own⟩ := held 0
    have same : value = .text "x" := congrArg Prod.snd (List.mem_singleton.mp inside)
    rw [same] at own
    rcases own with text | read
    · exact absurd text (by decide +kernel)
    · exact absurd read (by decide +kernel)

end Translation

end StyleObjects
