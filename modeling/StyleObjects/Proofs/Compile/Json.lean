import StyleObjects.Compile.Wire
import StyleObjects.Proofs.Compile.Run
import StyleObjects.Proofs.Json.Validity
import StyleObjects.Proofs.Style.Numbers

/-!
# The wire format as JSON text

The text of the wire format is read back as the wire format.  It follows the grammar of JSON if and
only if all numbers in it are finite.  That they are is not checked: it depends on the declarations
that are translated, and on those of their keyframes.
-/

namespace StyleObjects

/-! ## Values -/

namespace Value

theorem toJsonList_eq (items : List Value) : toJsonList items = items.map toJson := by
  induction items with
  | nil => rfl
  | cons item items ih => rw [toJsonList, ih, List.map_cons]

theorem toJsonFields_eq (entries : List (String × Value)) :
    toJsonFields entries = entries.map fun entry => (entry.1, entry.2.toJson) := by
  induction entries with
  | nil => rfl
  | cons entry entries ih => rw [toJsonFields, ih, List.map_cons]

/-- What holds of the numbers in a value holds of those in its JSON form. -/
theorem Every.everyReal {holds : Binary64 → Prop} {value : Value}
    (every : value.Every (Scalar.Real holds)) : value.toJson.EveryReal holds := by
  induction every with
  | @scalar scalar known =>
      cases scalar with
      | integer value => exact .integer value
      | real value => exact .real known
      | text value => exact .text value
  | list _ ih =>
      rw [toJson, toJsonList_eq]
      exact .array (List.forall_mem_map.mpr ih)
  | map _ ih =>
      rw [toJson, toJsonFields_eq]
      exact .object (List.forall_mem_map.mpr ih)

end Value

/-! ## Outputs -/

namespace Output

/-- Something holds of all scalars in the styles of an output. -/
structure Every (holds : Scalar → Prop) (output : Output) : Prop where
  classes : output.classes.Every (Styles.Every holds)
  media : output.media.Every (Table.Every (Styles.Every holds))

theorem every_empty {holds : Scalar → Prop} : ({} : Output).Every holds :=
  ⟨Table.every_empty, Table.every_empty⟩

theorem Every.alter {holds : Scalar → Prop} {output : Output} (every : output.Every holds)
    (entry : Entry) {change : Styles → Styles}
    (kept : ∀ styles : Styles, styles.Every holds → (change styles).Every holds) :
    (output.alter entry change).Every holds := by
  cases entry with
  | top key => exact ⟨every.classes.alter key Table.every_empty kept, every.media⟩
  | inMedia media key =>
      exact ⟨every.classes, every.media.alter media Table.every_empty fun block known =>
        known.alter key Table.every_empty kept⟩

/-- Queries have no numbers, only texts. -/
theorem everyReal_queriesToJson (holds : Binary64 → Prop) (queries : Table (List MediaQuery)) :
    (queriesToJson queries).EveryReal holds := by
  have text : ∀ text : Option String, (Json.ofText? text).EveryReal holds := by
    intro text
    cases text with
    | none => exact .null
    | some text => exact .text text
  refine .object (Table.every_map_iff.mpr fun entry _ => .array (List.forall_mem_map.mpr ?_))
  intro query _
  refine .object ?_
  simp only [List.forall_mem_cons]
  refine ⟨.bool _, .text _, .array (List.forall_mem_map.mpr ?_), List.forall_mem_nil _⟩
  intro expression _
  refine .object ?_
  simp only [List.forall_mem_cons]
  exact ⟨text _, .text _, text _, List.forall_mem_nil _⟩

/-- What holds of the numbers in the styles of an output holds of those in its wire format. -/
theorem Every.everyReal {holds : Binary64 → Prop} {output : Output}
    (every : output.Every (Scalar.Real holds)) : output.wire.EveryReal holds := by
  have styles : ∀ {block : Table Styles}, block.Every (Styles.Every (Scalar.Real holds)) →
      (block.map stylesToJson).Every (Json.EveryReal holds) := fun known =>
    Table.every_map_iff.mpr fun entry member =>
      (.map (known entry member) : (Value.ofStyles entry.2).Every _).everyReal
  refine .object (Table.every_ofList ?_)
  simp only [wireFields, List.forall_mem_append]
  refine ⟨⟨⟨⟨styles every.classes, ?_⟩, ?_⟩, ?_⟩, ?_⟩
  · exact Table.every_map_iff.mpr fun entry member => .object (styles (every.media entry member))
  · split
    · exact List.forall_mem_nil _
    · exact List.forall_mem_singleton.mpr (everyReal_queriesToJson holds output.queries)
  · split
    · exact List.forall_mem_singleton.mpr (.bool _)
    · exact List.forall_mem_nil _
  · exact Table.every_map_iff.mpr fun entry _ => .text entry.2

end Output

/-! ## Compilations -/

/-- A declaration that a compilation translates: one of its steps, with the lengths in pixels, or one
of the frames of its keyframes. -/
inductive Compilation.Translates (options : Options) (source : String) (rules : Stylesheet) :
    Declaration → Prop where
  | step {entry : Entry} {declaration converted : Declaration}
      (member : .declare entry declaration ∈ Plan.steps options rules)
      (written : (contextOf options (cutOf options source)).convert declaration = .ok converted) :
      Translates options source rules converted
  | frame {block : String × String} {frames : Stylesheet} {selectors : List String}
      {declarations : List Declaration} {declaration : Declaration}
      (cut : block ∈ (cutOf options source).table.entries)
      (parsed : Stylesheet.parse block.2 = .ok frames)
      (rule : .style selectors declarations ∈ frames) (member : declaration ∈ declarations) :
      Translates options source rules declaration

namespace Context

variable {context : Context} {declaration : Declaration} {holds : Scalar → Prop}

/-- What holds of everything that may be read from a declaration with its lengths in pixels, and
from the keyframes, holds of the styles of the declaration. -/
theorem gives_stylesOf (framed : context.Admits holds)
    (known : ∀ converted, context.convert declaration = .ok converted → converted.Admits holds) :
    Gives (Styles.Every holds) (context.stylesOf declaration) := by
  unfold stylesOf
  cases written : context.convert declaration with
  | error cause => exact .error cause
  | ok converted =>
      have guarded : Gives (fun _ => True) (guardLineHeight converted) := fun _ _ => trivial
      exact guarded.bind fun _ _ => gives_lower framed (known converted written)

end Context

section Steps

variable {context : Context} {holds : Scalar → Prop}

/-- A step that can be taken adds only what may be read from its declaration. -/
theorem Step.Takes.every {step : Step} {output next : Output}
    (taken : Step.Takes context output step next) (framed : context.Admits holds)
    (known : ∀ entry declaration, step = .declare entry declaration → ∀ converted,
      context.convert declaration = .ok converted → converted.Admits holds)
    (every : output.Every holds) : next.Every holds := by
  cases taken with
  | skip | exportValue | recordQueries => exact ⟨every.classes, every.media⟩
  | touch entry => exact every.alter entry fun _ kept => kept
  | @declare declaration styles entry lowered =>
      have own := Context.gives_stylesOf framed (known entry declaration rfl) styles lowered
      have noted : (output.noteViewport context declaration).Every holds :=
        ⟨every.classes, every.media⟩
      exact noted.alter entry fun _ kept => kept.merge own

theorem Takes.every {steps : List Step} {output final : Output}
    (taken : Takes context steps output final) (framed : context.Admits holds)
    (known : ∀ entry declaration, .declare entry declaration ∈ steps → ∀ converted,
      context.convert declaration = .ok converted → converted.Admits holds)
    (every : output.Every holds) : final.Every holds := by
  induction taken with
  | nil => exact every
  | cons first rest ih =>
      refine ih (fun entry declaration member => ?_) (first.every framed ?_ every)
      · exact known entry declaration (List.mem_cons_of_mem _ member)
      · exact fun entry declaration same => known entry declaration (same ▸ List.mem_cons_self)

end Steps

section Compiled

variable {options : Options} {source : String} {rules : Stylesheet} {output : Output}

/-- What holds of everything that may be read from the translated declarations holds of all scalars
in a compiled output. -/
theorem compile_every {holds : Scalar → Prop}
    (parsed : Stylesheet.parse (Compilation.cutOf options source).text = .ok rules)
    (compiled : compile options source = .ok output)
    (known : ∀ declaration, Compilation.Translates options source rules declaration →
      declaration.Admits holds) : output.Every holds := by
  refine (compile_takes parsed compiled).every ?_ ?_ Output.every_empty
  · intro block cut frames read selectors declarations rule declaration member
    exact known declaration (.frame cut read rule member)
  · exact fun entry declaration member converted written => known converted (.step member written)

/-- The text of a compiled output is read back as its wire format.  It follows the grammar of JSON if
and only if all numbers in it are finite, and they are if everything that is translated is in
range. -/
theorem compile_isJson_iff
    (parsed : Stylesheet.parse (Compilation.cutOf options source).text = .ok rules)
    (compiled : compile options source = .ok output) (layout : Json.Layout) :
    Json.parse? (output.wire.render layout) = some output.wire ∧
      (Json.IsJson (output.wire.render layout).toList ↔
        output.wire.EveryReal fun number => number.isFinite = true) ∧
      ((∀ declaration, Compilation.Translates options source rules declaration →
          declaration.IsInRange) →
        output.wire.EveryReal fun number => number.isFinite = true) := by
  have normal : output.wire.EveryReal Binary64.IsNormal :=
    (compile_every parsed compiled fun _ _ _ read => read.isNormal).everyReal
  exact ⟨Json.parse?_render normal layout, Json.isJson_render_iff normal layout, fun inRange =>
    (compile_every parsed compiled fun declaration translated =>
      (inRange declaration translated).admits).everyReal⟩

end Compiled

/-- A text with a length that is in range. -/
def measuredText : CompiledText {} where
  source := ".a \x7b width: 1.5px \x7d"
  rules := [.style [".a"] [⟨"width", "1.5px"⟩]]
  output := {
    classes := .ofList
      [("a", .ofList [("width", .scalar (.real (.finite false 6755399441055744 (-52))))])] }
  parsed := ok_of_toOption (by decide +kernel)
  ran := by decide +kernel

/-- All that may be read from a length without blanks, commas and slashes is the length. -/
theorem Translation.Piece.eq_of_measuredText {piece : String} (own : Piece "1.5px" piece) :
    piece = "1.5px" := by
  have uncalled : Transform.takeFunction? "1.5px".toList = none := by decide +kernel
  have single : words "1.5px" = ["1.5px"] ∧ words (Single.spaceSlashes "1.5px") = ["1.5px"] ∧
      items "1.5px" = ["1.5px"] := by decide +kernel
  cases own with
  | whole => rfl
  | word member => exact List.mem_singleton.mp (single.1 ▸ member)
  | spaced member => exact List.mem_singleton.mp (single.2.1 ▸ member)
  | item listed member =>
      cases List.mem_singleton.mp (single.2.2 ▸ listed)
      exact List.mem_singleton.mp (single.1 ▸ member)
  | argument given =>
      cases given with
      | here found | later found => cases uncalled.symm.trans found

theorem Declaration.isInRange_of_measuredText :
    (⟨"width", "1.5px"⟩ : Declaration).IsInRange := by
  have trimmed : Text.stripped "1.5px" = "1.5px" := by decide +kernel
  have read : Measure.read? "1.5px" =
      some ⟨⟨false, ⟨['1'], ['5'], false, []⟩⟩, ['p', 'x']⟩ := by decide +kernel
  refine ⟨fun piece own measure found _ => ?_, fun ratio => absurd ratio (by decide)⟩
  rw [trimmed] at own
  rw [own.eq_of_measuredText, read, Option.some.injEq] at found
  subst found
  have digits : Text.digitsValue ['1', '5'] = 15 := by decide
  have value : (⟨['1'], ['5'], false, []⟩ : Numeral).value = 15 * 10 ^ (-1 : Int) := by
    rw [Numeral.value, List.singleton_append, digits]
    rfl
  have power : (1 : ℚ) ≤ 2 ^ Binary64.maxExponent := one_le_zpow₀ one_le_two (by decide)
  rw [value, Binary64.overflow]
  calc (15 : ℚ) * 10 ^ (-1 : Int) < 2 ^ 53 - 1 / 2 := by norm_num
    _ ≤ (2 ^ 53 - 1 / 2) * 2 ^ Binary64.maxExponent :=
        le_mul_of_one_le_right (by norm_num) power

theorem compile_isJson_iff_of_measuredText :
    compile {} measuredText.source = .ok measuredText.output ∧
      Json.parse? (measuredText.output.wire.render (.indented 2)) = some measuredText.output.wire ∧
      Json.IsJson (measuredText.output.wire.render (.indented 2)).toList := by
  have known := compile_isJson_iff measuredText.parsed measuredText.compiled (.indented 2)
  refine ⟨measuredText.compiled, known.1, known.2.1.mpr (known.2.2 fun declaration given => ?_)⟩
  cases given with
  | @step entry own _ member written =>
      have steps : Plan.steps {} measuredText.rules =
          [.touch (.top "a"), .declare (.top "a") ⟨"width", "1.5px"⟩] := by decide +kernel
      have pixels : (Compilation.contextOf {} (Compilation.cutOf {} measuredText.source)).convert
          ⟨"width", "1.5px"⟩ = .ok ⟨"width", "1.5px"⟩ := ok_of_toOption (by decide +kernel)
      rw [steps] at member
      simp only [List.mem_cons, reduceCtorEq, Step.declare.injEq, List.not_mem_nil, or_false,
        false_or] at member
      rw [member.2, pixels] at written
      cases written
      exact Declaration.isInRange_of_measuredText
  | frame cut => cases cut

/-- A text with a length that is out of range. -/
def unboundedText : CompiledText {} where
  source := ".a \x7b width: 1e400px \x7d"
  rules := [.style [".a"] [⟨"width", "1e400px"⟩]]
  output := {
    classes := .ofList [("a", .ofList [("width", .scalar (.real (.infinite false)))])] }
  parsed := ok_of_toOption (by decide +kernel)
  ran := by decide +kernel

/-- A length that is out of range is shown as an infinity, so the text is not JSON. -/
theorem not_isJson_of_unboundedText :
    compile {} unboundedText.source = .ok unboundedText.output ∧
      unboundedText.output.wire.render .compact =
        "\x7b\"a\": \x7b\"width\": Infinity\x7d\x7d" ∧
      ¬Json.IsJson (unboundedText.output.wire.render .compact).toList := by
  have rendered : unboundedText.output.wire.render .compact =
      "\x7b\"a\": \x7b\"width\": Infinity\x7d\x7d" := by decide +kernel
  refine ⟨unboundedText.compiled, rendered, fun text => ?_⟩
  rw [rendered] at text
  exact absurd text.isAllowed.2 (by decide)

end StyleObjects
