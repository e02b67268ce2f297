import StyleObjects.Compile.Wire
import StyleObjects.Proofs.Compile.Orthogonality
import StyleObjects.Proofs.Compile.Record
import StyleObjects.Proofs.Stylesheet.Properties

/-!
# Names in the wire format

The wire format has the styles, the media rules, their queries, the mark for lengths of the viewport
and the exported values as fields of one object, so one of them can take the place of another that
has its name.  A media rule has a space in its name and an exported value is named by a property, so
these stay apart from the two reserved names and from each other; a class can be called anything.
-/

namespace StyleObjects

/-! ## Fields of the wire format -/

namespace Output

/-- The queries and the mark, where they are in the wire format. -/
def reserved? (output : Output) (name : String) : Option Json :=
  if name = queriesKey ∧ output.queries.isEmpty = false then some (queriesToJson output.queries)
  else if name = viewportKey ∧ output.usesViewport = true then some (.bool true)
  else none

/-- A field of the wire format is the exported value of its name; if there is none, what is there
under a reserved name; if there is nothing, the block or the styles of the name. -/
theorem field?_wire (output : Output) (name : String) :
    output.wire.field? name =
      ((output.exports.get? name).map Json.text).or
        ((output.reserved? name).or
          (((output.media.get? name).map blockToJson).or
            ((output.classes.get? name).map stylesToJson))) := by
  have reserved :
      ((if output.usesViewport then [(viewportKey, Json.bool true)] else []).reverse.lookup name).or
        ((if output.queries.isEmpty then [] else
          [(queriesKey, queriesToJson output.queries)]).reverse.lookup name) =
        output.reserved? name := by
    have apart : viewportKey ≠ queriesKey := by decide
    unfold reserved?
    by_cases named : name = viewportKey
    · cases output.usesViewport <;> cases output.queries.isEmpty <;>
        simp [Table.lookup_singleton, named, apart]
    · cases output.usesViewport <;> cases output.queries.isEmpty <;>
        simp [Table.lookup_singleton, named]
  change (Table.ofList output.wireFields).get? name = _
  rw [Table.get?_ofList]
  simp only [wireFields, List.reverse_append, List.lookup_append, Table.lookup_reverse_entries,
    Table.get?_map]
  rw [← reserved, Option.or_assoc]

/-- The names that the wire format keeps for itself. -/
def reservedKeys : List String := [queriesKey, viewportKey]

theorem reserved?_eq_none {output : Output} {name : String} (free : name ∉ reservedKeys) :
    output.reserved? name = none := by
  simp only [reservedKeys, List.mem_cons, List.not_mem_nil, or_false, not_or] at free
  simp [reserved?, free]

/-- Media rules and exported values have names of their own. -/
structure IsApart (output : Output) : Prop where
  media : ∀ media ∈ output.media.keys,
    media ∉ reservedKeys ∧ media ∉ output.classes.keys ∧ media ∉ output.exports.keys
  exports : ∀ name ∈ output.exports.keys, name ∉ reservedKeys

/-- Nothing takes the place of anything in the wire format, exported values apart, and the reserved
names have the queries, if there are any, and the mark, if it is set. -/
structure IsSeparate (output : Output) : Prop extends output.IsApart where
  classes : ∀ key ∈ output.classes.keys, key ∉ reservedKeys
  styles : ∀ key styles, output.classes.get? key = some styles → key ∉ output.exports.keys →
    output.wire.field? key = some (stylesToJson styles)
  blocks : ∀ media block, output.media.get? media = some block →
    output.wire.field? media = some (blockToJson block)
  queries : output.wire.field? queriesKey =
    if output.queries.isEmpty then none else some (queriesToJson output.queries)
  viewport : output.wire.field? viewportKey =
    if output.usesViewport then some (.bool true) else none

end Output

/-- Where media rules and exported values have names of their own, nothing takes the place of
anything if no class is called by a reserved name. -/
theorem Output.IsApart.isSeparate {output : Output} (apart : output.IsApart)
    (classes : ∀ key ∈ output.classes.keys, key ∉ reservedKeys) :
    output.IsSeparate := by
  have unexported : ∀ name ∈ reservedKeys, output.exports.get? name = none := fun name reserved =>
    Table.get?_eq_none_iff.mpr fun member => apart.exports name member reserved
  have unblocked : ∀ name ∈ reservedKeys, output.media.get? name = none := fun name reserved =>
    Table.get?_eq_none_iff.mpr fun member => (apart.media name member).1 reserved
  have unnamed : ∀ name ∈ reservedKeys, output.classes.get? name = none := fun name reserved =>
    Table.get?_eq_none_iff.mpr fun member => classes name member reserved
  have shown : ∀ name ∈ reservedKeys, output.wire.field? name = output.reserved? name := by
    intro name reserved
    simp [field?_wire, unexported name reserved, unblocked name reserved, unnamed name reserved]
  refine ⟨apart, classes, ?_, ?_, ?_, ?_⟩
  · intro key styles held unexported
    have member : key ∈ output.classes.keys := by
      rw [← Table.contains_iff, Table.contains, held]
      rfl
    have unblocked : key ∉ output.media.keys := fun inside => (apart.media key inside).2.1 member
    simp [field?_wire, Table.get?_eq_none_iff.mpr unexported,
      Table.get?_eq_none_iff.mpr unblocked, reserved?_eq_none (classes key member), held]
  · intro media block held
    have member : media ∈ output.media.keys := by
      rw [← Table.contains_iff, Table.contains, held]
      rfl
    rcases apart.media media member with ⟨free, -, unexported⟩
    simp [field?_wire, Table.get?_eq_none_iff.mpr unexported, reserved?_eq_none free, held]
  · rw [shown _ List.mem_cons_self, reserved?]
    cases output.queries.isEmpty <;> simp [show queriesKey ≠ viewportKey by decide]
  · rw [shown _ (List.mem_cons_of_mem _ (List.mem_singleton_self _)), reserved?]
    cases output.usesViewport <;> simp [show viewportKey ≠ queriesKey by decide]

/-! ## Names in a compiled output -/

namespace Selector

/-- A name without a colon is the key of its class only. -/
theorem eq_of_key_eq {partSelectors : Bool} {selector name : String}
    (accepted : (classify partSelectors selector).isAccepted = true) (same : key selector = name)
    (colonless : ':' ∉ name.toList) : selector = "." ++ name := by
  subst same
  unfold classify at accepted
  split at accepted
  · cases accepted
  · split at accepted
    · rename_i root
      subst root
      exact absurd (by decide) colonless
    · rcases (cases_of_kindOf accepted).2 with ⟨-, part⟩ | ⟨name, -, -, dotted⟩
      · rcases endsInPart_of_isPart part with ⟨name, -, -, ends⟩
        exact absurd (ends.subset List.mem_cons_self) colonless
      · apply String.toList_injective
        simp [key, dotted]

end Selector

section Compiled

variable {options : Options} {source : String} {rules : Stylesheet} {output : Output}

/-- The classes of an output are named by the accepted selectors at the top. -/
theorem compile_mem_keys_classes_iff
    (parsed : Stylesheet.parse (Compilation.cutOf options source).text = .ok rules)
    (compiled : compile options source = .ok output) (key : String) :
    key ∈ output.classes.keys ↔ ∃ selectors declarations selector,
      Rule.style selectors declarations ∈ rules ∧ selector ∈ selectors ∧
        options.accepts selector = true ∧ Selector.key selector = key := by
  have keys : key ∈ output.classes.keys ↔ key ∈ output.keysIn none := Iff.rfl
  rw [keys, compile_keysIn parsed compiled, List.mem_eraseDups, Options.keysOf, List.mem_map]
  constructor
  · intro found
    rcases found with ⟨selector, remaining, same⟩
    rw [List.mem_filter, List.mem_flatMap] at remaining
    rcases remaining with ⟨⟨rule, sorted, own⟩, accepted⟩
    have inside := (Stylesheet.sort_perm rules).mem_iff.mp sorted
    cases rule with
    | style selectors declarations =>
        exact ⟨selectors, declarations, selector, inside, own, accepted, same⟩
    | media | atRule => cases own
  · intro found
    rcases found with ⟨selectors, declarations, selector, inside, own, accepted, same⟩
    have sorted := (Stylesheet.sort_perm rules).mem_iff.mpr inside
    exact ⟨selector, List.mem_filter.mpr ⟨List.mem_flatMap.mpr ⟨_, sorted, own⟩, accepted⟩, same⟩

/-- The key of a class has the shape of a key. -/
theorem compile_isStyleKey_of_mem_classes (compiled : compile options source = .ok output)
    {key : String} (member : key ∈ output.classes.keys) : IsStyleKey options.partSelectors key := by
  rcases compile_ok_iff.mp compiled with ⟨rules, parsed, -⟩
  rcases (compile_mem_keys_classes_iff parsed compiled key).mp member with
    ⟨selectors, declarations, selector, inside, own, accepted, rfl⟩
  have tidy := Stylesheet.tidy_of_parse parsed _ inside selector (.style declarations own)
  rw [Options.accepts, Bool.and_eq_true] at accepted
  exact Selector.isStyleKey_key tidy accepted.1

/-- An exported value is that of a declaration at the top. -/
theorem Plan.exists_declaration_of_exports {step : Step} (member : step ∈ Plan.steps options rules)
    {name : String} (exported : step.exports name = true) :
    ∃ selectors declarations, Rule.style selectors declarations ∈ rules ∧
      ∃ declaration ∈ declarations, declaration.property = name := by
  rcases Plan.mem_steps.mp member with ⟨rule, inside, own⟩
  cases rule with
  | style selectors declarations =>
      refine ⟨selectors, declarations, inside, ?_⟩
      rcases List.mem_flatMap.mp own with ⟨selector, -, own⟩
      rcases Plan.selectorSteps_cases options none declarations selector with
        ⟨-, steps⟩ | ⟨-, -, -, steps⟩ | ⟨-, -, reason, steps⟩
      · rw [steps, Plan.entrySteps, List.mem_cons, List.mem_map] at own
        rcases own with rfl | ⟨declaration, -, rfl⟩ <;> cases exported
      · rw [steps, Plan.exportSteps, List.mem_map] at own
        rcases own with ⟨declaration, given, rfl⟩
        exact ⟨declaration, given, of_decide_eq_true exported⟩
      · rw [steps, List.mem_singleton] at own
        subst own
        cases exported
  | media text nested =>
      simp only [Plan.ruleSteps] at own
      split at own
      · have silent := List.find?_eq_none.mp (Plan.find?_mediaSteps options text name nested) step own
        simp [Step.claims, exported] at silent
      · rw [List.mem_singleton] at own
        subst own
        cases exported
  | atRule =>
      rw [Plan.ruleSteps, List.mem_singleton] at own
      subst own
      cases exported

/-- An exported value has the name of a declaration. -/
theorem compile_isDeclaredName (compiled : compile options source = .ok output) {name : String}
    (member : name ∈ output.exports.keys) : IsDeclaredName name := by
  rcases compile_ok_iff.mp compiled with ⟨rules, parsed, taken⟩
  rw [← Table.contains_iff, taken.exports_contains] at member
  have exported : (Plan.steps options rules).any (·.exports name) = true := member
  rcases List.any_eq_true.mp exported with ⟨step, inside, named⟩
  rcases Plan.exists_declaration_of_exports inside named with
    ⟨selectors, declarations, stands, declaration, given, rfl⟩
  cases Stylesheet.built_of_parse parsed _ stands with
  | style unmarked declared =>
      rcases declared declaration given with ⟨name, value, spelled, rfl⟩
      exact Stylesheet.isDeclaredName_declarationOf spelled value

/-- The key of a media rule has a space. -/
theorem compile_space_mem_of_mem_media (compiled : compile options source = .ok output)
    {media : String} (member : media ∈ output.media.keys) : ' ' ∈ media.toList := by
  rcases compile_ok_iff.mp compiled with ⟨rules, parsed, taken⟩
  rcases taken.exists_standsIn_of_mem_keys_media member with ⟨step, inside, stands⟩
  rcases (Plan.exists_media_of_standsIn inside stands).2 with ⟨text, nested, -, rfl⟩
  rw [MediaQuery.keyOf, String.toList_append]
  exact List.mem_append_left _ (by decide)

theorem compile_isApart (compiled : compile options source = .ok output) : output.IsApart where
  media := by
    intro media member
    have spaced := compile_space_mem_of_mem_media compiled member
    refine ⟨?_, ?_, ?_⟩
    · intro reserved
      have unspaced : ∀ name ∈ Output.reservedKeys, ' ' ∉ name.toList := by decide
      exact unspaced media reserved spaced
    · intro named
      exact absurd ((compile_isStyleKey_of_mem_classes compiled named).visible ' ' spaced)
        (by decide)
    · intro exported
      exact (compile_isDeclaredName compiled exported).unbroken spaced
  exports := by
    intro name member reserved
    -- The reserved names start with an underscore and have capitals.
    have cased : ∀ name ∈ Output.reservedKeys, name.toList.take 2 ≠ ['-', '-'] ∧
        name.toList.any Char.isUpper = true := by decide
    rcases (compile_isDeclaredName compiled member).cased with custom | small
    · exact (cased name reserved).1 custom
    · rcases List.any_eq_true.mp (cased name reserved).2 with ⟨c, inside, capital⟩
      rw [small c inside] at capital
      cases capital

/-- Media rules and exported values always have names of their own in the wire format.  Nothing
takes the place of anything there if and only if no class at the top is called by a reserved
name. -/
theorem compile_isSeparate_iff
    (parsed : Stylesheet.parse (Compilation.cutOf options source).text = .ok rules)
    (compiled : compile options source = .ok output) :
    output.IsApart ∧
      (output.IsSeparate ↔ ∀ name ∈ Output.reservedKeys, ∀ selectors declarations,
        Rule.style selectors declarations ∈ rules → "." ++ name ∈ selectors →
          options.ignores ("." ++ name) = true) := by
  have apart := compile_isApart compiled
  refine ⟨apart, fun separate => ?_, fun unnamed => ?_⟩
  · intro name reserved selectors declarations inside own
    by_contra remains
    have spelled : ∀ name ∈ Output.reservedKeys, ∀ partSelectors,
        (Selector.classify partSelectors ("." ++ name)).isAccepted = true ∧
          Selector.key ("." ++ name) = name := by decide
    rcases spelled name reserved options.partSelectors with ⟨accepted, same⟩
    refine separate.classes name ?_ reserved
    rw [compile_mem_keys_classes_iff parsed compiled]
    refine ⟨selectors, declarations, "." ++ name, inside, own, ?_, same⟩
    simpa [Options.accepts, accepted] using remains
  · apply apart.isSeparate
    intro key member reserved
    rcases (compile_mem_keys_classes_iff parsed compiled key).mp member with
      ⟨selectors, declarations, selector, inside, own, accepted, same⟩
    rw [Options.accepts, Bool.and_eq_true, Bool.not_eq_true'] at accepted
    have colonless : ∀ name ∈ Output.reservedKeys, ':' ∉ name.toList := by decide
    have spelled := Selector.eq_of_key_eq accepted.1 same (colonless key reserved)
    rw [spelled] at own accepted
    rw [unnamed key reserved selectors declarations inside own] at accepted
    exact absurd accepted.2 (by decide)

end Compiled

/-- A class that has the name of the mark for lengths of the viewport. -/
def markedText : CompiledText {} where
  source := ".__viewportUnits\x7bcolor:red\x7d"
  rules := [.style [".__viewportUnits"] [⟨"color", "red"⟩]]
  output := { classes := .ofList [("__viewportUnits", .ofList [("color", .text "red")])] }
  parsed := ok_of_toOption (by decide +kernel)
  ran := by decide +kernel

theorem not_isSeparate_of_markedText :
    compile {} markedText.source = .ok markedText.output ∧
      markedText.output.usesViewport = false ∧
      markedText.output.wire.field? "__viewportUnits" ≠ none ∧ ¬markedText.output.IsSeparate := by
  refine ⟨markedText.compiled, rfl, ?_, fun separate => ?_⟩
  · have present : (markedText.output.wire.field? "__viewportUnits").isSome = true := by
      decide +kernel
    rwa [Option.isSome_iff_ne_none] at present
  · exact separate.classes Output.viewportKey (by decide) (by decide)

/-- A text in which an exported value has the name of a class, beside a block and the mark. -/
def exportedClass : CompiledText { mediaQueries := true } where
  source := ":export,.a\x7ba:1vw\x7d@media all\x7b.b\x7b\x7d\x7d"
  rules := [.style [":export", ".a"] [⟨"a", "1vw"⟩], .media "all" [.style [".b"] []]]
  output := {
    classes := .ofList [("a", .ofList [("a", .text "1vw")])],
    media := .ofList [("@media all", .ofList [("b", .empty)])],
    queries := .ofList [("@media all", [⟨false, "all", []⟩])],
    exports := .ofList [("a", "1vw")],
    usesViewport := true }
  parsed := ok_of_toOption (by decide +kernel)
  ran := by decide +kernel

theorem compile_isSeparate_iff_of_exportedClass :
    (compile { mediaQueries := true } exportedClass.source = .ok exportedClass.output ∧
        exportedClass.output.IsSeparate) ∧
      compile {} markedText.source = .ok markedText.output ∧ markedText.output.IsApart ∧
      ¬markedText.output.IsSeparate := by
  have separate := (compile_isSeparate_iff exportedClass.parsed exportedClass.compiled).2
  have marked := compile_isSeparate_iff markedText.parsed markedText.compiled
  refine ⟨⟨exportedClass.compiled, separate.mpr ?_⟩, markedText.compiled, marked.1, ?_⟩
  · simp [exportedClass, Output.reservedKeys, Output.queriesKey, Output.viewportKey]
  · rw [marked.2]
    intro ignored
    exact absurd (ignored Output.viewportKey (by decide) _ _ (List.mem_singleton_self _) (by decide))
      (by decide)

end StyleObjects
