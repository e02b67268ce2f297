import StyleObjects.Proofs.Compile.Occurrence

/-!
# Names that are exported and classes

A name is checked when it is exported, against the classes that are there by then.  Rules with an
export are compiled after all others, but their own selectors still make classes after the check.
A name is therefore both exported and a class exactly when only such rules name the class, and
`:export` is the first of their selectors that claims the name.
-/

namespace StyleObjects

/-! ## Steps that export -/

/-- A step exports a name. -/
def Step.exports (name : String) : Step → Bool
  | .exportValue other _ => other = name
  | _ => false

/-- A step exports a name or makes the class of that name. -/
def Step.claims (name : String) (step : Step) : Bool :=
  step.exports name || step.concerns (.top name)

namespace Step.Takes

variable {context : Context} {step : Step} {output next : Output}

theorem exports_contains (taken : Step.Takes context output step next) (name : String) :
    next.exports.contains name = (output.exports.contains name || step.exports name) := by
  cases taken with
  | skip | recordQueries => simp [exports, Output.skip]
  | touch entry => cases entry <;> simp [exports, Output.touch, Output.alter]
  | declare entry lowered => cases entry <;> simp [exports, Output.alter, Output.noteViewport]
  | exportValue value free =>
      rename_i other
      by_cases same : other = name
      · simp [exports, Table.contains_insert, same]
      · simp [exports, Table.contains_insert, same, Ne.symm same]

theorem classes_contains (taken : Step.Takes context output step next) (name : String) :
    next.classes.contains name = (output.classes.contains name || step.concerns (.top name)) :=
  taken.styles?_isSome (.top name)

/-- A class that is not exported yet is not exported by a step. -/
theorem not_exports (taken : Step.Takes context output step next) {name : String}
    (named : output.classes.contains name = true)
    (unexported : output.exports.contains name = false) : step.exports name = false := by
  cases taken with
  | skip | touch | declare | recordQueries => rfl
  | exportValue value free =>
      rename_i other
      by_cases same : other = name
      · subst same
        rw [free named] at unexported
        simp at unexported
      · simp [exports, same]

end Step.Takes

namespace Takes

variable {context : Context} {steps : List Step} {output final : Output}

theorem exports_contains (taken : Takes context steps output final) (name : String) :
    final.exports.contains name = (output.exports.contains name || steps.any (·.exports name)) := by
  induction taken with
  | nil output => simp
  | cons first rest ih => rw [ih, first.exports_contains, List.any_cons, Bool.or_assoc]

theorem classes_contains (taken : Takes context steps output final) (name : String) :
    final.classes.contains name =
      (output.classes.contains name || steps.any (·.concerns (.top name))) :=
  taken.styles?_isSome (.top name)

/-- A class that is not exported yet is never exported. -/
theorem unexported (taken : Takes context steps output final) {name : String}
    (named : output.classes.contains name = true)
    (unexported : output.exports.contains name = false) :
    final.exports.contains name = false := by
  induction taken with
  | nil output => exact unexported
  | cons first rest ih =>
      apply ih
      · rw [first.classes_contains, named, Bool.true_or]
      · rw [first.exports_contains, unexported, first.not_exports named unexported, Bool.or_false]

/-- A name becomes both exported and a class if the first step that claims it exports it and some
step makes the class. -/
theorem collides_iff (taken : Takes context steps output final) {name : String}
    (unnamed : output.classes.contains name = false)
    (unexported : output.exports.contains name = false) :
    (final.exports.contains name = true ∧ final.classes.contains name = true) ↔
      (((steps.find? (·.claims name)).map (·.exports name) = some true) ∧
        steps.any (·.concerns (.top name)) = true) := by
  induction taken with
  | nil output => simp [unexported]
  | cons first rest ih =>
      rename_i step steps output next final
      have exportsNext := first.exports_contains name
      have classesNext := first.classes_contains name
      rw [unexported, Bool.false_or] at exportsNext
      rw [unnamed, Bool.false_or] at classesNext
      cases exported : step.exports name with
      | true =>
          rw [rest.exports_contains, rest.classes_contains, exportsNext, classesNext, exported]
          simp [Step.claims, exported]
      | false =>
          cases concerned : step.concerns (.top name) with
          | true =>
              -- The class is there before its name is exported, so a later export would fail.
              rw [exported] at exportsNext
              rw [concerned] at classesNext
              rw [rest.unexported classesNext exportsNext]
              simp [Step.claims, exported, concerned]
          | false =>
              rw [exported] at exportsNext
              rw [concerned] at classesNext
              rw [ih classesNext exportsNext]
              simp [Step.claims, exported, concerned]

end Takes

/-! ## Occurrences that export -/

namespace Occurrence

/-- An occurrence of `:export` whose declarations give a name. -/
def exports (name : String) (occurrence : Occurrence) : Bool :=
  occurrence.selector = Selector.exportSelector &&
    occurrence.declarations.any (·.property = name)

/-- An occurrence exports a name or names the class. -/
def claims (options : Options) (name : String) (occurrence : Occurrence) : Bool :=
  occurrence.exports name || options.names name occurrence.selector

end Occurrence

/-- `:export` is not the selector of a style object. -/
theorem Options.accepts_exportSelector (options : Options) :
    options.accepts Selector.exportSelector = false := by
  simp [accepts, Selector.classify, SelectorKind.isAccepted]

namespace Plan

/-- The first step of an export block that claims a name exports it. -/
theorem find?_exportSteps (name : String) (declarations : List Declaration) :
    ((exportSteps declarations).find? (·.claims name)).map (·.exports name) =
      if declarations.any (·.property = name) then some true else none := by
  induction declarations with
  | nil => rfl
  | cons declaration declarations ih =>
      by_cases same : declaration.property = name
      · simp [exportSteps, Step.claims, Step.exports, same]
      · simpa [exportSteps, Step.claims, Step.exports, Step.concerns, Step.piece?, same] using ih

/-- The first step of an entry that claims a name makes the class. -/
theorem find?_entrySteps (name key : String) (declarations : List Declaration) :
    ((entrySteps (.top key) declarations).find? (·.claims name)).map (·.exports name) =
      if key = name then some false else none := by
  by_cases same : key = name
  · simp [entrySteps, Step.claims, Step.concerns, Step.piece?, Step.exports, same]
  · simp [entrySteps, Step.claims, Step.concerns, Step.piece?, Step.exports, same]

/-- A selector claims a name as its first step that does. -/
theorem find?_selectorSteps (options : Options) (name : String) (occurrence : Occurrence) :
    ((selectorSteps options none occurrence.declarations occurrence.selector).find?
        (·.claims name)).map (·.exports name) =
      ([occurrence].find? (·.claims options name)).map (·.exports name) := by
  rcases occurrence with ⟨selector, declarations⟩
  rcases selectorSteps_cases options none declarations selector with
    ⟨accepted, steps⟩ | ⟨dropped, exporting, -, steps⟩ | ⟨dropped, other, reason, steps⟩
  · have different : selector ≠ Selector.exportSelector := by
      intro equal
      subst equal
      rw [options.accepts_exportSelector] at accepted
      simp at accepted
    rw [steps, entryOf, find?_entrySteps]
    by_cases same : Selector.key selector = name <;>
      simp [Occurrence.claims, Occurrence.exports, Options.names, different, accepted, same]
  · subst exporting
    rw [steps, find?_exportSteps]
    cases given : declarations.any (·.property = name) <;>
      simp [Occurrence.claims, Occurrence.exports, Options.names, dropped, given]
  · have different : selector ≠ Selector.exportSelector := other.resolve_right (by simp)
    rw [steps]
    simp [Occurrence.claims, Occurrence.exports, Options.names, dropped, different, Step.claims,
      Step.exports, Step.concerns, Step.piece?]

/-- If every item claims a name as its steps do, so does a list of items. -/
theorem find?_flatMap_claims {α : Type} {options : Options} {name : String}
    {stepsOf : α → List Step} {occurrencesOf : α → List Occurrence}
    (each : ∀ item, ((stepsOf item).find? (·.claims name)).map (·.exports name) =
      ((occurrencesOf item).find? (·.claims options name)).map (·.exports name))
    (items : List α) :
    ((items.flatMap stepsOf).find? (·.claims name)).map (·.exports name) =
      ((items.flatMap occurrencesOf).find? (·.claims options name)).map (·.exports name) := by
  induction items with
  | nil => rfl
  | cons item items ih =>
      rw [List.flatMap_cons, List.flatMap_cons, List.find?_append, List.find?_append,
        Option.map_or, Option.map_or, each item, ih]

/-- Nothing is exported in a media rule. -/
theorem exports_nestedSteps (options : Options) (media name : String) (rule : Rule) :
    (nestedSteps options media rule).any (·.exports name) = false := by
  cases rule with
  | style selectors declarations =>
      rw [nestedSteps, styleSteps, List.any_flatMap, List.any_eq_false]
      intro selector member
      rcases selectorSteps_cases options (some media) declarations selector with
        ⟨-, steps⟩ | ⟨-, -, outside, -⟩ | ⟨-, -, reason, steps⟩
      · rw [steps]
        simp [entrySteps, Step.exports]
      · simp at outside
      · rw [steps]
        simp [Step.exports]
  | media query rules => simp [nestedSteps, Step.exports]
  | atRule ruleName prelude => simp [nestedSteps, Step.exports]

/-- A media rule claims no name. -/
theorem find?_mediaSteps (options : Options) (query name : String) (rules : List Rule) :
    (mediaSteps options query rules).find? (·.claims name) = none := by
  have concerned := Step.any_concerns (mediaSteps options query rules) (.top name)
  rw [piece_mediaSteps_top, List.isEmpty_nil, Bool.not_true] at concerned
  have exported : (mediaSteps options query rules).any (·.exports name) = false := by
    unfold mediaSteps
    cases MediaQuery.parseAccepted query with
    | error error => rfl
    | ok queries =>
        have nested : rules.any (fun rule =>
            (nestedSteps options (MediaQuery.keyOf query) rule).any (·.exports name)) = false := by
          rw [List.any_eq_false]
          intro rule member
          rw [exports_nestedSteps]
          exact Bool.false_ne_true
        rw [List.any_cons, List.any_flatMap, nested]
        rfl
  rw [List.find?_eq_none]
  intro step member
  simp only [List.any_eq_false] at concerned exported
  simp [Step.claims, concerned step member, exported step member]

/-- The first step of a stylesheet that claims a name is the one of the first occurrence that does,
in the order in which the rules are compiled. -/
theorem find?_steps (options : Options) (rules : Stylesheet) (name : String) :
    ((steps options rules).find? (·.claims name)).map (·.exports name) =
      ((rules.sort.flatMap Rule.occurrences).find? (·.claims options name)).map
        (·.exports name) := by
  apply find?_flatMap_claims
  intro rule
  cases rule with
  | style selectors declarations =>
      rw [ruleSteps, styleSteps, Rule.occurrences, List.map_eq_flatMap]
      apply find?_flatMap_claims
      intro selector
      exact find?_selectorSteps options name ⟨selector, declarations⟩
  | media query rules =>
      simp only [ruleSteps, Rule.occurrences]
      split
      · rw [find?_mediaSteps]
        rfl
      · rfl
  | atRule ruleName prelude => rfl

end Plan

/-! ## The exported classes of a stylesheet -/

/-- In rules without an export a name is claimed only as a class. -/
theorem Stylesheet.find?_plain (options : Options) (rules : Stylesheet) (name : String) :
    (((rules.filter (·.group = .style)).flatMap Rule.occurrences).find?
        (·.claims options name)).map (·.exports name) =
      if options.blocks name (rules.filter (·.group = .style)) = [] then none else some false := by
  have claimed : ∀ occurrence ∈ (rules.filter (·.group = .style)).flatMap Rule.occurrences,
      occurrence.exports name = false := by
    intro occurrence member
    rcases List.mem_flatMap.mp member with ⟨rule, within, inside⟩
    rcases List.mem_filter.mp within with ⟨-, grouped⟩
    cases rule with
    | style selectors declarations =>
        rcases List.mem_map.mp inside with ⟨selector, listed, rfl⟩
        have different : selector ≠ Selector.exportSelector := by
          intro equal
          subst equal
          simp [Rule.group, listed] at grouped
        simp [Occurrence.exports, different]
    | media | atRule => simp [Rule.occurrences] at inside
  simp only [Options.blocks, List.map_eq_nil_iff]
  generalize (rules.filter (·.group = .style)).flatMap Rule.occurrences = occurrences at claimed
  induction occurrences with
  | nil => rfl
  | cons occurrence occurrences ih =>
      rw [List.forall_mem_cons] at claimed
      cases named : options.names name occurrence.selector <;>
        simp_all [Occurrence.claims]

/-- A name is both exported and a class if and only if no rule without an export names the class,
one with an export does, and the first selector of those that claims the name is `:export`. -/
theorem compile_exported_class_iff {options : Options} {source : String} {rules : Stylesheet}
    {output : Output}
    (parsed : Stylesheet.parse (Compilation.cutOf options source).text = .ok rules)
    (compiled : compile options source = .ok output) (name : String) :
    let exporting := rules.filter (·.group = .valueExport)
    (name ∈ output.exports.keys ∧ name ∈ output.classes.keys) ↔
      options.blocks name (rules.filter (·.group = .style)) = [] ∧
      options.blocks name exporting ≠ [] ∧
      ∃ first, (exporting.flatMap Rule.occurrences).find? (·.claims options name) = some first ∧
        first.exports name = true := by
  intro exporting
  have taken := compile_takes parsed compiled
  rw [← Table.contains_iff, ← Table.contains_iff, taken.collides_iff rfl rfl, Plan.find?_steps,
    Step.any_concerns, Plan.piece_steps_top, Plan.isEmpty_flatMap_pieces,
    Stylesheet.sort_flatMap_occurrences,
    List.flatMap_append, List.find?_append, Option.map_or, Stylesheet.find?_plain,
    Options.blocks_sort]
  by_cases unnamed : options.blocks name (rules.filter (·.group = .style)) = []
  · rw [unnamed, if_pos rfl, Option.none_or, Option.map_eq_some_iff, List.nil_append,
      Bool.not_eq_true', List.isEmpty_eq_false_iff]
    constructor
    · intro found
      rcases found with ⟨first, named⟩
      exact ⟨rfl, named, first⟩
    · intro found
      rcases found with ⟨-, named, first⟩
      exact ⟨first, named⟩
  · rw [if_neg unnamed]
    simp [unnamed]

/-! ### A rule whose class comes after its export -/

/-- An export of a name, and the class of that name in the same rule. -/
def exportingOwnClass : String := ":export, .a \x7b a: 1 \x7d"

/-- What that text is read as and compiles to. -/
def compiledExportingOwnClass : CompiledText {} where
  source := exportingOwnClass
  rules := [.style [":export", ".a"] [⟨"a", "1"⟩]]
  output := { classes := .ofList [("a", .ofList [("a", .integer 1)])],
              exports := .ofList [("a", "1")] }
  parsed := ok_of_toOption (by decide +kernel)
  ran := by decide +kernel

theorem parse_exportingOwnClass :
    Stylesheet.parse (Compilation.cutOf {} exportingOwnClass).text =
      .ok [.style [":export", ".a"] [⟨"a", "1"⟩]] :=
  compiledExportingOwnClass.parsed

theorem compile_exportingOwnClass :
    compile {} exportingOwnClass =
      .ok { classes := .ofList [("a", .ofList [("a", .integer 1)])],
            exports := .ofList [("a", "1")] } :=
  compiledExportingOwnClass.compiled

/-- The class is made after its name has been exported, which nothing checks. -/
theorem exported_class_of_exportingOwnClass :
    ∃ output, compile {} exportingOwnClass = .ok output ∧
      "a" ∈ output.exports.keys ∧ "a" ∈ output.classes.keys :=
  ⟨_, compile_exportingOwnClass, by decide, by decide⟩

theorem compile_exported_class_iff_of_exportingOwnClass :
    ∃ rules output,
      Stylesheet.parse (Compilation.cutOf {} exportingOwnClass).text = .ok rules ∧
      compile {} exportingOwnClass = .ok output ∧
      Options.blocks {} "a" (rules.filter (·.group = .style)) = [] ∧
      Options.blocks {} "a" (rules.filter (·.group = .valueExport)) ≠ [] ∧
      ∃ first, ((rules.filter (·.group = .valueExport)).flatMap Rule.occurrences).find?
        (·.claims {} "a") = some first ∧ first.exports "a" = true :=
  ⟨_, _, parse_exportingOwnClass, compile_exportingOwnClass,
    (compile_exported_class_iff parse_exportingOwnClass compile_exportingOwnClass "a").mp
      ⟨by decide, by decide⟩⟩

end StyleObjects
