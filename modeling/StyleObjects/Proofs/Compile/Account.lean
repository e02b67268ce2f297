import StyleObjects.Proofs.Compile.Collision
import StyleObjects.Proofs.Compile.Media
import StyleObjects.Proofs.Lists

/-!
# What becomes of every selector

A selector or a rule is left out for one reason, or it makes an entry, or it exports its block.  A
stylesheet that compiles reports all that is left out, in the order in which its rules are compiled,
and the keys of its entries are those of the other selectors, each where it is first named.
-/

namespace StyleObjects

/-! ## Reports and keys of a run -/

/-- The keys of the entries in a place, at the top or in a media rule. -/
def Output.keysIn (output : Output) : Option String → List String
  | none => output.classes.keys
  | some media => ((output.media.get? media).map Table.keys).getD []

namespace Step

/-- What a step reports as left out. -/
def skipped? : Step → Option Skipped
  | .skip skipped => some skipped
  | _ => none

/-- The key of the entry in a place that a step makes or changes. -/
def keyIn? (place : Option String) : Step → Option String
  | .touch entry | .declare entry _ => if entry.place = place then some entry.key else none
  | _ => none

theorem Takes.skipped {context : Context} {step : Step} {output next : Output}
    (taken : Step.Takes context output step next) :
    next.skipped = output.skipped ++ step.skipped?.toList := by
  cases taken with
  | skip skipped => rfl
  | exportValue | recordQueries => exact (List.append_nil _).symm
  | touch entry | declare entry lowered => cases entry <;> exact (List.append_nil _).symm

end Step

theorem Output.keysIn_alter (output : Output) (entry : Entry) (change : Styles → Styles)
    (place : Option String) :
    (output.alter entry change).keysIn place =
      Table.appendKeys (output.keysIn place)
        (if entry.place = place then some entry.key else none).toList := by
  cases entry with
  | top key =>
      cases place with
      | none => exact Table.keys_alter output.classes key _ _
      | some media => rfl
  | inMedia media key =>
      cases place with
      | none => rfl
      | some block =>
          simp only [alter, keysIn, Table.get?_alter, Entry.place, Entry.key, Option.some.injEq]
          by_cases same : block = media
          · subst same
            simp only [↓reduceIte, Option.map_some, Option.getD_some, Option.toList_some,
              Table.keys_alter]
            cases output.media.get? block <;> rfl
          · simp only [same, Ne.symm same, ↓reduceIte, Option.toList_none]
            rfl

theorem Step.Takes.keysIn {context : Context} {step : Step} {output next : Output}
    (taken : Step.Takes context output step next) (place : Option String) :
    next.keysIn place =
      Table.appendKeys (output.keysIn place) (step.keyIn? place).toList := by
  cases taken with
  | skip | exportValue | recordQueries => cases place <;> rfl
  | touch entry => exact Output.keysIn_alter output entry _ place
  | declare entry lowered =>
      rw [Output.keysIn_alter]
      cases place <;> rfl

namespace Takes

variable {context : Context} {steps : List Step} {output final : Output}

/-- A run reports what its steps report. -/
theorem skipped (taken : Takes context steps output final) :
    final.skipped = output.skipped ++ steps.filterMap Step.skipped? := by
  induction taken with
  | nil output => exact (List.append_nil _).symm
  | cons first rest ih =>
      rename_i step steps output next final
      rw [ih, first.skipped, List.append_assoc]
      cases left : step.skipped? <;> simp [left]

/-- The keys in a place are those that the steps of a run enter there, one after the other. -/
theorem keysIn (taken : Takes context steps output final) (place : Option String) :
    final.keysIn place =
      Table.appendKeys (output.keysIn place) (steps.filterMap (·.keyIn? place)) := by
  induction taken with
  | nil output => rfl
  | cons first rest ih =>
      rename_i step steps output next final
      rw [ih, first.keysIn, ← Table.appendKeys_append]
      cases entered : step.keyIn? place <;> simp [entered]

end Takes

/-! ## The account of a stylesheet -/

/-- Why a selector is left out, if it is: nothing is exported in a media rule, some selectors are
not supported, and others are ignored. -/
def Options.reason? (options : Options) (media : Option String) (selector : String) :
    Option SkipReason :=
  if selector = Selector.exportSelector then if media.isSome then some .exportInMedia else none
  else if (Selector.classify options.partSelectors selector).isAccepted then
    if options.ignores selector then some .ignored else none
  else some .unsupportedSelector

/-- The selectors of a style rule that are left out. -/
def Options.leftOut (options : Options) (media : Option String) (selectors : List String) :
    List Skipped :=
  selectors.filterMap fun selector =>
    (options.reason? media selector).map fun reason => ⟨selector, reason, media⟩

/-- All that is left out of a rule in a media rule. -/
def Rule.leftOutIn (options : Options) (media : String) : Rule → List Skipped
  | .style selectors _ => options.leftOut (some media) selectors
  | .media text _ => [⟨MediaQuery.keyOf text, .unsupportedRule, some media⟩]
  | .atRule name _ => [⟨"@" ++ name, .unsupportedRule, some media⟩]

/-- All that is left out of a rule. -/
def Rule.leftOut (options : Options) : Rule → List Skipped
  | .style selectors _ => options.leftOut none selectors
  | .media text rules =>
    if options.mediaQueries then rules.flatMap (leftOutIn options (MediaQuery.keyOf text))
    else [⟨MediaQuery.keyOf text, .mediaDisabled, none⟩]
  | .atRule name _ => [⟨"@" ++ name, .unsupportedRule, none⟩]

/-- The selectors of a style rule; other rules have none of their own. -/
def Rule.selectors : Rule → List String
  | .style selectors _ => selectors
  | .media .. | .atRule .. => []

/-- The selectors of a rule in a place: those of a style rule at the top, and those of the style
rules of a media rule where it stands. -/
def Rule.selectorsIn (options : Options) : Option String → Rule → List String
  | none, .style selectors _ => selectors
  | some block, .media text rules =>
    if options.mediaQueries ∧ MediaQuery.keyOf text = block then rules.flatMap selectors else []
  | _, _ => []

/-- The keys of the selectors that are accepted and not ignored. -/
def Options.keysOf (options : Options) (selectors : List String) : List String :=
  (selectors.filter options.accepts).map Selector.key

theorem Options.keysOf_flatMap {α : Type} (options : Options) (items : List α)
    (image : α → List String) :
    options.keysOf (items.flatMap image) =
      items.flatMap fun item => options.keysOf (image item) := by
  simp only [keysOf, List.filter_flatMap, List.map_flatMap]

theorem Options.keysOf_eq_flatMap (options : Options) (selectors : List String) :
    options.keysOf selectors = selectors.flatMap fun selector => options.keysOf [selector] := by
  rw [← keysOf_flatMap, List.flatMap_singleton']

theorem Options.leftOut_eq_flatMap (options : Options) (media : Option String)
    (selectors : List String) :
    options.leftOut media selectors =
      selectors.flatMap fun selector => options.leftOut media [selector] := by
  induction selectors with
  | nil => rfl
  | cons selector selectors ih =>
      rw [List.flatMap_cons, ← ih]
      exact List.filterMap_append (l := [selector])

/-- A selector that is not left out makes an entry, or exports a block at the top. -/
theorem Options.reason?_eq_none_iff {options : Options} {media : Option String}
    {selector : String} :
    options.reason? media selector = none ↔
      options.accepts selector = true ∨ (selector = Selector.exportSelector ∧ media = none) := by
  by_cases exporting : selector = Selector.exportSelector
  · subst exporting
    cases media <;> simp [reason?, accepts_exportSelector]
  · simp only [reason?, accepts, exporting, ↓reduceIte, false_and, or_false]
    cases (Selector.classify options.partSelectors selector).isAccepted <;>
      cases options.ignores selector <;> simp

namespace Plan

/-- A selector that is left out has no other step. -/
theorem selectorSteps_of_reason? {options : Options} {media : Option String} {selector : String}
    {reason : SkipReason} (left : options.reason? media selector = some reason)
    (declarations : List Declaration) :
    selectorSteps options media declarations selector = [.skip ⟨selector, reason, media⟩] := by
  unfold Options.reason? at left
  unfold selectorSteps
  cases classified : Selector.classify options.partSelectors selector with
  | valueExport =>
      rw [if_pos (Selector.classify_eq_valueExport_iff.mp classified),
        Option.ite_none_right_eq_some, Option.some.injEq] at left
      simp [left]
  | rejected | root | styleClass | part =>
      have different : selector ≠ Selector.exportSelector := by
        intro exporting
        rw [Selector.classify_eq_valueExport_iff.mpr exporting] at classified
        simp at classified
      rw [if_neg different] at left
      simp_all [SelectorKind.isAccepted]

theorem skipped_selectorSteps (options : Options) (media : Option String)
    (declarations : List Declaration) (selector : String) :
    (selectorSteps options media declarations selector).filterMap Step.skipped? =
      options.leftOut media [selector] := by
  cases left : options.reason? media selector with
  | some reason =>
      rw [selectorSteps_of_reason? left]
      simp [Options.leftOut, left, Step.skipped?]
  | none =>
      have silent : options.leftOut media [selector] = [] := by simp [Options.leftOut, left]
      rw [silent]
      rw [Options.reason?_eq_none_iff] at left
      rcases selectorSteps_cases options media declarations selector with
        ⟨-, steps⟩ | ⟨-, -, -, steps⟩ | ⟨dropped, other, -⟩
      · simp [steps, entrySteps, Step.skipped?]
      · simp [steps, exportSteps, Step.skipped?]
      · rw [dropped] at left
        simp_all

theorem skipped_styleSteps (options : Options) (media : Option String) (selectors : List String)
    (declarations : List Declaration) :
    (styleSteps options media selectors declarations).filterMap Step.skipped? =
      options.leftOut media selectors := by
  simp only [styleSteps, List.filterMap_flatMap, skipped_selectorSteps]
  exact (options.leftOut_eq_flatMap media selectors).symm

theorem skipped_nestedSteps (options : Options) (media : String) (rule : Rule) :
    (nestedSteps options media rule).filterMap Step.skipped? = rule.leftOutIn options media := by
  cases rule with
  | style selectors declarations => exact skipped_styleSteps options (some media) _ _
  | media | atRule => rfl

/-- A rule reports what is left out of it. -/
theorem skipped_ruleSteps {options : Options} {rule : Rule}
    (accepted : options.mediaQueries = true → Stylesheet.MediaAccepted [rule]) :
    (ruleSteps options rule).filterMap Step.skipped? = rule.leftOut options := by
  cases rule with
  | style selectors declarations => exact skipped_styleSteps options none _ _
  | media text nested =>
      cases asked : options.mediaQueries with
      | false => simp [ruleSteps, Rule.leftOut, asked, Step.skipped?]
      | true =>
          rcases accepted asked text nested (List.mem_singleton_self _) with ⟨queries, parsed⟩
          simp only [ruleSteps, Rule.leftOut, asked, ↓reduceIte, mediaSteps, parsed]
          rw [List.filterMap_cons_none rfl, List.filterMap_flatMap]
          simp only [skipped_nestedSteps]
  | atRule name prelude => rfl

/-- A stylesheet reports what is left out of its rules, in the order in which they are compiled. -/
theorem skipped_steps {options : Options} {rules : Stylesheet}
    (accepted : options.mediaQueries = true → rules.MediaAccepted) :
    (steps options rules).filterMap Step.skipped? = rules.sort.flatMap (Rule.leftOut options) := by
  rw [steps, List.filterMap_flatMap, List.flatMap_def, List.flatMap_def]
  refine congrArg List.flatten (List.map_congr_left fun rule member => ?_)
  refine skipped_ruleSteps fun asked => (accepted asked).of_subset ?_
  simpa using (Stylesheet.sort_perm rules).mem_iff.mp member

/-! ### Keys -/

/-- The steps of an entry enter its key. -/
theorem appendKeys_keyIn_entrySteps (entry : Entry) (declarations : List Declaration)
    (place : Option String) (keys : List String) :
    Table.appendKeys keys ((entrySteps entry declarations).filterMap (·.keyIn? place)) =
      Table.appendKeys keys (if entry.place = place then [entry.key] else []) := by
  have named : ∀ step ∈ entrySteps entry declarations,
      step.keyIn? place = if entry.place = place then some entry.key else none := by
    intro step member
    rcases List.mem_cons.mp member with rfl | member
    · rfl
    · rcases List.mem_map.mp member with ⟨declaration, -, rfl⟩
      rfl
  by_cases placed : entry.place = place
  · simp only [placed, ↓reduceIte] at named ⊢
    apply Table.appendKeys_of_forall_eq
    · intro key entered
      rcases List.mem_filterMap.mp entered with ⟨step, member, found⟩
      rw [named step member, Option.some.injEq] at found
      exact found.symm
    · exact List.ne_nil_of_mem
        (List.mem_filterMap.mpr ⟨_, List.mem_cons_self, named _ List.mem_cons_self⟩)
  · simp only [placed, ↓reduceIte] at named ⊢
    rw [List.filterMap_eq_nil_iff.mpr named]

/-- A selector enters its key in its place. -/
theorem appendKeys_keyIn_selectorSteps (options : Options) (media place : Option String)
    (declarations : List Declaration) (selector : String) (keys : List String) :
    Table.appendKeys keys
        ((selectorSteps options media declarations selector).filterMap (·.keyIn? place)) =
      Table.appendKeys keys (if media = place then options.keysOf [selector] else []) := by
  rcases selectorSteps_cases options media declarations selector with
    ⟨accepted, steps⟩ | ⟨dropped, -, -, steps⟩ | ⟨dropped, -, reason, steps⟩
  · have named : (entryOf media (Selector.key selector)).place = media ∧
        Selector.key selector = (entryOf media (Selector.key selector)).key :=
      (entryOf_eq_iff media (Selector.key selector) _).mp rfl
    rw [steps, appendKeys_keyIn_entrySteps, named.1, ← named.2]
    simp [Options.keysOf, accepted]
  · have silent : (exportSteps declarations).filterMap (·.keyIn? place) = [] := by
      simp [exportSteps, Step.keyIn?]
    simp [steps, silent, Options.keysOf, dropped]
  · simp [steps, Step.keyIn?, Options.keysOf, dropped]

/-- A style rule enters the keys of its selectors in its place. -/
theorem appendKeys_keyIn_styleSteps (options : Options) (media place : Option String)
    (selectors : List String) (declarations : List Declaration) (keys : List String) :
    Table.appendKeys keys
        ((styleSteps options media selectors declarations).filterMap (·.keyIn? place)) =
      Table.appendKeys keys (if media = place then options.keysOf selectors else []) := by
  rw [styleSteps, List.filterMap_flatMap, Table.appendKeys_flatMap
    fun selector _ => appendKeys_keyIn_selectorSteps options media place declarations selector]
  by_cases placed : media = place
  · simp only [placed, ↓reduceIte]
    rw [← options.keysOf_eq_flatMap]
  · rw [if_neg placed, List.flatMap_eq_nil_iff.mpr fun _ _ => if_neg placed]

/-- The rules in a media rule enter the keys of their selectors in its place. -/
theorem appendKeys_keyIn_nestedSteps (options : Options) (media : String)
    (place : Option String) (rules : List Rule) (keys : List String) :
    Table.appendKeys keys
        ((rules.flatMap (nestedSteps options media)).filterMap (·.keyIn? place)) =
      Table.appendKeys keys
        (if some media = place then options.keysOf (rules.flatMap Rule.selectors) else []) := by
  have each : ∀ rule ∈ rules, ∀ keys,
      Table.appendKeys keys ((nestedSteps options media rule).filterMap (·.keyIn? place)) =
        Table.appendKeys keys
          (if some media = place then options.keysOf rule.selectors else []) := by
    intro rule _ keys
    cases rule with
    | style selectors declarations =>
        exact appendKeys_keyIn_styleSteps options (some media) place selectors declarations keys
    | media | atRule =>
        by_cases placed : some media = place <;>
          simp [nestedSteps, Step.keyIn?, Rule.selectors, Options.keysOf, placed]
  rw [List.filterMap_flatMap, Table.appendKeys_flatMap each]
  by_cases placed : some media = place
  · simp only [placed, ↓reduceIte, options.keysOf_flatMap]
  · rw [if_neg placed, List.flatMap_eq_nil_iff.mpr fun _ _ => if_neg placed]

/-- A rule enters the keys of the selectors that it has in a place. -/
theorem appendKeys_keyIn_ruleSteps {options : Options} {rule : Rule}
    (accepted : options.mediaQueries = true → Stylesheet.MediaAccepted [rule])
    (place : Option String) (keys : List String) :
    Table.appendKeys keys ((ruleSteps options rule).filterMap (·.keyIn? place)) =
      Table.appendKeys keys (options.keysOf (rule.selectorsIn options place)) := by
  cases rule with
  | style selectors declarations =>
      rw [ruleSteps, appendKeys_keyIn_styleSteps]
      cases place <;> rfl
  | media text nested =>
      cases asked : options.mediaQueries with
      | false =>
          cases place <;> simp [ruleSteps, asked, Step.keyIn?, Rule.selectorsIn, Options.keysOf]
      | true =>
          rcases accepted asked text nested (List.mem_singleton_self _) with ⟨queries, parsed⟩
          simp only [ruleSteps, asked, ↓reduceIte, mediaSteps, parsed]
          rw [List.filterMap_cons_none rfl, appendKeys_keyIn_nestedSteps]
          cases place with
          | none => rfl
          | some media =>
              by_cases same : MediaQuery.keyOf text = media <;>
                simp [Rule.selectorsIn, Options.keysOf, asked, same]
  | atRule name prelude => cases place <;> rfl

/-- A stylesheet enters the keys of its selectors in a place, rule by rule. -/
theorem appendKeys_keyIn_steps {options : Options} {rules : Stylesheet}
    (accepted : options.mediaQueries = true → rules.MediaAccepted) (place : Option String)
    (keys : List String) :
    Table.appendKeys keys ((steps options rules).filterMap (·.keyIn? place)) =
      Table.appendKeys keys
        (options.keysOf (rules.sort.flatMap (Rule.selectorsIn options place))) := by
  rw [steps, List.filterMap_flatMap, options.keysOf_flatMap]
  apply Table.appendKeys_flatMap
  intro rule member
  refine appendKeys_keyIn_ruleSteps (fun asked => (accepted asked).of_subset ?_) place
  simpa using (Stylesheet.sort_perm rules).mem_iff.mp member

end Plan

/-! ## The output -/

/-- A media rule has a block in an output of a run if and only if the run enters a key there. -/
theorem Takes.mem_keys_media_iff {context : Context} {steps : List Step} {final : Output}
    (taken : Takes context steps {} final) (media : String) :
    media ∈ final.media.keys ↔ final.keysIn (some media) ≠ [] := by
  have placed : ∀ step : Step, step.place? = some media ↔ step.keyIn? (some media) ≠ none := by
    intro step
    cases step with
    | touch entry | declare entry _ => simp [Step.place?, Step.keyIn?]
    | skip | exportValue | recordQueries | fail => simp [Step.place?, Step.keyIn?]
  have entered : final.keysIn (some media) = [] ↔
      steps.filterMap (·.keyIn? (some media)) = [] := by
    rw [taken.keysIn]
    simp [List.eq_nil_iff_forall_not_mem, Table.mem_appendKeys, Output.keysIn]
  have from_nothing : media ∈ final.media.keys ↔ media ∈ steps.filterMap Step.place? := by
    rw [taken.keys_media, Table.mem_appendKeys]
    exact or_iff_right List.not_mem_nil
  rw [from_nothing, Ne, entered, List.filterMap_eq_nil_iff, List.mem_filterMap]
  simp [placed]

section Compiled

variable {options : Options} {source : String} {rules : Stylesheet} {output : Output}

/-- The keys in a place are those of the selectors there, each where it is first named. -/
theorem compile_keysIn
    (parsed : Stylesheet.parse (Compilation.cutOf options source).text = .ok rules)
    (compiled : compile options source = .ok output) (place : Option String) :
    output.keysIn place =
      (options.keysOf (rules.sort.flatMap (Rule.selectorsIn options place))).eraseDups := by
  have accepted := compile_mediaAccepted parsed compiled
  have nothing : ({} : Output).keysIn place = [] := by cases place <;> rfl
  rw [(compile_takes parsed compiled).keysIn, Plan.appendKeys_keyIn_steps accepted, nothing,
    Table.appendKeys_nil]

/-- What becomes of every selector of a stylesheet that compiles.  All that is left out is reported
once, with its reason and its media rule, and the keys of the classes and of each media block are
those of the other selectors there, in the order of their first occurrences. -/
theorem compile_accounts
    (parsed : Stylesheet.parse (Compilation.cutOf options source).text = .ok rules)
    (compiled : compile options source = .ok output) :
    output.skipped = rules.sort.flatMap (Rule.leftOut options) ∧
      output.classes.keys =
        (options.keysOf (rules.sort.flatMap (Rule.selectorsIn options none))).eraseDups ∧
      ∀ media,
        let keys := options.keysOf (rules.sort.flatMap (Rule.selectorsIn options (some media)))
        (output.media.get? media).map Table.keys =
          if keys = [] then none else some keys.eraseDups := by
  have taken := compile_takes parsed compiled
  refine ⟨?_, compile_keysIn parsed compiled none, fun media => ?_⟩
  · rw [taken.skipped, Plan.skipped_steps (compile_mediaAccepted parsed compiled)]
    rfl
  · have keys := compile_keysIn parsed compiled (some media)
    have present := taken.mem_keys_media_iff media
    rw [← Table.contains_iff, keys, Ne, Lists.eraseDups_eq_nil_iff] at present
    dsimp only
    cases found : output.media.get? media with
    | none =>
        have silent : output.media.contains media = false := by simp [Table.contains, found]
        rw [if_pos (by simpa [silent] using present)]
        rfl
    | some block =>
        have there : output.media.contains media = true := by simp [Table.contains, found]
        rw [if_neg (present.mp there), ← keys]
        simp [Output.keysIn, found]

end Compiled

/-- Options that ask for media rules and ignore one selector. -/
def ignoringOne : Options := { mediaQueries := true, ignores := (· == ".c") }

/-- Rules of all kinds: selectors that are accepted, ignored, not supported and exporting, at the
top and in a media rule, which also has a rule that is no style rule. -/
def mixedRules : CompiledText ignoringOne where
  source := "@x;@media all\x7b.b,:export,b\x7b\x7d@z;.a,.b\x7b\x7d\x7d" ++
    ".b,.c,a,:export\x7bd:e\x7d.a\x7b\x7d"
  rules := [
    .atRule "x" "",
    .media "all" [.style [".b", ":export", "b"] [], .atRule "z" "", .style [".a", ".b"] []],
    .style [".b", ".c", "a", ":export"] [⟨"d", "e"⟩],
    .style [".a"] []]
  output := {
    classes := .ofList [("a", .empty), ("b", .ofList [("d", .text "e")])],
    media := .ofList [("@media all", .ofList [("b", .empty), ("a", .empty)])],
    queries := .ofList [("@media all", [⟨false, "all", []⟩])],
    exports := .ofList [("d", "e")],
    skipped := [
      ⟨":export", .exportInMedia, some "@media all"⟩,
      ⟨"b", .unsupportedSelector, some "@media all"⟩,
      ⟨"@z", .unsupportedRule, some "@media all"⟩,
      ⟨".c", .ignored, none⟩,
      ⟨"a", .unsupportedSelector, none⟩,
      ⟨"@x", .unsupportedRule, none⟩] }
  parsed := ok_of_toOption (by decide +kernel)
  ran := by decide +kernel

theorem compile_accounts_of_mixedRules :
    let rules := mixedRules.rules
    let output := mixedRules.output
    Stylesheet.parse (Compilation.cutOf ignoringOne mixedRules.source).text = .ok rules ∧
      compile ignoringOne mixedRules.source = .ok output ∧
      output.skipped = rules.sort.flatMap (Rule.leftOut ignoringOne) ∧
      output.classes.keys =
        (ignoringOne.keysOf (rules.sort.flatMap (Rule.selectorsIn ignoringOne none))).eraseDups ∧
      (output.media.get? "@media all").map Table.keys =
        some (ignoringOne.keysOf
          (rules.sort.flatMap (Rule.selectorsIn ignoringOne (some "@media all")))).eraseDups := by
  intro rules output
  rcases compile_accounts mixedRules.parsed mixedRules.compiled with ⟨skipped, classes, blocks⟩
  exact ⟨mixedRules.parsed, mixedRules.compiled, skipped, classes, blocks "@media all"⟩

end StyleObjects
