import StyleObjects.Proofs.Compile.Occurrence

/-!
# Media rules in an output

Every accepted media rule records its queries under its text, and the rules in it declare for the
entries of that text.  Media rules with one text share one block, which stands where the text first
got an entry.
-/

namespace StyleObjects

/-! ## Blocks and queries of a run -/

namespace Step

/-- The media rule in which a step makes or changes an entry. -/
def place? : Step → Option String
  | .touch entry | .declare entry _ => entry.place
  | _ => none

/-- The queries that a step records. -/
def recorded? : Step → Option (String × List MediaQuery)
  | .recordQueries media queries => some (media, queries)
  | _ => none

/-- A step is in a media rule if and only if it adds to an entry there. -/
theorem place?_eq_some_iff {step : Step} {media : String} :
    step.place? = some media ↔ ∃ key, ¬step.piece? (.inMedia media key) = none := by
  cases step with
  | touch entry | declare entry _ => cases entry <;> simp [place?, piece?, Entry.place]
  | skip | exportValue | recordQueries | fail => simp [place?, piece?]

end Step

theorem Output.keys_media_alter (output : Output) (entry : Entry) (change : Styles → Styles) :
    (output.alter entry change).media.keys =
      Table.appendKeys output.media.keys entry.place.toList := by
  cases entry with
  | top key => rfl
  | inMedia media key => exact Table.keys_alter output.media media _ _

theorem Step.Takes.keys_media {context : Context} {step : Step} {output next : Output}
    (taken : Step.Takes context output step next) :
    next.media.keys = Table.appendKeys output.media.keys step.place?.toList := by
  cases taken with
  | skip | exportValue | recordQueries => rfl
  | touch entry => exact Output.keys_media_alter output entry _
  | declare entry lowered => exact Output.keys_media_alter (output.noteViewport _ _) entry _

theorem Step.Takes.queries {context : Context} {step : Step} {output next : Output}
    (taken : Step.Takes context output step next) :
    next.queries = output.queries.insertAll step.recorded?.toList := by
  cases taken with
  | skip | exportValue | recordQueries => rfl
  | touch entry => cases entry <;> rfl
  | declare entry lowered => cases entry <;> rfl

namespace Takes

variable {context : Context} {steps : List Step} {output final : Output}

/-- The blocks of media rules stand in the order in which they first got an entry. -/
theorem keys_media (taken : Takes context steps output final) :
    final.media.keys = Table.appendKeys output.media.keys (steps.filterMap Step.place?) := by
  induction taken with
  | nil output => rfl
  | cons first rest ih =>
      rename_i step steps output next final
      rw [ih, first.keys_media, ← Table.appendKeys_append]
      cases placed : step.place? <;> simp [placed]

/-- The queries of a run are those that its steps record. -/
theorem queries (taken : Takes context steps output final) :
    final.queries = output.queries.insertAll (steps.filterMap Step.recorded?) := by
  induction taken with
  | nil output => rfl
  | cons first rest ih =>
      rename_i step steps output next final
      rw [ih, first.queries, ← Table.insertAll_append]
      cases recorded : step.recorded? <;> simp [recorded]

/-- A step that fails is not taken. -/
theorem fail_notMem (taken : Takes context steps output final) (error : Error) :
    Step.fail error ∉ steps := by
  induction taken with
  | nil output => simp
  | cons first rest ih =>
      intro member
      rcases List.mem_cons.mp member with rfl | member
      · cases first
      · exact ih member

end Takes

/-! ## Steps of media rules -/

/-- The rules of a media rule whose text is chosen. -/
def Rule.nested (chosen : String → Bool) : Rule → List Rule
  | .media text rules => if chosen text then rules else []
  | .style .. | .atRule .. => []

/-- The rules of all media rules with one text. -/
def Stylesheet.inMedia (rules : Stylesheet) (text : String) : List Rule :=
  rules.flatMap (Rule.nested (· = text))

/-- The text of a media rule in which a selector is accepted. -/
def Rule.styledText? (options : Options) : Rule → Option String
  | .media text rules =>
    if (rules.flatMap Rule.occurrences).any (options.accepts ·.selector) then some text else none
  | .style .. | .atRule .. => none

/-- The texts of media rules in which selectors are accepted, in the order in which these come. -/
def Stylesheet.styledTexts (options : Options) (rules : Stylesheet) : List String :=
  Table.appendKeys [] (rules.filterMap (Rule.styledText? options))

/-- The queries of a media rule under its key. -/
def Rule.recorded : Rule → List (String × List MediaQuery)
  | .media text _ =>
    match MediaQuery.parseAccepted text with
    | .ok queries => [(MediaQuery.keyOf text, queries)]
    | .error _ => []
  | .style .. | .atRule .. => []

/-- Every media rule of a stylesheet is accepted. -/
def Stylesheet.MediaAccepted (rules : Stylesheet) : Prop :=
  ∀ text nested, Rule.media text nested ∈ rules →
    ∃ queries, MediaQuery.parseAccepted text = .ok queries

theorem Stylesheet.MediaAccepted.of_subset {rules others : Stylesheet}
    (accepted : rules.MediaAccepted) (subset : others ⊆ rules) : others.MediaAccepted :=
  fun text nested member => accepted text nested (subset member)

theorem MediaQuery.keyOf_injective {left right : String} (same : keyOf left = keyOf right) :
    left = right := by
  simpa [keyOf] using same

/-- A text has the queries that are recorded under its key. -/
theorem Rule.accepted_of_mem_recorded {rule : Rule} {text : String} {queries : List MediaQuery}
    (recorded : (MediaQuery.keyOf text, queries) ∈ rule.recorded) :
    MediaQuery.parseAccepted text = .ok queries := by
  cases rule with
  | style | atRule => simp [Rule.recorded] at recorded
  | media other nested =>
      unfold Rule.recorded at recorded
      cases accepted : MediaQuery.parseAccepted other with
      | error error => simp [accepted] at recorded
      | ok found =>
          simp only [accepted, List.mem_singleton, Prod.mk.injEq] at recorded
          rw [MediaQuery.keyOf_injective recorded.1, recorded.2, accepted]

namespace Plan

theorem mem_steps {options : Options} {rules : Stylesheet} {step : Step} :
    step ∈ steps options rules ↔ ∃ rule ∈ rules, step ∈ ruleSteps options rule := by
  simp only [steps, List.mem_flatMap, (Stylesheet.sort_perm rules).mem_iff]

/-- An accepted media rule adds its blocks to the entries of its text. -/
theorem piece_ruleSteps_inMedia {options : Options} (asked : options.mediaQueries = true)
    {rule : Rule} (accepted : Stylesheet.MediaAccepted [rule]) (text key : String) :
    (ruleSteps options rule).filterMap (·.piece? (.inMedia (MediaQuery.keyOf text) key)) =
      (options.blocks key (rule.nested (· = text))).flatMap pieces := by
  cases rule with
  | style selectors declarations =>
      rw [ruleSteps, piece_styleSteps]
      rfl
  | media other nested =>
      rcases accepted other nested (List.mem_singleton_self _) with ⟨queries, parsed⟩
      simp only [ruleSteps, asked, ↓reduceIte]
      rw [piece_mediaSteps parsed]
      by_cases same : other = text
      · subst same
        simp [Entry.place, Entry.key, Rule.nested]
      · have different : MediaQuery.keyOf text ≠ MediaQuery.keyOf other := by
          intro equal
          exact same (MediaQuery.keyOf_injective equal).symm
        simp [Entry.place, Rule.nested, same, different, Options.blocks]
  | atRule name prelude => rfl

/-- Other rules have no steps in media rules. -/
theorem piece_ruleSteps_eq_nil (options : Options) {rule : Rule} (other : rule.group ≠ .media)
    (media key : String) :
    (ruleSteps options rule).filterMap (·.piece? (.inMedia media key)) = [] := by
  cases rule with
  | style selectors declarations => exact piece_styleSteps options none _ _ _
  | media query nested => exact absurd rfl other
  | atRule name prelude => rfl

/-- A stylesheet adds the blocks of a key in all media rules with a text, in the order of the
source. -/
theorem piece_steps_inMedia {options : Options} (asked : options.mediaQueries = true)
    {rules : Stylesheet} (accepted : rules.MediaAccepted) (text key : String) :
    (steps options rules).filterMap (·.piece? (.inMedia (MediaQuery.keyOf text) key)) =
      (options.blocks key (rules.inMedia text)).flatMap pieces := by
  rw [steps, List.filterMap_flatMap, Stylesheet.sort_flatMap_of_media
    (fun rule other => piece_ruleSteps_eq_nil options other _ key), Stylesheet.inMedia]
  induction rules with
  | nil => rfl
  | cons rule rules ih =>
      have own : Stylesheet.MediaAccepted [rule] := accepted.of_subset (by simp)
      have rest := ih (accepted.of_subset (List.subset_cons_self rule rules))
      rw [List.flatMap_cons, List.flatMap_cons, piece_ruleSteps_inMedia asked own, rest,
        Options.blocks_append, List.flatMap_append]

/-! ### Places -/

/-- A place has a step if and only if some entry in it has a piece. -/
theorem mem_place_iff {steps : List Step} {media : String} :
    media ∈ steps.filterMap Step.place? ↔
      ∃ key, steps.filterMap (·.piece? (.inMedia media key)) ≠ [] := by
  simp only [List.mem_filterMap, ne_eq, List.filterMap_eq_nil_iff, Step.place?_eq_some_iff,
    Classical.not_forall]
  constructor
  · intro placed
    rcases placed with ⟨step, member, key, added⟩
    exact ⟨key, step, member, added⟩
  · intro placed
    rcases placed with ⟨key, step, member, added⟩
    exact ⟨step, member, key, added⟩

/-- Some key has a block if and only if some selector is accepted. -/
theorem exists_blocks_iff {options : Options} {rules : List Rule} :
    (∃ key, options.blocks key rules ≠ []) ↔
      (rules.flatMap Rule.occurrences).any (options.accepts ·.selector) = true := by
  simp only [Options.blocks, ne_eq, List.map_eq_nil_iff, List.filter_eq_nil_iff, List.any_eq_true]
  constructor
  · intro found
    rcases found with ⟨key, named⟩
    simp only [Classical.not_forall, Classical.not_not] at named
    rcases named with ⟨occurrence, member, accepted⟩
    rw [Options.names, Bool.and_eq_true] at accepted
    exact ⟨occurrence, member, accepted.1⟩
  · intro found
    rcases found with ⟨occurrence, member, accepted⟩
    refine ⟨Selector.key occurrence.selector, fun unnamed => unnamed occurrence member ?_⟩
    simp [Options.names, accepted]

theorem mem_place_mediaSteps (options : Options) {query : String} {queries : List MediaQuery}
    (parsed : MediaQuery.parseAccepted query = .ok queries) (rules : List Rule) (media : String) :
    media ∈ (mediaSteps options query rules).filterMap Step.place? ↔
      media = MediaQuery.keyOf query ∧
        (rules.flatMap Rule.occurrences).any (options.accepts ·.selector) = true := by
  rw [mem_place_iff, ← exists_blocks_iff]
  simp only [piece_mediaSteps parsed, Entry.place, Entry.key, Option.some.injEq]
  by_cases same : media = MediaQuery.keyOf query
  · simp only [same, ↓reduceIte, true_and, ne_eq, flatMap_pieces_eq_nil_iff]
  · simp [same]

theorem place_ruleSteps_eq_nil (options : Options) {rule : Rule} (other : rule.group ≠ .media) :
    (ruleSteps options rule).filterMap Step.place? = [] := by
  rw [List.eq_nil_iff_forall_not_mem]
  intro media placed
  rcases mem_place_iff.mp placed with ⟨key, pieces⟩
  exact pieces (piece_ruleSteps_eq_nil options other media key)

/-- The place of a media rule is entered if one of its selectors is accepted. -/
theorem appendKeys_place_ruleSteps {options : Options} (asked : options.mediaQueries = true)
    {rule : Rule} (accepted : Stylesheet.MediaAccepted [rule]) (keys : List String) :
    Table.appendKeys keys ((ruleSteps options rule).filterMap Step.place?) =
      Table.appendKeys keys ((rule.styledText? options).toList.map MediaQuery.keyOf) := by
  cases rule with
  | style selectors declarations =>
      have outside : (Rule.style selectors declarations).group ≠ .media := by
        simp only [Rule.group]
        split <;> simp
      rw [place_ruleSteps_eq_nil options outside]
      rfl
  | media text nested =>
      rcases accepted text nested (List.mem_singleton_self _) with ⟨queries, parsed⟩
      have places := mem_place_mediaSteps options parsed nested
      simp only [ruleSteps, asked, ↓reduceIte, Rule.styledText?]
      cases styled : (nested.flatMap Rule.occurrences).any (options.accepts ·.selector) with
      | true =>
          simp only [styled, and_true] at places
          exact Table.appendKeys_of_forall_eq (fun media => (places media).mp)
            (List.ne_nil_of_mem ((places _).mpr rfl)) keys
      | false =>
          simp only [styled, Bool.false_eq_true, and_false, iff_false] at places
          rw [List.eq_nil_iff_forall_not_mem.mpr places]
          rfl
  | atRule name prelude => rfl

theorem appendKeys_place_steps {options : Options} (asked : options.mediaQueries = true)
    {rules : Stylesheet} (accepted : rules.MediaAccepted) :
    Table.appendKeys [] ((steps options rules).filterMap Step.place?) =
      (rules.styledTexts options).map MediaQuery.keyOf := by
  rw [steps, List.filterMap_flatMap,
    Stylesheet.sort_flatMap_of_media (fun _ => place_ruleSteps_eq_nil options),
    Stylesheet.styledTexts, Table.map_appendKeys (fun _ _ => MediaQuery.keyOf_injective),
    List.map_nil]
  generalize ([] : List String) = keys
  induction rules generalizing keys with
  | nil => rfl
  | cons rule rules ih =>
      have own : Stylesheet.MediaAccepted [rule] := accepted.of_subset (by simp)
      have rest := accepted.of_subset (List.subset_cons_self rule rules)
      rw [List.flatMap_cons, Table.appendKeys_append, appendKeys_place_ruleSteps asked own,
        ih rest, ← Table.appendKeys_append, ← List.map_append]
      cases styled : rule.styledText? options <;> simp [styled]

/-! ### Queries -/

theorem recorded_styleSteps (options : Options) (media : Option String) (selectors : List String)
    (declarations : List Declaration) :
    (styleSteps options media selectors declarations).filterMap Step.recorded? = [] := by
  rw [styleSteps, List.filterMap_flatMap, List.flatMap_eq_nil_iff]
  intro selector member
  rcases selectorSteps_cases options media declarations selector with
    ⟨-, steps⟩ | ⟨-, -, -, steps⟩ | ⟨-, -, reason, steps⟩
  · rw [steps]
    simp [entrySteps, Step.recorded?]
  · rw [steps]
    simp [exportSteps, Step.recorded?]
  · rw [steps]
    rfl

theorem recorded_nestedSteps (options : Options) (media : String) (rule : Rule) :
    (nestedSteps options media rule).filterMap Step.recorded? = [] := by
  cases rule with
  | style selectors declarations =>
      exact recorded_styleSteps options (some media) selectors declarations
  | media | atRule => rfl

theorem recorded_ruleSteps {options : Options} (asked : options.mediaQueries = true)
    (rule : Rule) : (ruleSteps options rule).filterMap Step.recorded? = rule.recorded := by
  cases rule with
  | style selectors declarations => exact recorded_styleSteps options none selectors declarations
  | media text nested =>
      have inside : (nested.flatMap (nestedSteps options (MediaQuery.keyOf text))).filterMap
          Step.recorded? = [] := by
        rw [List.filterMap_flatMap, List.flatMap_eq_nil_iff]
        intro rule member
        exact recorded_nestedSteps options _ rule
      simp only [ruleSteps, asked, ↓reduceIte, mediaSteps, Rule.recorded]
      cases MediaQuery.parseAccepted text with
      | error error => rfl
      | ok queries => simp [Step.recorded?, inside]
  | atRule name prelude => rfl

/-- A stylesheet records the queries of its media rules. -/
theorem recorded_steps {options : Options} (asked : options.mediaQueries = true)
    (rules : Stylesheet) :
    (steps options rules).filterMap Step.recorded? = rules.flatMap Rule.recorded := by
  have silent : ∀ rule : Rule, rule.group ≠ .media → rule.recorded = [] := by
    intro rule other
    cases rule with
    | style | atRule => rfl
    | media text nested => exact absurd rfl other
  simp only [steps, List.filterMap_flatMap, recorded_ruleSteps asked]
  exact Stylesheet.sort_flatMap_of_media silent rules

end Plan

/-! ## The media rules of an output -/

section Compiled

variable {options : Options} {source : String} {rules : Stylesheet} {output : Output}

/-- A stylesheet that compiles has accepted media rules only. -/
theorem compile_mediaAccepted
    (parsed : Stylesheet.parse (Compilation.cutOf options source).text = .ok rules)
    (compiled : compile options source = .ok output) (asked : options.mediaQueries = true) :
    rules.MediaAccepted := by
  intro text nested member
  cases accepted : MediaQuery.parseAccepted text with
  | ok queries => exact ⟨queries, rfl⟩
  | error error =>
      have failing : Step.fail error ∈ Plan.steps options rules := by
        rw [Plan.mem_steps]
        exact ⟨_, member, by simp [Plan.ruleSteps, asked, Plan.mediaSteps, accepted]⟩
      exact absurd failing ((compile_takes parsed compiled).fail_notMem error)

/-- The blocks of media rules are those of the texts that have entries. -/
theorem compile_keys_media
    (parsed : Stylesheet.parse (Compilation.cutOf options source).text = .ok rules)
    (compiled : compile options source = .ok output) (asked : options.mediaQueries = true) :
    output.media.keys = (rules.styledTexts options).map MediaQuery.keyOf := by
  have accepted := compile_mediaAccepted parsed compiled asked
  rw [(compile_takes parsed compiled).keys_media]
  exact Plan.appendKeys_place_steps asked accepted

/-- The queries of a media rule are those that its text describes. -/
theorem compile_queries
    (parsed : Stylesheet.parse (Compilation.cutOf options source).text = .ok rules)
    (compiled : compile options source = .ok output) (asked : options.mediaQueries = true)
    {text : String} {nested : List Rule} {queries : List MediaQuery}
    (member : Rule.media text nested ∈ rules)
    (accepted : MediaQuery.parseAccepted text = .ok queries) :
    output.queries.get? (MediaQuery.keyOf text) = some queries := by
  have run := (compile_takes parsed compiled).queries
  rw [Plan.recorded_steps asked] at run
  rw [run]
  apply Table.get?_insertAll_of_agree
  · intro other entered
    rcases List.mem_flatMap.mp entered with ⟨rule, -, recorded⟩
    have again := Rule.accepted_of_mem_recorded recorded
    rw [accepted, Except.ok.injEq] at again
    exact again.symm
  · right
    rw [List.mem_flatMap]
    exact ⟨_, member, by simp [Rule.recorded, accepted]⟩

/-- The entry of a key in a media rule has the styles of its blocks in all media rules with that
text, in the order of the source. -/
theorem compile_inMedia
    (parsed : Stylesheet.parse (Compilation.cutOf options source).text = .ok rules)
    (compiled : compile options source = .ok output) (asked : options.mediaQueries = true)
    (text key : String) :
    let context := Compilation.contextOf options (Compilation.cutOf options source)
    let entry := Entry.inMedia (MediaQuery.keyOf text) key
    (options.blocks key (rules.inMedia text)).foldlM context.extend .empty =
        .ok ((output.styles? entry).getD .empty) ∧
      (output.styles? entry).isSome = !(options.blocks key (rules.inMedia text)).isEmpty := by
  intro context entry
  have accepted := compile_mediaAccepted parsed compiled asked
  have taken := compile_takes parsed compiled
  have pieces := Plan.piece_steps_inMedia asked accepted text key
  constructor
  · have extending := taken.extend_styles entry
    rw [pieces, Plan.flatten_flatMap_pieces, ← Context.foldlM_extend] at extending
    exact extending
  · have present := taken.styles?_isSome entry
    rw [Step.any_concerns, pieces, Plan.isEmpty_flatMap_pieces] at present
    exact present

end Compiled

end StyleObjects
