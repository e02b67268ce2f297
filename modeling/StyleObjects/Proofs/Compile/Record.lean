import StyleObjects.Proofs.Compile.Account
import StyleObjects.Proofs.Compile.Place
import StyleObjects.Proofs.Media.Lists
import StyleObjects.Proofs.Stylesheet.Queries

/-!
# The record of media queries

Styles in media rules, the queries of these rules and what has been left out of them stand in three
tables, which different steps write.  The tables agree: whatever refers to a media rule refers to
one whose queries are kept, and they are kept as its text describes them.
-/

namespace StyleObjects

open Stylesheet (isCollapsed)

/-- A collapsed text describes these queries, and the renderer accepts them. -/
structure MediaQuery.Describes (text : String) (queries : List MediaQuery) : Prop where
  nonempty : text ≠ ""
  collapsed : isCollapsed text.toList = true
  parsed : parse? text = some queries
  filled : queries ≠ []
  accepted : listError? queries = none

/-- The text of a media rule that is read and accepted describes its queries. -/
theorem MediaQuery.describes_of_parseAccepted {text : String} {queries : List MediaQuery}
    (collapsed : isCollapsed text.toList = true) (accepted : parseAccepted text = .ok queries) :
    Describes text queries where
  nonempty := by
    have unread : parse? "" = none := by decide
    rintro rfl
    simp [parseAccepted_eq_ok_iff, unread] at accepted
  collapsed := collapsed
  parsed := (parseAccepted_eq_ok_iff.mp accepted).1
  filled := ne_nil_of_parse? (parseAccepted_eq_ok_iff.mp accepted).1
  accepted := (parseAccepted_eq_ok_iff.mp accepted).2

/-- Whatever an output says of a media rule, it has kept the queries of this rule. -/
structure Output.KeepsQueries (output : Output) : Prop where
  blocks : ∀ media ∈ output.media.keys, media ∈ output.queries.keys
  skipped : ∀ skipped ∈ output.skipped, ∀ media, skipped.media = some media →
    media ∈ output.queries.keys
  filled : ∀ block ∈ output.media.values, block.keys ≠ []
  described : ∀ media ∈ output.queries.keys, ∃ text queries, media = MediaQuery.keyOf text ∧
    output.queries.get? media = some queries ∧ MediaQuery.Describes text queries

/-! ## What a run keeps -/

theorem Step.recorded?_eq_some_iff {step : Step} {media : String} {queries : List MediaQuery} :
    step.recorded? = some (media, queries) ↔ step = .recordQueries media queries := by
  cases step <;> simp [recorded?]

theorem Step.standsIn_of_place? {step : Step} {media : String} (placed : step.place? = some media) :
    step.StandsIn (some media) := by
  cases step with
  | touch | declare => exact placed
  | skip | exportValue | recordQueries | fail => cases placed

theorem Step.skipped?_eq_some_iff {step : Step} {skipped : Skipped} :
    step.skipped? = some skipped ↔ step = .skip skipped := by
  cases step <;> simp [skipped?]

namespace Takes

variable {context : Context} {steps : List Step} {final : Output}

theorem mem_keys_queries_iff (taken : Takes context steps {} final) (media : String) :
    media ∈ final.queries.keys ↔ ∃ queries, Step.recordQueries media queries ∈ steps := by
  have nothing : media ∉ ({} : Output).queries.keys := List.not_mem_nil
  rw [taken.queries, Table.keys_insertAll, Table.mem_appendKeys, or_iff_right nothing]
  simp [List.mem_filterMap, Step.recorded?_eq_some_iff]

/-- Some step makes or changes an entry in every block. -/
theorem exists_standsIn_of_mem_keys_media (taken : Takes context steps {} final) {media : String}
    (member : media ∈ final.media.keys) : ∃ step ∈ steps, step.StandsIn (some media) := by
  have nothing : media ∉ ({} : Output).media.keys := List.not_mem_nil
  rw [taken.keys_media, Table.mem_appendKeys, or_iff_right nothing, List.mem_filterMap] at member
  rcases member with ⟨step, inside, placed⟩
  exact ⟨step, inside, Step.standsIn_of_place? placed⟩

theorem mem_skipped_iff (taken : Takes context steps {} final) {skipped : Skipped} :
    skipped ∈ final.skipped ↔ Step.skip skipped ∈ steps := by
  simp [taken.skipped, List.mem_filterMap, Step.skipped?_eq_some_iff]

/-- A block is there because some key is in it. -/
theorem keys_ne_nil_of_mem_values (taken : Takes context steps {} final) {block : Table Styles}
    (member : block ∈ final.media.values) : block.keys ≠ [] := by
  rcases List.mem_map.mp member with ⟨⟨media, block⟩, entered, rfl⟩
  have keyed := (taken.mem_keys_media_iff media).mp (List.mem_map_of_mem entered)
  simpa [Output.keysIn, Table.get?_of_mem entered] using keyed

end Takes

/-! ## What a stylesheet keeps -/

section Compiled

variable {options : Options} {source : String} {rules : Stylesheet} {output : Output}

/-- The queries that are kept are those of the media rules at the top. -/
theorem compile_mem_keys_queries_iff
    (parsed : Stylesheet.parse (Compilation.cutOf options source).text = .ok rules)
    (compiled : compile options source = .ok output) (media : String) :
    media ∈ output.queries.keys ↔ options.mediaQueries = true ∧
      ∃ text nested, Rule.media text nested ∈ rules ∧ MediaQuery.keyOf text = media := by
  constructor
  · intro member
    rcases ((compile_takes parsed compiled).mem_keys_queries_iff media).mp member with
      ⟨queries, step⟩
    rcases Plan.exists_ruleStep_of_mem step with ⟨rule, inside, own⟩
    cases own with
    | top stands | inside asked accepted stands => cases stands
    | record asked accepted => exact ⟨asked, _, _, inside, rfl⟩
  · rintro ⟨asked, text, nested, inside, rfl⟩
    rcases compile_mediaAccepted parsed compiled asked text nested inside with ⟨queries, accepted⟩
    rw [← Table.contains_iff, Table.contains,
      compile_queries parsed compiled asked inside accepted]
    rfl

/-- The queries that are kept are described by a text. -/
theorem compile_queries_described
    (parsed : Stylesheet.parse (Compilation.cutOf options source).text = .ok rules)
    (compiled : compile options source = .ok output) {media : String}
    (member : media ∈ output.queries.keys) : ∃ text queries, media = MediaQuery.keyOf text ∧
      output.queries.get? media = some queries ∧ MediaQuery.Describes text queries := by
  rcases (compile_mem_keys_queries_iff parsed compiled media).mp member with
    ⟨asked, text, nested, inside, rfl⟩
  rcases compile_mediaAccepted parsed compiled asked text nested inside with ⟨queries, accepted⟩
  have collapsed := Stylesheet.isCollapsed_of_built (Stylesheet.built_of_parse parsed _ inside)
  exact ⟨text, queries, rfl, compile_queries parsed compiled asked inside accepted,
    MediaQuery.describes_of_parseAccepted collapsed accepted⟩

/-- An output keeps the queries of all media rules that it speaks of; without media queries it
speaks of none. -/
theorem compile_keepsQueries (compiled : compile options source = .ok output) :
    output.KeepsQueries ∧
      (options.mediaQueries = false → output.media = .empty ∧ output.queries = .empty) := by
  rcases compile_ok_iff.mp compiled with ⟨rules, parsed, taken⟩
  have keeps := compile_mem_keys_queries_iff parsed compiled
  -- A step in a media rule comes from one that is accepted, which has recorded its queries.
  have kept : ∀ {step : Step} {media : String}, step ∈ Plan.steps options rules →
      step.StandsIn (some media) → media ∈ output.queries.keys :=
    fun member stands => (keeps _).mpr (Plan.exists_media_of_standsIn member stands)
  have blocks : ∀ media ∈ output.media.keys, media ∈ output.queries.keys := by
    intro media member
    rcases taken.exists_standsIn_of_mem_keys_media member with ⟨step, inside, stands⟩
    exact kept inside stands
  refine ⟨⟨blocks, ?skipped, ?filled, ?described⟩, fun off => ?off⟩
  case skipped =>
    intro skipped member media labelled
    exact kept (taken.mem_skipped_iff.mp member) labelled
  case filled =>
    exact fun block => taken.keys_ne_nil_of_mem_values
  case described =>
    exact fun media => compile_queries_described parsed compiled
  case off =>
    have unkept : ∀ media, media ∉ output.queries.keys := by simp [keeps, off]
    have unstyled : ∀ media, media ∉ output.media.keys :=
      fun media member => unkept media (blocks media member)
    simp only [Table.eq_empty_iff, List.eq_nil_iff_forall_not_mem]
    exact ⟨unstyled, unkept⟩

end Compiled

/-- A media rule, read without a request for media rules. -/
def mediaUnasked : CompiledText {} where
  source := "@media all\x7b.b\x7bd:e\x7d\x7d"
  rules := [.media "all" [.style [".b"] [⟨"d", "e"⟩]]]
  output := { skipped := [⟨"@media all", .mediaDisabled, none⟩] }
  parsed := ok_of_toOption (by decide +kernel)
  ran := by decide +kernel

theorem compile_keepsQueries_of_mixedRules :
    (compile ignoringOne mixedRules.source = .ok mixedRules.output ∧
      mixedRules.output.KeepsQueries) ∧
    compile {} mediaUnasked.source = .ok mediaUnasked.output ∧
      mediaUnasked.output.KeepsQueries ∧
      mediaUnasked.output.media = .empty ∧ mediaUnasked.output.queries = .empty := by
  have unasked := compile_keepsQueries mediaUnasked.compiled
  exact ⟨⟨mixedRules.compiled, (compile_keepsQueries mixedRules.compiled).1⟩,
    mediaUnasked.compiled, unasked.1, unasked.2 rfl⟩

end StyleObjects
