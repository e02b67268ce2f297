import StyleObjects.Proofs.Compile.Place
import StyleObjects.Proofs.Compile.StyleKey

/-!
# Options that do not interfere

Every part of an output is made by the steps that have something to say to it.  Two plans that differ
only in steps without a say in some part therefore give the same part.  A request for media rules has
no say in the classes and the exports, and a request for part selectors has none but in the entries
of parts.
-/

namespace StyleObjects

/-! ## Parts of an output -/

namespace Step

/-- What a step exports. -/
def exported? : Step → Option (String × String)
  | .exportValue name value => some (name, value)
  | _ => none

theorem Takes.exports {context : Context} {step : Step} {output next : Output}
    (taken : Step.Takes context output step next) :
    next.exports = output.exports.insertAll step.exported?.toList := by
  cases taken with
  | skip | exportValue | recordQueries => rfl
  | touch entry => cases entry <;> rfl
  | declare entry lowered => cases entry <;> rfl

end Step

/-- The styles by key in a place, at the top or in a media rule. -/
def Output.stylesIn (output : Output) : Option String → Table Styles
  | none => output.classes
  | some media => (output.media.get? media).getD .empty

theorem Output.keys_stylesIn (output : Output) (place : Option String) :
    (output.stylesIn place).keys = output.keysIn place := by
  cases place with
  | none => rfl
  | some media =>
      simp only [stylesIn, keysIn]
      cases output.media.get? media <;> rfl

theorem Output.get?_stylesIn (output : Output) (place : Option String) (key : String) :
    (output.stylesIn place).get? key = output.styles? (Plan.entryOf place key) := by
  cases place with
  | none => rfl
  | some media =>
      simp only [stylesIn, Plan.entryOf, styles?]
      cases output.media.get? media <;> rfl

namespace Takes

variable {context : Context} {steps others : List Step} {output final other : Output}

/-- The exports of a run are those of its steps. -/
theorem exports (taken : Takes context steps output final) :
    final.exports = output.exports.insertAll (steps.filterMap Step.exported?) := by
  induction taken with
  | nil output => rfl
  | cons first rest ih =>
      rename_i step steps output next final
      rw [ih, first.exports, ← Table.insertAll_append]
      cases exported : step.exported? <;> simp [exported]

/-- The chosen keys of a place are those of the steps that are chosen. -/
theorem filter_keysIn (taken : Takes context steps {} final) (keep : String → Bool)
    (place : Option String) :
    (final.keysIn place).filter keep =
      Table.appendKeys [] (steps.filterMap fun step => (step.keyIn? place).filter keep) := by
  have nothing : ({} : Output).keysIn place = [] := by cases place <;> rfl
  rw [taken.keysIn, nothing, Table.filter_appendKeys, List.filter_nil, List.filter_filterMap]

/-- Runs that add the same to an entry give it the same styles. -/
theorem styles?_congr (taken : Takes context steps {} final) (again : Takes context others {} other)
    {entry : Entry}
    (same : steps.filterMap (·.piece? entry) = others.filterMap (·.piece? entry)) :
    final.styles? entry = other.styles? entry := by
  have extended := taken.extend_styles entry
  have present := taken.styles?_isSome entry
  rw [same, again.extend_styles entry, Except.ok.injEq] at extended
  rw [Step.any_concerns, same, ← Step.any_concerns, ← again.styles?_isSome entry] at present
  cases held : final.styles? entry <;> cases kept : other.styles? entry <;> simp_all

/-- A run that enters the chosen keys of another in some place, and adds the same to their entries,
has there the part of the other's styles that is chosen. -/
theorem stylesIn_eq_filter (taken : Takes context steps {} final)
    (again : Takes context others {} other) (keep : String → Bool) (place : Option String)
    (keys : other.keysIn place = (final.keysIn place).filter keep)
    (pieces : ∀ key, keep key = true →
      others.filterMap (·.piece? (Plan.entryOf place key)) =
        steps.filterMap (·.piece? (Plan.entryOf place key))) :
    other.stylesIn place = (final.stylesIn place).filter keep := by
  rw [← Output.keys_stylesIn, ← Output.keys_stylesIn] at keys
  apply Table.eq_filter keys
  intro key kept
  rw [Output.get?_stylesIn, Output.get?_stylesIn]
  exact again.styles?_congr taken (pieces key kept)

end Takes

/-! ## With and without media rules -/

namespace Plan

/-- A media rule does nothing at the top. -/
theorem not_standsIn_of_mem_mediaSteps {options : Options} {query : String} {rules : List Rule}
    {step : Step} (member : step ∈ mediaSteps options query rules) : ¬step.StandsIn none := by
  unfold mediaSteps at member
  split at member
  · rw [List.mem_singleton.mp member]
    exact id
  · rcases List.mem_cons.mp member with rfl | member
    · exact id
    · rcases List.mem_flatMap.mp member with ⟨rule, -, own⟩
      intro top
      cases (standsIn_nestedSteps own).unique top

variable {α : Type} {image : Step → Option α}

/-- What is only seen in steps at the top that leave nothing out is the same with and without media
rules. -/
theorem filterMap_steps_mediaQueries (skips : ∀ skipped, image (.skip skipped) = none)
    (inside : ∀ step : Step, ¬step.StandsIn none → image step = none) (options : Options)
    (rules : Stylesheet) :
    (steps { options with mediaQueries := false } rules).filterMap image =
      (steps { options with mediaQueries := true } rules).filterMap image := by
  rw [steps, steps, List.filterMap_flatMap, List.filterMap_flatMap]
  congr 1
  funext rule
  cases rule with
  | style | atRule => rfl
  | media text nested =>
      have asked : (mediaSteps { options with mediaQueries := true } text nested).filterMap image =
          [] := by
        rw [List.filterMap_eq_nil_iff]
        intro step member
        exact inside step (not_standsIn_of_mem_mediaSteps member)
      exact (List.filterMap_cons_none (skips _)).trans asked.symm

end Plan

/-! ## With and without part selectors -/

namespace Selector

/-- The key is that of a part, which may have lost its dot. -/
def isPartKey (key : String) : Bool :=
  isPart key.toList || isPart ('.' :: key.toList)

/-- A part has a colon. -/
theorem colon_mem_of_isPart {cs : List Char} (part : isPart cs = true) : ':' ∈ cs := by
  have suffix : ∀ {rest : List Char}, skipClass? cs = some rest → rest <:+ cs := by
    intro rest skipped
    unfold skipClass? at skipped
    split at skipped
    · rw [Option.ite_none_right_eq_some, Option.some.injEq] at skipped
      rw [← skipped.2]
      exact (List.dropWhile_suffix _).trans (List.suffix_cons _ _)
    · rw [Option.some.injEq] at skipped
      exact skipped ▸ List.suffix_rfl
  unfold isPart at part
  split at part
  · exact (suffix ‹_›).subset List.mem_cons_self
  · exact (suffix ‹_›).subset List.mem_cons_self
  · cases part

theorem isPartKey_key {selector : String} (part : isPart selector.toList = true) :
    isPartKey (key selector) = true := by
  rw [isPartKey, Bool.or_eq_true]
  unfold key
  split
  · rename_i name dotted
    right
    rw [String.toList_ofList, ← dotted]
    exact part
  · exact .inl part

/-- Without part selectors no key of an accepted selector is that of a part. -/
theorem isPartKey_eq_false {selector : String}
    (accepted : (classify false selector).isAccepted = true) : isPartKey (key selector) = false := by
  unfold classify at accepted
  split at accepted
  · cases accepted
  · split at accepted
    · rename_i root
      subst root
      decide
    · rcases (cases_of_kindOf accepted).2 with ⟨enabled, -⟩ | ⟨name, -, colonless, dotted⟩
      · cases enabled
      · have spelled : (key selector).toList = name := by simp [key, dotted]
        rw [isPartKey, spelled, Bool.or_eq_false_iff]
        constructor
        · by_contra part
          exact colonless (colon_mem_of_isPart (by simpa using part))
        · by_contra part
          have member : ':' ∈ '.' :: name := colon_mem_of_isPart (by simpa using part)
          rw [List.mem_cons] at member
          exact member.elim (by decide) colonless

/-- Part selectors are rejected unless they are enabled, and nothing else depends on that. -/
theorem classify_cases (selector : String) :
    classify true selector = classify false selector ∨
      (classify true selector = .part ∧ classify false selector = .rejected ∧
        isPartKey (key selector) = true) := by
  unfold classify
  split
  · exact .inl rfl
  · split
    · exact .inl rfl
    · unfold kindOf
      split
      · exact .inl rfl
      · cases part : isPart selector.toList with
        | false => exact .inl rfl
        | true =>
            refine .inr ⟨rfl, ?_, isPartKey_key part⟩
            -- A part has a colon, and so it is no class either.
            have colon := colon_mem_of_isPart part
            simp only [Bool.false_and, Bool.false_eq_true, ↓reduceIte]
            split
            · rename_i name dotted
              rw [dotted, List.mem_cons] at colon
              have inside := colon.resolve_left (by decide)
              simp [inside]
            · rfl

end Selector

/-- What is seen neither in the entries of parts nor in what is left out. -/
structure Step.BlindToParts {α : Type} (image : Step → Option α) : Prop where
  skips : ∀ skipped, image (.skip skipped) = none
  entries : ∀ entry, Selector.isPartKey entry.key = true →
    image (.touch entry) = none ∧ ∀ declaration, image (.declare entry declaration) = none

namespace Step.BlindToParts

theorem exported : BlindToParts exported? := ⟨fun _ => rfl, fun _ _ => ⟨rfl, fun _ => rfl⟩⟩

theorem recorded : BlindToParts recorded? := ⟨fun _ => rfl, fun _ _ => ⟨rfl, fun _ => rfl⟩⟩

/-- Nothing that is added to the entry of a part is added to another entry. -/
theorem piece {entry : Entry} (other : Selector.isPartKey entry.key = false) :
    BlindToParts (·.piece? entry) where
  skips := fun _ => rfl
  entries := by
    intro made part
    have apart : made ≠ entry := by
      rintro rfl
      rw [part] at other
      cases other
    exact ⟨if_neg apart, fun _ => if_neg apart⟩

/-- The keys of parts are not seen among the others. -/
theorem keyIn (place : Option String) :
    BlindToParts fun step => (step.keyIn? place).filter (!Selector.isPartKey ·) where
  skips := fun _ => rfl
  entries := by
    intro made part
    by_cases placed : made.place = place <;> simp [keyIn?, placed, part]

end Step.BlindToParts

namespace Plan

variable {α : Type} {image : Step → Option α}

theorem filterMap_selectorSteps_partSelectors (blind : Step.BlindToParts image)
    (options : Options) (media : Option String) (declarations : List Declaration)
    (selector : String) :
    (selectorSteps { options with partSelectors := false } media declarations selector).filterMap
        image =
      (selectorSteps { options with partSelectors := true } media declarations selector).filterMap
        image := by
  rcases Selector.classify_cases selector with same | ⟨enabled, disabled, part⟩
  · simp only [selectorSteps, same]
  · have named : (entryOf media (Selector.key selector)).key = Selector.key selector :=
      ((entryOf_eq_iff media (Selector.key selector) _).mp rfl).2.symm
    have silent := blind.entries (entryOf media (Selector.key selector)) (by rw [named]; exact part)
    simp only [selectorSteps, enabled, disabled]
    cases options.ignores selector with
    | true => simp [blind.skips]
    | false => simp [blind.skips, entrySteps, silent]

theorem filterMap_styleSteps_partSelectors (blind : Step.BlindToParts image)
    (options : Options) (media : Option String) (selectors : List String)
    (declarations : List Declaration) :
    (styleSteps { options with partSelectors := false } media selectors declarations).filterMap
        image =
      (styleSteps { options with partSelectors := true } media selectors declarations).filterMap
        image := by
  simp only [styleSteps, List.filterMap_flatMap, filterMap_selectorSteps_partSelectors blind]

theorem filterMap_mediaSteps_partSelectors (blind : Step.BlindToParts image)
    (options : Options) (text : String) (rules : List Rule) :
    (mediaSteps { options with partSelectors := false } text rules).filterMap image =
      (mediaSteps { options with partSelectors := true } text rules).filterMap image := by
  have nested : ∀ media rule,
      (nestedSteps { options with partSelectors := false } media rule).filterMap image =
        (nestedSteps { options with partSelectors := true } media rule).filterMap image := by
    intro media rule
    cases rule with
    | style selectors declarations =>
        exact filterMap_styleSteps_partSelectors blind options (some media) _ _
    | media | atRule => rfl
  unfold mediaSteps
  cases MediaQuery.parseAccepted text with
  | error error => rfl
  | ok queries => simp only [List.filterMap_cons, List.filterMap_flatMap, nested]

/-- What is seen neither in the entries of parts nor in what is left out is the same with and without
part selectors. -/
theorem filterMap_steps_partSelectors (blind : Step.BlindToParts image)
    (options : Options) (rules : Stylesheet) :
    (steps { options with partSelectors := false } rules).filterMap image =
      (steps { options with partSelectors := true } rules).filterMap image := by
  rw [steps, steps, List.filterMap_flatMap, List.filterMap_flatMap]
  congr 1
  funext rule
  cases rule with
  | style selectors declarations =>
      exact filterMap_styleSteps_partSelectors blind options none _ _
  | media text rules =>
      simp only [ruleSteps]
      by_cases asked : options.mediaQueries = true
      · rw [if_pos asked, if_pos asked]
        exact filterMap_mediaSteps_partSelectors blind options text rules
      · rw [if_neg asked, if_neg asked]
  | atRule name prelude => rfl

end Plan

/-! ## Whole stylesheets -/

section Compiled

variable {options : Options} {source : String}

/-- Without part selectors no key is that of a part. -/
theorem compile_isPartKey_eq_false {output : Output} (disabled : options.partSelectors = false)
    (compiled : compile options source = .ok output) (place : Option String) :
    ∀ key ∈ output.keysIn place, Selector.isPartKey key = false := by
  rcases compile_ok_iff.mp compiled with ⟨rules, parsed, -⟩
  intro key member
  rw [compile_keysIn parsed compiled, List.mem_eraseDups, Options.keysOf, List.mem_map] at member
  rcases member with ⟨selector, remaining, rfl⟩
  rw [List.mem_filter, Options.accepts, Bool.and_eq_true, disabled] at remaining
  exact Selector.isPartKey_eq_false remaining.2.1

/-- Without media rules the classes and the exports are the same as with them. -/
theorem compile_mediaQueries {asked unasked : Output}
    (compiled : compile { options with mediaQueries := true } source = .ok asked)
    (again : compile { options with mediaQueries := false } source = .ok unasked) :
    unasked.classes = asked.classes ∧ unasked.exports = asked.exports := by
  rcases compile_ok_iff.mp compiled with ⟨rules, parsed, taken⟩
  have retaken : Takes _ (Plan.steps { options with mediaQueries := false } rules) {} unasked :=
    compile_takes parsed again
  constructor
  · have keys : (Plan.steps { options with mediaQueries := false } rules).filterMap
          (·.keyIn? none) =
        (Plan.steps { options with mediaQueries := true } rules).filterMap (·.keyIn? none) := by
      refine Plan.filterMap_steps_mediaQueries (fun _ => rfl) ?_ options rules
      intro step inside
      cases step with
      | touch entry | declare entry _ => exact if_neg inside
      | skip | exportValue | recordQueries | fail => rfl
    have pieces : ∀ key, (Plan.steps { options with mediaQueries := false } rules).filterMap
          (·.piece? (.top key)) =
        (Plan.steps { options with mediaQueries := true } rules).filterMap
          (·.piece? (.top key)) := by
      intro key
      refine Plan.filterMap_steps_mediaQueries (fun _ => rfl) ?_ options rules
      intro step inside
      cases step with
      | touch entry | declare entry _ =>
          refine if_neg ?_
          rintro rfl
          exact inside rfl
      | skip | exportValue | recordQueries | fail => rfl
    have whole := taken.stylesIn_eq_filter retaken (fun _ => true) none
    rw [Table.filter_true, List.filter_true] at whole
    apply whole
    · rw [retaken.keysIn, taken.keysIn, keys]
    · exact fun key _ => pieces key
  · have exported : (Plan.steps { options with mediaQueries := false } rules).filterMap
          Step.exported? =
        (Plan.steps { options with mediaQueries := true } rules).filterMap Step.exported? := by
      refine Plan.filterMap_steps_mediaQueries (fun _ => rfl) ?_ options rules
      intro step inside
      cases step with
      | exportValue name value => exact absurd rfl inside
      | skip | touch | declare | recordQueries | fail => rfl
    rw [retaken.exports, taken.exports, exported]

/-- Without part selectors every place has the styles that it has with them, less those of parts. -/
theorem compile_stylesIn_partSelectors {parted whole : Output}
    (compiled : compile { options with partSelectors := true } source = .ok parted)
    (again : compile { options with partSelectors := false } source = .ok whole)
    (place : Option String) :
    whole.stylesIn place = (parted.stylesIn place).filter (!Selector.isPartKey ·) := by
  rcases compile_ok_iff.mp compiled with ⟨rules, parsed, taken⟩
  have retaken : Takes _ (Plan.steps { options with partSelectors := false } rules) {} whole :=
    compile_takes parsed again
  apply taken.stylesIn_eq_filter retaken
  · have apart : (whole.keysIn place).filter (!Selector.isPartKey ·) = whole.keysIn place := by
      rw [List.filter_eq_self]
      intro key member
      rw [compile_isPartKey_eq_false rfl again place key member]
      rfl
    rw [← apart, retaken.filter_keysIn, taken.filter_keysIn,
      Plan.filterMap_steps_partSelectors (.keyIn place)]
  · intro key other
    apply Plan.filterMap_steps_partSelectors
    apply Step.BlindToParts.piece
    rw [← ((Plan.entryOf_eq_iff place key _).mp rfl).2]
    simpa using other

/-- A block is what its place has, and there is none if that is nothing. -/
theorem compile_media_eq_stylesIn {output : Output} (compiled : compile options source = .ok output)
    (media : String) :
    output.media.get? media = (some (output.stylesIn (some media))).filter (!·.isEmpty) := by
  rcases compile_ok_iff.mp compiled with ⟨rules, parsed, taken⟩
  have present := taken.mem_keys_media_iff media
  rw [← Table.contains_iff, Table.contains, ← Output.keys_stylesIn] at present
  simp only [Output.stylesIn] at present ⊢
  cases held : output.media.get? media with
  | none => rfl
  | some block =>
      simp only [held, Option.isSome_some, Option.getD_some, true_iff] at present
      have filled : block.isEmpty = false := by
        cases empty : block.isEmpty with
        | false => rfl
        | true =>
            rw [Table.isEmpty, List.isEmpty_iff] at empty
            simp [Table.keys, empty] at present
      rw [Option.getD_some, Option.filter_some_pos (by rw [filled]; rfl)]

/-- A request for media rules changes neither the classes nor the exports of a stylesheet.  Part
selectors change neither its exports nor its queries; without them the classes and every block are
those with them, less the keys of parts, and blocks of parts alone are missing. -/
theorem compile_options_orthogonal (options : Options) (source : String) :
    (∀ asked unasked,
      compile { options with mediaQueries := true } source = .ok asked →
      compile { options with mediaQueries := false } source = .ok unasked →
      unasked.classes = asked.classes ∧ unasked.exports = asked.exports) ∧
    ∀ parted whole,
      compile { options with partSelectors := true } source = .ok parted →
      compile { options with partSelectors := false } source = .ok whole →
      whole.exports = parted.exports ∧ whole.queries = parted.queries ∧
      whole.classes = parted.classes.filter (!Selector.isPartKey ·) ∧
      ∀ media, whole.media.get? media =
        ((parted.media.get? media).map (·.filter (!Selector.isPartKey ·))).filter
          (!·.isEmpty) := by
  refine ⟨fun asked unasked => compile_mediaQueries, fun parted whole compiled again => ?_⟩
  rcases compile_ok_iff.mp compiled with ⟨rules, parsed, taken⟩
  have retaken : Takes _ (Plan.steps { options with partSelectors := false } rules) {} whole :=
    compile_takes parsed again
  have styles := compile_stylesIn_partSelectors compiled again
  refine ⟨?exports, ?queries, styles none, fun media => ?block⟩
  case exports =>
    rw [retaken.exports, taken.exports, Plan.filterMap_steps_partSelectors .exported]
  case queries =>
    rw [retaken.queries, taken.queries, Plan.filterMap_steps_partSelectors .recorded]
  case block =>
    rw [compile_media_eq_stylesIn again, compile_media_eq_stylesIn compiled, styles (some media)]
    exact (Table.filter_map_filter _ _).symm

end Compiled

/-- A text with a part beside a class at the top and in one block, and a part alone in another. -/
def partedBlocks : String :=
  ".a::part(x),.b\x7bcolor:red\x7d:export\x7bc:1\x7d@media all\x7b::part(y),.b\x7b\x7d\x7d" ++
    "@media print\x7b::part(y)\x7b\x7d\x7d"

/-- The rules of `partedBlocks`. -/
def partedBlocksRules : Stylesheet :=
  [.style [".a::part(x)", ".b"] [⟨"color", "red"⟩], .style [":export"] [⟨"c", "1"⟩],
    .media "all" [.style ["::part(y)", ".b"] []], .media "print" [.style ["::part(y)"] []]]

/-- The queries of `partedBlocks`. -/
def partedBlocksQueries : Table (List MediaQuery) :=
  .ofList [("@media all", [⟨false, "all", []⟩]), ("@media print", [⟨false, "print", []⟩])]

/-- With everything that can be asked for. -/
def partedBlocksAsked : CompiledText { mediaQueries := true, partSelectors := true } where
  source := partedBlocks
  rules := partedBlocksRules
  output := {
    classes := .ofList [("a::part(x)", .ofList [("color", .text "red")]),
      ("b", .ofList [("color", .text "red")])],
    media := .ofList [("@media all", .ofList [("::part(y)", .empty), ("b", .empty)]),
      ("@media print", .ofList [("::part(y)", .empty)])],
    queries := partedBlocksQueries,
    exports := .ofList [("c", "1")] }
  parsed := ok_of_toOption (by decide +kernel)
  ran := by decide +kernel

/-- Without the media rules. -/
def partedBlocksUnasked : CompiledText { partSelectors := true } where
  source := partedBlocks
  rules := partedBlocksRules
  output := {
    classes := .ofList [("a::part(x)", .ofList [("color", .text "red")]),
      ("b", .ofList [("color", .text "red")])],
    exports := .ofList [("c", "1")],
    skipped := [⟨"@media all", .mediaDisabled, none⟩, ⟨"@media print", .mediaDisabled, none⟩] }
  parsed := ok_of_toOption (by decide +kernel)
  ran := by decide +kernel

/-- Without the parts. -/
def partedBlocksWhole : CompiledText { mediaQueries := true } where
  source := partedBlocks
  rules := partedBlocksRules
  output := {
    classes := .ofList [("b", .ofList [("color", .text "red")])],
    media := .ofList [("@media all", .ofList [("b", .empty)])],
    queries := partedBlocksQueries,
    exports := .ofList [("c", "1")],
    skipped := [⟨".a::part(x)", .unsupportedSelector, none⟩,
      ⟨"::part(y)", .unsupportedSelector, some "@media all"⟩,
      ⟨"::part(y)", .unsupportedSelector, some "@media print"⟩] }
  parsed := ok_of_toOption (by decide +kernel)
  ran := by decide +kernel

theorem compile_options_orthogonal_of_partedBlocks :
    let asked := partedBlocksAsked.output
    let unasked := partedBlocksUnasked.output
    let whole := partedBlocksWhole.output
    (compile { mediaQueries := true, partSelectors := true } partedBlocks = .ok asked ∧
        compile { partSelectors := true } partedBlocks = .ok unasked ∧
        unasked.classes = asked.classes ∧ unasked.exports = asked.exports ∧
        unasked.media ≠ asked.media) ∧
      compile { mediaQueries := true } partedBlocks = .ok whole ∧
      whole.exports = asked.exports ∧ whole.queries = asked.queries ∧
      whole.classes = asked.classes.filter (!Selector.isPartKey ·) ∧ whole.classes.keys = ["b"] ∧
      whole.media.get? "@media all" = some (.ofList [("b", .empty)]) ∧
      whole.media.get? "@media print" = none := by
  intro asked unasked whole
  have orthogonal := compile_options_orthogonal { mediaQueries := true, partSelectors := true }
    partedBlocks
  have media := orthogonal.1 asked unasked partedBlocksAsked.compiled partedBlocksUnasked.compiled
  have parts := orthogonal.2 asked whole partedBlocksAsked.compiled partedBlocksWhole.compiled
  rcases parts with ⟨exports, queries, classes, blocks⟩
  refine ⟨⟨partedBlocksAsked.compiled, partedBlocksUnasked.compiled, media.1, media.2, ?_⟩,
    partedBlocksWhole.compiled, exports, queries, classes, rfl, ?_, ?_⟩
  · decide
  · rw [blocks]
    decide
  · rw [blocks]
    decide

end StyleObjects
