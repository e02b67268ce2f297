import StyleObjects.Proofs.Compile.Entry

/-!
# Occurrences of selectors

Every selector of a rule stands with the declarations that it shares.  The steps of a stylesheet
declare for an entry exactly the blocks of those selectors that name its key in its place, in the
order in which the rules are compiled.
-/

namespace StyleObjects

/-- A selector with the declarations of its rule. -/
structure Occurrence where
  selector : String
  declarations : List Declaration
  deriving DecidableEq, Repr

/-- The selectors of a style rule; other rules have none of their own. -/
def Rule.occurrences : Rule → List Occurrence
  | .style selectors declarations => selectors.map (⟨·, declarations⟩)
  | .media .. | .atRule .. => []

/-- A selector is accepted and not ignored. -/
def Options.accepts (options : Options) (selector : String) : Bool :=
  (Selector.classify options.partSelectors selector).isAccepted && !options.ignores selector

/-- A selector is accepted, not ignored, and names the style object of a key. -/
def Options.names (options : Options) (key selector : String) : Bool :=
  options.accepts selector && Selector.key selector = key

/-- The blocks of declarations for a key, one for every selector of the rules that names it. -/
def Options.blocks (options : Options) (key : String) (rules : List Rule) :
    List (List Declaration) :=
  ((rules.flatMap Rule.occurrences).filter (options.names key ·.selector)).map (·.declarations)

theorem Options.blocks_append (options : Options) (key : String) (rules others : List Rule) :
    options.blocks key (rules ++ others) =
      options.blocks key rules ++ options.blocks key others := by
  simp [blocks]

theorem Options.blocks_cons (options : Options) (key : String) (rule : Rule) (rules : List Rule) :
    options.blocks key (rule :: rules) = options.blocks key [rule] ++ options.blocks key rules :=
  options.blocks_append key [rule] rules

/-! ## The order of rules -/

namespace Stylesheet

variable {α : Type}

/-- Rules outside of a filter can be left out if they give nothing. -/
theorem filter_flatMap_of_silent {image : Rule → List α} {keep : Rule → Bool} (rules : Stylesheet)
    (silent : ∀ rule, keep rule = false → image rule = []) :
    (rules.filter keep).flatMap image = rules.flatMap image := by
  induction rules with
  | nil => rfl
  | cons rule rules ih =>
      cases kept : keep rule with
      | true => simp [kept, ih]
      | false => simp [kept, ih, silent rule kept]

theorem filter_flatMap_eq_nil {image : Rule → List α} {keep : Rule → Bool} (rules : Stylesheet)
    (silent : ∀ rule, keep rule = true → image rule = []) :
    (rules.filter keep).flatMap image = [] := by
  rw [List.flatMap_eq_nil_iff]
  intro rule member
  exact silent rule (List.mem_filter.mp member).2

/-- What only style rules give is given by those that export nothing and then by those that do. -/
theorem sort_flatMap_of_style {image : Rule → List α}
    (silent : ∀ rule, (rule.group = .media ∨ rule.group = .other) → image rule = [])
    (rules : Stylesheet) :
    rules.sort.flatMap image =
      (rules.filter (·.group = .style)).flatMap image ++
        (rules.filter (·.group = .valueExport)).flatMap image := by
  have media : (rules.filter (·.group = .media)).flatMap image = [] :=
    filter_flatMap_eq_nil rules fun rule grouped => silent rule (.inl (of_decide_eq_true grouped))
  have others : (rules.filter (·.group = .other)).flatMap image = [] :=
    filter_flatMap_eq_nil rules fun rule grouped => silent rule (.inr (of_decide_eq_true grouped))
  simp only [sort, List.flatMap_append, media, others, List.append_nil]

/-- What only media rules give is given in the order in which they stand. -/
theorem sort_flatMap_of_media {image : Rule → List α}
    (silent : ∀ rule, rule.group ≠ .media → image rule = []) (rules : Stylesheet) :
    rules.sort.flatMap image = rules.flatMap image := by
  have apart : ∀ group : RuleGroup, group ≠ .media →
      (rules.filter (·.group = group)).flatMap image = [] := by
    intro group different
    apply filter_flatMap_eq_nil
    intro rule grouped
    exact silent rule (of_decide_eq_true grouped ▸ different)
  have media : (rules.filter (·.group = .media)).flatMap image = rules.flatMap image :=
    filter_flatMap_of_silent rules fun rule grouped => silent rule (of_decide_eq_false grouped)
  simp only [sort, List.flatMap_append, apart .style (by decide), apart .valueExport (by decide),
    apart .other (by decide), media, List.nil_append, List.append_nil]

end Stylesheet

theorem Rule.occurrences_eq_nil {rule : Rule}
    (grouped : rule.group = .media ∨ rule.group = .other) : rule.occurrences = [] := by
  cases rule with
  | style selectors declarations =>
      simp only [group] at grouped
      split at grouped <;> simp at grouped
  | media | atRule => rfl

/-- Selectors are compiled in the order in which they stand, but those of rules with an export come
last. -/
theorem Stylesheet.sort_flatMap_occurrences (rules : Stylesheet) :
    rules.sort.flatMap Rule.occurrences =
      (rules.filter (·.group = .style) ++ rules.filter (·.group = .valueExport)).flatMap
        Rule.occurrences := by
  rw [List.flatMap_append]
  exact sort_flatMap_of_style (fun _ => Rule.occurrences_eq_nil) rules

/-- Sorting keeps every rule. -/
theorem Stylesheet.sort_perm (rules : Stylesheet) : rules.sort.Perm rules := by
  induction rules with
  | nil => exact .nil
  | cons rule rules ih =>
      have moved : (sort (rule :: rules)).Perm (rule :: sort rules) := by
        cases grouped : rule.group with
        | style => simp [sort, grouped]
        | media => simp [sort, grouped]
        | valueExport =>
            simp only [sort, List.filter_cons, grouped, reduceCtorEq, decide_false, decide_true,
              Bool.false_eq_true, ↓reduceIte, List.append_assoc, List.cons_append]
            rw [← List.append_assoc, ← List.append_assoc]
            exact List.perm_middle
        | other =>
            simp only [sort, List.filter_cons, grouped, reduceCtorEq, decide_false, decide_true,
              Bool.false_eq_true, ↓reduceIte]
            exact List.perm_middle
      exact moved.trans (ih.cons rule)

theorem Options.blocks_sort (options : Options) (key : String) (rules : Stylesheet) :
    options.blocks key rules.sort =
      options.blocks key (rules.filter (·.group = .style)) ++
        options.blocks key (rules.filter (·.group = .valueExport)) := by
  rw [blocks, Stylesheet.sort_flatMap_occurrences, ← blocks_append]
  rfl

/-- Sorting keeps the blocks of a key up to their order. -/
theorem Options.blocks_sort_perm (options : Options) (key : String) (rules : Stylesheet) :
    (options.blocks key rules.sort).Perm (options.blocks key rules) :=
  ((rules.sort_perm.flatMap_right _).filter _).map _

/-! ## Steps for an entry -/

/-- The media rule in which an entry is. -/
def Entry.place : Entry → Option String
  | .top _ => none
  | .inMedia media _ => some media

/-- The key of an entry. -/
def Entry.key : Entry → String
  | .top key | .inMedia _ key => key

theorem Plan.entryOf_eq_iff (media : Option String) (key : String) (entry : Entry) :
    Plan.entryOf media key = entry ↔ entry.place = media ∧ key = entry.key := by
  cases media <;> cases entry <;> simp [entryOf, Entry.place, Entry.key, eq_comm]

/-- Only `:export` marks an export block. -/
theorem Selector.classify_eq_valueExport_iff {partSelectors : Bool} {selector : String} :
    Selector.classify partSelectors selector = .valueExport ↔
      selector = Selector.exportSelector := by
  constructor
  · intro classified
    unfold classify at classified
    split at classified
    · assumption
    · split at classified
      · simp at classified
      · unfold kindOf at classified
        grind
  · intro equal
    subst equal
    simp [classify]

namespace Plan

/-- The pieces in which a block is added to an entry. -/
def pieces (block : List Declaration) : List (List Declaration) :=
  [] :: block.map ([·])

theorem flatten_flatMap_pieces (blocks : List (List Declaration)) :
    (blocks.flatMap pieces).flatten = blocks.flatten := by
  induction blocks with
  | nil => rfl
  | cons block blocks ih =>
      have whole : (pieces block).flatten = block := by simp [pieces, ← List.flatMap_def]
      rw [List.flatMap_cons, List.flatten_append, ih, whole, List.flatten_cons]

theorem isEmpty_flatMap_pieces (blocks : List (List Declaration)) :
    (blocks.flatMap pieces).isEmpty = blocks.isEmpty := by
  cases blocks <;> rfl

theorem flatMap_pieces_eq_nil_iff {blocks : List (List Declaration)} :
    blocks.flatMap pieces = [] ↔ blocks = [] := by
  rw [← List.isEmpty_iff, isEmpty_flatMap_pieces, List.isEmpty_iff]

theorem piece_entrySteps (entry other : Entry) (declarations : List Declaration) :
    (entrySteps other declarations).filterMap (·.piece? entry) =
      if other = entry then pieces declarations else [] := by
  by_cases same : other = entry
  · have made : (Step.touch other).piece? entry = some [] := if_pos same
    have added : (fun step : Step => step.piece? entry) ∘ Step.declare other =
        some ∘ fun declaration => [declaration] := by
      funext declaration
      exact if_pos same
    rw [if_pos same, entrySteps, List.filterMap_cons_some made, List.filterMap_map, added,
      List.filterMap_eq_map, pieces]
  · simp [entrySteps, Step.piece?, same]

theorem piece_exportSteps (entry : Entry) (declarations : List Declaration) :
    (exportSteps declarations).filterMap (·.piece? entry) = [] := by
  simp [exportSteps, Step.piece?]

/-- A selector makes its entry, exports its block, or is left out. -/
theorem selectorSteps_cases (options : Options) (media : Option String)
    (declarations : List Declaration) (selector : String) :
    (options.accepts selector = true ∧
      selectorSteps options media declarations selector =
        entrySteps (entryOf media (Selector.key selector)) declarations) ∨
    (options.accepts selector = false ∧ selector = Selector.exportSelector ∧ media = none ∧
      selectorSteps options media declarations selector = exportSteps declarations) ∨
    (options.accepts selector = false ∧ (selector ≠ Selector.exportSelector ∨ media ≠ none) ∧
      ∃ reason, selectorSteps options media declarations selector =
        [.skip ⟨selector, reason, media⟩]) := by
  unfold Options.accepts selectorSteps
  cases classified : Selector.classify options.partSelectors selector with
  | valueExport =>
      have exporting := Selector.classify_eq_valueExport_iff.mp classified
      cases media with
      | none => exact .inr (.inl ⟨rfl, exporting, rfl, rfl⟩)
      | some media => exact .inr (.inr ⟨rfl, .inr (by simp), .exportInMedia, rfl⟩)
  | rejected =>
      refine .inr (.inr ⟨rfl, .inl ?_, .unsupportedSelector, rfl⟩)
      intro exporting
      rw [Selector.classify_eq_valueExport_iff.mpr exporting] at classified
      simp at classified
  | root | styleClass | part =>
      cases ignored : options.ignores selector with
      | false => exact .inl ⟨rfl, rfl⟩
      | true =>
          refine .inr (.inr ⟨rfl, .inl ?_, .ignored, rfl⟩)
          intro exporting
          rw [Selector.classify_eq_valueExport_iff.mpr exporting] at classified
          simp at classified

/-- A selector adds its block to the entry that it names. -/
theorem piece_selectorSteps (options : Options) (media : Option String)
    (declarations : List Declaration) (selector : String) (entry : Entry) :
    (selectorSteps options media declarations selector).filterMap (·.piece? entry) =
      if entry.place = media ∧ options.names entry.key selector then pieces declarations
      else [] := by
  rcases selectorSteps_cases options media declarations selector with
    ⟨accepted, steps⟩ | ⟨dropped, -, -, steps⟩ | ⟨dropped, -, reason, steps⟩
  · rw [steps, piece_entrySteps]
    simp only [entryOf_eq_iff, Options.names, accepted, Bool.true_and, decide_eq_true_eq]
  · rw [steps, piece_exportSteps]
    simp [Options.names, dropped]
  · rw [steps]
    simp [Options.names, dropped, Step.piece?]

/-- A style rule adds its block for every selector that names the key. -/
theorem piece_styleSteps (options : Options) (media : Option String) (selectors : List String)
    (declarations : List Declaration) (entry : Entry) :
    (styleSteps options media selectors declarations).filterMap (·.piece? entry) =
      if entry.place = media then
        (options.blocks entry.key [.style selectors declarations]).flatMap pieces
      else [] := by
  simp only [styleSteps, List.filterMap_flatMap, piece_selectorSteps, Options.blocks,
    List.flatMap_cons, List.flatMap_nil, Rule.occurrences, List.append_nil]
  by_cases placed : entry.place = media
  · simp only [placed, true_and, ↓reduceIte]
    induction selectors with
    | nil => rfl
    | cons selector selectors ih =>
        cases named : options.names entry.key selector <;> simp [named, ih]
  · simp [placed]

/-- The rules in a media rule add their blocks to the entries in its place. -/
theorem piece_nestedSteps (options : Options) (media : String) (rules : List Rule)
    (entry : Entry) :
    (rules.flatMap (nestedSteps options media)).filterMap (·.piece? entry) =
      if entry.place = some media then (options.blocks entry.key rules).flatMap pieces
      else [] := by
  induction rules with
  | nil => simp [Options.blocks]
  | cons rule rules ih =>
      rw [List.flatMap_cons, List.filterMap_append, ih, Options.blocks_cons]
      cases rule with
      | style selectors declarations =>
          rw [nestedSteps, piece_styleSteps]
          by_cases placed : entry.place = some media <;> simp [placed]
      | media query nested => simp [nestedSteps, Step.piece?, Options.blocks, Rule.occurrences]
      | atRule name prelude => simp [nestedSteps, Step.piece?, Options.blocks, Rule.occurrences]

/-- An accepted media rule adds the blocks of its rules. -/
theorem piece_mediaSteps {query : String} {queries : List MediaQuery}
    (accepted : MediaQuery.parseAccepted query = .ok queries) (options : Options)
    (rules : List Rule) (entry : Entry) :
    (mediaSteps options query rules).filterMap (·.piece? entry) =
      if entry.place = some (MediaQuery.keyOf query) then
        (options.blocks entry.key rules).flatMap pieces
      else [] := by
  simp only [mediaSteps, accepted]
  rw [List.filterMap_cons_none rfl, piece_nestedSteps]

/-- No media rule adds to an entry at the top. -/
theorem piece_mediaSteps_top (options : Options) (query : String) (rules : List Rule)
    (key : String) : (mediaSteps options query rules).filterMap (·.piece? (.top key)) = [] := by
  cases accepted : MediaQuery.parseAccepted query with
  | error error => simp [mediaSteps, accepted, Step.piece?]
  | ok queries =>
      rw [piece_mediaSteps accepted]
      rfl

/-- A rule adds its blocks to the entries at the top. -/
theorem piece_ruleSteps_top (options : Options) (rule : Rule) (key : String) :
    (ruleSteps options rule).filterMap (·.piece? (.top key)) =
      (options.blocks key [rule]).flatMap pieces := by
  cases rule with
  | style selectors declarations =>
      rw [ruleSteps, piece_styleSteps]
      rfl
  | media query rules =>
      simp only [ruleSteps]
      split
      · exact piece_mediaSteps_top options query rules key
      · rfl
  | atRule name prelude => rfl

/-- A stylesheet adds the blocks of a key in the order in which the rules are compiled. -/
theorem piece_steps_top (options : Options) (rules : Stylesheet) (key : String) :
    (steps options rules).filterMap (·.piece? (.top key)) =
      (options.blocks key rules.sort).flatMap pieces := by
  rw [steps]
  generalize rules.sort = sorted
  induction sorted with
  | nil => rfl
  | cons rule sorted ih =>
      rw [List.flatMap_cons, List.filterMap_append, piece_ruleSteps_top, ih,
        Options.blocks_cons _ _ rule sorted, List.flatMap_append]

end Plan

end StyleObjects
