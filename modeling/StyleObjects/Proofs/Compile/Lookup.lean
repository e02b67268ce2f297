import StyleObjects.Proofs.Compile.Media

/-!
# The cascade in an environment

The styles of a key in an environment start from those at the top.  The media rules that match are
applied text by text: the texts in the order in which they first get an entry, and the blocks of one
text in the order of the source.
-/

namespace StyleObjects

/-- The queries that a text describes hold in an environment. -/
def MediaQuery.holdsIn (environment : Environment) (text : String) : Bool :=
  match MediaQuery.parseAccepted text with
  | .ok queries => (MediaQuery.matchAny environment queries matches .ok true)
  | .error _ => false

/-- Every media rule that has a block for a key can be matched in an environment. -/
def Options.CanMatch (options : Options) (environment : Environment) (key : String)
    (rules : Stylesheet) : Prop :=
  ∀ text nested queries, Rule.media text nested ∈ rules → options.blocks key nested ≠ [] →
    MediaQuery.parseAccepted text = .ok queries →
      ∃ answer, MediaQuery.matchAny environment queries = .ok answer

/-- A block for a key in media rules with a text stands in one of these rules. -/
theorem exists_media_of_blocks {options : Options} {key text : String} {rules : Stylesheet}
    (named : options.blocks key (rules.inMedia text) ≠ []) :
    ∃ nested, Rule.media text nested ∈ rules ∧ options.blocks key nested ≠ [] := by
  induction rules with
  | nil => exact absurd rfl named
  | cons rule rules ih =>
      rw [Stylesheet.inMedia, List.flatMap_cons, Options.blocks_append] at named
      by_cases own : options.blocks key (rule.nested (· = text)) = []
      · rw [own] at named
        rcases ih named with ⟨nested, member, blocks⟩
        exact ⟨nested, List.mem_cons_of_mem rule member, blocks⟩
      · cases rule with
        | style | atRule => exact absurd rfl own
        | media other nested =>
            by_cases same : other = text
            · subst same
              simp only [Rule.nested, decide_true, ↓reduceIte] at own
              exact ⟨nested, List.mem_cons_self, own⟩
            · simp [Rule.nested, same, Options.blocks] at own

section Compiled

variable {options : Options} {source : String} {rules : Stylesheet} {output : Output}

/-- Looking up one media rule adds its blocks if its queries hold. -/
theorem addMedia_extends
    (parsed : Stylesheet.parse (Compilation.cutOf options source).text = .ok rules)
    (compiled : compile options source = .ok output) (asked : options.mediaQueries = true)
    {key : String} {environment : Environment}
    (matching : options.CanMatch environment key rules) {text : String} {block : Table Styles}
    (held : output.media.get? (MediaQuery.keyOf text) = some block) (styles : Styles) :
    ∃ next,
      output.addMedia key environment styles (MediaQuery.keyOf text, block) = .ok next ∧
      (Compilation.contextOf options (Compilation.cutOf options source)).extend styles
        (if MediaQuery.holdsIn environment text then
          (options.blocks key (rules.inMedia text)).flatten else []) = .ok next := by
  have entry := compile_inMedia parsed compiled asked text key
  simp only [Output.styles?, held, Option.bind_some, Context.foldlM_extend] at entry
  rcases entry with ⟨extending, present⟩
  cases given : block.get? key with
  | none =>
      rw [given, Option.isSome_none, eq_comm, Bool.not_eq_false', List.isEmpty_iff] at present
      refine ⟨styles, by simp [Output.addMedia, given], ?_⟩
      rw [present]
      cases MediaQuery.holdsIn environment text <;> rfl
  | some own =>
      rw [given, Option.isSome_some, eq_comm, Bool.not_eq_true', List.isEmpty_eq_false_iff]
        at present
      rw [given, Option.getD_some] at extending
      rcases exists_media_of_blocks present with ⟨nested, member, named⟩
      rcases compile_mediaAccepted parsed compiled asked text nested member with ⟨queries, accepted⟩
      rcases matching text nested queries member named accepted with ⟨answer, matched⟩
      have recorded := compile_queries parsed compiled asked member accepted
      have looked : output.addMedia key environment styles (MediaQuery.keyOf text, block) =
          .ok (if answer then styles.merge own else styles) := by
        simp only [Output.addMedia, given, recorded, Option.getD_some, matched]
        cases answer <;> rfl
      refine ⟨_, looked, ?_⟩
      simp only [MediaQuery.holdsIn, accepted, matched]
      cases answer with
      | true => exact Context.extend_eq_merge extending styles
      | false => rfl

/-- Looking up media rules one after the other adds the blocks of those that hold. -/
theorem foldlM_addMedia
    (parsed : Stylesheet.parse (Compilation.cutOf options source).text = .ok rules)
    (compiled : compile options source = .ok output) (asked : options.mediaQueries = true)
    {key : String} {environment : Environment}
    (matching : options.CanMatch environment key rules) {texts : List String}
    {entries : List (String × Table Styles)}
    (keyed : entries.map Prod.fst = texts.map MediaQuery.keyOf)
    (held : ∀ entry ∈ entries, output.media.get? entry.1 = some entry.2) (styles : Styles) :
    ∃ next,
      entries.foldlM (output.addMedia key environment) styles = .ok next ∧
      (Compilation.contextOf options (Compilation.cutOf options source)).extend styles
        ((texts.filter (MediaQuery.holdsIn environment)).flatMap fun text =>
          (options.blocks key (rules.inMedia text)).flatten) = .ok next := by
  induction entries generalizing texts styles with
  | nil =>
      rw [List.map_nil, eq_comm, List.map_eq_nil_iff] at keyed
      subst keyed
      exact ⟨styles, rfl, rfl⟩
  | cons entry entries ih =>
      rcases entry with ⟨first, block⟩
      rw [List.map_cons, eq_comm, List.map_eq_cons_iff] at keyed
      rcases keyed with ⟨text, others, rfl, rfl, keyed⟩
      rw [List.forall_mem_cons] at held
      rcases addMedia_extends parsed compiled asked matching held.1 styles with
        ⟨middle, looked, extended⟩
      rcases ih keyed.symm held.2 middle with ⟨next, rest, extending⟩
      refine ⟨next, ?_, ?_⟩
      · rw [List.foldlM_cons, looked]
        exact rest
      · cases holds : MediaQuery.holdsIn environment text with
        | true =>
            rw [holds, if_pos rfl] at extended
            rw [List.filter_cons_of_pos holds, List.flatMap_cons, Context.extend_append_ok]
            exact ⟨middle, extended, extending⟩
        | false =>
            rw [holds, if_neg Bool.false_ne_true] at extended
            cases extended
            rw [List.filter_cons_of_neg (by simp [holds])]
            exact extending

/-- The styles of a key in an environment are those of its class, extended by its blocks in media
rules whose queries hold: text by text, in the order in which the texts first get an entry. -/
theorem compile_stylesFor
    (parsed : Stylesheet.parse (Compilation.cutOf options source).text = .ok rules)
    (compiled : compile options source = .ok output) (asked : options.mediaQueries = true)
    {key : String} {environment : Environment}
    (matching : options.CanMatch environment key rules) :
    let context := Compilation.contextOf options (Compilation.cutOf options source)
    let texts := (rules.styledTexts options).filter (MediaQuery.holdsIn environment)
    ∃ styles,
      output.stylesFor key (some environment) = .ok styles ∧
      (texts.flatMap fun text => options.blocks key (rules.inMedia text)).foldlM context.extend
        ((output.classes.get? key).getD .empty) = .ok styles := by
  intro context texts
  have keyed := compile_keys_media parsed compiled asked
  obtain ⟨styles, looked, extended⟩ := foldlM_addMedia parsed compiled asked matching keyed
    (fun _ member => Table.get?_of_mem member) ((output.classes.get? key).getD .empty)
  refine ⟨styles, looked, ?_⟩
  rw [Context.foldlM_extend]
  simp only [List.flatten_eq_flatMap, List.flatMap_assoc] at extended ⊢
  exact extended

end Compiled

/-! ### A text that comes back -/

/-- Two media rules of one text with a rule of another text between them. -/
def returningText : String :=
  "@media screen \x7b .a \x7b color: red \x7d \x7d " ++
    "@media all \x7b .a \x7b color: green \x7d \x7d " ++
    "@media screen \x7b .a \x7b color: blue \x7d \x7d"

/-- An environment in which all of these rules hold. -/
def onScreen : Environment := .ofList [("type", .text "screen")]

/-- What that text is read as and compiles to. -/
def compiledReturningText : CompiledText { mediaQueries := true } where
  source := returningText
  rules := [.media "screen" [.style [".a"] [⟨"color", "red"⟩]],
    .media "all" [.style [".a"] [⟨"color", "green"⟩]],
    .media "screen" [.style [".a"] [⟨"color", "blue"⟩]]]
  output := { media := .ofList [
                ("@media screen", .ofList [("a", .ofList [("color", .text "blue")])]),
                ("@media all", .ofList [("a", .ofList [("color", .text "green")])])],
              queries := .ofList [
                ("@media screen", [⟨false, "screen", []⟩]), ("@media all", [⟨false, "all", []⟩])] }
  parsed := ok_of_toOption (by decide +kernel)
  ran := by decide +kernel

theorem parse_returningText :
    Stylesheet.parse (Compilation.cutOf { mediaQueries := true } returningText).text =
      .ok [.media "screen" [.style [".a"] [⟨"color", "red"⟩]],
        .media "all" [.style [".a"] [⟨"color", "green"⟩]],
        .media "screen" [.style [".a"] [⟨"color", "blue"⟩]]] :=
  compiledReturningText.parsed

theorem compile_returningText :
    compile { mediaQueries := true } returningText =
      .ok { media := .ofList [
              ("@media screen", .ofList [("a", .ofList [("color", .text "blue")])]),
              ("@media all", .ofList [("a", .ofList [("color", .text "green")])])],
            queries := .ofList [
              ("@media screen", [⟨false, "screen", []⟩]), ("@media all", [⟨false, "all", []⟩])] } :=
  compiledReturningText.compiled

/-- The last rule is applied with the first one, before the one that stands between them. -/
theorem stylesFor_of_returningText :
    let options : Options := { mediaQueries := true }
    ∃ rules output styles inOrder,
      Stylesheet.parse (Compilation.cutOf options returningText).text = .ok rules ∧
      compile options returningText = .ok output ∧
      output.stylesFor "a" (some onScreen) = .ok styles ∧
      (options.blocks "a" (rules.flatMap (Rule.nested (MediaQuery.holdsIn onScreen)))).foldlM
        (Compilation.contextOf options (Compilation.cutOf options returningText)).extend
        ((output.classes.get? "a").getD .empty) = .ok inOrder ∧
      styles.get? "color" ≠ inOrder.get? "color" := by
  refine ⟨_, _, .ofList [("color", .text "green")], .ofList [("color", .text "blue")],
    parse_returningText, compile_returningText, ?_, ?_, by decide⟩
  · exact ok_of_toOption (by decide +kernel)
  · exact ok_of_toOption (by decide +kernel)

theorem compile_stylesFor_of_returningText :
    let options : Options := { mediaQueries := true }
    let context := Compilation.contextOf options (Compilation.cutOf options returningText)
    ∃ rules output styles,
      Stylesheet.parse (Compilation.cutOf options returningText).text = .ok rules ∧
      compile options returningText = .ok output ∧
      options.CanMatch onScreen "a" rules ∧
      output.stylesFor "a" (some onScreen) = .ok styles ∧
      (((rules.styledTexts options).filter (MediaQuery.holdsIn onScreen)).flatMap fun text =>
        options.blocks "a" (rules.inMedia text)).foldlM context.extend
        ((output.classes.get? "a").getD .empty) = .ok styles := by
  intro options context
  have screen : MediaQuery.parseAccepted "screen" = .ok [⟨false, "screen", []⟩] :=
    ok_of_toOption (by decide +kernel)
  have all : MediaQuery.parseAccepted "all" = .ok [⟨false, "all", []⟩] :=
    ok_of_toOption (by decide +kernel)
  have matching : options.CanMatch onScreen "a" [
      .media "screen" [.style [".a"] [⟨"color", "red"⟩]],
      .media "all" [.style [".a"] [⟨"color", "green"⟩]],
      .media "screen" [.style [".a"] [⟨"color", "blue"⟩]]] := by
    intro text nested queries member named accepted
    refine ⟨true, ?_⟩
    simp only [List.mem_cons, Rule.media.injEq, List.not_mem_nil, or_false] at member
    rcases member with ⟨rfl, -⟩ | ⟨rfl, -⟩ | ⟨rfl, -⟩
    · rw [screen] at accepted
      cases accepted
      exact ok_of_toOption (by decide)
    · rw [all] at accepted
      cases accepted
      exact ok_of_toOption (by decide)
    · rw [screen] at accepted
      cases accepted
      exact ok_of_toOption (by decide)
  rcases compile_stylesFor parse_returningText compile_returningText rfl matching with
    ⟨styles, looked, extended⟩
  exact ⟨_, _, styles, parse_returningText, compile_returningText, matching, looked, extended⟩

end StyleObjects
