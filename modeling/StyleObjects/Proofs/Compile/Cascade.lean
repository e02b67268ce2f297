import StyleObjects.Proofs.Compile.Occurrence

/-!
# The cascade at the top of a stylesheet

There is no cascade but the order of declarations: a class has the styles that its blocks give when
they are applied one after the other.  The order is the one in which the rules are compiled, and a
rule with an export is compiled late.  A class therefore has the styles of the source order exactly
when nothing that such a rule gives it is replaced by a later rule without an export.
-/

namespace StyleObjects

/-! ## Rules in two orders -/

theorem Options.blocks_singleton_eq_nil (options : Options) (key : String) {rule : Rule}
    (grouped : rule.group = .media ∨ rule.group = .other) : options.blocks key [rule] = [] := by
  simp [blocks, Rule.occurrences_eq_nil grouped]

namespace Context

/-- The blocks of rules are those of the first rule, merged, and then those of the rest. -/
theorem extend_blocks_cons {context : Context} {options : Options} {key : String} {rule : Rule}
    {rules : List Rule} {styles final : Styles} :
    context.extend styles (options.blocks key (rule :: rules)).flatten = .ok final ↔
      ∃ own, context.extend .empty (options.blocks key [rule]).flatten = .ok own ∧
        context.extend (styles.merge own) (options.blocks key rules).flatten = .ok final := by
  rw [Options.blocks_cons, List.flatten_append, extend_append_ok]
  constructor
  · intro found
    rcases found with ⟨middle, first, rest⟩
    obtain ⟨own, alone⟩ :
        ∃ own, context.extend .empty (options.blocks key [rule]).flatten = .ok own :=
      extend_succeeds_iff.mpr (extend_succeeds_iff.mp ⟨middle, first⟩)
    rw [extend_eq_merge alone styles, Except.ok.injEq] at first
    subst first
    exact ⟨own, alone, rest⟩
  · intro found
    rcases found with ⟨own, alone, rest⟩
    exact ⟨styles.merge own, extend_eq_merge alone styles, rest⟩

/-- A key without a value in the end had none before, and the declarations give it none. -/
theorem extend_spared {context : Context} {declarations : List Declaration}
    {styles final : Styles} {property : String}
    (extending : context.extend styles declarations = .ok final)
    (spared : final.get? property = none) :
    styles.get? property = none ∧
      ∃ own, context.extend .empty declarations = .ok own ∧ own.get? property = none := by
  obtain ⟨own, alone⟩ : ∃ own, context.extend .empty declarations = .ok own :=
    extend_succeeds_iff.mpr (extend_succeeds_iff.mp ⟨final, extending⟩)
  rw [extend_eq_merge alone styles, Except.ok.injEq] at extending
  rw [← extending, Table.get?_merge, Option.or_eq_none_iff] at spared
  exact ⟨spared.2, own, alone, spared.1⟩

/-- A key to which rules with an export give no value has the same value whether these rules are
applied in their places or left out. -/
theorem get?_extend_of_spared {context : Context} {options : Options} {key property : String}
    {rules : Stylesheet} {left right inOrder plain exported : Styles}
    (agree : left.get? property = right.get? property)
    (everything : context.extend left (options.blocks key rules).flatten = .ok inOrder)
    (plainly : context.extend right
      (options.blocks key (rules.filter (·.group = .style))).flatten = .ok plain)
    (exporting : context.extend .empty
      (options.blocks key (rules.filter (·.group = .valueExport))).flatten = .ok exported)
    (spared : exported.get? property = none) :
    inOrder.get? property = plain.get? property := by
  induction rules generalizing left right exported with
  | nil =>
      cases everything
      cases plainly
      exact agree
  | cons rule rules ih =>
      rcases extend_blocks_cons.mp everything with ⟨own, alone, rest⟩
      cases grouped : rule.group with
      | style =>
          rw [List.filter_cons_of_pos (by simp [grouped])] at plainly
          rw [List.filter_cons_of_neg (by simp [grouped])] at exporting
          rcases extend_blocks_cons.mp plainly with ⟨same, again, tail⟩
          rw [alone, Except.ok.injEq] at again
          subst again
          exact ih (Table.get?_insertAll_congr agree own.entries) rest tail exporting spared
      | valueExport =>
          -- The rule is applied on one side only, where it gives the key no value.
          rw [List.filter_cons_of_neg (by simp [grouped])] at plainly
          rw [List.filter_cons_of_pos (by simp [grouped])] at exporting
          rcases extend_blocks_cons.mp exporting with ⟨same, again, tail⟩
          rw [alone, Except.ok.injEq] at again
          subst again
          rcases extend_spared tail spared with ⟨unnamed, others, exports, absent⟩
          rw [Table.get?_merge, Option.or_eq_none_iff] at unnamed
          refine ih ?_ rest plainly exports absent
          rw [Table.get?_merge, unnamed.1]
          exact agree
      | media | other =>
          rw [List.filter_cons_of_neg (by simp [grouped])] at plainly exporting
          rw [options.blocks_singleton_eq_nil key (by simp [grouped])] at alone
          cases alone
          exact ih agree rest plainly exporting spared

end Context

/-! ## The styles of a class -/

/-- A class has the styles of its blocks in the order in which rules are compiled. -/
theorem compile_classes {options : Options} {source : String} {rules : Stylesheet} {output : Output}
    (parsed : Stylesheet.parse (Compilation.cutOf options source).text = .ok rules)
    (compiled : compile options source = .ok output) (key : String) :
    let context := Compilation.contextOf options (Compilation.cutOf options source)
    (options.blocks key rules.sort).foldlM context.extend .empty =
        .ok ((output.classes.get? key).getD .empty) ∧
      output.classes.contains key = !(options.blocks key rules).isEmpty := by
  have taken := compile_takes parsed compiled
  constructor
  · have extending := taken.extend_styles (.top key)
    rw [Plan.piece_steps_top, Plan.flatten_flatMap_pieces, ← Context.foldlM_extend] at extending
    exact extending
  · have present := taken.styles?_isSome (.top key)
    rw [Step.any_concerns, Plan.piece_steps_top, Plan.isEmpty_flatMap_pieces,
      (options.blocks_sort_perm key rules).isEmpty_eq] at present
    exact present

/-- A class has its styles from the rules without an export and then from those with one.  They are
the styles that the blocks give in the order of the source if and only if every value from a rule
with an export is the one that the source gives last. -/
theorem compile_classes_source_order_iff {options : Options} {source key : String}
    {rules : Stylesheet} {output : Output} {styles : Styles}
    (parsed : Stylesheet.parse (Compilation.cutOf options source).text = .ok rules)
    (compiled : compile options source = .ok output)
    (named : output.classes.get? key = some styles) :
    let context := Compilation.contextOf options (Compilation.cutOf options source)
    let plain := options.blocks key (rules.filter (·.group = .style))
    let exporting := options.blocks key (rules.filter (·.group = .valueExport))
    (plain ++ exporting).foldlM context.extend .empty = .ok styles ∧
      ∃ inOrder exported,
        (options.blocks key rules).foldlM context.extend .empty = .ok inOrder ∧
        exporting.foldlM context.extend .empty = .ok exported ∧
        ((∀ property, styles.get? property = inOrder.get? property) ↔
          ∀ property value, exported.get? property = some value →
            inOrder.get? property = some value) := by
  intro context plain exporting
  have applied := (compile_classes parsed compiled key).1
  rw [named, Option.getD_some, Options.blocks_sort] at applied
  refine ⟨applied, ?_⟩
  simp only [Context.foldlM_extend] at applied ⊢
  have allStyled := Context.extend_succeeds_iff.mp ⟨styles, applied⟩
  obtain ⟨inOrder, everything⟩ :
      ∃ inOrder, context.extend .empty (options.blocks key rules).flatten = .ok inOrder := by
    apply Context.extend_succeeds_iff.mpr
    intro declaration member
    apply allStyled
    rw [← Options.blocks_sort]
    exact (options.blocks_sort_perm key rules).flatten.mem_iff.mpr member
  rw [List.flatten_append, Context.extend_append_ok] at applied
  rcases applied with ⟨plainly, fromPlain, fromExporting⟩
  obtain ⟨exported, alone⟩ : ∃ exported, context.extend .empty exporting.flatten = .ok exported :=
    Context.extend_succeeds_iff.mpr (Context.extend_succeeds_iff.mp ⟨styles, fromExporting⟩)
  rw [Context.extend_eq_merge alone plainly, Except.ok.injEq] at fromExporting
  subst fromExporting
  refine ⟨inOrder, exported, everything, alone, ?_⟩
  constructor
  · intro same property value given
    rw [← same property, Table.get?_merge, given]
    rfl
  · intro kept property
    rw [Table.get?_merge]
    cases given : exported.get? property with
    | some value => exact (kept property value given).symm
    | none =>
        exact (Context.get?_extend_of_spared rfl everything fromPlain alone given).symm

/-- A rule with an export, and a later rule for the same class. -/
def overtaking : String := ".a, :export \x7b color: red \x7d .a \x7b color: blue \x7d"

/-- What that text is read as and compiles to. -/
def compiledOvertaking : CompiledText {} where
  source := overtaking
  rules := [.style [".a", ":export"] [⟨"color", "red"⟩], .style [".a"] [⟨"color", "blue"⟩]]
  output := { classes := .ofList [("a", .ofList [("color", .text "red")])],
              exports := .ofList [("color", "red")] }
  parsed := ok_of_toOption (by decide +kernel)
  ran := by decide +kernel

theorem parse_overtaking :
    Stylesheet.parse (Compilation.cutOf {} overtaking).text =
      .ok [.style [".a", ":export"] [⟨"color", "red"⟩], .style [".a"] [⟨"color", "blue"⟩]] :=
  compiledOvertaking.parsed

theorem compile_overtaking :
    compile {} overtaking =
      .ok { classes := .ofList [("a", .ofList [("color", .text "red")])],
            exports := .ofList [("color", "red")] } :=
  compiledOvertaking.compiled

/-- The rule with the export is compiled last, so the color of the other one is lost. -/
theorem compile_classes_of_overtaking :
    ∃ rules output styles inOrder,
      Stylesheet.parse (Compilation.cutOf {} overtaking).text = .ok rules ∧
      compile {} overtaking = .ok output ∧
      output.classes.get? "a" = some styles ∧
      (Options.blocks {} "a" rules).foldlM
        (Compilation.contextOf {} (Compilation.cutOf {} overtaking)).extend .empty = .ok inOrder ∧
      styles.get? "color" ≠ inOrder.get? "color" := by
  refine ⟨_, _, .ofList [("color", .text "red")], .ofList [("color", .text "blue")],
    parse_overtaking, compile_overtaking, by decide, ?_, by decide⟩
  exact ok_of_toOption (by decide +kernel)

theorem compile_classes_source_order_iff_of_overtaking :
    let context := Compilation.contextOf {} (Compilation.cutOf {} overtaking)
    ∃ rules output styles inOrder exported,
      Stylesheet.parse (Compilation.cutOf {} overtaking).text = .ok rules ∧
      compile {} overtaking = .ok output ∧
      output.classes.get? "a" = some styles ∧
      (Options.blocks {} "a" rules).foldlM context.extend .empty = .ok inOrder ∧
      (Options.blocks {} "a" (rules.filter (·.group = .valueExport))).foldlM context.extend .empty =
        .ok exported ∧
      ((∀ property, styles.get? property = inOrder.get? property) ↔
        ∀ property value, exported.get? property = some value →
          inOrder.get? property = some value) := by
  have named : (Table.ofList [("a", Table.ofList [("color", Value.text "red")])]).get? "a" =
      some (.ofList [("color", .text "red")]) := by decide
  rcases compile_classes_source_order_iff parse_overtaking compile_overtaking named with
    ⟨-, inOrder, exported, everything, exporting, equivalence⟩
  exact ⟨_, _, _, inOrder, exported, parse_overtaking, compile_overtaking, named, everything,
    exporting, equivalence⟩

end StyleObjects
