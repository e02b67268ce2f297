import StyleObjects.Proofs.Compile.Account
import StyleObjects.Proofs.Compile.Containment

/-!
# Blocks that fail at a node

A block of nodes is added to an entry one declaration after the other.  If one of them fails, the
entry has the styles of the nodes before it, and nothing else has changed but the note on lengths of
the viewport.  A block that does not fail can be added in two parts, wherever it is divided.
-/

namespace StyleObjects

/-! ## Changing an entry more than once -/

namespace Output

theorem alter_alter (output : Output) (entry : Entry) (first second : Styles → Styles) :
    (output.alter entry first).alter entry second = output.alter entry (second ∘ first) := by
  cases entry with
  | top key => simp only [alter, Table.alter_alter]
  | inMedia media key =>
      simp only [alter, Table.alter_alter, mk.injEq, and_true, true_and]
      congr 1
      funext block
      exact Table.alter_alter block key .empty first second

/-- An entry that is there is not made again. -/
theorem touch_eq_self {output : Output} {entry : Entry}
    (there : (output.styles? entry).isSome = true) : output.touch entry = output := by
  obtain ⟨styles, held⟩ := Option.isSome_iff_exists.mp there
  cases entry with
  | top key =>
      have same := Table.alter_id held .empty
      simp only [touch, alter, same]
  | inMedia media key =>
      obtain ⟨block, kept, inside⟩ := Option.bind_eq_some_iff.mp held
      have block_same := Table.alter_id inside .empty
      have same : output.media.alter media .empty (·.alter key .empty id) = output.media := by
        rw [Table.alter, kept, Option.getD_some, block_same]
        exact Table.insert_self kept
      simp only [touch, alter, same]

/-- An output differs from an earlier one at most in the styles of an entry, which it has, and in
whether a length of the viewport is noted. -/
structure SameBeside (entry : Entry) (output later : Output) : Prop where
  others : ∀ other, other ≠ entry → later.styles? other = output.styles? other
  keys : ∀ place, later.keysIn place = (output.touch entry).keysIn place
  blocks : later.media.keys = (output.touch entry).media.keys
  queries : later.queries = output.queries
  exports : later.exports = output.exports
  skipped : later.skipped = output.skipped

theorem SameBeside.alter (output : Output) (entry : Entry) (change : Styles → Styles) :
    SameBeside entry output (output.alter entry change) where
  others := by
    intro other apart
    rw [styles?_alter, if_neg apart]
  keys := by
    intro place
    rw [touch, keysIn_alter, keysIn_alter]
  blocks := by rw [touch, keys_media_alter, keys_media_alter]
  queries := by cases entry <;> rfl
  exports := by cases entry <;> rfl
  skipped := by cases entry <;> rfl

theorem SameBeside.seeViewport {entry : Entry} {output later : Output}
    (same : SameBeside entry output later) (seen : Bool) :
    SameBeside entry output { later with usesViewport := seen } where
  others := by
    intro other apart
    rw [← same.others other apart]
    cases other <;> rfl
  keys := by
    intro place
    rw [← same.keys place]
    cases place <;> rfl
  blocks := same.blocks
  queries := same.queries
  exports := same.exports
  skipped := same.skipped

end Output

/-! ## Declarations for one entry -/

/-- Declarations for an entry change its styles, and may note a length of the viewport. -/
theorem Takes.of_declares {context : Context} {entry : Entry} {declarations : List Declaration}
    {output reached : Output} (change : Styles → Styles) (seen : Bool)
    (taken : Takes context (declarations.map (.declare entry))
      { output.alter entry change with usesViewport := seen } reached) :
    ∃ change seen, reached = { output.alter entry change with usesViewport := seen } := by
  induction declarations generalizing change seen with
  | nil =>
      cases taken
      exact ⟨change, seen, rfl⟩
  | cons declaration declarations ih =>
      cases taken with
      | cons first others =>
          cases first with
          | declare _ lowered =>
              rename_i styles
              -- Two changes of one entry are one change, and the note on the viewport is kept apart.
              have merged := output.alter_alter entry change (·.merge styles)
              apply ih ((·.merge styles) ∘ change) (seen || context.seesViewport declaration)
              rw [← merged]
              cases entry <;> exact others

namespace Session

variable {context : Context} {entry : Entry} {nodes : List Node} {output : Output}

theorem addNodes_cons (context : Context) (entry : Entry) (declaration : Declaration)
    (nodes : List Node) (output : Output) :
    addNodes context entry (.declaration declaration :: nodes) output =
      .of context (.touch entry :: .declare entry declaration ::
        (nodes.filterMap Node.declaration?).map (.declare entry)) output := rfl

/-- Nodes can be added to an entry if their declarations can be, once the entry is there. -/
theorem addNodes_ok_iff {reached : Output} :
    (addNodes context entry nodes output).error = none ∧
        (addNodes context entry nodes output).output = reached ↔
      Takes context ((nodes.filterMap Node.declaration?).map (.declare entry)) (output.touch entry)
        reached := by
  rw [addNodes, addDeclarations, ← takes_iff]
  constructor
  · intro taken
    cases taken with
    | cons first others =>
        cases first
        exact others
  · intro taken
    exact .cons (.touch entry) taken

/-- Nodes that can be added to an entry change nothing else. -/
theorem exists_alter_of_addNodes (succeeded : (addNodes context entry nodes output).error = none) :
    ∃ change seen, (addNodes context entry nodes output).output =
      { output.alter entry change with usesViewport := seen } := by
  have taken := addNodes_ok_iff.mp ⟨succeeded, rfl⟩
  have start : output.touch entry =
      { output.alter entry id with usesViewport := output.usesViewport } := by
    cases entry <;> rfl
  rw [start] at taken
  exact taken.of_declares id output.usesViewport

/-- An entry to which nodes have been added is there. -/
theorem touch_addNodes (succeeded : (addNodes context entry nodes output).error = none) :
    (addNodes context entry nodes output).output.touch entry =
      (addNodes context entry nodes output).output := by
  obtain ⟨change, seen, reached⟩ := exists_alter_of_addNodes succeeded
  apply Output.touch_eq_self
  have there : ((output.alter entry change).styles? entry).isSome = true := by
    rw [Output.styles?_alter, if_pos rfl]
    rfl
  rw [reached]
  cases entry <;> exact there

/-- If some nodes of a block can be added, the others are added to what these have made. -/
theorem addNodes_append {firsts : List Node}
    (succeeded : (addNodes context entry firsts output).error = none) (lasts : List Node) :
    let first := addNodes context entry firsts output
    let whole := addNodes context entry (firsts ++ lasts) output
    let second := addNodes context entry lasts first.output
    whole.error = second.error ∧ whole.output = second.output := by
  intro first whole second
  have taken : Takes context (Plan.entrySteps entry (firsts.filterMap Node.declaration?)) output
      first.output := .cons (.touch entry) (addNodes_ok_iff.mp ⟨succeeded, rfl⟩)
  have steps : whole = Run.of context (Plan.entrySteps entry (firsts.filterMap Node.declaration?) ++
      (lasts.filterMap Node.declaration?).map (.declare entry)) output := by
    simp only [whole, addNodes, addDeclarations, Plan.entrySteps, List.filterMap_append,
      List.map_append, List.cons_append]
  have touched : first.output.touch entry = first.output := touch_addNodes succeeded
  have others : second.error = (Run.of context
        ((lasts.filterMap Node.declaration?).map (.declare entry)) first.output).error ∧
      second.output = (Run.of context
        ((lasts.filterMap Node.declaration?).map (.declare entry)) first.output).output := by
    simp only [second, addNodes, addDeclarations, Plan.entrySteps, Run.of, Step.apply, touched,
      and_self]
  rw [steps, taken.run_append]
  exact ⟨others.1.symm, others.2.symm⟩

/-- A declaration without styles ends its block. -/
theorem addNodes_fails {declaration : Declaration} {error : Error}
    (failed : context.stylesOf declaration = .error error) (lasts : List Node) :
    let run := addNodes context entry (.declaration declaration :: lasts) output
    run.error = some error ∧ run.output = (output.touch entry).noteViewport context declaration := by
  rw [addNodes_cons]
  simp only [Run.of, Step.apply, Output.declare_fails failed, and_self]

/-- A block that fails does so at a declaration that has no styles, and the nodes before it can be
added. -/
theorem exists_of_addNodes_error {error : Error}
    (failed : (addNodes context entry nodes output).error = some error) :
    ∃ firsts declaration lasts, nodes = firsts ++ .declaration declaration :: lasts ∧
      (addNodes context entry firsts output).error = none ∧
      context.stylesOf declaration = .error error := by
  induction nodes generalizing output with
  | nil => cases failed
  | cons node nodes ih =>
      cases node with
      | other text =>
          obtain ⟨firsts, declaration, lasts, rfl, before, reason⟩ := ih failed
          exact ⟨.other text :: firsts, declaration, lasts, rfl, before, reason⟩
      | declaration first =>
          cases lowered : context.stylesOf first with
          | error cause =>
              rw [(addNodes_fails lowered nodes).1] at failed
              cases failed
              exact ⟨[], first, nodes, rfl, rfl, lowered⟩
          | ok styles =>
              have added : (addNodes context entry [.declaration first] output).error = none := by
                rw [addNodes_cons]
                simp [Run.of, Step.apply, Output.declare_ok lowered]
              -- The other nodes are added to what the first one has made.
              rw [← List.singleton_append, (addNodes_append added nodes).1] at failed
              obtain ⟨firsts, declaration, lasts, rfl, before, reason⟩ := ih failed
              refine ⟨.declaration first :: firsts, declaration, lasts, rfl, ?_, reason⟩
              rw [← List.singleton_append, (addNodes_append added firsts).1]
              exact before

/-- A block that fails at a node leaves the entry as the nodes before it have made it, notes a
length of the viewport if the failing declaration has one, and changes nothing else.  A block that
does not fail can be added in two parts, wherever it is divided. -/
theorem addNodes_interrupts_or_divides (context : Context) (entry : Entry) (nodes : List Node)
    (output : Output) :
    let run := addNodes context entry nodes output
    (∀ error, run.error = some error → ∃ firsts declaration lasts,
      nodes = firsts ++ .declaration declaration :: lasts ∧
      context.stylesOf declaration = .error error ∧
      let reached := addNodes context entry firsts output
      reached.error = none ∧
      run.output = reached.output.noteViewport context declaration ∧
      Output.SameBeside entry output run.output) ∧
    (run.error = none → ∀ firsts lasts, nodes = firsts ++ lasts →
      let first := addNodes context entry firsts output
      let second := addNodes context entry lasts first.output
      first.error = none ∧ second.error = none ∧ second.output = run.output) := by
  intro run
  constructor
  · intro error failed
    obtain ⟨firsts, declaration, lasts, rfl, before, reason⟩ := exists_of_addNodes_error failed
    have reached : run.output =
        (addNodes context entry firsts output).output.noteViewport context declaration := by
      rw [(addNodes_append before _).2, (addNodes_fails reason lasts).2, touch_addNodes before]
    refine ⟨firsts, declaration, lasts, rfl, reason, before, reached, ?_⟩
    obtain ⟨change, seen, alone⟩ := exists_alter_of_addNodes before
    rw [reached, alone]
    exact (Output.SameBeside.alter output entry change).seeViewport _
  · rintro succeeded firsts lasts rfl
    have before : (addNodes context entry firsts output).error = none := by
      have taken := addNodes_ok_iff.mp ⟨succeeded, rfl⟩
      rw [List.filterMap_append, List.map_append, takes_append_iff] at taken
      obtain ⟨middle, first, -⟩ := taken
      exact (addNodes_ok_iff.mpr first).1
    have divided := addNodes_append before lasts
    exact ⟨before, divided.1.symm.trans succeeded, divided.2.symm⟩

/-- Nodes that can be added to an entry. -/
def marginNodes : List Node :=
  [.declaration ⟨"margin", "1rem 2px"⟩, .other "note"]

/-- A transform that is a length of the viewport fails. -/
def transformNode : Node := .declaration ⟨"transform", "1vw"⟩

theorem addNodes_interrupts_or_divides_of_marginNodes :
    let context : Context := ⟨.empty, .ok (.ofInt 16)⟩
    let entry : Entry := .inMedia "@media print" "a"
    let run := addNodes context entry (marginNodes ++ [transformNode, .other "color"]) {}
    let reached := addNodes context entry marginNodes {}
    (run.error = some (.inexpressible "transform" "1vw") ∧ run.output.usesViewport = true ∧
      reached.output.usesViewport = false ∧ Output.SameBeside entry {} run.output) ∧
    (reached.error = none ∧
      (addNodes context entry [.other "note"]
        (addNodes context entry [.declaration ⟨"margin", "1rem 2px"⟩] {}).output).output =
          reached.output) := by
  intro context entry run reached
  have failed : run.error = some (.inexpressible "transform" "1vw") := by decide +kernel
  have succeeded : reached.error = none := by decide +kernel
  obtain ⟨firsts, declaration, lasts, split, -, -, -, same⟩ :=
    (addNodes_interrupts_or_divides context entry _ {}).1 _ failed
  have divided := (addNodes_interrupts_or_divides context entry marginNodes {}).2 succeeded
    [.declaration ⟨"margin", "1rem 2px"⟩] [.other "note"] rfl
  exact ⟨⟨failed, by decide +kernel, by decide +kernel, same⟩, succeeded, divided.2.2⟩

end Session

end StyleObjects
