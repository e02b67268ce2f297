import StyleObjects.Compile.Session
import StyleObjects.Proofs.Compile.Run
import StyleObjects.Proofs.Table

/-!
# The styles of an entry

A run changes an entry only by the steps that concern it.  Its styles are then those from before the
run, extended by the declarations of these steps in the order in which the steps are taken.
-/

namespace StyleObjects

/-! ## Extending styles -/

namespace Context

@[simp] theorem extend_nil (context : Context) (styles : Styles) :
    context.extend styles [] = .ok styles := rfl

theorem extend_cons (context : Context) (styles : Styles) (declaration : Declaration)
    (declarations : List Declaration) :
    context.extend styles (declaration :: declarations) =
      (context.stylesOf declaration).bind fun added =>
        context.extend (styles.merge added) declarations := by
  simp only [extend, List.foldlM_cons]
  cases context.stylesOf declaration with
  | error error => rfl
  | ok added => rfl

theorem extend_cons_ok {context : Context} {declaration : Declaration} {added : Styles}
    (lowered : context.stylesOf declaration = .ok added) (styles : Styles)
    (declarations : List Declaration) :
    context.extend styles (declaration :: declarations) =
      context.extend (styles.merge added) declarations := by
  rw [extend_cons, lowered]
  rfl

theorem extend_append (context : Context) (styles : Styles)
    (declarations others : List Declaration) :
    context.extend styles (declarations ++ others) =
      (context.extend styles declarations).bind fun extended => context.extend extended others :=
  List.foldlM_append

theorem extend_append_ok {context : Context} {styles final : Styles}
    {declarations others : List Declaration} :
    context.extend styles (declarations ++ others) = .ok final ↔
      ∃ middle, context.extend styles declarations = .ok middle ∧
        context.extend middle others = .ok final := by
  rw [extend_append]
  cases context.extend styles declarations with
  | error error => simp [Except.bind]
  | ok middle => simp [Except.bind]

/-- Styles can be extended if and only if every declaration has styles. -/
theorem extend_succeeds_iff {context : Context} {styles : Styles}
    {declarations : List Declaration} :
    (∃ extended, context.extend styles declarations = .ok extended) ↔
      ∀ declaration ∈ declarations, ∃ added, context.stylesOf declaration = .ok added := by
  induction declarations generalizing styles with
  | nil => simp
  | cons declaration declarations ih =>
      rw [extend_cons, List.forall_mem_cons]
      cases lowered : context.stylesOf declaration with
      | error error => simp [Except.bind]
      | ok added => simp [Except.bind, ih]

/-- Extending styles block by block extends them by all declarations of the blocks. -/
theorem foldlM_extend (context : Context) (styles : Styles) (blocks : List (List Declaration)) :
    blocks.foldlM context.extend styles = context.extend styles blocks.flatten := by
  induction blocks generalizing styles with
  | nil => rfl
  | cons block blocks ih =>
      rw [List.foldlM_cons, List.flatten_cons, extend_append]
      cases context.extend styles block with
      | error error => rfl
      | ok extended => exact ih extended

/-- What declarations make of styles is what they make of others, merged into the first. -/
theorem extend_merge {context : Context} {declarations : List Declaration} {others own : Styles}
    (alone : context.extend others declarations = .ok own) (styles : Styles) :
    context.extend (styles.merge others) declarations = .ok (styles.merge own) := by
  induction declarations generalizing others with
  | nil =>
      cases alone
      rfl
  | cons declaration declarations ih =>
      rw [extend_cons] at alone ⊢
      cases lowered : context.stylesOf declaration with
      | error error => simp [lowered, Except.bind] at alone
      | ok added =>
          rw [lowered] at alone
          have merged := ih alone
          rw [Table.merge_merge] at merged
          exact merged

/-- Declarations extend styles by what they give alone. -/
theorem extend_eq_merge {context : Context} {declarations : List Declaration} {own : Styles}
    (alone : context.extend .empty declarations = .ok own) (styles : Styles) :
    context.extend styles declarations = .ok (styles.merge own) :=
  extend_merge alone styles

end Context

/-! ## Reading an entry -/

namespace Output

/-- The styles of an entry. -/
def styles? (output : Output) : Entry → Option Styles
  | .top key => output.classes.get? key
  | .inMedia media key => (output.media.get? media).bind (·.get? key)

theorem styles?_alter (output : Output) (entry other : Entry) (change : Styles → Styles) :
    (output.alter entry change).styles? other =
      if other = entry then some (change ((output.styles? entry).getD .empty))
      else output.styles? other := by
  cases entry with
  | top key =>
      cases other with
      | top name => simp [alter, styles?, Table.get?_alter]
      | inMedia media name => simp [alter, styles?]
  | inMedia media key =>
      cases other with
      | top name => simp [alter, styles?]
      | inMedia block name =>
          simp only [alter, styles?, Table.get?_alter, Entry.inMedia.injEq]
          by_cases same : block = media
          · subst same
            cases output.media.get? block with
            | none => by_cases named : name = key <;> simp [Table.get?_alter, named]
            | some table => by_cases named : name = key <;> simp [Table.get?_alter, named]
          · simp [same]

@[simp] theorem styles?_noteViewport (output : Output) (context : Context)
    (declaration : Declaration) (entry : Entry) :
    (output.noteViewport context declaration).styles? entry = output.styles? entry := by
  cases entry <;> rfl

end Output

/-! ## The steps that concern an entry -/

namespace Step

/-- What a step adds to an entry: a declaration, or nothing if it only makes the entry. -/
def piece? (entry : Entry) : Step → Option (List Declaration)
  | .touch other => if other = entry then some [] else none
  | .declare other declaration => if other = entry then some [declaration] else none
  | _ => none

/-- A step makes an entry or adds to it. -/
def concerns (entry : Entry) (step : Step) : Bool :=
  (step.piece? entry).isSome

/-- One step extends an entry by what it adds to it. -/
theorem Takes.extend_styles {context : Context} {step : Step} {output next : Output}
    (taken : Step.Takes context output step next) (entry : Entry) :
    context.extend ((output.styles? entry).getD .empty) ((step.piece? entry).getD []) =
      .ok ((next.styles? entry).getD .empty) := by
  cases taken with
  | skip | exportValue | recordQueries => rfl
  | touch other =>
      rw [Output.touch, Output.styles?_alter]
      by_cases same : entry = other
      · simp [same, piece?]
      · simp [same, piece?, Ne.symm same]
  | declare other lowered =>
      rw [Output.styles?_alter]
      by_cases same : entry = other
      · subst same
        simp only [piece?, ↓reduceIte, Option.getD_some]
        rw [Context.extend_cons_ok lowered, Output.styles?_noteViewport]
        rfl
      · simp [piece?, Ne.symm same, same]

/-- After a step an entry is there if it was before or the step concerns it. -/
theorem Takes.styles?_isSome {context : Context} {step : Step} {output next : Output}
    (taken : Step.Takes context output step next) (entry : Entry) :
    (next.styles? entry).isSome = ((output.styles? entry).isSome || step.concerns entry) := by
  cases taken with
  | skip | exportValue | recordQueries => cases entry <;> simp [concerns, piece?] <;> rfl
  | touch other =>
      rw [Output.touch, Output.styles?_alter]
      by_cases same : entry = other
      · simp [same, concerns, piece?]
      · simp [same, concerns, piece?, Ne.symm same]
  | declare other lowered =>
      rw [Output.styles?_alter]
      by_cases same : entry = other
      · simp [same, concerns, piece?]
      · simp [same, concerns, piece?, Ne.symm same]

/-- Some step concerns an entry if and only if the steps have pieces for it. -/
theorem any_concerns (steps : List Step) (entry : Entry) :
    steps.any (·.concerns entry) = !(steps.filterMap (·.piece? entry)).isEmpty := by
  induction steps with
  | nil => rfl
  | cons step steps ih =>
      rw [List.any_cons, ih, concerns]
      cases added : step.piece? entry <;> simp [added]

end Step

/-! ## Runs -/

/-- A run extends an entry by everything that its steps add to it. -/
theorem Takes.extend_styles {context : Context} {steps : List Step} {output final : Output}
    (taken : Takes context steps output final) (entry : Entry) :
    context.extend ((output.styles? entry).getD .empty)
      (steps.filterMap (·.piece? entry)).flatten = .ok ((final.styles? entry).getD .empty) := by
  induction taken with
  | nil output => rfl
  | cons first rest ih =>
      rename_i step steps output next final
      have added := first.extend_styles entry
      cases piece : step.piece? entry with
      | none =>
          rw [piece, Option.getD_none, Context.extend_nil, Except.ok.injEq] at added
          rw [List.filterMap_cons_none piece, added]
          exact ih
      | some declarations =>
          rw [piece, Option.getD_some] at added
          rw [List.filterMap_cons_some piece, List.flatten_cons, Context.extend_append, added]
          exact ih

/-- After a run an entry is there if it was before or one of the steps concerns it. -/
theorem Takes.styles?_isSome {context : Context} {steps : List Step} {output final : Output}
    (taken : Takes context steps output final) (entry : Entry) :
    (final.styles? entry).isSome =
      ((output.styles? entry).isSome || steps.any (·.concerns entry)) := by
  induction taken with
  | nil output => simp
  | cons first rest ih =>
      rw [ih, first.styles?_isSome entry, List.any_cons, Bool.or_assoc]

/-- A run that only declares for one entry extends its styles by the whole block, or fails as that
does. -/
theorem Run.of_declares (context : Context) (entry : Entry) (declarations : List Declaration)
    (output : Output) :
    let run := Run.of context (declarations.map (.declare entry)) output
    context.extend ((output.styles? entry).getD .empty) declarations =
      match run.error with
      | some error => .error error
      | none => .ok ((run.output.styles? entry).getD .empty) := by
  induction declarations generalizing output with
  | nil => rfl
  | cons declaration declarations ih =>
      rw [Context.extend_cons]
      cases lowered : context.stylesOf declaration with
      | error error =>
          have failed := Output.declare_error lowered entry output
          rcases applied : output.declare context entry declaration with ⟨next, reason⟩
          rw [applied] at failed
          cases failed
          simp [Run.of, Step.apply, applied, Except.bind]
      | ok added =>
          have others := ih ((output.noteViewport context declaration).alter entry (·.merge added))
          rw [Output.styles?_alter, if_pos rfl, Output.styles?_noteViewport] at others
          simp only [List.map_cons, Run.of, Step.apply, Output.declare_ok lowered]
          exact others

/-- Adding declarations to an entry extends its styles by the whole block, or fails as that does. -/
theorem Session.addDeclarations_eq_extend (context : Context) (entry : Entry)
    (declarations : List Declaration) (output : Output) :
    let run := Session.addDeclarations context entry declarations output
    context.extend ((output.styles? entry).getD .empty) declarations =
      match run.error with
      | some error => .error error
      | none => .ok ((run.output.styles? entry).getD .empty) := by
  have block := Run.of_declares context entry declarations (output.touch entry)
  rw [Output.touch, Output.styles?_alter, if_pos rfl] at block
  exact block

end StyleObjects
