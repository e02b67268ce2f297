import StyleObjects.Compile.Session
import StyleObjects.Proofs.Compile.Run
import StyleObjects.Proofs.Table

/-!
# Outputs only grow

Whatever is done to an output, and whether or not it fails, nothing is taken back.  In every table
and in the styles of every entry the keys stay where they are and new ones come behind them, what has
been left out stays reported, and a length of the viewport stays noted.
-/

namespace StyleObjects

/-! ## Tables -/

namespace Table

variable {α : Type} {related : α → α → Prop} {table middle later : Table α}

/-- A table keeps its keys where they are; new ones come behind them. -/
def KeepsKeys (table later : Table α) : Prop :=
  table.keys <+: later.keys

namespace KeepsKeys

theorem refl (table : Table α) : table.KeepsKeys table :=
  List.prefix_rfl

theorem trans (table middle later : Table α) (first : table.KeepsKeys middle)
    (second : middle.KeepsKeys later) : table.KeepsKeys later :=
  List.IsPrefix.trans first second

theorem insert (table : Table α) (name : String) (value : α) :
    table.KeepsKeys (table.insert name value) := by
  rw [KeepsKeys, keys_insert_eq, appendKeys_eq_append]
  exact List.prefix_append _ _

theorem merge (table other : Table α) : table.KeepsKeys (table.merge other) := by
  rw [KeepsKeys, Table.merge, keys_insertAll, appendKeys_eq_append]
  exact List.prefix_append _ _

end KeepsKeys

/-- A table grows to a later one: it keeps its keys, and each of them has a value that is related to
the one it had. -/
structure Grows (related : α → α → Prop) (table later : Table α) : Prop where
  keys : table.KeepsKeys later
  values : ∀ name value, table.get? name = some value →
    ∃ other, later.get? name = some other ∧ related value other

namespace Grows

theorem refl (reflexive : ∀ value, related value value) (table : Table α) :
    Grows related table table where
  keys := .refl table
  values := by
    intro name value held
    exact ⟨value, held, reflexive value⟩

theorem trans (transitive : ∀ first second third, related first second → related second third →
      related first third)
    (first : Grows related table middle) (second : Grows related middle later) :
    Grows related table later where
  keys := first.keys.trans _ _ _ second.keys
  values := by
    intro name value held
    obtain ⟨other, found, near⟩ := first.values name value held
    obtain ⟨last, reached, far⟩ := second.values name other found
    exact ⟨last, reached, transitive value other last near far⟩

/-- Changing one value grows a table if the change relates the value to what it was. -/
theorem alter (reflexive : ∀ value, related value value) {change : α → α}
    (changes : ∀ value, related value (change value)) (table : Table α) (name : String)
    (initial : α) : Grows related table (table.alter name initial change) where
  keys := .insert table name _
  values := by
    intro other value held
    rw [get?_alter]
    by_cases same : other = name
    · subst same
      rw [if_pos rfl, held]
      exact ⟨change value, rfl, changes value⟩
    · rw [if_neg same]
      exact ⟨value, held, reflexive value⟩

theorem block_refl (block : Table (Table α)) : Grows KeepsKeys block block :=
  refl KeepsKeys.refl block

theorem block_trans (block middle later : Table (Table α)) (first : Grows KeepsKeys block middle)
    (second : Grows KeepsKeys middle later) : Grows KeepsKeys block later :=
  first.trans KeepsKeys.trans second

end Grows

end Table

/-! ## Outputs -/

/-- An output grows to a later one. -/
structure Output.Grows (output later : Output) : Prop where
  classes : output.classes.Grows Table.KeepsKeys later.classes
  media : output.media.Grows (Table.Grows Table.KeepsKeys) later.media
  queries : output.queries.KeepsKeys later.queries
  exports : output.exports.KeepsKeys later.exports
  usesViewport : output.usesViewport = true → later.usesViewport = true
  skipped : output.skipped <+: later.skipped

namespace Output.Grows

open Table (KeepsKeys)

theorem refl (output : Output) : output.Grows output where
  classes := .block_refl output.classes
  media := .refl Table.Grows.block_refl output.media
  queries := .refl output.queries
  exports := .refl output.exports
  usesViewport := id
  skipped := List.prefix_rfl

theorem trans {output middle later : Output} (first : output.Grows middle)
    (second : middle.Grows later) : output.Grows later where
  classes := first.classes.trans KeepsKeys.trans second.classes
  media := first.media.trans Table.Grows.block_trans second.media
  queries := first.queries.trans _ _ _ second.queries
  exports := first.exports.trans _ _ _ second.exports
  usesViewport := second.usesViewport ∘ first.usesViewport
  skipped := first.skipped.trans second.skipped

/-- Changing the styles of one entry grows an output if the styles keep their keys. -/
theorem alter {change : Styles → Styles} (keeps : ∀ styles : Styles, styles.KeepsKeys (change styles))
    (output : Output) (entry : Entry) : output.Grows (output.alter entry change) := by
  cases entry with
  | top key =>
      exact { refl output with classes := .alter KeepsKeys.refl keeps output.classes key .empty }
  | inMedia media key =>
      have block : ∀ block : Table Styles,
          block.Grows KeepsKeys (block.alter key .empty change) := by
        intro block
        exact .alter KeepsKeys.refl keeps block key .empty
      exact { refl output with
        media := .alter Table.Grows.block_refl block output.media media .empty }

theorem noteViewport (output : Output) (context : Context) (declaration : Declaration) :
    output.Grows (output.noteViewport context declaration) :=
  { refl output with
    usesViewport := by
      intro noted
      simp [Output.noteViewport, noted] }

/-- A declaration grows an output, whether or not it has styles. -/
theorem declare (output : Output) (context : Context) (entry : Entry) (declaration : Declaration) :
    output.Grows (output.declare context entry declaration).1 := by
  have noted := noteViewport output context declaration
  cases lowered : context.stylesOf declaration with
  | error error =>
      rw [declare_fails lowered]
      exact noted
  | ok styles =>
      rw [declare_ok lowered]
      apply noted.trans
      apply alter
      intro held
      exact .merge held styles

/-- Exporting a value grows an output, whether or not the name is free. -/
theorem exportValue (output : Output) (name value : String) :
    output.Grows (output.exportValue name value).1 := by
  rw [Output.exportValue]
  split
  · exact refl output
  · exact { refl output with exports := .insert output.exports name value }

end Output.Grows

/-! ## Runs -/

/-- A step grows an output, whether or not it fails. -/
theorem Step.grows_apply (context : Context) (output : Output) (step : Step) :
    output.Grows (step.apply context output).1 := by
  cases step with
  | skip skipped =>
      exact { Output.Grows.refl output with skipped := List.prefix_append _ _ }
  | touch entry => exact .alter Table.KeepsKeys.refl output entry
  | declare entry declaration => exact .declare output context entry declaration
  | exportValue name value => exact .exportValue output name value
  | recordQueries media queries =>
      exact { Output.Grows.refl output with
        queries := .insert output.queries media queries }
  | fail error => exact .refl output

/-- A run grows an output up to the step at which it ends. -/
theorem Run.grows_of (context : Context) (steps : List Step) (output : Output) :
    output.Grows (Run.of context steps output).output := by
  induction steps generalizing output with
  | nil => exact .refl output
  | cons step steps ih =>
      have first := Step.grows_apply context output step
      rcases applied : step.apply context output with ⟨next, _ | error⟩
      · rw [applied] at first
        simp only [Run.of, applied]
        exact first.trans (ih next)
      · rw [applied] at first
        simp only [Run.of, applied]
        exact first

namespace Session

/-- Every operation grows an output, whether or not it fails. -/
theorem Call.grows_run (call : Call) (output : Output) : output.Grows (call.run output).output := by
  cases call with
  | mk options context operation =>
      cases operation with
      | addNodes | styleRule | mediaRule | exportValues | skip => exact Run.grows_of context _ output

/-- An output only grows, whatever is done to it one after the other and whether or not it fails. -/
theorem grows_after (output : Output) (calls : List Call) : output.Grows (after output calls) := by
  induction calls generalizing output with
  | nil => exact .refl output
  | cons call calls ih => exact (call.grows_run output).trans (ih (call.run output).output)

end Session

end StyleObjects
