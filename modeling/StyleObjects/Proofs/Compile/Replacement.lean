import StyleObjects.Proofs.Compile.Entry
import StyleObjects.Proofs.Style.Keys

/-!
# Declaring a property twice

Of two declarations of one property the later one gives its keys their values, and keys that only
the earlier one has set stay.  Nothing of the earlier one is left if both set the same keys, which
they do unless the property is an animation, or a border whose sides fold in one of them only.
-/

namespace StyleObjects

/-- The styles of an entry after a run. -/
def Run.stylesOf (run : Run) (entry : Entry) : Styles :=
  (run.output.styles? entry).getD .empty

/-- A block that is added to an entry without styles gives it the styles of the block. -/
theorem Session.addDeclarations_eq_ok_iff {context : Context} {entry : Entry}
    {declarations : List Declaration} {output : Output} {styles : Styles}
    (blank : (output.styles? entry).getD .empty = .empty) :
    let run := Session.addDeclarations context entry declarations output
    context.extend .empty declarations = .ok styles ↔
      run.error = none ∧ run.stylesOf entry = styles := by
  have added := Session.addDeclarations_eq_extend context entry declarations output
  dsimp only at added ⊢
  rw [blank] at added
  rw [added, Run.stylesOf]
  cases (Session.addDeclarations context entry declarations output).error <;> simp

namespace Context

theorem extend_singleton_eq_ok_iff {context : Context} {declaration : Declaration}
    {styles : Styles} :
    context.extend .empty [declaration] = .ok styles ↔
      context.stylesOf declaration = .ok styles := by
  rw [extend_cons]
  cases given : context.stylesOf declaration with
  | error cause => simp [Except.bind]
  | ok own => simp [Except.bind, Table.empty_merge]

variable {context : Context} {property first second : String} {earlier later : Styles}

/-- The key for all sides of a border is its only key or none of its keys. -/
theorem keysOf_border : ∀ property ∈ borderShorthands,
    keysOf property = [styleKey property] ∨
      keysOf property ≠ [] ∧ styleKey property ∉ keysOf property := by
  decide +kernel

/-- The keys of a first declaration are all set by a second one, unless one of the two folds the
sides of a border and the other does not. -/
theorem keys_subset_iff (former : context.stylesOf ⟨property, first⟩ = .ok earlier)
    (latter : context.stylesOf ⟨property, second⟩ = .ok later) (plain : property ≠ "animation") :
    (∀ key ∈ earlier.keys, key ∈ later.keys) ↔
      (property ∈ borderShorthands →
        (earlier.keys = [styleKey property] ↔ later.keys = [styleKey property])) := by
  constructor
  · intro included border
    rcases keysOf_border property border with single | ⟨some, apart⟩
    · -- A border style has one key whether it is folded or not.
      have folded : ∀ {value : String} {styles : Styles},
          context.stylesOf ⟨property, value⟩ = .ok styles → styles.keys = [styleKey property] := by
        intro value styles given
        rcases keys_stylesOf given plain with spread | ⟨-, folded⟩
        · exact spread.trans single
        · exact folded
      exact iff_of_true (folded former) (folded latter)
    · rcases keys_stylesOf former plain with spread | ⟨-, folded⟩
      · rcases keys_stylesOf latter plain with other | ⟨-, folded⟩
        · rw [spread, other]
        · rcases List.exists_mem_of_ne_nil _ some with ⟨key, own⟩
          have within := included key (spread ▸ own)
          rw [folded, List.mem_singleton] at within
          exact absurd (within ▸ own) apart
      · rcases keys_stylesOf latter plain with spread | ⟨-, other⟩
        · have within := included (styleKey property) (by simp [folded])
          rw [spread] at within
          exact absurd within apart
        · exact iff_of_true folded other
  · intro folding
    have same : earlier.keys = later.keys := by
      rcases keys_stylesOf former plain with own | ⟨border, folded⟩
      · rcases keys_stylesOf latter plain with other | ⟨border, folded⟩
        · exact own.trans other.symm
        · exact ((folding border).mpr folded).trans folded.symm
      · exact folded.trans ((folding border).mp folded).symm
    intro key member
    exact same ▸ member

end Context

namespace Session

variable {context : Context} {entry : Entry} {output : Output} {property first second : String}

/-- Two declarations of a property that an entry without styles accepts one by one are accepted
together.  Every key has the value of the later one, or else that of the earlier one.  That is the
later one alone unless an earlier animation has parts that the later one has not, or the sides of
a border fold to one key in one of the two only. -/
theorem addDeclarations_twice (blank : (output.styles? entry).getD .empty = .empty)
    (former : (addDeclarations context entry [⟨property, first⟩] output).error = none)
    (latter : (addDeclarations context entry [⟨property, second⟩] output).error = none) :
    let earlier := (addDeclarations context entry [⟨property, first⟩] output).stylesOf entry
    let later := (addDeclarations context entry [⟨property, second⟩] output).stylesOf entry
    let run := addDeclarations context entry [⟨property, first⟩, ⟨property, second⟩] output
    run.error = none ∧
      (∀ key, (run.stylesOf entry).get? key = (later.get? key).or (earlier.get? key)) ∧
      ((∀ key, (run.stylesOf entry).get? key = later.get? key) ↔
        (property = "animation" → ∀ key ∈ earlier.keys, key ∈ later.keys) ∧
          (property ∈ borderShorthands →
            (earlier.keys = [styleKey property] ↔ later.keys = [styleKey property]))) := by
  intro earlier later run
  have one : ∀ {value : String},
      (addDeclarations context entry [⟨property, value⟩] output).error = none →
        context.stylesOf ⟨property, value⟩ =
          .ok ((addDeclarations context entry [⟨property, value⟩] output).stylesOf entry) := by
    intro value accepted
    exact context.extend_singleton_eq_ok_iff.mp
      ((addDeclarations_eq_ok_iff blank).mpr ⟨accepted, rfl⟩)
  have both : context.extend .empty [⟨property, first⟩, ⟨property, second⟩] =
      .ok (earlier.merge later) := by
    rw [Context.extend_cons_ok (one former), Context.extend_cons_ok (one latter),
      Context.extend_nil, Table.empty_merge]
  rcases (addDeclarations_eq_ok_iff blank).mp both with ⟨accepted, merged⟩
  rw [merged]
  refine ⟨accepted, Table.get?_merge earlier later, Table.get?_merge_eq_iff.trans ?_⟩
  by_cases animated : property = "animation"
  · have noBorder : property ∉ borderShorthands := by
      rw [animated]
      decide
    simp only [animated, forall_const, iff_self_and]
    exact fun _ border => absurd border (animated ▸ noBorder)
  · rw [Context.keys_subset_iff (one former) (one latter) animated]
    exact ⟨fun folding => ⟨fun named => absurd named animated, folding⟩, fun known => known.2⟩

/-- One width for all sides leaves the widths that single sides have been given before. -/
theorem not_replaced_of_widenedBorder :
    let run (values : List String) :=
      addDeclarations ⟨.empty, .ok (.ofInt 16)⟩ (.top "a")
        (values.map fun value => ⟨"border-width", value⟩) {}
    (run ["1px 2px"]).error = none ∧ (run ["3px"]).error = none ∧
      ¬∀ key, ((run ["1px 2px", "3px"]).stylesOf (.top "a")).get? key =
        ((run ["3px"]).stylesOf (.top "a")).get? key := by
  refine ⟨by decide +kernel, by decide +kernel, fun same => ?_⟩
  exact absurd (same "borderTopWidth") (by decide +kernel)

/-- Corners that differ in both declarations, in a media rule of an output with other entries. -/
theorem addDeclarations_twice_of_roundedCorners :
    let context : Context := ⟨.ofList [("fade", "from { opacity: 0 }")], .ok (.ofInt 10)⟩
    let entry := Entry.inMedia "@media print" "a"
    let output : Output := { classes := .ofList [("a", .ofList [("color", .text "red")])] }
    let run (values : List String) :=
      addDeclarations context entry (values.map fun value => ⟨"border-radius", value⟩) output
    (output.styles? entry).getD .empty = .empty ∧
      (run ["1px 2px"]).error = none ∧ (run ["2rem 3px 1rem"]).error = none ∧
      (run ["1px 2px", "2rem 3px 1rem"]).error = none ∧
      (∀ key, ((run ["1px 2px", "2rem 3px 1rem"]).stylesOf entry).get? key =
        ((run ["2rem 3px 1rem"]).stylesOf entry).get? key) := by
  intro context entry output run
  have blank : (output.styles? entry).getD .empty = .empty := by decide +kernel
  have former : (run ["1px 2px"]).error = none := by decide +kernel
  have latter : (run ["2rem 3px 1rem"]).error = none := by decide +kernel
  obtain ⟨accepted, -, replaced⟩ := addDeclarations_twice blank former latter
  refine ⟨blank, former, latter, accepted, replaced.mpr ⟨fun named => ?_, fun _ => ?_⟩⟩
  · exact absurd named (by decide)
  · decide +kernel

end Session

end StyleObjects
