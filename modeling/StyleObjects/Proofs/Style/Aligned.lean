import StyleObjects.Error
import StyleObjects.Proofs.Lists
import StyleObjects.Proofs.Style.Separators
import StyleObjects.Proofs.Table
import StyleObjects.Style.Animation

/-!
# Animations side by side

The items of an animation do not know of each other.  Each is its own only item, so on its own it is
one animation; several of them fail together if and only if one of them fails on its own, and every
list that they give has at each place what the item at that place gives on its own.
-/

namespace StyleObjects

namespace Animation

variable {ε : Type} {frames : String → Except ε (Option Frames)} {value item : String}

/-! ## One item -/

/-- A word is entered under a key that is not taken: that of its part, or that of the name. -/
theorem place_eq_ok_iff {rejected : ε} {styles next : Styles} {word : String} :
    place rejected frames styles word = .ok next ↔
      ∃ key value, (part? styles word = some (key, value) ∨
          part? styles word = none ∧ key = "animationName" ∧ bind frames word = .ok value) ∧
        key ∉ styles.keys ∧ next = styles.insert key value := by
  have enter : ∀ key value,
      (if styles.contains key then .error rejected else .ok (styles.insert key value)) =
        (.ok next : Except ε Styles) ↔ key ∉ styles.keys ∧ next = styles.insert key value := by
    intro key value
    rw [← Table.contains_iff]
    cases styles.contains key with
    | true => simp
    | false => simp [eq_comm]
  unfold place
  cases part? styles word with
  | some part =>
      refine (enter part.1 part.2).trans ?_
      simp [Prod.ext_iff]
  | none =>
      cases bind frames word with
      | error cause => simp [Bind.bind, Except.bind, Except.map]
      | ok bound =>
          refine (enter "animationName" bound).trans ?_
          simp

/-- Which error is reported for an item does not decide whether it is accepted. -/
theorem single_eq_ok_iff {first second : ε} {styles : Styles} :
    single first frames item = .ok styles ↔ single second frames item = .ok styles := by
  unfold single
  generalize Table.empty = start
  induction words item generalizing start with
  | nil => exact Iff.rfl
  | cons word words ih =>
      have same {next : Styles} : place first frames start word = .ok next ↔
          place second frames start word = .ok next := place_eq_ok_iff.trans place_eq_ok_iff.symm
      rw [List.foldlM_cons, List.foldlM_cons]
      cases placed : place first frames start word with
      | ok next =>
          rw [same.mp placed]
          exact ih next
      | error cause =>
          cases other : place second frames start word with
          | ok next => simp [same.mpr other] at placed
          | error cause => simp [Bind.bind, Except.bind]

theorem exists_single_eq_error_iff (first second : ε) :
    (∃ cause, single first frames item = .error cause) ↔
      ∃ cause, single second frames item = .error cause := by
  have same : ∀ styles, single first frames item = .ok styles ↔
      single second frames item = .ok styles := fun _ => single_eq_ok_iff
  cases former : single first frames item with
  | ok styles => simp [(same styles).mp former]
  | error cause =>
      cases latter : single second frames item with
      | ok styles => simp [(same styles).mpr latter] at former
      | error cause => simp

/-- A value with one item is one animation. -/
theorem animation_of_items_eq_singleton (alone : items value = [item]) (rejected : ε) :
    animation rejected frames value = single rejected frames item := by
  unfold animation
  rw [alone, List.mapM_cons, List.mapM_nil]
  cases single rejected frames item with
  | error cause => rfl
  | ok styles => rfl

/-- An item is one animation on its own. -/
theorem animation_of_mem_items (member : item ∈ items value) (rejected : ε) :
    animation rejected frames item = single rejected frames item := by
  have alone : Separator.comma.split item = [item] := Separator.split_of_mem_split member
  exact animation_of_items_eq_singleton alone rejected

/-! ## Several items -/

/-- Several animations are aligned if all of them are accepted. -/
theorem animation_of_several (several : 2 ≤ (items value).length) (rejected : ε) :
    animation rejected frames value =
      ((items value).mapM (single rejected frames)).map align := by
  unfold animation
  cases each : (items value).mapM (single rejected frames) with
  | error cause => rfl
  | ok animations =>
      rw [(Lists.mapM_eq_ok_iff.mp each).length_eq] at several
      match animations, several with
      | first :: second :: others, _ => rfl

theorem nodup_initialValues : (initialValues.map Prod.fst).Nodup := by
  decide

theorem entries_align (animations : List Styles) :
    (align animations).entries = initialValues.map fun entry =>
      (entry.1, .list (animations.map fun styles => (styles.get? entry.1).getD entry.2)) := by
  refine congrArg Table.entries (Table.ofList_eq ?_)
  rw [List.map_map]
  exact nodup_initialValues

theorem keys_align (animations : List Styles) :
    (align animations).keys = initialValues.map Prod.fst := by
  rw [Table.keys, entries_align, List.map_map]
  rfl

theorem get?_align (animations : List Styles) {key : String} {initial : Value}
    (listed : (key, initial) ∈ initialValues) :
    (align animations).get? key =
      some (.list (animations.map fun styles => (styles.get? key).getD initial)) := by
  have member : (key, Value.list (animations.map fun styles => (styles.get? key).getD initial)) ∈
      (align animations).entries := by
    rw [entries_align]
    exact List.mem_map.mpr ⟨_, listed, rfl⟩
  exact Table.get?_of_mem member

/-- Several animations fail if and only if one of them fails on its own.  Otherwise they give a list
under each of the keys of an animation.  It has one value for each item, in order: the one that the
item gives on its own, or the initial value of the key if the item gives none. -/
theorem animation_aligned (rejected : String → ε) (frames : String → Except ε (Option Frames))
    {value : String} (several : 2 ≤ (items value).length) :
    ((∃ cause, animation (rejected value) frames value = .error cause) ↔
      ∃ item ∈ items value, ∃ cause, animation (rejected item) frames item = .error cause) ∧
    ∀ styles, animation (rejected value) frames value = .ok styles →
      styles.keys = initialValues.map Prod.fst ∧
        ∀ key initial, (key, initial) ∈ initialValues →
          ∃ values, styles.get? key = some (.list values) ∧
            List.Forall₂ (fun item own => ∃ alone,
                animation (rejected item) frames item = .ok alone ∧
                  own = (alone.get? key).getD initial)
              (items value) values := by
  rw [animation_of_several several]
  constructor
  · have together : (∃ cause, ((items value).mapM (single (rejected value) frames)).map align =
          .error cause) ↔
        ∃ cause, (items value).mapM (single (rejected value) frames) = .error cause := by
      cases (items value).mapM (single (rejected value) frames) <;> simp [Except.map]
    rw [together, Lists.exists_mapM_eq_error_iff]
    refine exists_congr fun item => and_congr_right fun member => ?_
    rw [animation_of_mem_items member]
    exact exists_single_eq_error_iff _ _
  · intro styles accepted
    cases each : (items value).mapM (single (rejected value) frames) with
    | error cause => simp [each, Except.map] at accepted
    | ok animations =>
        simp only [each, Except.map, Except.ok.injEq] at accepted
        rw [← accepted]
        refine ⟨keys_align animations, fun key initial listed => ?_⟩
        refine ⟨_, get?_align animations listed, ?_⟩
        rw [List.forall₂_map_right_iff]
        have members := (List.forall₂_and_left _ _).mpr
          ⟨fun item (member : item ∈ items value) => member, Lists.mapM_eq_ok_iff.mp each⟩
        refine members.imp fun item alone given => ⟨alone, ?_, rfl⟩
        rw [animation_of_mem_items given.1]
        exact single_eq_ok_iff.mp given.2

/-- One animation is bound to frames, and one has a delay of its own.  With a third one that has two
directions, all are refused. -/
theorem animation_aligned_of_boundFrames :
    let fading : Frames := .ofList [("from", .ofList [("opacity", .integer 0)])]
    let frames : String → Except Error (Option Frames) := fun name =>
      .ok (if name = "fade" then some fading else none)
    let rejected := Error.inexpressible "animation"
    let value := " fade 1s,slide 2s 300ms infinite"
    let twice := value ++ ", alternate reverse"
    2 ≤ (items value).length ∧ 2 ≤ (items twice).length ∧
      (∃ styles, animation (rejected value) frames value = .ok styles ∧
        ∃ delays, styles.get? "animationDelay" = some (.list delays) ∧
          List.Forall₂ (fun item own => ∃ alone,
              animation (rejected item) frames item = .ok alone ∧
                own = (alone.get? "animationDelay").getD (.text "0s"))
            (items value) delays) ∧
      ∃ cause, animation (rejected twice) frames twice = .error cause := by
  intro fading frames rejected value twice
  have several : 2 ≤ (items value).length := by decide +kernel
  have more : 2 ≤ (items twice).length := by decide +kernel
  have accepted : ∃ styles, animation (rejected value) frames value = .ok styles := by
    cases given : animation (rejected value) frames value with
    | ok styles => exact ⟨styles, rfl⟩
    | error cause =>
        exfalso
        have alone : ∀ item ∈ items value,
            (animation (rejected item) frames item).toOption.isSome := by
          decide +kernel
        obtain ⟨item, member, cause, refused⟩ :=
          (animation_aligned rejected frames several).1.mp ⟨cause, given⟩
        simpa [refused, Except.toOption] using alone item member
  obtain ⟨styles, given⟩ := accepted
  refine ⟨several, more, ⟨styles, given, ?_⟩, ?_⟩
  · exact ((animation_aligned rejected frames several).2 styles given).2 _ _ (by decide +kernel)
  · refine (animation_aligned rejected frames more).1.mpr ⟨"alternate reverse", ?_, ?_⟩
    · decide +kernel
    · exact ⟨rejected "alternate reverse", by decide +kernel⟩

end Animation

end StyleObjects
