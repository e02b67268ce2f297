import StyleObjects.Compile.Lowering
import StyleObjects.Proofs.Style.Values

/-!
# What the styles of declarations are made of

What holds of everything that is read from the values of declarations, and from those of the frames
that they refer to, holds of all scalars in their styles.
-/

namespace StyleObjects

/-! ## Results with known values -/

/-- Something holds of the value of a result, if it has one. -/
def Gives {ε α : Type} (holds : α → Prop) (result : Except ε α) : Prop :=
  ∀ value, result = .ok value → holds value

namespace Gives

variable {ε α β : Type} {holds : α → Prop} {others : β → Prop}

theorem ok {value : α} (known : holds value) : Gives holds (.ok value : Except ε α) := by
  intro other same
  cases same
  exact known

theorem error (cause : ε) : Gives holds (.error cause : Except ε α) := by
  intro value same
  cases same

theorem bind {result : Except ε α} {next : α → Except ε β} (first : Gives holds result)
    (after : ∀ value, holds value → Gives others (next value)) : Gives others (result >>= next) := by
  cases result with
  | error cause => exact error cause
  | ok value => exact after value (first value rfl)

theorem map {result : Except ε α} (first : Gives holds result) {image : α → β}
    (after : ∀ value, holds value → others (image value)) : Gives others (result.map image) := by
  cases result with
  | error cause => exact error cause
  | ok value => exact ok (after value (first value rfl))

theorem foldlM {step : β → α → Except ε β} {items : List α}
    (kept : ∀ state, ∀ item ∈ items, others state → Gives others (step state item)) {state : β}
    (start : others state) : Gives others (items.foldlM step state) := by
  induction items generalizing state with
  | nil => exact ok start
  | cons item items ih =>
      rw [List.foldlM_cons]
      refine (kept state item List.mem_cons_self start).bind fun next known => ?_
      exact ih (fun state item member => kept state item (List.mem_cons_of_mem _ member)) known

theorem mapM {image : α → Except ε β} {items : List α}
    (known : ∀ item ∈ items, Gives others (image item)) :
    Gives (fun images => ∀ value ∈ images, others value) (items.mapM image) := by
  induction items with
  | nil => exact ok (List.forall_mem_nil _)
  | cons item items ih =>
      rw [List.forall_mem_cons] at known
      rw [List.mapM_cons]
      refine known.1.bind fun value first => (ih known.2).bind fun values rest => ok ?_
      exact List.forall_mem_cons.mpr ⟨first, rest⟩

end Gives

/-! ## Animations -/

namespace Animation

open Scalar (IsOf)
open Translation (Piece)

variable {ε : Type} {rejected : ε} {frames : String → Except ε (Option Frames)}
  {holds : Scalar → Prop} {property value : String}

/-- All frames that can be looked up are made of known scalars. -/
def Knows (frames : String → Except ε (Option Frames)) (holds : Scalar → Prop) : Prop :=
  ∀ name, Gives (fun found => ∀ bound : Frames, found = some bound → bound.Every holds)
    (frames name)

/-- The part that a word gives is the word. -/
theorem isOfWord_of_part? {styles : Styles} {word : String} {part : String × Value}
    (found : part? styles word = some part) : Value.IsOfWord word part.2 := by
  unfold part? at found
  split at found
  · cases found
    exact .inl rfl
  · split at found
    · cases found
      exact .inl rfl
    · split at found
      · cases found
        exact .inl rfl
      · split at found
        · rename_i read
          cases found
          cases Scalar.readNumber?_eq_some read
          exact .inr rfl
        · split at found
          · cases found
            exact .inl rfl
          · split at found
            · cases found
              exact .inl rfl
            · split at found <;> cases found
              exact .inl rfl

theorem every_part? {styles : Styles} {word : String} (piece : Piece value word)
    {part : String × Value} (found : part? styles word = some part) : part.2.Every (IsOf property value) :=
  Scalar.every_of_isOfWord piece (isOfWord_of_part? found)

theorem gives_bind (looked : Knows frames holds) (text : ∀ text, holds (.text text))
    (name : String) : Gives (Value.Every holds) (bind frames name) :=
  (looked name).map fun found known => by
    cases found with
    | none => exact .scalar (text name)
    | some bound => exact (known bound rfl).ofFrames

theorem every_align (known : ∀ scalar, IsOf property value scalar → holds scalar)
    {animations : List Styles}
    (every : ∀ styles ∈ animations, styles.Every holds) : (align animations).Every holds := by
  have initial : ∀ entry ∈ initialValues, entry.2.Every holds := by
    have text : ∀ text, (Value.text text).Every holds := fun text => .scalar (known _ (.text text))
    have integer : ∀ number, (Value.integer number).Every holds := fun number =>
      .scalar (known _ (.integer number))
    simp only [initialValues, List.forall_mem_cons]
    exact ⟨text _, text _, text _, text _, integer _, text _, text _, text _, List.forall_mem_nil _⟩
  apply Table.every_ofList
  rw [List.forall_mem_map]
  intro entry member
  refine .list ?_
  rw [List.forall_mem_map]
  intro styles inside
  cases held : styles.get? entry.1 with
  | none => exact initial entry member
  | some own => exact (every styles inside).get? held

variable (looked : Knows frames holds) (known : ∀ scalar, IsOf property value scalar → holds scalar)

include looked known

theorem gives_place {styles : Styles} (every : styles.Every holds) {word : String}
    (piece : Piece value word) :
    Gives (Styles.Every holds) (place rejected frames styles word) := by
  have enter : ∀ key own, own.Every holds → Gives (Styles.Every holds)
      (if styles.contains key then .error rejected else .ok (styles.insert key own)) := by
    intro key own given
    split
    · exact .error rejected
    · exact .ok (every.insert key given)
  unfold place
  cases found : part? styles word with
  | some part => exact enter part.1 part.2 ((every_part? piece found).mono known)
  | none =>
      refine ((gives_bind looked (fun text => known _ (.text text)) word).map
        fun own given => ?_).bind fun part given => enter part.1 part.2 given
      exact given

theorem gives_single {item : String} (listed : item ∈ items value) :
    Gives (Styles.Every holds) (single rejected frames item) :=
  .foldlM (fun _ _ member every => gives_place looked known every (.item listed member))
    Table.every_empty

theorem gives_animation : Gives (Styles.Every holds) (animation rejected frames value) := by
  refine .bind (.mapM fun item listed => gives_single looked known listed) fun animations every => ?_
  split
  · exact .error rejected
  · exact .ok (every _ List.mem_cons_self)
  · exact .ok (every_align known every)

theorem gives_animationName : Gives (Styles.Every holds) (animationName rejected frames value) := by
  refine .bind (.mapM fun item _ => gives_bind looked (fun text => known _ (.text text)) item)
    fun names every => ?_
  split
  · exact .error rejected
  · exact .ok (Table.every_ofList (List.forall_mem_singleton.mpr (every _ List.mem_cons_self)))
  · exact .ok (Table.every_ofList (List.forall_mem_singleton.mpr (.list every)))

end Animation

/-! ## Translations -/

variable {holds : Scalar → Prop}

/-- Something holds of all scalars that may be read from the value of a declaration. -/
def Declaration.Admits (declaration : Declaration) (holds : Scalar → Prop) : Prop :=
  ∀ scalar, Scalar.IsOf declaration.property (Text.stripped declaration.value) scalar →
    holds scalar

/-- Something holds of all scalars that may be read from the frames of a body of keyframes. -/
def AdmitsBody (body : String) (holds : Scalar → Prop) : Prop :=
  ∀ rules, Stylesheet.parse body = .ok rules → ∀ selectors declarations,
    Rule.style selectors declarations ∈ rules → ∀ declaration ∈ declarations,
      declaration.Admits holds

namespace Translation

open Animation (Knows)

theorem gives_translateOne {frames : FrameLookup} (looked : Knows frames holds)
    {declaration : Declaration} (known : declaration.Admits holds) :
    Gives (Styles.Every holds) (translateOne frames declaration) := by
  unfold translateOne
  dsimp only
  split
  · exact Animation.gives_animation looked known
  · exact Animation.gives_animationName looked known
  · split
    · rename_i styles found
      exact .ok fun entry member => (every_expand? found entry member).mono known
    · exact .error _

theorem gives_translateAll {frames : FrameLookup} (looked : Knows frames holds)
    {declarations : List Declaration}
    (known : ∀ declaration ∈ declarations, declaration.Admits holds) :
    Gives (Styles.Every holds) (translateAll frames declarations) :=
  .foldlM (fun _ declaration member every =>
    (gives_translateOne looked (known declaration member)).map fun _ own => every.merge own)
    Table.every_empty

theorem gives_addFrames {frames : Frames} (every : frames.Every holds) {rule : Rule}
    (known : ∀ selectors declarations, rule = .style selectors declarations →
      ∀ declaration ∈ declarations, declaration.Admits holds) :
    Gives (Frames.Every holds) (addFrames frames rule) := by
  have none : Knows noFrames holds := fun name => .ok fun bound same => by cases same
  cases rule with
  | style selectors declarations =>
      refine (gives_translateAll none (known selectors declarations rfl)).map fun styles own => ?_
      clear known
      induction selectors generalizing frames with
      | nil => exact every
      | cons selector selectors ih =>
          exact ih (every.alter selector Table.every_empty fun held kept => kept.merge own)
  | media | atRule => exact .ok every

end Translation

theorem gives_readFrames {body : String} (known : AdmitsBody body holds) :
    Gives (Frames.Every holds) (readFrames body) := by
  unfold readFrames
  cases parsed : Stylesheet.parse body with
  | error position => exact .error _
  | ok rules =>
      refine .foldlM (fun frames rule member every => ?_) Table.every_empty
      refine Translation.gives_addFrames every fun selectors declarations same => ?_
      exact known rules parsed selectors declarations (same ▸ member)

namespace Translation

theorem knows_framesOf {bodies : Table String} (known : bodies.Every (AdmitsBody · holds)) :
    Animation.Knows (framesOf bodies) holds := by
  intro name
  unfold framesOf
  split
  · rename_i body held
    refine (gives_readFrames (known.get? held)).map fun frames every bound same => ?_
    cases same
    exact every
  · exact .ok fun bound same => by cases same

theorem every_bodies {declarations : List Declaration}
    (known : ∀ declaration ∈ declarations, (keyframesName? declaration).isSome = true →
      AdmitsBody declaration.value holds) : (bodies declarations).Every (AdmitsBody · holds) := by
  apply Table.every_ofList
  intro pair member
  rw [List.mem_filterMap] at member
  rcases member with ⟨declaration, given, named⟩
  rcases Option.map_eq_some_iff.mp named with ⟨name, found, rfl⟩
  exact known declaration given (Option.isSome_of_eq_some found)

end Translation

open Translation (keyframesName?)

/-- What holds of everything that may be read from declarations and from the bodies of keyframes
among them holds of their styles. -/
theorem gives_translateDeclarations {declarations : List Declaration}
    (known : ∀ declaration ∈ declarations, keyframesName? declaration = none →
      declaration.Admits holds)
    (framed : ∀ declaration ∈ declarations, (keyframesName? declaration).isSome = true →
      AdmitsBody declaration.value holds) :
    Gives (Styles.Every holds) (translateDeclarations declarations) := by
  refine Translation.gives_translateAll (Translation.knows_framesOf
    (Translation.every_bodies framed)) fun declaration member => ?_
  rw [List.mem_filter, Option.isNone_iff_eq_none] at member
  exact known declaration member.1 member.2

/-! ## Declarations of a stylesheet -/

namespace Context

variable {context : Context} {declaration : Declaration}

/-- Something holds of all scalars that may be read from the keyframes of a stylesheet. -/
def Admits (context : Context) (holds : Scalar → Prop) : Prop :=
  context.keyframes.Every (AdmitsBody · holds)

theorem every_foldSides {styles : Styles} (every : styles.Every holds) (property : String) :
    (foldSides property styles).Every holds := by
  unfold foldSides
  split
  · exact every
  · rename_i first rest values
    split
    · have member : first ∈ styles.values := values ▸ List.mem_cons_self
      rcases List.mem_map.mp member with ⟨entry, inside, rfl⟩
      exact Table.every_ofList (List.forall_mem_singleton.mpr (every entry inside))
    · exact every

/-- A declaration alone gives what may be read from it, or nothing. -/
theorem gives_translateDeclarations_singleton (known : declaration.Admits holds) :
    Gives (Styles.Every holds) (translateDeclarations [declaration]) := by
  cases named : keyframesName? declaration with
  | none =>
      refine gives_translateDeclarations (fun other member _ => ?_) fun other member framed => ?_
      · cases List.mem_singleton.mp member
        exact known
      · cases List.mem_singleton.mp member
        rw [named] at framed
        cases framed
  | some name =>
      have silent : [declaration].filter (fun declaration => (keyframesName? declaration).isNone) =
          [] := by simp [named]
      rw [translateDeclarations, silent]
      exact .ok Table.every_empty

theorem keyframesName?_keyframeDeclarations :
    ∀ declaration ∈ context.keyframeDeclarations, (keyframesName? declaration).isSome = true := by
  intro declaration member
  rcases List.mem_map.mp member with ⟨entry, -, rfl⟩
  simp [keyframesName?, String.toList_append]

/-- An animation is no body of keyframes. -/
theorem keyframesName?_of_animation
    (kind : DeclarationKind.of context.keyframes declaration.property = .animation) :
    keyframesName? declaration = none := by
  have named : ["animation", "animation-name"].contains declaration.property = true := by
    unfold DeclarationKind.of at kind
    split at kind
    · cases kind
    · split at kind
      · rename_i animated
        rw [Bool.and_eq_true] at animated
        exact animated.1
      · cases kind
  have unmarked : ∀ property ∈ ["animation", "animation-name"],
      Translation.keyframesMark.toList.isPrefixOf property.toList = false := by decide
  rw [keyframesName?, unmarked _ (List.contains_iff_mem.mp named)]
  rfl

theorem gives_lower (framed : context.Admits holds) (known : declaration.Admits holds) :
    Gives (Styles.Every holds) (context.lower declaration) := by
  unfold lower
  split
  · exact (gives_translateDeclarations_singleton known).map fun styles every =>
      every_foldSides every _
  · refine gives_translateDeclarations (fun other member plain => ?_) fun other member marked => ?_
    · rw [List.mem_append, List.mem_singleton] at member
      rcases member with frame | rfl
      · have marked := keyframesName?_keyframeDeclarations other frame
        rw [plain] at marked
        cases marked
      · exact known
    · rename_i kind
      rw [List.mem_append, List.mem_singleton] at member
      rcases member with frame | rfl
      · rcases List.mem_map.mp frame with ⟨entry, inside, rfl⟩
        exact framed entry inside
      · rw [keyframesName?_of_animation kind] at marked
        cases marked
  · exact gives_translateDeclarations_singleton known

end Context

end StyleObjects
