import StyleObjects.Proofs.Compile.Frames
import StyleObjects.Proofs.Lists

/-!
# Keyframes that declarations refer to

Once its lengths are in pixels, an animation looks up its words, and a list of animation names its
items.  No other keyframes are read.  So two tables of keyframes that have the same bodies for the
names that declarations refer to give the same run of these declarations, whatever else is in the
tables, and even if it cannot be read.
-/

namespace StyleObjects

/-! ## Names that are looked up -/

/-- The names of keyframes that a declaration refers to, whose lengths are in pixels. -/
def Declaration.references (declaration : Declaration) : List String :=
  match declaration.property with
  | "animation" => (items declaration.value).flatMap words
  | "animation-name" => items declaration.value
  | _ => []

namespace Animation

variable {frames others : String → Except ε (Option Frames)} {value : String}

theorem single_congr {item : String} (same : ∀ word ∈ words item, frames word = others word)
    (rejected : ε) : single rejected frames item = single rejected others item := by
  refine Lists.foldlM_congr_of_mem (fun word member styles => ?_) _
  have bound : bind frames word = bind others word := by rw [bind, bind, same word member]
  unfold place
  rw [bound]

theorem animation_congr
    (same : ∀ name ∈ (items value).flatMap words, frames name = others name) (rejected : ε) :
    animation rejected frames value = animation rejected others value := by
  have each : (items value).mapM (single rejected frames) =
      (items value).mapM (single rejected others) :=
    Lists.mapM_congr_of_mem fun item member => single_congr (fun word inside =>
      same word (List.mem_flatMap.mpr ⟨item, member, inside⟩)) rejected
  rw [animation, animation, each]

theorem animationName_congr (same : ∀ name ∈ items value, frames name = others name)
    (rejected : ε) : animationName rejected frames value = animationName rejected others value := by
  have each : (items value).mapM (bind frames) = (items value).mapM (bind others) :=
    Lists.mapM_congr_of_mem fun name member => by rw [bind, bind, same name member]
  rw [animationName, animationName, each]

end Animation

namespace Translation

/-- A declaration looks up no name that it does not refer to. -/
theorem translateOne_congr {frames others : FrameLookup} {declaration : Declaration}
    (same : ∀ name ∈ declaration.references, frames name = others name) :
    translateOne frames declaration = translateOne others declaration := by
  by_cases plain : declaration.property ∉ ["animation", "animation-name"]
  · exact translateOne_of_plain frames others plain
  · rcases declaration with ⟨property, value⟩
    simp only [List.mem_cons, List.not_mem_nil, or_false, not_not] at plain
    rcases plain with rfl | rfl
    · refine Animation.animation_congr (fun name member => same name ?_) _
      rwa [items_stripped] at member
    · refine Animation.animationName_congr (fun name member => same name ?_) _
      rwa [items_stripped] at member

theorem framesOf_congr {bodies others : Table String} {name : String}
    (same : bodies.get? name = others.get? name) :
    framesOf bodies name = framesOf others name := by
  rw [framesOf, framesOf, same]

end Translation

/-! ## Declarations in two contexts -/

namespace Context

open Translation

/-- The names that a declaration refers to once its lengths are in pixels. -/
def referencesOf (context : Context) (declaration : Declaration) : List String :=
  match context.convert declaration with
  | .ok inPixels => inPixels.references
  | .error _ => []

/-- The names that declarations refer to. -/
def references (context : Context) (declarations : List Declaration) : List String :=
  declarations.flatMap context.referencesOf

variable {first second : Context} {declaration : Declaration}

/-- Only animations depend on keyframes. -/
theorem lower_congr_of_plain (first second : Context)
    (plain : declaration.property ∉ ["animation", "animation-name"]) :
    first.lower declaration = second.lower declaration := by
  have kind : ∀ keyframes : Table String, DeclarationKind.of keyframes declaration.property =
      if borderShorthands.contains declaration.property then .borderShorthand else .plain := by
    intro keyframes
    simp only [DeclarationKind.of, List.contains_iff_mem, plain, Bool.and_eq_true, false_and,
      if_false]
  simp only [lower, kind]
  cases borderShorthands.contains declaration.property with
  | true => rfl
  | false => rfl

theorem lower_congr (named : first.IsNamed) (also : second.IsNamed)
    (same : ∀ name ∈ declaration.references,
      first.keyframes.get? name = second.keyframes.get? name) :
    first.lower declaration = second.lower declaration := by
  by_cases animated : declaration.property ∈ ["animation", "animation-name"]
  · rw [lower_of_animated named animated, lower_of_animated also animated,
      translateOne_congr fun name member => framesOf_congr (same name member)]
  · exact lower_congr_of_plain first second animated

end Context

/-- Steps that do the same in two contexts make the same run. -/
theorem Run.of_congr {first second : Context} {steps : List Step}
    (same : ∀ step ∈ steps, ∀ output, step.apply first output = step.apply second output)
    (output : Output) : Run.of first steps output = Run.of second steps output := by
  induction steps generalizing output with
  | nil => rfl
  | cons step steps ih =>
      rw [List.forall_mem_cons] at same
      rw [Run.of, Run.of, same.1 output]
      rcases step.apply second output with ⟨next, _ | error⟩
      · simp only [ih same.2 next]
      · rfl

variable {first second : Context}

/-- A declaration does the same to an output in two contexts with the same bodies for the names that
it refers to. -/
theorem Output.declare_congr (named : first.IsNamed) (also : second.IsNamed)
    (sized : first.remSize = second.remSize) {declaration : Declaration}
    (same : ∀ name ∈ first.referencesOf declaration,
      first.keyframes.get? name = second.keyframes.get? name) (entry : Entry) (output : Output) :
    output.declare first entry declaration = output.declare second entry declaration := by
  have alike : second.convert declaration = first.convert declaration := by
    rw [Context.convert, Context.convert, sized]
  rw [declare, declare, alike]
  cases converted : first.convert declaration with
  | error cause => rfl
  | ok inPixels =>
      rw [Context.referencesOf, converted] at same
      simp only [Context.lower_congr named also same]

namespace Session

/-- Keyframes that declarations do not refer to have no bearing on them: with either of two tables
that have the same bodies for all names referred to, the declarations give the same styles, note the
same viewport lengths, and fail for the same cause or not at all. -/
theorem addDeclarations_congr (named : first.IsNamed) (also : second.IsNamed)
    (sized : first.remSize = second.remSize) {declarations : List Declaration}
    (same : ∀ name ∈ first.references declarations,
      first.keyframes.get? name = second.keyframes.get? name) (entry : Entry) (output : Output) :
    addDeclarations first entry declarations output =
      addDeclarations second entry declarations output := by
  refine Run.of_congr (fun step member output => ?_) output
  rcases List.mem_cons.mp member with rfl | declares
  · rfl
  · rcases List.mem_map.mp declares with ⟨declaration, inside, rfl⟩
    refine Output.declare_congr named also sized (fun name referred => same name ?_) entry output
    exact List.mem_flatMap.mpr ⟨declaration, inside, referred⟩

/-- A name can be a length: keyframes are looked up under it once it is in pixels, and not as it is
written. -/
theorem addDeclarations_ne_of_nameInRem :
    let declaration : Declaration := ⟨"animation-name", "1rem"⟩
    let bound : Context := ⟨.ofList [("16px", "from \x7b opacity: 0 \x7d")], .ok (.ofInt 16)⟩
    let unbound : Context := ⟨.empty, .ok (.ofInt 16)⟩
    bound.IsNamed ∧ unbound.IsNamed ∧ declaration.references = ["1rem"] ∧
      (∀ name ∈ declaration.references,
        bound.keyframes.get? name = unbound.keyframes.get? name) ∧
      addDeclarations bound (.top "a") [declaration] {} ≠
        addDeclarations unbound (.top "a") [declaration] {} := by
  intro declaration bound unbound
  have named : bound.IsNamed := by decide +kernel
  have also : unbound.IsNamed := by decide +kernel
  exact ⟨named, also, by decide +kernel, by decide +kernel, by decide +kernel⟩

/-- An animation that finds its frames beside a body that cannot be read, and a name for which there
is no body. -/
theorem addDeclarations_congr_of_brokenBody :
    let declarations : List Declaration :=
      [⟨"width", "1rem"⟩, ⟨"animation", "2s fade linear, 1rem spin"⟩, ⟨"animation-name", "grow"⟩]
    let fade := ("fade", "from \x7b opacity: 0 \x7d")
    let first : Context := ⟨.ofList [fade, ("broken", "from \x7b")], .ok (.ofInt 10)⟩
    let second : Context := ⟨.ofList [("1rem", "\x7d"), fade], .ok (.ofInt 10)⟩
    first.IsNamed ∧ second.IsNamed ∧
      first.references declarations = ["2s", "fade", "linear", "10px", "spin", "grow"] ∧
      addDeclarations first (.top "a") declarations {} =
        addDeclarations second (.top "a") declarations {} := by
  intro declarations fade first second
  have named : first.IsNamed := by decide +kernel
  have also : second.IsNamed := by decide +kernel
  have referred : first.references declarations =
      ["2s", "fade", "linear", "10px", "spin", "grow"] := by decide +kernel
  refine ⟨named, also, referred, addDeclarations_congr named also rfl ?_ _ _⟩
  rw [referred]
  decide +kernel

end Session

end StyleObjects
