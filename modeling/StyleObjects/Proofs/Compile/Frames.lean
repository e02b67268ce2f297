import StyleObjects.Proofs.Compile.Replacement
import StyleObjects.Proofs.Style.Outcome
import StyleObjects.Proofs.Style.Pixels
import StyleObjects.Proofs.Stylesheet.Built
import StyleObjects.Proofs.Stylesheet.Declared
import StyleObjects.Proofs.Stylesheet.Keyframes

/-!
# Frames and rules

The declarations of a frame are translated where an animation refers to it, and they are translated
as they are written.  The declarations of a rule are translated with their lengths in pixels.  So a
frame has the styles of a rule with the same declaration if the value has no length in root font
sizes.  Viewport lengths of a frame are never noted.
-/

namespace StyleObjects

open Translation

/-! ## The frames of a body -/

/-- Only animations look up frames. -/
theorem Translation.translateOne_of_plain {declaration : Declaration} (frames others : FrameLookup)
    (plain : declaration.property ∉ ["animation", "animation-name"]) :
    translateOne frames declaration = translateOne others declaration := by
  simp only [List.mem_cons, List.not_mem_nil, or_false, not_or] at plain
  unfold translateOne
  dsimp only
  split
  · exact absurd ‹_› plain.1
  · exact absurd ‹_› plain.2
  · rfl

/-- A declaration of a frame is translated as one that stands alone. -/
theorem Translation.translateAll_singleton {declaration : Declaration} (frames : FrameLookup)
    (unmarked : keyframesName? declaration = none)
    (plain : declaration.property ∉ ["animation", "animation-name"]) :
    translateAll frames [declaration] = translateDeclarations [declaration] := by
  have alone := translateDeclarations_append_singleton (List.forall_mem_nil _) unmarked
  rw [List.nil_append, translateOne_of_plain _ frames plain] at alone
  rw [alone, translateAll, List.foldlM_cons]
  cases translateOne frames declaration <;> rfl

/-- A body that is one rule with one selector gives the frames of this selector. -/
theorem readFrames_of_parse {body selector : String} {declarations : List Declaration}
    (parsed : Stylesheet.parse body = .ok [.style [selector] declarations]) :
    readFrames body = (translateAll noFrames declarations).map fun styles =>
      .ofList [(selector, styles)] := by
  rw [readFrames, parsed]
  change [Rule.style [selector] declarations].foldlM addFrames .empty = _
  rw [List.foldlM_cons, addFrames]
  cases translated : translateAll noFrames declarations with
  | error cause => rfl
  | ok styles =>
      have entered : (Table.empty : Frames).alter selector .empty (·.merge styles) =
          .ofList [(selector, styles)] := by
        rw [Table.alter, Table.get?_empty, Option.getD_none, Table.empty_merge]
        rfl
      exact congrArg Except.ok entered

/-- A property that has been read from a stylesheet is no mark of keyframes. -/
theorem Declaration.Built.keyframesName?_eq_none {declaration : Declaration}
    (built : declaration.Built) : keyframesName? declaration = none := by
  rcases built with ⟨name, value, named, rfl⟩
  have unbroken := (Stylesheet.isDeclaredName_declarationOf named value).unbroken
  rw [← Option.isNone_iff_eq_none, ← Option.not_isSome, Context.keyframesName?_isSome,
    Bool.not_eq_true', Bool.eq_false_iff]
  intro marked
  have start := (List.isPrefixOf_iff_prefix.mp marked).subset
  exact unbroken (start (by decide))

theorem Declaration.keyframesName?_of_parse {declaration : Declaration} {text selector : String}
    (parsed : Stylesheet.parse text = .ok [.style [selector] [declaration]]) :
    keyframesName? declaration = none := by
  have built := Stylesheet.built_of_parse parsed _ List.mem_cons_self
  exact (built.declared declaration List.mem_cons_self).keyframesName?_eq_none

/-- A frame whose declaration is also read in a class has the styles of the declaration alone. -/
theorem readFrames_ruleText {declaration : Declaration}
    (parsed : Stylesheet.parse (declaration.ruleText ".a") = .ok [.style [".a"] [declaration]])
    (plain : declaration.property ∉ ["animation", "animation-name"]) :
    readFrames (declaration.ruleText "from") =
      (translateDeclarations [declaration]).map fun styles => .ofList [("from", styles)] := by
  have unmarked := Declaration.keyframesName?_of_parse parsed
  rw [readFrames_of_parse (Declaration.parse_ruleText parsed),
    translateAll_singleton _ unmarked plain]

/-! ## The keyframes of a text -/

namespace Keyframes

/-- A text without white space is left by trimming it. -/
theorem trim_of_all_isNameChar {name : List Char} (named : name.all isNameChar = true) :
    Text.trim name = name := by
  have visible : ∀ c ∈ name, Text.isBlank c = false := fun c member =>
    isBlank_of_isNameChar (List.all_eq_true.mp named c member)
  cases ends : name.getLast? with
  | none => rw [List.getLast?_eq_none_iff.mp ends]; rfl
  | some last =>
      cases starts : name.head? with
      | none => rw [List.head?_eq_none_iff.mp starts]; rfl
      | some first =>
          apply Stylesheet.trim_of_visible
          · simp [starts, visible first (List.mem_of_head? starts)]
          · simp [ends, visible last (List.mem_of_getLast? ends)]

/-- Every block of a text has a name without white space. -/
theorem Factors.all_isNameChar {cs last : List Char} {blocks : List Block}
    (factors : Factors cs blocks last) : ∀ block ∈ blocks, block.name.all isNameChar = true := by
  induction factors with
  | last => simp
  | block found balanced others ih =>
      rw [List.forall_mem_cons]
      refine ⟨?_, ih⟩
      cases found.isHeader with
      | spelled apart opens filled named closes => exact named

/-- The name of keyframes is the same when it is trimmed. -/
theorem trim_of_mem_cutKeyframes {source name : String}
    (member : name ∈ (cutKeyframes source).table.keys) : Text.trim name.toList = name.toList := by
  rcases cutKeyframes_factors source with ⟨blocks, last, factors, -, -, keys, -⟩
  rw [keys, List.mem_eraseDups, List.mem_map] at member
  rcases member with ⟨block, inside, rfl⟩
  rw [Block.entry, String.toList_ofList]
  exact trim_of_all_isNameChar (factors.all_isNameChar block inside)

end Keyframes

namespace Context

variable {context : Context} {declaration : Declaration}

/-- The declaration of a body of keyframes has the name of the keyframes, trimmed. -/
theorem keyframesName?_mark_append (name body : String) :
    keyframesName? ⟨keyframesMark ++ name, body⟩ =
      some (String.ofList (Text.trim name.toList)) := by
  simp [keyframesName?, String.toList_append]

/-- The names of keyframes stand without white space around them. -/
def IsNamed (context : Context) : Prop :=
  ∀ name ∈ context.keyframes.keys, Text.trim name.toList = name.toList

instance (context : Context) : Decidable context.IsNamed :=
  inferInstanceAs (Decidable (∀ name ∈ context.keyframes.keys, _))

/-- The declarations for the bodies of keyframes give every name its body. -/
theorem get?_bodies (named : context.IsNamed) (unmarked : keyframesName? declaration = none)
    (name : String) :
    (bodies (context.keyframeDeclarations ++ [declaration])).get? name =
      context.keyframes.get? name := by
  have own : (context.keyframeDeclarations ++ [declaration]).filterMap (fun other =>
      (keyframesName? other).map fun called => (called, other.value)) =
        context.keyframes.entries := by
    rw [List.filterMap_append, List.filterMap_cons_none (by rw [unmarked]; rfl), List.filterMap_nil,
      List.append_nil, keyframeDeclarations, List.filterMap_map]
    -- The mark is dropped and the name is trimmed, which leaves it.
    refine (List.filterMap_congr fun entry member => ?_).trans List.filterMap_some
    have same := named entry.1 (List.mem_map_of_mem member)
    rw [Function.comp_apply, keyframesName?_mark_append, same, String.ofList_toList]
    rfl
  rw [bodies, own, Table.ofList_entries]

/-- An animation is translated with the frames of the keyframes, also where there are none. -/
theorem lower_of_animated (named : context.IsNamed)
    (animated : declaration.property ∈ ["animation", "animation-name"]) :
    context.lower declaration =
      (translateOne (framesOf context.keyframes) declaration).map Table.empty.merge := by
  have sideless : declaration.property ∉ borderShorthands :=
    (by decide : ∀ property ∈ ["animation", "animation-name"], property ∉ borderShorthands) _
      animated
  have unmarked : keyframesName? declaration = none := by
    rw [← Option.not_isSome_iff_eq_none, keyframesName?_isSome]
    exact (by decide : ∀ property ∈ ["animation", "animation-name"],
      ¬ keyframesMark.toList.isPrefixOf property.toList = true) _ animated
  cases filled : context.keyframes.isEmpty with
  | true =>
      have kind : DeclarationKind.of context.keyframes declaration.property = .plain := by
        simp [DeclarationKind.of, sideless, filled]
      have empty : context.keyframes = .empty := by
        rw [Table.eq_empty_iff, Table.keys, List.map_eq_nil_iff]
        exact List.isEmpty_iff.mp filled
      have frameless : framesOf (bodies [declaration]) = framesOf context.keyframes := by
        rw [empty]
        exact funext (framesOf_bodies_singleton unmarked)
      have alone := translateDeclarations_append_singleton (List.forall_mem_nil _) unmarked
      rw [List.nil_append, frameless] at alone
      rw [lower, kind]
      exact alone
  | false =>
      have kind : DeclarationKind.of context.keyframes declaration.property = .animation := by
        unfold DeclarationKind.of
        rw [if_neg (by rwa [List.contains_iff_mem]), if_pos]
        rw [filled, List.contains_iff_mem.mpr animated]
        rfl
      have bound : framesOf (bodies (context.keyframeDeclarations ++ [declaration])) =
          framesOf context.keyframes :=
        funext fun name => by rw [framesOf, framesOf, get?_bodies named unmarked]
      rw [lower, kind]
      dsimp only
      rw [translateDeclarations_append_singleton keyframesName?_keyframeDeclarations unmarked, bound]

/-- An animation name that refers to keyframes is bound to the frames of their body. -/
theorem stylesOf_animationName {reference inPixels name body : String} (named : context.IsNamed)
    (held : context.keyframes.get? name = some body)
    (converted : Rem.toPixels context.remSize reference = .ok inPixels)
    (refers : items inPixels = [name]) :
    context.stylesOf ⟨"animation-name", reference⟩ =
      (readFrames body).map fun frames => .ofList [("animationName", .ofFrames frames)] := by
  have bound : framesOf context.keyframes name = (readFrames body).map some := by
    rw [framesOf, held]
  have lowered : context.lower ⟨"animation-name", inPixels⟩ =
      (readFrames body).map fun frames => .ofList [("animationName", .ofFrames frames)] := by
    rw [lower_of_animated named (by simp), translateOne, Animation.animationName, items_stripped,
      refers, List.mapM_cons, Animation.bind, bound]
    cases readFrames body <;> rfl
  rw [stylesOf, convert, converted]
  exact lowered

/-- A rule whose property is no border shorthand and no animation has the styles of the declaration
with its lengths in pixels. -/
theorem exists_of_stylesOf {property value : String} {styles : Styles}
    (given : context.stylesOf ⟨property, value⟩ = .ok styles)
    (plain : property ∉ borderShorthands ++ ["animation", "animation-name"]) :
    ∃ inPixels, Rem.toPixels context.remSize value = .ok inPixels ∧
      translateDeclarations [⟨property, inPixels⟩] = .ok styles := by
  rcases stylesOf_eq_ok_iff.mp given with ⟨declaration, converted, -, lowered⟩
  unfold convert at converted
  split at converted
  · rename_i inPixels found
    cases converted
    rw [lower_of_plain context plain] at lowered
    exact ⟨inPixels, found, lowered⟩
  · cases converted

end Context

/-- An animation name that refers to a frame with one declaration is bound to what this declaration
is translated to. -/
theorem Compilation.stylesOf_frame {options : Options} {source name reference inPixels : String}
    {declaration : Declaration} (asked : options.keyframes = true)
    (extracted : (cutKeyframes source).table.get? name = some (declaration.ruleText "from"))
    (parsed : Stylesheet.parse (declaration.ruleText ".a") = .ok [.style [".a"] [declaration]])
    (plain : declaration.property ∉ ["animation", "animation-name"])
    (converted : Rem.toPixels options.remSize reference = .ok inPixels)
    (refers : items inPixels = [name]) :
    (contextOf options (cutOf options source)).stylesOf ⟨"animation-name", reference⟩ =
      (translateDeclarations [declaration]).map fun written =>
        .ofList [("animationName", .ofFrames (.ofList [("from", written)]))] := by
  have extract : (contextOf options (cutOf options source)).keyframes =
      (cutKeyframes source).table := congrArg KeyframeCut.table (if_pos asked)
  have named : (contextOf options (cutOf options source)).IsNamed := by
    intro other member
    rw [extract] at member
    exact Keyframes.trim_of_mem_cutKeyframes member
  rw [Context.stylesOf_animationName named (extract ▸ extracted) converted refers,
    readFrames_ruleText parsed plain]
  cases translateDeclarations [declaration] <;> rfl

/-- Only the value of a declaration itself decides whether it refers to the viewport. -/
theorem Context.seesViewport_of_toPixels {context : Context} {property value inPixels : String}
    (converted : Rem.toPixels context.remSize value = .ok inPixels) :
    context.seesViewport ⟨property, value⟩ = Measure.isViewportLength inPixels := by
  rw [seesViewport, convert, converted]

/-- Frames are translated as they are written.  An animation name that refers to keyframes with one
declaration binds what this declaration is translated to, and notes a viewport length of its own
value only.  A class with the same declaration has the same styles if the value has no length in
root font sizes, and only then if the property has no rule of its own. -/
theorem Output.declare_frame {options : Options} {source name reference inPixels : String}
    {declaration : Declaration} {classes : Context} {own : Entry}
    (asked : options.keyframes = true)
    (extracted : (cutKeyframes source).table.get? name = some (declaration.ruleText "from"))
    (parsed : Stylesheet.parse (declaration.ruleText ".a") = .ok [.style [".a"] [declaration]])
    (plain : declaration.property ∉ borderShorthands ++ ["animation", "animation-name"])
    (accepted : (Session.addDeclarations classes own [declaration] {}).error = none)
    (converted : Rem.toPixels options.remSize reference = .ok inPixels)
    (refers : items inPixels = [name]) (entry : Entry) (output : Output) :
    let styles := (Session.addDeclarations classes own [declaration] {}).stylesOf own
    let context := Compilation.contextOf options (Compilation.cutOf options source)
    let noted : Output :=
      { output with usesViewport := output.usesViewport || Measure.isViewportLength inPixels }
    let lengths := Rem.lengths false declaration.value.toList
    output.declare context entry ⟨"animation-name", reference⟩ =
        (match translateDeclarations [declaration] with
        | .ok written => (noted.alter entry (·.insert "animationName"
            (.ofFrames (.ofList [("from", written)]))), none)
        | .error cause => (noted, some cause)) ∧
      (lengths = [] → translateDeclarations [declaration] = .ok styles) ∧
      (declaration.property ∉ ruledProperties →
        translateDeclarations [declaration] = .ok styles → lengths = []) := by
  intro styles context noted lengths
  have unmarked := Declaration.keyframesName?_of_parse parsed
  have animated : declaration.property ∉ ["animation", "animation-name"] := fun member =>
    plain (List.mem_append_right _ member)
  have bound := Compilation.stylesOf_frame asked extracted parsed animated converted refers
  have seen : output.noteViewport context ⟨"animation-name", reference⟩ = noted := by
    rw [Output.noteViewport, Context.seesViewport_of_toPixels converted]
  have blank : (({} : Output).styles? own).getD .empty = .empty := by cases own <;> rfl
  have ruled : classes.stylesOf declaration = .ok styles :=
    classes.extend_singleton_eq_ok_iff.mp
      ((Session.addDeclarations_eq_ok_iff blank).mpr ⟨accepted, rfl⟩)
  rcases Context.exists_of_stylesOf ruled plain with ⟨lowered, inRule, translated⟩
  refine ⟨?_, fun bare => ?_, fun single unconverted => ?_⟩
  · cases written : translateDeclarations [declaration] with
    | error cause =>
        rw [written] at bound
        rw [Output.declare_fails bound, seen]
    | ok frame =>
        rw [written] at bound
        rw [Output.declare_ok bound, seen]
        rfl
  · rw [Rem.toPixels_of_lengths_eq_nil _ bare] at inRule
    cases inRule
    exact translated
  · refine (translateDeclarations_toPixels_iff unmarked ?_ inRule translated).mp unconverted
    rw [List.mem_append, not_or]
    exact ⟨single, animated⟩

/-- A length in root font sizes, which a rule has in pixels and a frame does not take at all. -/
theorem not_framed_of_remLeft :
    let left : Declaration := ⟨"left", "1rem"⟩
    let options : Options := { keyframes := true }
    let ruled := Session.addDeclarations ⟨.empty, options.remSize⟩ (.top "a") [left] {}
    Stylesheet.parse (left.ruleText ".a") = .ok [.style [".a"] [left]] ∧
      ruled.error = none ∧ ruled.stylesOf (.top "a") = .ofList [("left", .integer 16)] ∧
      compile options
          ("@keyframes k \x7b " ++ left.ruleText "from" ++ " \x7d .a \x7b animation-name: k \x7d") =
        .error (.inexpressible "left" "1rem") := by
  refine ⟨ok_of_toOption ?_, ?_, ?_, ?_⟩
  all_goals decide +kernel

/-- A viewport length is noted in a rule, and not in a frame, which has the same styles. -/
theorem declare_frame_of_viewportWidth :
    let width : Declaration := ⟨"width", "50vw"⟩
    let options : Options := { keyframes := true, remSize := .ok (.ofInt 10) }
    let source := "@keyframes grow \x7b " ++ width.ruleText "from" ++ " \x7d"
    let context := Compilation.contextOf options (Compilation.cutOf options source)
    let ruled := Session.addDeclarations ⟨.empty, options.remSize⟩ (.top "a") [width] {}
    Stylesheet.parse (width.ruleText ".a") = .ok [.style [".a"] [width]] ∧
      ruled.error = none ∧ ruled.output.usesViewport = true ∧
      ({} : Output).declare context (.top "b") ⟨"animation-name", "grow"⟩ =
        (({} : Output).alter (.top "b") (·.insert "animationName"
          (.ofFrames (.ofList [("from", ruled.stylesOf (.top "a"))]))), none) := by
  intro width options source context ruled
  have extracted : (cutKeyframes source).table.get? "grow" = some (width.ruleText "from") := by
    decide +kernel
  have parsed : Stylesheet.parse (width.ruleText ".a") = .ok [.style [".a"] [width]] :=
    ok_of_toOption (by decide +kernel)
  have accepted : ruled.error = none := by decide +kernel
  have converted : Rem.toPixels options.remSize "grow" = .ok "grow" := by decide +kernel
  obtain ⟨bound, same, -⟩ := Output.declare_frame rfl extracted parsed (by decide) accepted
    converted (by decide +kernel) (.top "b") {}
  rw [same (by decide +kernel)] at bound
  exact ⟨parsed, accepted, by decide +kernel, bound⟩

end StyleObjects
