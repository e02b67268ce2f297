import StyleObjects.Proofs.Compile.Run
import StyleObjects.Proofs.Lists
import StyleObjects.Proofs.Style.Translated
import StyleObjects.Proofs.Table

/-!
# The keys that a declaration sets

The keys in the styles of a declaration are known from its property.  There are two exceptions.  An
animation sets the keys of the parts that its words give, and four equal sides of a border are set
under one key, not under four.
-/

namespace StyleObjects

/-! ## Shorthands -/

section Shorthands

variable {value : String} {styles : Styles}

namespace Box

theorem length_of_spread? {given spread : List String} (found : spread? given = some spread) :
    spread.length = 4 := by
  unfold spread? at found
  split at found <;> cases found <;> rfl

/-- A box that has as many values as places sets the keys of all its places. -/
theorem keys_ofList_zip {keys : List String} {values : List Value} (apart : keys.eraseDups = keys)
    (fitting : values.length = keys.length) : (Table.ofList (keys.zip values)).keys = keys := by
  rw [Table.keys_ofList, List.map_fst_zip ((Nat.le_of_eq fitting.symm)), apart]

variable {keys : List String} (apart : keys.eraseDups = keys) (four : keys.length = 4)

include apart four

theorem keys_lengths? (found : lengths? keys value = some styles) : styles.keys = keys := by
  simp only [lengths?, Option.bind_eq_bind, Option.bind_eq_some_iff, Option.pure_def,
    Option.some.injEq] at found
  rcases found with ⟨spread, given, scalars, read, rfl⟩
  apply keys_ofList_zip apart
  rw [List.length_map, ← (Lists.mapM_eq_some_iff.mp read).length_eq, length_of_spread? given,
    four]

theorem keys_texts? (found : texts? keys value = some styles) : styles.keys = keys := by
  rcases Option.map_eq_some_iff.mp found with ⟨spread, given, rfl⟩
  apply keys_ofList_zip apart
  rw [List.length_map, length_of_spread? given, four]

end Box

theorem Border.keys_border? (found : border? value = some styles) :
    styles.keys = ["borderWidth", "borderColor", "borderStyle"] := by
  unfold border? at found
  split at found
  · cases found
    rfl
  · rcases Option.map_eq_some_iff.mp found with ⟨parts, -, rfl⟩
    exact Table.keys_ofList _

theorem Border.keys_borderStyle? (found : borderStyle? value = some styles) :
    styles.keys = ["borderStyle"] := by
  unfold borderStyle? at found
  split at found
  · split at found <;> cases found
    exact Table.keys_ofList _
  · cases found

namespace Flex

/-- The keys of growth, shrinkage and basis. -/
def keys : List String := ["flexGrow", "flexShrink", "flexBasis"]

theorem keys_styles (grow shrink basis : Scalar) : (Flex.styles grow shrink basis).keys = keys :=
  Table.keys_ofList _

theorem keys_ofWords? {numbers others : List String}
    (found : ofWords? numbers others = some styles) :
    styles.keys = keys := by
  unfold ofWords? at found
  split at found
  · cases found
    exact keys_styles _ _ _
  · cases found
    exact keys_styles _ _ _
  · cases found
    exact keys_styles _ _ _
  · rcases Option.map_eq_some_iff.mp found with ⟨basis, -, rfl⟩
    exact keys_styles _ _ _
  · rcases Option.map_eq_some_iff.mp found with ⟨basis, -, rfl⟩
    exact keys_styles _ _ _
  · rcases Option.map_eq_some_iff.mp found with ⟨basis, -, rfl⟩
    exact keys_styles _ _ _
  · rcases Option.map_eq_some_iff.mp found with ⟨basis, -, rfl⟩
    exact keys_styles _ _ _
  · cases found

theorem keys_flex? (found : flex? value = some styles) : styles.keys = keys := by
  unfold flex? at found
  split at found
  · cases found
    exact keys_styles _ _ _
  · split at found
    · cases found
      exact keys_styles _ _ _
    · exact keys_ofWords? found

theorem keys_flow? (found : flow? value = some styles) :
    styles.keys = ["flexDirection", "flexWrap"] := by
  rcases Option.map_eq_some_iff.mp found with ⟨flow, -, rfl⟩
  exact Table.keys_ofList _

theorem keys_placeContent? (found : placeContent? value = some styles) :
    styles.keys = ["alignContent", "justifyContent"] := by
  unfold placeContent? at found
  dsimp only at found
  split at found <;> cases found <;> exact Table.keys_ofList _

end Flex

theorem Decoration.keys_decoration? (found : decoration? value = some styles) :
    styles.keys = ["textDecorationLine", "textDecorationStyle", "textDecorationColor"] := by
  rcases Option.bind_eq_some_iff.mp found with ⟨parts, -, chosen⟩
  split at chosen <;> cases chosen
  exact Table.keys_ofList _

theorem Shadow.keys_box? (found : box? value = some styles) :
    styles.keys = ["shadowOffset", "shadowRadius", "shadowColor", "shadowOpacity"] := by
  rcases Option.map_eq_some_iff.mp found with ⟨shadow, -, rfl⟩
  exact Table.keys_ofList _

theorem Shadow.keys_text? (found : text? value = some styles) :
    styles.keys = ["textShadowOffset", "textShadowRadius", "textShadowColor"] := by
  rcases Option.map_eq_some_iff.mp found with ⟨shadow, -, rfl⟩
  exact Table.keys_ofList _

namespace Single

theorem keys_singleton (key : String) (own : Value) : (Table.ofList [(key, own)]).keys = [key] :=
  Table.keys_ofList _

theorem keys_fontFamily? (found : fontFamily? value = some styles) :
    styles.keys = ["fontFamily"] := by
  rcases Option.map_eq_some_iff.mp found with ⟨family, -, rfl⟩
  exact keys_singleton _ _

theorem keys_aspectRatio? (found : aspectRatio? value = some styles) :
    styles.keys = ["aspectRatio"] := by
  unfold aspectRatio? at found
  split at found
  · cases found
    exact keys_singleton _ _
  · simp only [Option.bind_eq_bind, Option.bind_eq_some_iff] at found
    rcases found with ⟨width, -, height, -, chosen⟩
    split at chosen <;> cases chosen
    exact keys_singleton _ _
  · cases found

theorem keys_background? (found : background? value = some styles) :
    styles.keys = ["backgroundColor"] := by
  unfold background? at found
  split at found <;> cases found
  exact keys_singleton _ _

theorem keys_plain? {property : String} (found : plain? property value = some styles) :
    styles.keys = [styleKey property] := by
  rcases Option.map_eq_some_iff.mp found with ⟨scalar, -, rfl⟩
  exact keys_singleton _ _

end Single

theorem Transform.keys_transform? (found : transform? value = some styles) :
    styles.keys = ["transform"] := by
  unfold transform? at found
  split at found
  · cases found
    exact Single.keys_singleton _ _
  · rcases Option.bind_eq_some_iff.mp found with ⟨entries, -, chosen⟩
    split at chosen <;> cases chosen
    exact Single.keys_singleton _ _

end Shorthands

/-- The styles of a whole `animation-name` have one key. -/
theorem Animation.keys_animationName {ε : Type} {rejected : ε}
    {frames : String → Except ε (Option Frames)} {value : String} {styles : Styles}
    (named : animationName rejected frames value = .ok styles) :
    styles.keys = ["animationName"] := by
  unfold animationName at named
  cases bound : (items value).mapM (bind frames) with
  | error cause => simp [bound, Bind.bind, Except.bind] at named
  | ok names =>
      simp only [bound, Bind.bind, Except.bind] at named
      split at named <;> cases named <;> exact Single.keys_singleton _ _

namespace Translation

/-- Properties with a rule of their own. -/
def ruledProperties : List String := [
  "margin", "padding", "border", "border-width", "border-color", "border-radius", "border-style",
  "flex", "flex-flow", "place-content", "text-decoration", "box-shadow", "text-shadow",
  "font-family", "font-weight", "aspect-ratio", "background", "transform"]

theorem expand?_of_not_mem_ruledProperties {property : String} (plain : property ∉ ruledProperties)
    (value : String) : expand? property value = Single.plain? property value := by
  unfold expand?
  split <;> first | exact absurd (by decide) plain | rfl

/-- The keys that a declaration of a property sets.  Those of an animation are not told by its
property, nor those of a border whose sides may fold. -/
def keysOf (property : String) : List String :=
  match property with
  | "margin" => Box.keys "margin" "" Box.sides
  | "padding" => Box.keys "padding" "" Box.sides
  | "border" => ["borderWidth", "borderColor", "borderStyle"]
  | "border-width" => Box.keys "border" "Width" Box.sides
  | "border-color" => Box.keys "border" "Color" Box.sides
  | "border-radius" => Box.keys "border" "Radius" Box.corners
  | "flex" => Flex.keys
  | "flex-flow" => ["flexDirection", "flexWrap"]
  | "place-content" => ["alignContent", "justifyContent"]
  | "text-decoration" => ["textDecorationLine", "textDecorationStyle", "textDecorationColor"]
  | "box-shadow" => ["shadowOffset", "shadowRadius", "shadowColor", "shadowOpacity"]
  | "text-shadow" => ["textShadowOffset", "textShadowRadius", "textShadowColor"]
  | "background" => ["backgroundColor"]
  | property => [styleKey property]

theorem nodup_keysOf (property : String) : (keysOf property).Nodup := by
  unfold keysOf
  split <;> first | decide | exact List.pairwise_singleton _ _

theorem keys_expand? {property value : String} {styles : Styles}
    (found : expand? property value = some styles) : styles.keys = keysOf property := by
  unfold expand? at found
  split at found
  · exact Box.keys_lengths? rfl rfl found
  · exact Box.keys_lengths? rfl rfl found
  · exact Border.keys_border? found
  · exact Box.keys_lengths? rfl rfl found
  · exact Box.keys_texts? rfl rfl found
  · exact Box.keys_lengths? rfl rfl (Option.ite_none_left_eq_some.mp found).2
  · exact Border.keys_borderStyle? found
  · exact Flex.keys_flex? found
  · exact Flex.keys_flow? found
  · exact Flex.keys_placeContent? found
  · exact Decoration.keys_decoration? found
  · exact Shadow.keys_box? found
  · exact Shadow.keys_text? found
  · exact Single.keys_fontFamily? found
  · cases found
    exact Single.keys_singleton _ _
  · exact Single.keys_aspectRatio? found
  · exact Single.keys_background? found
  · exact Transform.keys_transform? found
  · rw [Single.keys_plain? found]
    unfold keysOf
    split <;> first | rfl | contradiction

/-- Any way of looking up frames gives the same keys, but for an animation. -/
theorem keys_translateOne {frames : FrameLookup} {declaration : Declaration} {styles : Styles}
    (translated : translateOne frames declaration = .ok styles)
    (plain : declaration.property ≠ "animation") : styles.keys = keysOf declaration.property := by
  unfold translateOne at translated
  dsimp only at translated
  split at translated
  · rename_i named
    exact absurd named plain
  · rename_i named
    rw [named]
    exact Animation.keys_animationName translated
  · cases found : expand? declaration.property (Text.stripped declaration.value) with
    | none => simp [found] at translated
    | some expanded =>
        simp only [found, Except.ok.injEq] at translated
        rw [← translated]
        exact keys_expand? found

end Translation

/-! ## Declarations of a stylesheet -/

open Translation (keyframesName? framesOf bodies translateOne)

variable {framing : List Declaration} {declaration : Declaration} {styles : Styles}

/-- Bodies of keyframes are no declarations of styles. -/
theorem filter_eq_nil_of_silent
    (silent : ∀ other ∈ framing, (keyframesName? other).isSome = true) :
    framing.filter (fun other => (keyframesName? other).isNone) = [] := by
  rw [List.filter_eq_nil_iff]
  intro other member
  simp [Option.isSome_iff_ne_none.mp (silent other member)]

/-- A declaration after bodies of keyframes is translated with the frames of these. -/
theorem translateDeclarations_append_singleton
    (silent : ∀ other ∈ framing, (keyframesName? other).isSome = true)
    (unmarked : keyframesName? declaration = none) :
    translateDeclarations (framing ++ [declaration]) =
      (translateOne (framesOf (bodies (framing ++ [declaration]))) declaration).map
        Table.empty.merge := by
  rw [translateDeclarations, List.filter_append, filter_eq_nil_of_silent silent, List.nil_append,
    List.filter_cons_of_pos (by simp [unmarked]), List.filter_nil, Translation.translateAll,
    List.foldlM_cons]
  cases translateOne (framesOf (bodies (framing ++ [declaration]))) declaration with
  | error cause => rfl
  | ok own => rfl

/-- The keys of a declaration after the bodies of its keyframes, if there are any.  A declaration
that gives a body itself sets none. -/
theorem keys_translateDeclarations
    (silent : ∀ other ∈ framing, (keyframesName? other).isSome = true)
    (translated : translateDeclarations (framing ++ [declaration]) = .ok styles)
    (plain : declaration.property ≠ "animation") :
    styles.keys = if (keyframesName? declaration).isSome then []
      else Translation.keysOf declaration.property := by
  cases marked : keyframesName? declaration with
  | some name =>
      have all : ∀ other ∈ framing ++ [declaration], (keyframesName? other).isSome = true := by
        intro other member
        rcases List.mem_append.mp member with inside | own
        · exact silent other inside
        · rw [List.mem_singleton.mp own, marked]
          rfl
      rw [translateDeclarations, filter_eq_nil_of_silent all] at translated
      cases translated
      rfl
  | none =>
      rw [translateDeclarations_append_singleton silent marked] at translated
      cases own : translateOne (framesOf (bodies (framing ++ [declaration]))) declaration with
      | error cause => simp [own, Except.map] at translated
      | ok added =>
          simp only [own, Except.map, Except.ok.injEq] at translated
          have keys := Translation.keys_translateOne own plain
          rw [Table.keys] at keys
          rw [← translated, Table.merge, Table.keys_insertAll, keys]
          exact Table.appendKeys_of_nodup (Translation.nodup_keysOf _)

/-- A declaration that is neither keyframes nor an animation is expanded, or refused with its value
trimmed. -/
theorem translateDeclarations_singleton (unmarked : keyframesName? declaration = none)
    (plain : declaration.property ≠ "animation" ∧ declaration.property ≠ "animation-name") :
    translateDeclarations [declaration] =
      match Translation.expand? declaration.property (Text.stripped declaration.value) with
      | some styles => .ok styles
      | none =>
        .error (.inexpressible declaration.property (Text.stripped declaration.value)) := by
  have alone := translateDeclarations_append_singleton (List.forall_mem_nil _) unmarked
  rw [List.nil_append] at alone
  rw [alone]
  unfold translateOne
  dsimp only
  split
  · exact absurd ‹_› plain.1
  · exact absurd ‹_› plain.2
  · cases found : Translation.expand? declaration.property (Text.stripped declaration.value) with
    | none => rfl
    | some styles =>
        simp only [Except.map, Table.empty_merge]

namespace Context

theorem keys_foldSides (property : String) (styles : Styles) :
    (foldSides property styles).keys = [styleKey property] ∨
      foldSides property styles = styles := by
  unfold foldSides
  split
  · exact .inr rfl
  · split
    · exact .inl (Single.keys_singleton _ _)
    · exact .inr rfl

/-- The keys that a declaration of a property sets in a stylesheet, unless it is an animation or its
sides fold. -/
def keysOf (property : String) : List String :=
  if Translation.keyframesMark.toList.isPrefixOf property.toList then []
  else Translation.keysOf property

theorem keyframesName?_isSome (declaration : Declaration) :
    (Translation.keyframesName? declaration).isSome =
      Translation.keyframesMark.toList.isPrefixOf declaration.property.toList := by
  rw [Translation.keyframesName?]
  split
  · rename_i marked
    exact marked.symm
  · rename_i unmarked
    exact (Bool.eq_false_iff.mpr unmarked).symm

variable {context : Context}

/-- A property that is neither an animation nor has sides that fold is translated alone. -/
theorem lower_of_plain (context : Context)
    (plain : declaration.property ∉ borderShorthands ++ ["animation", "animation-name"]) :
    context.lower declaration = translateDeclarations [declaration] := by
  have kind : DeclarationKind.of context.keyframes declaration.property = .plain := by
    rw [List.mem_append, not_or] at plain
    simp only [DeclarationKind.of, List.contains_iff_mem, plain, ↓reduceIte, Bool.and_eq_true,
      false_and]
  rw [lower, kind]

theorem keys_lower (lowered : context.lower declaration = .ok styles)
    (plain : declaration.property ≠ "animation") :
    styles.keys = keysOf declaration.property ∨
      declaration.property ∈ borderShorthands ∧ styles.keys = [styleKey declaration.property] := by
  have own := keyframesName?_isSome declaration
  unfold lower at lowered
  split at lowered
  · rename_i kind
    cases translated : translateDeclarations [declaration] with
    | error cause => simp [translated, Except.map] at lowered
    | ok sides =>
        simp only [translated, Except.map, Except.ok.injEq] at lowered
        have keys := keys_translateDeclarations (List.forall_mem_nil _) translated plain
        rw [own] at keys
        rcases keys_foldSides declaration.property sides with folded | kept
        · refine .inr ⟨?_, lowered ▸ folded⟩
          unfold DeclarationKind.of at kind
          split at kind
          · rename_i listed
            exact List.contains_iff_mem.mp listed
          · split at kind <;> cases kind
        · rw [← lowered, kept]
          exact .inl keys
  · have keys := keys_translateDeclarations keyframesName?_keyframeDeclarations lowered plain
    rw [own] at keys
    exact .inl keys
  · have keys := keys_translateDeclarations (List.forall_mem_nil _) lowered plain
    rw [own] at keys
    exact .inl keys

/-- The keys that a declaration sets are those of its property, or one for all sides of a border. -/
theorem keys_stylesOf (given : context.stylesOf declaration = .ok styles)
    (plain : declaration.property ≠ "animation") :
    styles.keys = keysOf declaration.property ∨
      declaration.property ∈ borderShorthands ∧ styles.keys = [styleKey declaration.property] := by
  rcases stylesOf_eq_ok_iff.mp given with ⟨inPixels, converted, -, lowered⟩
  rw [← property_of_convert converted] at plain ⊢
  exact keys_lower lowered plain

end Context

end StyleObjects
