import StyleObjects.Proofs.Compile.LineHeight

/-!
# The sides of a border

One to four values are laid out to the four sides or corners of a box, and four equal ones are
folded to one key.  Folding loses nothing: the one key, if there is one, stands for the four of the
translation, and a declaration is accepted whether its sides fold or not.
-/

namespace StyleObjects

/-! ## Laying out -/

namespace Box

/-- Up to four values at the four places of a box: a missing second or third one is the first, and a
missing fourth one is the second. -/
def layOut {α : Type} (first : α) (others : List α) : List α :=
  let second := others[0]?.getD first
  [first, second, others[1]?.getD first, others[2]?.getD second]

/-- Words can be spread if there are one to four of them. -/
theorem spread?_eq_some_iff {given spread : List String} :
    spread? given = some spread ↔
      ∃ first others, given = first :: others ∧ others.length ≤ 3 ∧
        spread = layOut first others := by
  match given with
  | [] => simp [spread?]
  | [all] => simp [spread?, layOut, eq_comm]
  | [vertical, horizontal] => simp [spread?, layOut, eq_comm]
  | [top, horizontal, bottom] => simp [spread?, layOut, eq_comm]
  | [top, right, bottom, left] => simp [spread?, layOut, eq_comm]
  | _ :: _ :: _ :: _ :: _ :: _ => simp [spread?]

/-- Properties of a border whose four sides or corners may have values of their own. -/
def sidedProperties : List String := ["border-width", "border-color", "border-radius"]

/-- The value that a word has as one side of a border. -/
def side? (property word : String) : Option Value :=
  if property = "border-color" then some (.text word)
  else (Scalar.readLength? word).map .scalar

/-- The values of words that are laid out to four keys. -/
structure LaysOut (read? : String → Option Value) (keys : List String) (value : String)
    (sides : Styles) (first : String) (others : List String) (values : List Value) : Prop where
  words : words value = first :: others
  few : others.length ≤ 3
  read : List.Forall₂ (fun word own => read? word = some own) (layOut first others) values
  entries : sides.entries = keys.zip values

variable {keys : List String} {value : String} {sides : Styles}

theorem LaysOut.keys_eq {read? : String → Option Value} {first : String} {others : List String}
    {values : List Value} (laid : LaysOut read? keys value sides first others values)
    (four : keys.length = 4) : sides.keys = keys := by
  have fitting : 4 = values.length := laid.read.length_eq
  rw [Table.keys, laid.entries, List.map_fst_zip (by omega)]

theorem entries_ofList_zip (apart : keys.Nodup) (four : keys.length = 4) {values : List Value}
    (fitting : values.length = 4) : (Table.ofList (keys.zip values)).entries = keys.zip values := by
  rw [Table.ofList_eq]
  rwa [List.map_fst_zip (by omega)]

variable (apart : keys.Nodup) (four : keys.length = 4)

include apart four

theorem laysOut_of_lengths? (found : lengths? keys value = some sides) :
    ∃ first others values,
      LaysOut (fun word => (Scalar.readLength? word).map .scalar) keys value sides first others
        values := by
  simp only [lengths?, Option.bind_eq_bind, Option.bind_eq_some_iff, Option.pure_def,
    Option.some.injEq] at found
  obtain ⟨spread, given, scalars, read, rfl⟩ := found
  have fitting := (Lists.mapM_eq_some_iff.mp read).length_eq
  rw [length_of_spread? given] at fitting
  obtain ⟨first, others, parts, few, rfl⟩ := spread?_eq_some_iff.mp given
  refine ⟨first, others, scalars.map .scalar, parts, few, ?_, ?_⟩
  · rw [List.forall₂_map_right_iff]
    refine (Lists.mapM_eq_some_iff.mp read).imp fun word scalar given => ?_
    rw [given]
    rfl
  · exact entries_ofList_zip apart four (by rw [List.length_map, ← fitting])

theorem laysOut_of_texts? (found : texts? keys value = some sides) :
    ∃ first others values,
      LaysOut (fun word => some (.text word)) keys value sides first others values := by
  obtain ⟨spread, given, rfl⟩ := Option.map_eq_some_iff.mp found
  have fitting := length_of_spread? given
  obtain ⟨first, others, parts, few, rfl⟩ := spread?_eq_some_iff.mp given
  refine ⟨first, others, (layOut first others).map .text, parts, few, ?_, ?_⟩
  · rw [List.forall₂_map_right_iff]
    exact List.forall₂_same.mpr fun word _ => rfl
  · exact entries_ofList_zip apart four (by rw [List.length_map, fitting])

omit apart four

/-- The translation of a sided property has four keys, with the values of its words. -/
theorem laysOut_of_expand? {property : String} (sided : property ∈ sidedProperties)
    (found : Translation.expand? property value = some sides) :
    ∃ first others values,
      LaysOut (side? property) (Translation.keysOf property) value sides first others values := by
  have apart := Translation.nodup_keysOf property
  simp only [sidedProperties, List.mem_cons, List.not_mem_nil, or_false] at sided
  rcases sided with rfl | rfl | rfl
  · exact laysOut_of_lengths? apart rfl found
  · exact laysOut_of_texts? apart rfl found
  · exact laysOut_of_lengths? apart rfl (Option.ite_none_left_eq_some.mp found).2

theorem mem_borderShorthands : ∀ property ∈ sidedProperties, property ∈ borderShorthands := by
  decide

theorem laysOut_of_translateDeclarations {property : String} (sided : property ∈ sidedProperties)
    (translated : translateDeclarations [⟨property, value⟩] = .ok sides) :
    ∃ first others values,
      LaysOut (side? property) (Translation.keysOf property) value sides first others values := by
  have unmarked : ∀ property ∈ sidedProperties,
      ¬Translation.keyframesMark.toList.isPrefixOf property.toList = true := by decide
  have plain : ∀ property ∈ sidedProperties,
      property ≠ "animation" ∧ property ≠ "animation-name" := by decide
  have named : Translation.keyframesName? ⟨property, value⟩ = none :=
    if_neg (unmarked property sided)
  rw [translateDeclarations_singleton named (plain property sided)] at translated
  cases found : Translation.expand? property (Text.stripped value) with
  | none => simp [found] at translated
  | some styles =>
      simp only [found, Except.ok.injEq] at translated
      obtain ⟨first, others, values, laid⟩ := laysOut_of_expand? sided (translated ▸ found)
      have given := laid.words
      rw [words_stripped] at given
      exact ⟨first, others, values, given, laid.few, laid.read, laid.entries⟩

/-! ## Folding -/

/-- The four sides for which styles stand: they have the value of the one key for all of them, if
that is there. -/
def unfoldSides (property : String) (styles : Styles) : Styles :=
  match styles.get? (styleKey property) with
  | some common => .ofList ((Translation.keysOf property).zip (List.replicate 4 common))
  | none => styles

end Box

namespace Context

theorem foldSides_of_replicate {property : String} {sides : Styles} {common : Value}
    (equal : sides.values = List.replicate 4 common) :
    foldSides property sides = .ofList [(styleKey property, common)] := by
  simp [foldSides, equal, List.replicate]

theorem foldSides_of_forall_ne {property : String} {sides : Styles} (four : sides.keys.length = 4)
    (unequal : ∀ common, sides.values ≠ List.replicate 4 common) :
    foldSides property sides = sides := by
  unfold foldSides
  split
  · rfl
  · rename_i first rest split
    refine if_neg fun same => unequal first ?_
    rw [List.eq_replicate_iff]
    refine ⟨?_, by simpa [split] using same⟩
    rw [← four, Table.values, Table.keys, List.length_map, List.length_map]

end Context

namespace Box

/-- There are four sides, of which none has the key for all of them. -/
theorem keysOf_of_sided : ∀ property ∈ sidedProperties,
    (Translation.keysOf property).length = 4 ∧ styleKey property ∉ Translation.keysOf property := by
  decide +kernel

/-- Folded sides can be unfolded again. -/
theorem unfoldSides_foldSides {property : String} (sided : property ∈ sidedProperties)
    {sides : Styles} (keys : sides.keys = Translation.keysOf property) :
    unfoldSides property (Context.foldSides property sides) = sides := by
  obtain ⟨four, apart⟩ := keysOf_of_sided property sided
  by_cases equal : ∃ common, sides.values = List.replicate 4 common
  · obtain ⟨common, values⟩ := equal
    have entries : sides.entries = (Translation.keysOf property).zip (List.replicate 4 common) :=
      List.zip_of_prod keys values
    rw [Context.foldSides_of_replicate values]
    have held : (Table.ofList [(styleKey property, common)]).get? (styleKey property) =
        some common := by
      rw [Table.get?_ofList, List.reverse_singleton, Table.lookup_singleton, if_pos rfl]
    unfold unfoldSides
    rw [held]
    dsimp only
    rw [← entries, Table.ofList_entries]
  · rw [Context.foldSides_of_forall_ne (keys ▸ four) (not_exists.mp equal)]
    unfold unfoldSides
    rw [Table.get?_eq_none_iff.mpr (keys ▸ apart)]

end Box

namespace Context

/-- A border without lengths in root font sizes is translated as it is, and folded. -/
theorem stylesOf_of_border (context : Context) {property value : String}
    (border : property ∈ borderShorthands) (bare : Rem.lengths false value.toList = []) :
    context.stylesOf ⟨property, value⟩ =
      (translateDeclarations [⟨property, value⟩]).map (foldSides property) := by
  have height : property ≠ "line-height" := by
    rintro rfl
    exact absurd border (by decide)
  have kind : DeclarationKind.of context.keyframes property = .borderShorthand := by
    rw [DeclarationKind.of, if_pos (List.contains_iff_mem.mpr border)]
  simp only [stylesOf, convert, Rem.toPixels_of_lengths_eq_nil _ bare, bind, Except.bind,
    guardLineHeight, height, decide_false, Bool.false_and, Bool.false_eq_true, if_false, lower,
    kind]

end Context

namespace Session

variable {output : Output}

/-- A width, a color or a radius of a border, without lengths in root font sizes, is accepted if and
only if it has a translation.  That has the values of its words at the four sides or corners.  The
declaration gives the one key for all of them if they are equal, and the translation otherwise.  In
either case the translation is what its styles unfold to. -/
theorem addDeclarations_sides (context : Context) (entry : Entry) {property value : String}
    (blank : (output.styles? entry).getD .empty = .empty)
    (sided : property ∈ Box.sidedProperties) (bare : Rem.lengths false value.toList = []) :
    let run := addDeclarations context entry [⟨property, value⟩] output
    (run.error = none ↔ ∃ sides, translateDeclarations [⟨property, value⟩] = .ok sides) ∧
      ∀ sides, translateDeclarations [⟨property, value⟩] = .ok sides →
        (∃ first others values, Box.LaysOut (Box.side? property) (Translation.keysOf property) value
          sides first others values) ∧
        (∀ common, sides.values = List.replicate 4 common →
          run.stylesOf entry = .ofList [(styleKey property, common)]) ∧
        ((∀ common, sides.values ≠ List.replicate 4 common) → run.stylesOf entry = sides) ∧
        Box.unfoldSides property (run.stylesOf entry) = sides := by
  intro run
  have border : property ∈ borderShorthands := Box.mem_borderShorthands property sided
  have single := addDeclarations_singleton context entry ⟨property, value⟩ blank
  rw [Context.stylesOf_of_border context border bare] at single
  cases translated : translateDeclarations [⟨property, value⟩] with
  | error cause =>
      rw [translated, Except.map, Prod.mk.injEq] at single
      have stopped : run.error ≠ none := by
        rw [single.1]
        exact Option.some_ne_none cause
      exact ⟨by simp [stopped], by simp⟩
  | ok sides =>
      rw [translated, Except.map, Prod.mk.injEq] at single
      obtain ⟨accepted, own⟩ := single
      obtain ⟨four, -⟩ := Box.keysOf_of_sided property sided
      obtain ⟨first, others, values, laid⟩ := Box.laysOut_of_translateDeclarations sided translated
      have keys := laid.keys_eq four
      refine ⟨iff_of_true accepted ⟨sides, rfl⟩, fun other same => ?_⟩
      cases same
      rw [own]
      exact ⟨⟨first, others, values, laid⟩, fun common => Context.foldSides_of_replicate,
        Context.foldSides_of_forall_ne (keys ▸ four), Box.unfoldSides_foldSides sided keys⟩

/-- Four spellings of one width fold to one key, two radii do not, and five colors are refused. -/
theorem addDeclarations_sides_of_spellings :
    let context : Context := ⟨.empty, .ok (.ofInt 10)⟩
    let entry := Entry.inMedia "@media print" "a"
    let output : Output := { classes := .ofList [("a", .ofList [("color", .text "red")])] }
    let run (property value : String) := addDeclarations context entry [⟨property, value⟩] output
    ((run "border-width" " 1px 1.0 01 +1px").error = none ∧
        (run "border-width" " 1px 1.0 01 +1px").stylesOf entry =
          .ofList [("borderWidth", .integer 1)]) ∧
      ((run "border-radius" "1px 2%").error = none ∧
        (run "border-radius" "1px 2%").stylesOf entry = .ofList [
          ("borderTopLeftRadius", .integer 1), ("borderTopRightRadius", .text "2%"),
          ("borderBottomRightRadius", .integer 1), ("borderBottomLeftRadius", .text "2%")]) ∧
      (run "border-color" "a b c d e").error ≠ none := by
  intro context entry output run
  have blank : (output.styles? entry).getD .empty = .empty := by decide +kernel
  have sides (property value : String) (sided : property ∈ Box.sidedProperties)
      (bare : Rem.lengths false value.toList = []) :=
    addDeclarations_sides context entry blank sided bare
  refine ⟨?_, ?_, ?_⟩
  · obtain ⟨accepted, given⟩ :=
      sides "border-width" " 1px 1.0 01 +1px" (by decide) (by decide +kernel)
    have translated : translateDeclarations [⟨"border-width", " 1px 1.0 01 +1px"⟩] =
        .ok (.ofList [("borderTopWidth", .integer 1), ("borderRightWidth", .integer 1),
          ("borderBottomWidth", .integer 1), ("borderLeftWidth", .integer 1)]) := by decide +kernel
    exact ⟨accepted.mpr ⟨_, translated⟩, (given _ translated).2.1 (.integer 1) rfl⟩
  · obtain ⟨accepted, given⟩ := sides "border-radius" "1px 2%" (by decide) (by decide +kernel)
    have translated : translateDeclarations [⟨"border-radius", "1px 2%"⟩] = .ok (.ofList [
          ("borderTopLeftRadius", .integer 1), ("borderTopRightRadius", .text "2%"),
          ("borderBottomRightRadius", .integer 1), ("borderBottomLeftRadius", .text "2%")]) := by
      decide +kernel
    refine ⟨accepted.mpr ⟨_, translated⟩, (given _ translated).2.2.1 fun common same => ?_⟩
    cases (List.eq_replicate_iff.mp same).2 (.integer 1) (by decide)
    exact absurd same (by decide)
  · obtain ⟨accepted, -⟩ := sides "border-color" "a b c d e" (by decide) (by decide +kernel)
    have refused : translateDeclarations [⟨"border-color", "a b c d e"⟩] =
        .error (.inexpressible "border-color" "a b c d e") := by decide +kernel
    intro free
    obtain ⟨styles, translated⟩ := accepted.mp free
    rw [refused] at translated
    cases translated

end Session

end StyleObjects
