import StyleObjects.Proofs.Lists
import StyleObjects.Proofs.Table
import StyleObjects.Style.Translation

/-!
# What the values of styles are made of

A number in the styles of a declaration has been read from a piece of the declaration's value, or is
the quotient of two such numbers; the frames of an animation have the numbers of their own
declarations.
-/

namespace StyleObjects

/-! ## Values -/

/-- Something holds of all scalars in a value. -/
inductive Value.Every (holds : Scalar → Prop) : Value → Prop where
  | scalar {scalar : Scalar} (known : holds scalar) : Value.Every holds (.scalar scalar)
  | list {items : List Value} (every : ∀ item ∈ items, Value.Every holds item) :
      Value.Every holds (.list items)
  | map {entries : List (String × Value)}
      (every : ∀ entry ∈ entries, Value.Every holds entry.2) : Value.Every holds (.map entries)

theorem Value.Every.mono {holds others : Scalar → Prop} {value : Value}
    (every : value.Every holds) (implied : ∀ scalar, holds scalar → others scalar) :
    value.Every others := by
  induction every with
  | scalar known => exact .scalar (implied _ known)
  | list _ ih => exact .list ih
  | map _ ih => exact .map ih

/-- Something holds of all scalars in styles. -/
abbrev Styles.Every (holds : Scalar → Prop) (styles : Styles) : Prop :=
  Table.Every (Value.Every holds) styles

/-- Something holds of all scalars in the styles of frames. -/
abbrev Frames.Every (holds : Scalar → Prop) (frames : Frames) : Prop :=
  Table.Every (Styles.Every holds) frames

theorem Frames.Every.ofFrames {holds : Scalar → Prop} {frames : Frames}
    (every : frames.Every holds) : (Value.ofFrames frames).Every holds := by
  refine .map (Table.every_map_iff.mpr ?_)
  intro entry member
  exact .map (every entry member)

/-! ## Pieces of values -/

/-- A word is an argument of a function of a transform. -/
inductive Transform.Argument : List Char → String → Prop where
  | here {cs name arguments rest : List Char} {word : String}
      (found : takeFunction? cs = some ((name, arguments), rest))
      (member : word ∈ items (String.ofList arguments)) : Argument cs word
  | later {cs rest : List Char} {function : List Char × List Char} {word : String}
      (found : takeFunction? cs = some (function, rest)) (argument : Argument rest word) :
      Argument cs word

/-- A piece of a value that may be read as a number: the whole value, or a word of it, of one of its
items or of the arguments of one of its functions. -/
inductive Translation.Piece (value : String) : String → Prop where
  | whole : Piece value value
  | word {word : String} (member : word ∈ words value) : Piece value word
  | spaced {word : String} (member : word ∈ words (Single.spaceSlashes value)) : Piece value word
  | item {item word : String} (listed : item ∈ items value) (member : word ∈ words item) :
      Piece value word
  | argument {word : String} (given : Transform.Argument value.toList word) : Piece value word

open Translation (Piece)

/-- A scalar in the styles of a property is a text or an integer, or has been read from a piece of
the value, or is the quotient of two numbers that have been. -/
inductive Scalar.IsOf (property value : String) : Scalar → Prop where
  | text (text : String) : IsOf property value (.text text)
  | integer (number : Int) : IsOf property value (.integer number)
  | read {word : String} (piece : Piece value word) : IsOf property value (.read word)
  | quotient {width height : String} {numerator denominator : Binary64}
      (ratio : property = "aspect-ratio")
      (parts : words (Single.spaceSlashes value) = [width, "/", height])
      (first : Single.number? width = some numerator)
      (second : Single.number? height = some denominator)
      (divisor : denominator.isZero = false) :
      IsOf property value (.real (numerator.div denominator))

/-! ## Scalars -/

/-- The value is a word, as a text or as the scalar that the word writes. -/
def Value.IsOfWord (word : String) (value : Value) : Prop :=
  value = .text word ∨ value = .scalar (.read word)

namespace Scalar

variable {property value word : String}

theorem readNumber?_eq_some {scalar : Scalar} (found : readNumber? word = some scalar) :
    scalar = read word := by
  simp only [readNumber?, Option.bind_eq_some_iff, Option.ite_none_right_eq_some,
    Option.some.injEq] at found
  rcases found with ⟨measure, written, unitless, rfl⟩
  simp [read, written, unitless]

/-- A length that is read is its word. -/
theorem isOfWord_of_readLength? {scalar : Scalar} (found : readLength? word = some scalar) :
    Value.IsOfWord word (.scalar scalar) := by
  unfold readLength? at found
  split at found
  · cases found
    exact .inr rfl
  · split at found <;> cases found
    exact .inl rfl

theorem isOf_of_readLength? (piece : Piece value word) {scalar : Scalar}
    (found : readLength? word = some scalar) : IsOf property value scalar := by
  cases isOfWord_of_readLength? found with
  | inl text =>
      cases text
      exact .text word
  | inr read =>
      cases read
      exact .read piece

theorem every_text (text : String) : (Value.text text).Every (IsOf property value) :=
  .scalar (.text text)

theorem every_integer (number : Int) : (Value.integer number).Every (IsOf property value) :=
  .scalar (.integer number)

theorem every_of_isOfWord (piece : Piece value word) {part : Value}
    (own : Value.IsOfWord word part) : part.Every (IsOf property value) := by
  cases own with
  | inl text => exact text ▸ every_text word
  | inr read => exact read ▸ .scalar (.read piece)

end Scalar

/-! ## Shorthands -/

section Shorthands

variable {property value : String} {styles : Styles}

open Scalar (IsOf)

namespace Box

theorem mem_of_spread? {given spread : List String} (found : spread? given = some spread) :
    ∀ word ∈ spread, word ∈ given := by
  unfold spread? at found
  split at found <;> cases found <;> simp

theorem every_zip {keys : List String} {values : List Value}
    (known : ∀ own ∈ values, own.Every (IsOf property value)) :
    (Table.ofList (keys.zip values)).Every (Value.Every (IsOf property value)) :=
  Table.every_ofList fun _ member => known _ (List.of_mem_zip member).2

theorem every_lengths? {keys : List String} (found : lengths? keys value = some styles) :
    styles.Every (IsOf property value) := by
  simp only [lengths?, Option.bind_eq_bind, Option.bind_eq_some_iff, Option.pure_def,
    Option.some.injEq] at found
  rcases found with ⟨spread, given, scalars, read, rfl⟩
  apply every_zip
  rw [List.forall_mem_map]
  intro scalar member
  exact .scalar (Lists.forall_of_mapM read (fun word inside scalar found =>
    Scalar.isOf_of_readLength? (.word (mem_of_spread? given word inside)) found) scalar member)

theorem every_texts? {keys : List String} (found : texts? keys value = some styles) :
    styles.Every (IsOf property value) := by
  simp only [texts?, Option.map_eq_some_iff] at found
  rcases found with ⟨spread, given, rfl⟩
  apply every_zip
  rw [List.forall_mem_map]
  exact fun word _ => Scalar.every_text word

end Box

namespace Border

theorem every_styles {parts : Parts}
    (known : ∀ width, parts.width = some width → IsOf property value width) :
    parts.styles.Every (IsOf property value) := by
  apply Table.every_ofList
  simp only [List.forall_mem_cons]
  refine ⟨.scalar ?_, Scalar.every_text _, Scalar.every_text _, List.forall_mem_nil _⟩
  cases given : parts.width with
  | none => exact .integer 1
  | some width => exact known width given

theorem every_border? (found : border? value = some styles) :
    styles.Every (IsOf property value) := by
  unfold border? at found
  split at found
  · cases found
    apply Table.every_ofList
    simp only [List.forall_mem_cons]
    exact ⟨Scalar.every_integer _, Scalar.every_text _, Scalar.every_text _, List.forall_mem_nil _⟩
  · rcases Option.map_eq_some_iff.mp found with ⟨parts, placed, rfl⟩
    apply every_styles
    refine Lists.holds_of_foldlM (fun parts => ∀ width, parts.width = some width →
      IsOf property value width) (fun width none => by cases none) placed ?_
    intro parts word member next known step width given
    unfold Parts.place? at step
    split at step
    · cases step
      cases given
      exact .read (.word member)
    · split at step
      · cases step
        exact known width given
      · split at step <;> cases step
        exact known width given

theorem every_borderStyle? (found : borderStyle? value = some styles) :
    styles.Every (IsOf property value) := by
  unfold borderStyle? at found
  split at found
  · split at found <;> cases found
    apply Table.every_ofList
    simp only [List.forall_mem_cons]
    exact ⟨Scalar.every_text _, List.forall_mem_nil _⟩
  · cases found

end Border

namespace Flex

theorem every_styles {grow shrink basis : Scalar} (first : IsOf property value grow)
    (second : IsOf property value shrink) (third : IsOf property value basis) :
    (Flex.styles grow shrink basis).Every (IsOf property value) := by
  apply Table.every_ofList
  simp only [List.forall_mem_cons]
  exact ⟨.scalar first, .scalar second, .scalar third, List.forall_mem_nil _⟩

theorem every_ofWords? {numbers others : List String}
    (first : ∀ word ∈ numbers, Piece value word) (second : ∀ word ∈ others, Piece value word)
    (found : ofWords? numbers others = some styles) : styles.Every (IsOf property value) := by
  unfold ofWords? at found
  split at found <;>
    simp only [List.forall_mem_cons, Option.map_eq_some_iff, Option.some.injEq,
      reduceCtorEq] at first second found
  · cases found
    exact every_styles (.integer 1) (.integer 1) (.integer 0)
  · cases found
    exact every_styles (.read first.1) (.integer 1) (.integer 0)
  · cases found
    exact every_styles (.read first.1) (.read first.2.1) (.integer 0)
  · rcases found with ⟨basis, read, rfl⟩
    exact every_styles (.read first.1) (.read first.2.1)
      (Scalar.isOf_of_readLength? first.2.2.1 read)
  · rcases found with ⟨basis, read, rfl⟩
    exact every_styles (.integer 1) (.integer 1) (Scalar.isOf_of_readLength? second.1 read)
  · rcases found with ⟨basis, read, rfl⟩
    exact every_styles (.read first.1) (.integer 1) (Scalar.isOf_of_readLength? second.1 read)
  · rcases found with ⟨basis, read, rfl⟩
    exact every_styles (.read first.1) (.read first.2.1)
      (Scalar.isOf_of_readLength? second.1 read)

theorem every_flex? (found : flex? value = some styles) : styles.Every (IsOf property value) := by
  unfold flex? at found
  split at found
  · cases found
    exact every_styles (.integer 0) (.integer 0) (.text "auto")
  · split at found
    · cases found
      exact every_styles (.integer 1) (.integer 1) (.text "auto")
    · exact every_ofWords? (fun word member => .word (List.mem_of_mem_filter member))
        (fun word member => .word (List.mem_of_mem_filter member)) found

theorem every_flow? (found : flow? value = some styles) : styles.Every (IsOf property value) := by
  rcases Option.map_eq_some_iff.mp found with ⟨flow, -, rfl⟩
  apply Table.every_ofList
  simp only [List.forall_mem_cons]
  exact ⟨Scalar.every_text _, Scalar.every_text _, List.forall_mem_nil _⟩

theorem every_placeContent? (found : placeContent? value = some styles) :
    styles.Every (IsOf property value) := by
  unfold placeContent? at found
  dsimp only at found
  split at found <;> cases found
  all_goals
    apply Table.every_ofList
    simp only [List.forall_mem_cons]
    exact ⟨Scalar.every_text _, Scalar.every_text _, List.forall_mem_nil _⟩

end Flex

theorem Decoration.every_decoration? (found : decoration? value = some styles) :
    styles.Every (IsOf property value) := by
  rcases Option.bind_eq_some_iff.mp found with ⟨parts, -, chosen⟩
  split at chosen <;> cases chosen
  apply Table.every_ofList
  simp only [List.forall_mem_cons]
  exact ⟨Scalar.every_text _, Scalar.every_text _, Scalar.every_text _, List.forall_mem_nil _⟩

namespace Shadow

/-- The lengths of a shadow have been read from pieces of the value. -/
structure IsOf (property value : String) (shadow : Shadow) : Prop where
  width : Scalar.IsOf property value shadow.width
  height : Scalar.IsOf property value shadow.height
  radius : Scalar.IsOf property value shadow.radius

theorem isOf_of_shadow? {parts : Parts} {shadow : Shadow}
    (known : ∀ length ∈ parts.lengths, Scalar.IsOf property value length)
    (found : parts.shadow? = some shadow) : IsOf property value shadow := by
  unfold Parts.shadow? at found
  dsimp only at found
  split at found
  · rename_i lengths
    simp only [lengths, List.forall_mem_cons] at known
    cases found
    exact ⟨known.1, known.2.1, .integer 0⟩
  · rename_i lengths
    simp only [lengths, List.forall_mem_cons] at known
    cases found
    exact ⟨known.1, known.2.1, known.2.2.1⟩
  · cases found

theorem isOf_of_read? {shadow : Shadow} (found : read? value = some shadow) :
    IsOf property value shadow := by
  unfold read? at found
  split at found
  · cases found
    exact ⟨.integer 0, .integer 0, .integer 0⟩
  · split at found
    · cases found
    · rcases Option.bind_eq_some_iff.mp found with ⟨parts, placed, shaped⟩
      refine isOf_of_shadow? ?_ shaped
      refine Lists.holds_of_foldlM (fun parts => ∀ length ∈ parts.lengths,
        Scalar.IsOf property value length) (List.forall_mem_nil _) placed ?_
      intro parts word member next known step
      unfold Parts.place? at step
      split at step
      · cases step
        rw [List.forall_mem_append]
        exact ⟨known, List.forall_mem_singleton.mpr (.read (.word member))⟩
      · split at step <;> cases step
        exact known

theorem IsOf.every_offset {shadow : Shadow} (known : IsOf property value shadow) :
    shadow.offset.Every (Scalar.IsOf property value) := by
  refine .map ?_
  simp only [List.forall_mem_cons]
  exact ⟨.scalar known.width, .scalar known.height, List.forall_mem_nil _⟩

theorem every_box? (found : box? value = some styles) :
    styles.Every (Scalar.IsOf property value) := by
  rcases Option.map_eq_some_iff.mp found with ⟨shadow, read, rfl⟩
  have known : IsOf property value shadow := isOf_of_read? read
  apply Table.every_ofList
  simp only [List.forall_mem_cons]
  exact ⟨known.every_offset, .scalar known.radius, Scalar.every_text _, Scalar.every_integer _,
    List.forall_mem_nil _⟩

theorem every_text? (found : text? value = some styles) :
    styles.Every (Scalar.IsOf property value) := by
  rcases Option.map_eq_some_iff.mp found with ⟨shadow, read, rfl⟩
  have known : IsOf property value shadow := isOf_of_read? read
  apply Table.every_ofList
  simp only [List.forall_mem_cons]
  exact ⟨known.every_offset, .scalar known.radius, Scalar.every_text _, List.forall_mem_nil _⟩

end Shadow

namespace Single

theorem every_singleton (key : String) {own : Value} (known : own.Every (IsOf property value)) :
    (Table.ofList [(key, own)]).Every (Value.Every (IsOf property value)) :=
  Table.every_ofList (List.forall_mem_singleton.mpr known)

theorem every_fontFamily? (found : fontFamily? value = some styles) :
    styles.Every (IsOf property value) := by
  rcases Option.map_eq_some_iff.mp found with ⟨family, -, rfl⟩
  exact every_singleton _ (Scalar.every_text _)

theorem every_fontWeight (value : String) : (fontWeight value).Every (IsOf property value) :=
  every_singleton _ (Scalar.every_text _)

theorem every_aspectRatio? (found : aspectRatio? value = some styles) :
    styles.Every (IsOf "aspect-ratio" value) := by
  unfold aspectRatio? at found
  split at found
  · rename_i word parts
    cases found
    exact every_singleton _ (.scalar (.read (.spaced (parts ▸ List.mem_cons_self))))
  · rename_i width height parts
    simp only [Option.bind_eq_bind, Option.bind_eq_some_iff] at found
    rcases found with ⟨numerator, first, denominator, second, divided⟩
    split at divided
    · cases divided
    · rename_i divisor
      cases divided
      exact every_singleton _
        (.scalar (.quotient rfl parts first second (Bool.eq_false_iff.mpr divisor)))
  · cases found

theorem every_background? (found : background? value = some styles) :
    styles.Every (IsOf property value) := by
  unfold background? at found
  split at found <;> cases found
  exact every_singleton _ (Scalar.every_text _)

theorem isOf_of_ofValue? {scalar : Scalar} (found : Scalar.ofValue? property value = some scalar) :
    IsOf property value scalar := by
  unfold Scalar.ofValue? at found
  split at found
  · cases found
    exact .text _
  · split at found
    · exact Scalar.isOf_of_readLength? .whole found
    · cases found
      exact .read .whole

theorem every_plain? (found : plain? property value = some styles) :
    styles.Every (IsOf property value) := by
  rcases Option.map_eq_some_iff.mp found with ⟨scalar, read, rfl⟩
  exact every_singleton _ (.scalar (isOf_of_ofValue? read))

end Single

namespace Transform

/-- An argument that is read comes from the value. -/
def Reads (property value : String) (read? : String → Option Value) : Prop :=
  ∀ word own, IsOf property value (.read word) → read? word = some own →
    own.Every (IsOf property value)

theorem reads_angle? : Reads property value angle? := by
  intro word own _ found
  unfold angle? at found
  split at found
  · cases found
    exact Scalar.every_text _
  · split at found <;> cases found
    exact Scalar.every_text _

theorem reads_length? : Reads property value length? := by
  intro word own known found
  unfold length? at found
  split at found <;> cases found
  exact .scalar known

theorem reads_number? : Reads property value number? := by
  intro word own known found
  rcases Option.map_eq_some_iff.mp found with ⟨scalar, read, rfl⟩
  cases Scalar.readNumber?_eq_some read
  exact .scalar known

theorem reads_argument? {function : String} {read? : String → Option Value}
    (found : argument? function = some read?) : Reads property value read? := by
  unfold argument? at found
  split at found
  · cases found
    exact reads_angle?
  · split at found
    · cases found
      exact reads_length?
    · split at found <;> cases found
      exact reads_number?

theorem every_pair? {read? : String → Option Value} (reads : Reads property value read?)
    {first second x y : String} {entries : List (String × Value)}
    (found : pair? read? first second x y = some entries) (one : IsOf property value (.read x))
    (other : IsOf property value (.read y)) :
    ∀ entry ∈ entries, entry.2.Every (IsOf property value) := by
  simp only [pair?, Option.bind_eq_bind, Option.bind_eq_some_iff, Option.pure_def,
    Option.some.injEq] at found
  rcases found with ⟨left, leftRead, right, rightRead, rfl⟩
  simp only [List.forall_mem_cons]
  exact ⟨reads x left one leftRead, reads y right other rightRead, List.forall_mem_nil _⟩

/-- The missing argument of a function of two axes is zero. -/
theorem isOf_zero : IsOf property value (.read "0") := by
  have zero : Scalar.read "0" = .integer 0 := by decide
  rw [zero]
  exact .integer 0

theorem every_apply {function : String} {arguments : List String}
    {entries : List (String × Value)}
    (known : ∀ word ∈ arguments, IsOf property value (.read word))
    (found : apply function arguments = some entries) :
    ∀ entry ∈ entries, entry.2.Every (IsOf property value) := by
  unfold apply at found
  split at found
  · rw [List.forall_mem_singleton] at known
    exact every_pair? reads_length? found known isOf_zero
  · simp only [List.forall_mem_cons] at known
    exact every_pair? reads_length? found known.1 known.2.1
  · simp only [List.forall_mem_cons] at known
    exact every_pair? reads_number? found known.1 known.2.1
  · rw [List.forall_mem_singleton] at known
    exact every_pair? reads_angle? found known isOf_zero
  · simp only [List.forall_mem_cons] at known
    exact every_pair? reads_angle? found known.1 known.2.1
  · rcases Option.map_eq_some_iff.mp found with ⟨numbers, read, rfl⟩
    refine List.forall_mem_singleton.mpr (.list ?_)
    exact Lists.forall_of_mapM read fun word member own given =>
      reads_number? word own (known word member) given
  · simp only [Option.bind_eq_bind, Option.bind_eq_some_iff, Option.pure_def,
      Option.some.injEq] at found
    rcases found with ⟨read?, chosen, own, given, rfl⟩
    rw [List.forall_mem_singleton] at known ⊢
    exact reads_argument? chosen _ own known given
  · cases found

theorem every_read? {cs : List Char} {entries : List (String × Value)}
    (given : ∀ word, Argument cs word → IsOf property value (.read word))
    (found : read? cs = some entries) : ∀ entry ∈ entries, entry.2.Every (IsOf property value) := by
  fun_induction read? cs generalizing entries with
  | case1 =>
      cases found
      exact List.forall_mem_nil _
  | case2 c cs name arguments rest taken ih =>
      simp only [Option.bind_eq_bind, Option.bind_eq_some_iff, Option.pure_def,
        Option.some.injEq] at found
      rcases found with ⟨first, applied, others, more, rfl⟩
      rw [List.forall_mem_append]
      exact ⟨every_apply (fun word member => given word (.here taken member)) applied,
        ih (fun word later => given word (.later taken later)) more⟩
  | case3 => cases found

theorem every_transform? (found : transform? value = some styles) :
    styles.Every (IsOf property value) := by
  unfold transform? at found
  split at found
  · cases found
    exact Single.every_singleton _ (.list (List.forall_mem_nil _))
  · rcases Option.bind_eq_some_iff.mp found with ⟨entries, read, chosen⟩
    split at chosen <;> cases chosen
    refine Single.every_singleton _ (.list ?_)
    rw [List.forall_mem_map]
    intro entry member
    exact .map (List.forall_mem_singleton.mpr
      (every_read? (fun word given => .read (.argument given)) read entry member))

end Transform

/-- A number in the styles of a property has been read from a piece of the value. -/
theorem Translation.every_expand? (found : expand? property value = some styles) :
    styles.Every (IsOf property value) := by
  unfold expand? at found
  split at found
  · exact Box.every_lengths? found
  · exact Box.every_lengths? found
  · exact Border.every_border? found
  · exact Box.every_lengths? found
  · exact Box.every_texts? found
  · exact Box.every_lengths? ((Option.ite_none_left_eq_some.mp found).2)
  · exact Border.every_borderStyle? found
  · exact Flex.every_flex? found
  · exact Flex.every_flow? found
  · exact Flex.every_placeContent? found
  · exact Decoration.every_decoration? found
  · exact Shadow.every_box? found
  · exact Shadow.every_text? found
  · exact Single.every_fontFamily? found
  · cases found
    exact Single.every_fontWeight value
  · exact Single.every_aspectRatio? found
  · exact Single.every_background? found
  · exact Transform.every_transform? found
  · exact Single.every_plain? found

end Shorthands

end StyleObjects
