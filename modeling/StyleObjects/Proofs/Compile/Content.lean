import StyleObjects.Proofs.Style.Keys
import StyleObjects.Proofs.Style.Pixels
import StyleObjects.Proofs.Stylesheet.Quoted

/-!
# Contents

Only the parser knows of quotes.  Comments are removed and lengths in root font sizes are written in
pixels wherever they stand, also in a string.  Whatever else a string has in it is kept: a content
without comments and lengths is compiled to itself.
-/

namespace StyleObjects

/-! ## Texts in quotes -/

namespace Text

theorem doubleQuoted_injective : Function.Injective doubleQuoted := by
  intro text other same
  have lists := congrArg String.toList same
  rw [toList_doubleQuoted, toList_doubleQuoted, List.cons.injEq, List.append_cancel_right_eq] at lists
  exact String.toList_inj.mp lists.2

theorem withoutLineBreak_doubleQuoted (text : String) :
    Measure.withoutLineBreak (doubleQuoted text).toList = (doubleQuoted text).toList := by
  simp [Measure.withoutLineBreak, List.getLast?_cons]

end Text

/-- No number starts with a quote. -/
theorem Scalar.read_doubleQuoted (text : String) :
    read (Text.doubleQuoted text) = .text (Text.doubleQuoted text) := by
  have none : Measure.read? (Text.doubleQuoted text) = none := by
    rw [Measure.read?, Text.withoutLineBreak_doubleQuoted, Option.map_eq_none_iff]
    by_contra taken
    rcases Option.ne_none_iff_exists'.mp taken with ⟨⟨number, rest⟩, taken⟩
    have starts := SignedNumeral.head?_of_take? taken
    rw [Text.toList_doubleQuoted, List.head?_cons] at starts
    exact absurd starts (by decide)
  rw [read, none]

theorem Measure.isViewportLength_doubleQuoted (text : String) :
    isViewportLength (Text.doubleQuoted text) = false := by
  rw [isViewportLength, Text.withoutLineBreak_doubleQuoted, Text.toList_doubleQuoted]
  simp [Numeral.takeSign]

/-- Lengths are converted in quotes as outside of them. -/
theorem Rem.toPixels_doubleQuoted (size : RemSize) (text : String) :
    toPixels size (Text.doubleQuoted text) = (toPixels size text).map Text.doubleQuoted := by
  have other : Numeral.isNumeralChar '"' = false := by decide
  have apart : Text.isWord '"' = false := by decide
  have joins : joins '"' = false := by decide
  have opened := convert_append_cons other apart size false [] (text.toList ++ ['"'])
  have closed := convert_append_cons other apart size false text.toList []
  rw [List.nil_append, joins] at opened
  rw [toPixels, toPixels, Text.toList_doubleQuoted, opened, closed, convert, convert]
  cases convert size false text.toList with
  | error fault => rfl
  | ok inPixels =>
      refine congrArg Except.ok (String.toList_inj.mp ?_)
      simp

/-! ## What is left as it is -/

/-- Without its comments and with its lengths in pixels a text is the same if and only if it has
none of them. -/
theorem toPixels_stripComments_iff {size : RemSize} {text : String} :
    Rem.toPixels size (stripComments text) = .ok text ↔
      ¬Comment.Holds text.toList ∧ Rem.lengths false text.toList = [] := by
  have bareText (bare : ¬Comment.Holds text.toList) : stripComments text = text := by
    rw [stripComments, Comment.strip_of_not_holds bare, String.ofList_toList]
  constructor
  · intro kept
    -- A conversion leaves slashes, which removing a comment takes away.
    have bare : ¬Comment.Holds text.toList := by
      intro holds
      have slashes := Rem.count_toPixels (c := '/') (by decide) (by decide) kept
      have fewer := Comment.count_strip_lt holds
      rw [stripComments, String.toList_ofList] at slashes
      omega
    rw [bareText bare] at kept
    exact ⟨bare, Rem.lengths_eq_nil_of_toPixels (c := 'r') (by decide) (by decide) (by decide) kept⟩
  · rintro ⟨bare, absent⟩
    rw [bareText bare]
    exact Rem.toPixels_of_lengths_eq_nil size absent

/-! ## Compiling a content -/

/-- The style of a content is its text with the lengths in pixels. -/
theorem Context.stylesOf_content (context : Context) (text : String) :
    context.stylesOf ⟨"content", Text.doubleQuoted text⟩ =
      ((Rem.toPixels context.remSize text).mapError Error.number).map fun inPixels =>
        .ofList [("content", .text (Text.doubleQuoted inPixels))] := by
  rw [stylesOf, convert, Rem.toPixels_doubleQuoted]
  cases Rem.toPixels context.remSize text with
  | error fault => rfl
  | ok inPixels =>
      have apart : ¬Translation.keyframesMark.toList.isPrefixOf "content".toList = true := by decide
      have unmarked : Translation.keyframesName? ⟨"content", Text.doubleQuoted inPixels⟩ = none :=
        if_neg apart
      have plain : "content" ∉ Translation.ruledProperties ++ ["animation", "animation-name"] := by
        decide
      have scalar : Scalar.ofValue? "content" (Text.stripped (Text.doubleQuoted inPixels)) =
          some (.text (Text.doubleQuoted inPixels)) := by
        rw [Text.stripped, Text.trim_doubleQuoted, String.ofList_toList, ← Scalar.read_doubleQuoted]
        rfl
      exact (translateDeclarations_eq_ok_iff_of_scalar unmarked plain).mpr ⟨_, scalar, rfl⟩

theorem Context.seesViewport_content (context : Context) (text : String) :
    context.seesViewport ⟨"content", Text.doubleQuoted text⟩ = false := by
  rw [seesViewport, convert, Rem.toPixels_doubleQuoted]
  cases Rem.toPixels context.remSize text with
  | error fault => rfl
  | ok inPixels => exact Measure.isViewportLength_doubleQuoted inPixels

/-- A text that is read as one class with one declaration compiles to the styles of the declaration,
if it has any. -/
theorem compile_of_parse {source : String} {declaration : Declaration}
    (parsed : Stylesheet.parse source = .ok [.style [".a"] [declaration]]) :
    let context : Context := ⟨.empty, ({} : Options).remSize⟩
    compile {} source = (context.stylesOf declaration).map fun styles =>
      { classes := .ofList [("a", styles)], usesViewport := context.seesViewport declaration } := by
  intro context
  have cut : Compilation.cutOf {} source = ⟨source, []⟩ := rfl
  have own : Compilation.contextOf {} ⟨source, []⟩ = context := rfl
  have steps : Plan.steps {} [.style [".a"] [declaration]] =
      [.touch (.top "a"), .declare (.top "a") declaration] := rfl
  simp only [compile, Compilation.of, cut, own, parsed, steps, Run.of, Step.apply]
  cases given : context.stylesOf declaration with
  | error cause =>
      rw [Output.declare_fails given]
      rfl
  | ok styles =>
      have merged : Table.empty.merge styles = styles := Table.empty_merge styles
      rw [Output.declare_ok given]
      conv_rhs => rw [← merged]
      rfl

/-- The classes of a stylesheet with one class, whose content is a text in quotes. -/
def contentClasses (text : String) : Table Styles :=
  .ofList [("a", .ofList [("content", .text (Text.doubleQuoted text))])]

theorem contentClasses_injective : Function.Injective contentClasses := by
  intro text other same
  have held : some (Value.text (Text.doubleQuoted text)) = some (.text (Text.doubleQuoted other)) :=
    congrArg (fun classes => (classes.get? "a").bind (·.get? "content")) same
  rw [Option.some.injEq, Value.text, Value.text, Value.scalar.injEq, Scalar.text.injEq] at held
  exact Text.doubleQuoted_injective held

/-- A content is compiled to its text without comments and with its lengths in pixels, unless one of
them has no finite number of pixels. -/
theorem compile_ruleText_doubleQuoted {text : String} (body : Text.isStringBody text = true) :
    compile {} ((⟨"content", Text.doubleQuoted text⟩ : Declaration).ruleText ".a") =
      ((Rem.toPixels ({} : Options).remSize (stripComments text)).mapError Error.number).map
        fun inPixels => { classes := contentClasses inPixels } := by
  have named : Stylesheet.isPropertyName "content".toList = true := by decide
  have whole := compile_of_parse (Stylesheet.parse_ruleText_doubleQuoted named body)
  rw [whole, Context.stylesOf_content, Context.seesViewport_content]
  cases Rem.toPixels ({} : Options).remSize (stripComments text) <;> rfl

/-- A text in quotes is compiled to itself if and only if it has no comments and no lengths in root
font sizes. -/
theorem compile_doubleQuoted_iff {text : String} (body : Text.isStringBody text = true) :
    (compile {} ((⟨"content", Text.doubleQuoted text⟩ : Declaration).ruleText ".a")).map
        Output.classes = .ok (contentClasses text) ↔
      ¬Comment.Holds text.toList ∧ Rem.lengths false text.toList = [] := by
  rw [compile_ruleText_doubleQuoted body, ← toPixels_stripComments_iff]
  cases Rem.toPixels ({} : Options).remSize (stripComments text) with
  | error fault => simp [Except.mapError, Except.map]
  | ok inPixels => simp [Except.mapError, Except.map, contentClasses_injective.eq_iff]

/-- A text with the end of a block, a semicolon, the start of a comment and a length in pixels. -/
theorem compile_doubleQuoted_iff_of_quotedBlock :
    let text := "\x7d ; /* 2px"
    Text.isStringBody text = true ∧
      (compile {} ((⟨"content", Text.doubleQuoted text⟩ : Declaration).ruleText ".a")).map
        Output.classes = .ok (contentClasses text) := by
  intro text
  have body : Text.isStringBody text = true := by decide +kernel
  have bare : ¬Comment.Holds text.toList := Comment.strip_eq_self_iff.mp (by decide +kernel)
  exact ⟨body, (compile_doubleQuoted_iff body).mpr ⟨bare, by decide +kernel⟩⟩

/-- A comment is removed from a string, and a length in one is written in pixels. -/
theorem not_kept_of_quotedComment :
    let classesOf (text : String) :=
      (compile {} ((⟨"content", Text.doubleQuoted text⟩ : Declaration).ruleText ".a")).map
        Output.classes
    (Text.isStringBody "/* x */" = true ∧ classesOf "/* x */" = .ok (contentClasses "")) ∧
      Text.isStringBody "1rem" = true ∧ classesOf "1rem" = .ok (contentClasses "16px") := by
  intro classesOf
  have comment : Text.isStringBody "/* x */" = true := by decide +kernel
  have length : Text.isStringBody "1rem" = true := by decide +kernel
  have nothing : Rem.toPixels ({} : Options).remSize (stripComments "/* x */") = .ok "" := by
    decide +kernel
  have sixteen : Rem.toPixels ({} : Options).remSize (stripComments "1rem") = .ok "16px" := by
    decide +kernel
  refine ⟨⟨comment, ?_⟩, length, ?_⟩
  · simp only [classesOf, compile_ruleText_doubleQuoted comment, nothing]
    rfl
  · simp only [classesOf, compile_ruleText_doubleQuoted length, sixteen]
    rfl

end StyleObjects
