import StyleObjects.Proofs.Media.Dimensions
import StyleObjects.Proofs.Media.Types
import StyleObjects.Proofs.Style.Causes
import StyleObjects.Proofs.Table

/-!
# Where matching fails

Units are compared letter case aside, and then looked up in lower case.  For most letters this is
the same, but the dotless and the dotted `i` are taken for an `i` and are not lowered to one.  So
inches that are spelled with one of these are no length, and matching fails where a dimension of the
environment is given in them.  It fails nowhere else for an accepted query, as long as no integer of
the environment is too large for a number.
-/

namespace StyleObjects

open Text

/-! ## Letters -/

namespace Text

/-- A character that is taken for a letter is one, or one of those that only resemble one. -/
theorem isAlpha_or_of_foldChar {c : Char} (letter : (foldChar c).isLower = true) :
    c.isAlpha = true ∨ c ∈ MediaQuery.letterVariants := by
  by_cases variant : c ∈ MediaQuery.letterVariants
  · exact .inr variant
  · rw [MediaQuery.foldChar_of_not_mem_letterVariants variant] at letter
    exact .inl (Stylesheet.isAlpha_of_toLower letter)

/-- The letters for which such characters are taken. -/
theorem cases_of_variant {c : Char} (variant : c ∈ MediaQuery.letterVariants) :
    foldChar c ∈ ['i', 's', 'k'] ∧ foldChar c ≠ 'n' ∧
      (foldChar c = 'i' → c = 'ı' ∨ c = 'İ') := by
  simp only [MediaQuery.letterVariants, List.mem_cons, List.not_mem_nil, or_false] at variant
  rcases variant with rfl | rfl | rfl | rfl <;> decide

/-- Only the letter itself is taken for an `n`. -/
theorem eq_of_foldChar {c : Char} (folded : foldChar c = 'n') : c = 'n' ∨ c = 'N' := by
  have letter : c.isAlpha = true :=
    (isAlpha_or_of_foldChar (by rw [folded]; decide)).resolve_right fun variant =>
      (cases_of_variant variant).2.1 folded
  have ascii : ∀ d : Char, d.toNat < 128 → foldChar d = 'n' → d = 'n' ∨ d = 'N' := by
    apply Stylesheet.of_ascii
    decide
  exact ascii c (Stylesheet.ascii_of_isAlphanum (by simp [Char.isAlphanum, letter])) folded

theorem lower_of_isAlpha {cs : List Char} (letters : ∀ c ∈ cs, c.isAlpha = true) :
    lower cs = cs.map foldChar := by
  have typed : ∀ c ∈ cs, MediaQuery.isTypeChar c = true := fun c member =>
    MediaQuery.isTypeChar_of_starts (by simp [letters c member])
  rw [MediaQuery.lower_of_all_isTypeChar (List.all_eq_true.mpr typed)]
  refine List.map_congr_left fun c member => ?_
  exact (MediaQuery.meaning_of_isTypeChar (typed c member)).2.2.1.symm

end Text

/-! ## Units -/

namespace Quantity

/-- The unit of inches, spelled with a dotless or a dotted `i`. -/
def isAlmostInch : List Char → Bool
  | c :: n :: rest => (c = 'ı' || c = 'İ') && (n = 'n' || n = 'N') && (skipBlanks rest).isEmpty
  | _ => false

theorem exists_of_takeUnit? {units : List String} {cs written rest : List Char}
    (taken : takeUnit? units cs = some (written, rest)) :
    cs = written ++ rest ∧ ∃ unit ∈ units, written.map foldChar = unit.toList := by
  obtain ⟨unit, known, found⟩ := List.exists_of_findSome?_eq_some taken
  obtain ⟨after, dropped, same⟩ := Option.map_eq_some_iff.mp found
  obtain ⟨spelled, rfl, folded⟩ := exists_append_of_dropKeyword? dropped
  have length : unit.toList.length = spelled.length := by rw [← folded, List.length_map]
  rw [length, List.take_left, Prod.mk.injEq] at same
  rcases same with ⟨rfl, rfl⟩
  exact ⟨rfl, unit, known, folded⟩

/-- A unit of length that is not found in lower case is that of inches, with another `i`. -/
theorem exists_inch_of_lookup {written : List Char} {unit : String}
    (known : unit ∈ lengthUnits.map Prod.fst) (folded : written.map foldChar = unit.toList)
    (missed : lengthUnits.lookup (String.ofList (lower written)) = none) :
    ∃ c n, written = [c, n] ∧ (c = 'ı' ∨ c = 'İ') ∧ (n = 'n' ∨ n = 'N') := by
  have spelled : ∀ unit ∈ lengthUnits.map Prod.fst, unit.toList.all (·.isLower) = true ∧
      (unit.toList.any ['i', 's', 'k'].contains = true → unit = "in") := by decide
  have letter : ∀ c ∈ written, foldChar c ∈ unit.toList := fun c member =>
    folded ▸ List.mem_map_of_mem member
  have kind : ∀ c ∈ written, c.isAlpha = true ∨ c ∈ MediaQuery.letterVariants := fun c member =>
    isAlpha_or_of_foldChar (List.all_eq_true.mp (spelled unit known).1 _ (letter c member))
  by_cases letters : ∀ c ∈ written, c.isAlpha = true
  · rw [lower_of_isAlpha letters, folded, String.ofList_toList, ← Option.not_isSome_iff_eq_none,
      Table.lookup_isSome_iff] at missed
    exact absurd known missed
  · push Not at letters
    obtain ⟨other, member, plain⟩ := letters
    have variant := (kind other member).resolve_left plain
    obtain rfl := (spelled unit known).2 (List.any_eq_true.mpr
      ⟨foldChar other, letter other member, List.contains_iff_mem.mpr (cases_of_variant variant).1⟩)
    obtain ⟨c, n, rfl, first, second⟩ : ∃ c n, written = [c, n] ∧ foldChar c = 'i' ∧
        foldChar n = 'n' := by
      rcases written with _ | ⟨c, _ | ⟨n, _ | ⟨d, rest⟩⟩⟩ <;> simp at folded
      exact ⟨c, n, rfl, folded⟩
    have initial : other = c := by
      rcases List.mem_cons.mp member with same | member
      · exact same
      · rw [List.mem_singleton.mp member] at variant
        exact absurd second (cases_of_variant variant).2.1
    exact ⟨c, n, rfl, (cases_of_variant (initial ▸ variant)).2.2 first, eq_of_foldChar second⟩

/-- Inches with another `i` are taken for a unit that is not found. -/
theorem unitOf?_almostInch {c n : Char} {rest : List Char} (first : c = 'ı' ∨ c = 'İ')
    (second : n = 'n' ∨ n = 'N') (ended : (skipBlanks rest).isEmpty = true) :
    unitOf? (lengthUnits.map Prod.fst) (c :: n :: rest) = some (String.ofList (lower [c, n])) ∧
      lengthUnits.lookup (String.ofList (lower [c, n])) = none := by
  have taken : takeUnit? (lengthUnits.map Prod.fst) (c :: n :: rest) = some ([c, n], rest) := by
    have folded : foldChar c = 'i' ∧ foldChar n = 'n' := by
      rcases first with rfl | rfl <;> rcases second with rfl | rfl <;> decide
    simp [takeUnit?, lengthUnits, dropKeyword?, folded]
  have visible : skipBlanks (c :: n :: rest) = c :: n :: rest := by
    rcases first with rfl | rfl <;> rfl
  constructor
  · rw [unitOf?, visible, taken]
    simpa using ended
  · rcases first with rfl | rfl <;> rcases second with rfl | rfl <;> decide +kernel

theorem convert_eq_error_iff {number : Binary64} {rest : List Char} :
    (∃ fault, convert lengthUnits number rest = .error fault) ↔
      isAlmostInch (skipBlanks rest) = true := by
  unfold convert
  generalize skipBlanks rest = cs
  constructor
  · rintro ⟨fault, failed⟩
    split at failed
    · cases failed
    · rename_i unit found
      split at failed
      · cases failed
      · rename_i missed
        unfold unitOf? at found
        split at found
        · cases found
          exact absurd missed (by decide)
        · obtain ⟨⟨written, after⟩, taken, ended⟩ := Option.bind_eq_some_iff.mp found
          rw [Option.ite_none_right_eq_some, Option.some.injEq] at ended
          rcases ended with ⟨blank, rfl⟩
          obtain ⟨rfl, unit, known, folded⟩ := exists_of_takeUnit? taken
          obtain ⟨c, n, rfl, first, second⟩ := exists_inch_of_lookup known folded missed
          simp [isAlmostInch, first, second, blank]
  · intro almost
    unfold isAlmostInch at almost
    split at almost
    · rename_i c n after
      simp only [Bool.and_eq_true, Bool.or_eq_true, decide_eq_true_eq] at almost
      obtain ⟨named, missed⟩ := unitOf?_almostInch almost.1.1 almost.1.2 almost.2
      exact ⟨.unit (String.ofList (lower [c, n])), by simp only [named, missed]⟩
    · cases almost

/-- Inches that are spelled with a dotless or a dotted `i`. -/
def isAlmostInches (text : String) : Bool :=
  (SignedNumeral.takePlain? (skipBlanks text.toList)).any fun (_, rest) =>
    isAlmostInch (skipBlanks rest)

/-- Reading a length fails only at the unit of inches. -/
theorem readLength_eq_error_iff {text : String} :
    (∃ fault, readLength text = .error fault) ↔ isAlmostInches text = true := by
  unfold readLength isAlmostInches
  cases SignedNumeral.takePlain? (skipBlanks text.toList) with
  | none => simp
  | some taken => exact convert_eq_error_iff

end Quantity

/-! ## Expressions -/

/-- The value is no integer that is too large for a number. -/
def FeatureValue.isInRange : FeatureValue → Bool
  | .integer value => (Binary64.ofInt value).isFinite
  | _ => true

theorem FeatureValue.toReal_eq_error_iff {value : FeatureValue} (bounded : value.isInRange = true)
    {read : String → Except MatchFault (Option Binary64)} {fault : MatchFault} :
    value.toReal read = .error fault ↔ ∃ text, value = .text text ∧ read text = .error fault := by
  cases value with
  | integer value =>
      have finite : (Binary64.ofInt value).isFinite = true := bounded
      simp [toReal, realOfInt, finite, Except.map]
  | absent | flag | real => simp [toReal]
  | text value => simp [toReal]

/-- No integer of the environment is too large for a number. -/
def Environment.InRange (environment : Environment) : Prop :=
  ∀ feature value, environment.get? feature = some value → value.isInRange = true

/-- A dimension of the environment is given in inches with a dotless or a dotted `i`. -/
def Environment.AlmostInches (environment : Environment) (feature : String) : Prop :=
  feature ∈ MediaQuery.dimensionFeatures ∧
    ∃ text, environment.get? feature = some (.text text) ∧ Quantity.isAlmostInches text = true

variable {environment : Environment}

namespace MediaExpression

/-- Features that the renderer knows are compared as lengths, ratios or words. -/
theorem comparison_of_known : ∀ feature ∈ MediaQuery.knownFeatures,
    feature ∈ MediaQuery.dimensionFeatures ∨ comparison feature = .ratios ∨
      comparison feature = .words := by
  decide

/-- Two values that can be read as numbers can be compared. -/
theorem matchReals_ok {read : String → Except MatchFault (Option Binary64)} {actual : FeatureValue}
    {value : String} {number expected : Option Binary64} (real : actual.toReal read = .ok number)
    (wanted : read value = .ok expected) (bound : Option MediaBound) :
    ∃ holds, matchReals bound read actual value = .ok holds := by
  simp only [matchReals, real, wanted, bind, Except.bind]
  cases number <;> cases expected <;> exact ⟨_, rfl⟩

/-- Ratios and words can be compared with every value in range. -/
theorem matchValue_ok {expression : MediaExpression} {actual : FeatureValue}
    (bounded : actual.isInRange = true)
    (compared : comparison expression.feature = .ratios ∨ comparison expression.feature = .words)
    (value : String) : ∃ holds, expression.matchValue actual value = .ok holds := by
  rcases compared with ratios | words
  · simp only [matchValue, ratios]
    cases real : actual.toReal fun text => .ok (Quantity.readRatio? text) with
    | error fault =>
        obtain ⟨text, -, unread⟩ := (FeatureValue.toReal_eq_error_iff bounded).mp real
        cases unread
    | ok number => exact matchReals_ok real rfl expression.bound
  · simp only [matchValue, words]
    exact ⟨_, rfl⟩

/-- A test whose dimension is compared with a length fails only at a dimension in such inches. -/
theorem almostInches_of_isMatch {expression : MediaExpression} {fault : MatchFault}
    (bounded : environment.InRange) (known : expression.feature ∈ MediaQuery.knownFeatures)
    (length : expression.feature ∈ MediaQuery.dimensionFeatures →
      ∃ value pixels, expression.value = some value ∧ Quantity.readLength value = .ok pixels)
    (failed : expression.isMatch environment = .error fault) :
    environment.AlmostInches expression.feature := by
  obtain ⟨actual, held, given⟩ : ∃ actual, environment.get? expression.feature = some actual ∧
      actual.isMissing = false := by
    unfold isMatch at failed
    split at failed
    · cases failed
    · split at failed
      · cases failed
      · exact ⟨_, ‹_›, Bool.eq_false_iff.mpr ‹_›⟩
  have inRange := bounded _ _ held
  by_cases dimension : expression.feature ∈ MediaQuery.dimensionFeatures
  · obtain ⟨value, pixels, expected, read⟩ := length dimension
    rw [isMatch_dimension dimension expected read held given] at failed
    cases real : actual.toReal Quantity.readLength with
    | ok number => simp [real, Except.map] at failed
    | error other =>
        obtain ⟨text, rfl, unread⟩ := (FeatureValue.toReal_eq_error_iff inRange).mp real
        exact ⟨dimension, text, held, Quantity.readLength_eq_error_iff.mp ⟨other, unread⟩⟩
  · have compared := (comparison_of_known _ known).resolve_left dimension
    simp only [isMatch, held, given, Bool.false_eq_true, ↓reduceIte] at failed
    split at failed
    · cases failed
    · obtain ⟨holds, matched⟩ := matchValue_ok inRange compared _
      cases failed.symm.trans matched

end MediaExpression

/-! ## Queries -/

namespace MediaQuery

variable {causes : MatchFault → Prop}

theorem failsOnly_matchAll {expressions : List MediaExpression}
    (each : ∀ expression ∈ expressions, FailsOnly causes (expression.isMatch environment)) :
    FailsOnly causes (matchAll environment expressions) := by
  induction expressions with
  | nil => exact .ok true
  | cons expression expressions ih =>
      rw [List.forall_mem_cons] at each
      refine each.1.bind fun holds => ?_
      cases holds with
      | false => exact .ok false
      | true => exact ih each.2

theorem failsOnly_isMatch {query : MediaQuery}
    (each : ∀ expression ∈ query.expressions, FailsOnly causes (expression.isMatch environment)) :
    FailsOnly causes (query.isMatch environment) := by
  unfold isMatch
  split
  · exact (failsOnly_matchAll each).bind fun holds => .ok _
  · exact .ok _

/-- Matching fails only where one of the tests does. -/
theorem failsOnly_matchAny {queries : List MediaQuery}
    (each : ∀ query ∈ queries, ∀ expression ∈ query.expressions,
      FailsOnly causes (expression.isMatch environment)) :
    FailsOnly causes (matchAny environment queries) := by
  induction queries with
  | nil => exact .ok false
  | cons query queries ih =>
      rw [List.forall_mem_cons] at each
      refine (failsOnly_isMatch each.1).bind fun holds => ?_
      cases holds with
      | true => exact .ok true
      | false => exact ih each.2

theorem mem_knownFeatures_of_parseAccepted {text : String} {queries : List MediaQuery}
    {query : MediaQuery} {expression : MediaExpression}
    (accepted : parseAccepted text = .ok queries) (listed : query ∈ queries)
    (tested : expression ∈ query.expressions) : expression.feature ∈ knownFeatures := by
  have expected := expressionError?_of_parseAccepted accepted listed tested
  simp only [expressionError?] at expected
  split at expected
  · cases expected
  · rename_i known
    simpa using known

/-- A query for one pixel in a dimension. -/
def onePixel (feature : String) : MediaQuery := ⟨false, "all", [⟨none, feature, some "1px"⟩]⟩

theorem parseAccepted_onePixel : ∀ feature ∈ dimensionFeatures,
    parseAccepted ("(" ++ feature ++ ": 1px)") = .ok [onePixel feature] := by
  decide +kernel

/-- Matching fails for a query for one pixel in a dimension that is given in such inches. -/
theorem matchAny_onePixel {feature : String} (almost : environment.AlmostInches feature) :
    ∃ fault, matchAny environment [onePixel feature] = .error fault := by
  obtain ⟨dimension, text, held, inches⟩ := almost
  obtain ⟨fault, unread⟩ := Quantity.readLength_eq_error_iff.mpr inches
  have given : (FeatureValue.text text).isMissing = false := by
    have filled : text ≠ "" := by
      rintro rfl
      cases inches
    simpa [FeatureValue.isMissing] using filled
  obtain ⟨pixels, read⟩ : ∃ pixels, Quantity.readLength "1px" = .ok pixels := ⟨_, rfl⟩
  have tested : (⟨none, feature, some "1px"⟩ : MediaExpression).isMatch environment =
      .error fault := by
    rw [MediaExpression.isMatch_dimension dimension rfl read held given, FeatureValue.toReal,
      unread]
    rfl
  refine ⟨fault, ?_⟩
  simp [matchAny, onePixel, isMatch, matchesType, matchAll, tested, bind, Except.bind]

/-- For accepted queries, matching gives an answer unless a dimension that is tested is given in
inches with a dotless or a dotted `i`.  So it always does if and only if the environment has no such
dimension. -/
theorem matchAny_succeeds_iff (bounded : environment.InRange) :
    (∀ text queries, parseAccepted text = .ok queries →
      (∃ holds, matchAny environment queries = .ok holds) ∨
        ∃ query ∈ queries, ∃ expression ∈ query.expressions,
          environment.AlmostInches expression.feature) ∧
    ((∀ text queries, parseAccepted text = .ok queries →
        ∃ holds, matchAny environment queries = .ok holds) ↔
      ∀ feature, ¬environment.AlmostInches feature) := by
  have each : ∀ text queries, parseAccepted text = .ok queries →
      (∃ holds, matchAny environment queries = .ok holds) ∨
        ∃ query ∈ queries, ∃ expression ∈ query.expressions,
          environment.AlmostInches expression.feature := by
    intro text queries accepted
    have failing : FailsOnly (fun _ => ∃ query ∈ queries, ∃ expression ∈ query.expressions,
        environment.AlmostInches expression.feature) (matchAny environment queries) := by
      refine failsOnly_matchAny fun query listed expression tested fault failed =>
        ⟨query, listed, expression, tested, ?_⟩
      refine MediaExpression.almostInches_of_isMatch bounded
        (mem_knownFeatures_of_parseAccepted accepted listed tested) (fun dimension => ?_) failed
      obtain ⟨value, measure, expected, found, unit⟩ :=
        exists_length_of_parseAccepted accepted listed tested dimension
      exact ⟨value, measure.pixels?, expected, Quantity.readLength_eq_pixels? found unit⟩
    cases matched : matchAny environment queries with
    | ok holds => exact .inl ⟨holds, rfl⟩
    | error fault => exact .inr (failing fault matched)
  refine ⟨each, fun succeeds feature almost => ?_, fun clean text queries accepted => ?_⟩
  · obtain ⟨fault, failed⟩ := matchAny_onePixel almost
    obtain ⟨holds, matched⟩ := succeeds _ _ (parseAccepted_onePixel feature almost.1)
    cases failed.symm.trans matched
  · refine (each text queries accepted).resolve_right ?_
    rintro ⟨query, -, expression, -, almost⟩
    exact clean _ almost

/-- A width whose inches have a dotless `i` cannot be compared. -/
theorem not_matchAny_of_dotlessInches :
    let environment : Environment := .ofList [("width", .text "1ın")]
    parseAccepted "(width: 10px)" = .ok [⟨false, "all", [⟨none, "width", some "10px"⟩]⟩] ∧
      matchAny environment [⟨false, "all", [⟨none, "width", some "10px"⟩]⟩] =
        .error (.unit "ın") := by
  decide +kernel

/-- An environment with values of all kinds, and with inches in capital letters. -/
theorem matchAny_succeeds_iff_of_capitalInches :
    let environment : Environment := .ofList [("width", .text "2.5IN"), ("height", .integer 812),
      ("device-width", .real (.infinite true)), ("direction", .flag true)]
    environment.InRange ∧ ∃ holds, matchAny environment [⟨false, "all",
      [⟨some .min, "width", some "10rem"⟩, ⟨none, "direction", some "true"⟩]⟩] = .ok holds := by
  intro environment
  have bounded : environment.InRange := by
    intro feature value held
    have member := Table.mem_of_get?_ofList held
    simp only [List.mem_cons, List.not_mem_nil, or_false, Prod.mk.injEq] at member
    rcases member with ⟨rfl, rfl⟩ | ⟨rfl, rfl⟩ | ⟨rfl, rfl⟩ | ⟨rfl, rfl⟩ <;> decide +kernel
  have clean : ∀ feature, ¬environment.AlmostInches feature := by
    rintro feature ⟨dimension, text, held, almost⟩
    simp only [dimensionFeatures, List.mem_cons, List.not_mem_nil, or_false] at dimension
    rcases dimension with rfl | rfl | rfl | rfl <;> cases held
    exact absurd almost (by decide +kernel)
  have accepted : parseAccepted "(min-width: 10rem) and (direction: true)" = .ok [⟨false, "all",
      [⟨some .min, "width", some "10rem"⟩, ⟨none, "direction", some "true"⟩]⟩] := by
    decide +kernel
  exact ⟨bounded, (matchAny_succeeds_iff bounded).2.mpr clean _ _ accepted⟩

end MediaQuery

end StyleObjects
