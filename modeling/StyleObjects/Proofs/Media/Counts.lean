import StyleObjects.Media.Match
import StyleObjects.Proofs.Media.Expressions
import StyleObjects.Proofs.Media.Lists
import StyleObjects.Proofs.Number.Whole

/-!
# Counts in media queries

A test of a count compares the integer of the environment with the one that its text writes.  But
where a test has zero, or an integer with too many digits to be read, it compares with one.
-/

namespace StyleObjects

open Text

/-! ## Tests that stand alone -/

namespace MediaQuery

/-- The query of one test, for all media. -/
def ofTest (expression : MediaExpression) : MediaQuery := ⟨false, "all", [expression]⟩

variable {expression : MediaExpression}

/-- A test that stands in place of a type is taken up to its parenthesis. -/
theorem outline?_test (canonical : expression.isCanonical = true) :
    outline? expression.text.toList = some ⟨false, anyType, some expression.text.toList, none⟩ := by
  have closed := MediaExpression.notMem_inner canonical (show ')' ∈ ['(', ')', ','] by decide)
  have inside : expression.inner.all (· != ')') = true :=
    List.all_eq_true.mpr fun c member => bne_iff_ne.mpr fun same => closed (same ▸ member)
  have stop : [')'].head?.any (· != ')') = false := rfl
  have taken := Lists.takeWhile_append_of_stop inside stop
  have dropped := Lists.dropWhile_append_of_stop inside stop
  have filled : expression.inner.isEmpty = false := by
    rcases MediaExpression.exists_of_isCanonical canonical with ⟨c, word, named, -⟩
    simp [MediaExpression.inner, named]
  have qualified (rest : List Char) : takeQualified? ('(' :: rest) = none := rfl
  have typed (rest : List Char) : takeUnqualified? ('(' :: rest) = none := rfl
  rw [MediaExpression.toList_text canonical, List.cons_append, outline?, qualified, typed]
  simp [takeUntyped?, taken, dropped, filled, takeTail?]

/-- A test that stands alone is read as the query of it. -/
theorem parse?_test (canonical : expression.isCanonical = true) :
    parse? expression.text = some [ofTest expression] := by
  have spelled := MediaExpression.toList_text canonical
  have commas : ',' ∉ expression.text.toList := by
    have inside := MediaExpression.notMem_inner canonical (show ',' ∈ ['(', ')', ','] by decide)
    simpa [spelled] using inside
  have whole : splitAt ',' expression.text.toList = [expression.text.toList] := by
    rw [splitAt_eq_splitOnP]
    exact List.splitOnP_eq_singleton fun c member =>
      beq_eq_false_iff_ne.mpr fun same => commas (same ▸ member)
  have trimmed : trim expression.text.toList = expression.text.toList :=
    trim_of_parentheses (by simp [spelled]) (by rw [spelled, List.getLast?_concat])
  have type : String.ofList (lower anyType) = "all" := by decide
  rw [parse?, whole]
  simp [readQuery?, trimmed, outline?_test canonical, Outline.expressions?, type,
    MediaExpression.readExpression?_text canonical, ofTest]

/-- A query of one test holds where the test does. -/
theorem matchAny_ofTest (environment : Environment) :
    matchAny environment [ofTest expression] = expression.isMatch environment := by
  have every : matchesType (ofTest expression) environment = true := by simp [matchesType, ofTest]
  simp only [matchAny, isMatch, every, ↓reduceIte]
  cases tested : expression.isMatch environment with
  | error fault => simp [ofTest, matchAll, tested, bind, Except.bind]
  | ok holds => cases holds <;> simp [ofTest, matchAll, tested, bind, Except.bind, pure, Except.pure]

end MediaQuery

/-! ## Tests of counts -/

/-- Digits are a value: they are visible, no marks of the grammar, and no letters. -/
theorem MediaExpression.isValue_of_digits {digits : List Char} (filled : digits ≠ [])
    (ascii : digits.all Char.isDigit = true) : isValue digits = true := by
  rw [List.all_eq_true] at ascii
  have plain : ∀ c ∈ digits,
      isBlank c = false ∧ ['(', ')', ','].contains c = false ∧ c.isAlpha = false := by
    intro c member
    have checked : ∀ c : Char, c.toNat < 128 → c.isDigit = true →
        isBlank c = false ∧ ['(', ')', ','].contains c = false ∧ c.isAlpha = false := by
      apply Stylesheet.of_ascii
      decide
    have code := Stylesheet.ascii_of_isAlphanum (c := c) (by simp [Char.isAlphanum, ascii c member])
    exact checked c code (ascii c member)
  have first := List.head_mem filled
  have last := List.getLast_mem filled
  have wordless : hasAnd digits = false := by
    rw [hasAnd_of_visible fun c member => (plain c member).1]
    refine Bool.eq_false_iff.mpr fun joins => ?_
    have letter := isAlpha_of_isAnd joins first
    rw [(plain _ first).2.2] at letter
    cases letter
  have marks : digits.all (fun c => !(['(', ')', ','].contains c)) = true :=
    List.all_eq_true.mpr fun c member => by rw [(plain c member).2.1]; rfl
  rw [isValue, List.head?_eq_some_head filled, List.getLast?_eq_getLast_of_ne_nil filled,
    Option.any_some, Option.any_some, (plain _ first).1, (plain _ last).1, marks, wordless]
  rfl

namespace MediaExpression

/-- Features whose values are counts. -/
def countFeatures : List String := ["color", "color-index", "monochrome", "grid"]

/-- The test of a count. -/
def ofCount (bound : Option MediaBound) (feature : String) (count : Nat) : MediaExpression :=
  ⟨bound, feature, some (toString count)⟩

variable {feature : String} {bound : Option MediaBound}

theorem isCanonical_ofCount (counted : feature ∈ countFeatures) (count : Nat) :
    (ofCount bound feature count).isCanonical = true := by
  have names : ∀ feature ∈ countFeatures, (⟨bound, feature, none⟩ : MediaExpression).isCanonical := by
    rcases bound with _ | _ | _ <;> decide
  have named := names feature counted
  simp only [isCanonical, Option.all_none, Bool.and_true] at named
  have value : isValue (toString count).toList = true := by
    rw [Nat.toString_eq_repr, Nat.toList_repr]
    exact isValue_of_digits Nat.toDigits_ne_nil (all_isDigit_toDigits count)
  simp only [isCanonical, ofCount, Option.all_some, value, Bool.and_true]
  exact named

/-- What the environment has satisfies the bound of a test of a count. -/
def Admits (bound : Option MediaBound) (count actual : Nat) : Prop :=
  match bound with
  | none => actual = count
  | some .min => count ≤ actual
  | some .max => actual ≤ count

instance (bound : Option MediaBound) (count actual : Nat) : Decidable (Admits bound count actual) :=
  match bound with
  | none => inferInstanceAs (Decidable (actual = count))
  | some .min => inferInstanceAs (Decidable (count ≤ actual))
  | some .max => inferInstanceAs (Decidable (actual ≤ count))

theorem compareIntegers_natCast (count actual : Nat) :
    MediaBound.compareIntegers bound actual count = decide (Admits bound count actual) := by
  rcases bound with _ | _ | _ <;>
    exact decide_eq_decide.mpr (by simp only [Admits, Nat.cast_inj, Nat.cast_le])

/-- A test tells any two counts apart. -/
theorem forall_admits_iff (bound : Option MediaBound) {count other : Nat} :
    (∀ actual, Admits bound count actual ↔ Admits bound other actual) ↔ count = other := by
  constructor
  · intro same
    rcases bound with _ | _ | _
    · exact (same count).mp rfl
    · exact Nat.le_antisymm ((same other).mpr le_rfl) ((same count).mp le_rfl)
    · exact Nat.le_antisymm ((same count).mp le_rfl) ((same other).mpr le_rfl)
  · rintro rfl actual
    rfl

/-- The count with which a test compares: its own one if that is positive and can be read. -/
def comparedCount (count : Nat) : Nat :=
  if 0 < count ∧ count < 10 ^ Number.maxIntegerDigits then count else 1

theorem comparedCount_eq_self_iff {count : Nat} :
    comparedCount count = count ↔ 0 < count ∧ count < 10 ^ Number.maxIntegerDigits := by
  unfold comparedCount
  split
  · rename_i known
    exact iff_of_true rfl known
  · rename_i other
    have large : 1 < 10 ^ Number.maxIntegerDigits := Nat.one_lt_pow (by decide) (by decide)
    refine iff_of_false (fun same => other ?_) other
    subst same
    exact ⟨Nat.one_pos, large⟩

/-- The text of a count is compared as the count, or as one where it is zero or cannot be read. -/
theorem count_toString (count : Nat) :
    Quantity.count 1 (.text (toString count)) = .ok (comparedCount count) := by
  simp only [Quantity.count, Number.readInteger?_toString, comparedCount]
  by_cases few : count < 10 ^ Number.maxIntegerDigits
  · by_cases none : count = 0
    · simp [none]
    · simp [few, none, Nat.pos_of_ne_zero none]
  · simp [few]

/-- A test of a count holds where the environment has a count that it admits. -/
theorem isMatch_ofCount (counted : feature ∈ countFeatures) (count : Nat)
    {environment : Environment} {actual : Nat}
    (held : environment.get? feature = some (.integer actual)) :
    (ofCount bound feature count).isMatch environment =
      .ok (decide (Admits bound (comparedCount count) actual)) := by
  have compared : comparison feature = .counts := by
    have checked : ∀ feature ∈ countFeatures, comparison feature = .counts := by decide
    exact checked feature counted
  have given : (FeatureValue.integer actual).isMissing = false := by
    simp [FeatureValue.isMissing]
  have own : Quantity.count 0 (.integer actual) = .ok (actual : Int) := by
    by_cases none : actual = 0 <;> simp [Quantity.count, none]
  simp only [isMatch, ofCount, held, given, matchValue, compared, own, count_toString, bind,
    Except.bind, pure, Except.pure, compareIntegers_natCast, Bool.false_eq_true, ↓reduceIte]

end MediaExpression

open MediaExpression

/-- A test of a count in an environment that has the count is read, and it compares with the count
of the test, or with one in its place.  So it compares as its text tells if and only if the count of
the test is positive and can be read. -/
theorem MediaQuery.matchAny_count_iff {feature : String} (counted : feature ∈ countFeatures)
    (bound : Option MediaBound) (count : Nat) :
    ∃ queries, parse? (ofCount bound feature count).text = some queries ∧
      (∀ (environment : Environment) (actual : Nat),
        environment.get? feature = some (.integer actual) →
          matchAny environment queries =
            .ok (decide (Admits bound (comparedCount count) actual))) ∧
      ((∀ (environment : Environment) (actual : Nat),
          environment.get? feature = some (.integer actual) →
            matchAny environment queries = .ok (decide (Admits bound count actual))) ↔
        0 < count ∧ count < 10 ^ Number.maxIntegerDigits) := by
  have compares : ∀ (environment : Environment) (actual : Nat),
      environment.get? feature = some (.integer actual) →
        matchAny environment [ofTest (ofCount bound feature count)] =
          .ok (decide (Admits bound (comparedCount count) actual)) := by
    intro environment actual held
    rw [matchAny_ofTest, isMatch_ofCount counted count held]
  refine ⟨_, parse?_test (isCanonical_ofCount counted count), compares, ?_⟩
  rw [← comparedCount_eq_self_iff]
  constructor
  · intro told
    refine (forall_admits_iff bound).mp fun actual => ?_
    have held : (Table.ofList [(feature, FeatureValue.integer actual)]).get? feature =
        some (.integer actual) := by simp [Table.ofList, Table.insertAll, Table.get?_insert]
    have same := (compares _ actual held).symm.trans (told _ actual held)
    simpa using same
  · intro same environment actual held
    rw [compares environment actual held, same]

/-- The query for zero colors does not hold where there are none, but where there is one. -/
theorem MediaQuery.not_matchAny_of_zeroColors :
    (ofCount none "color" 0).text = "(color: 0)" ∧
      parse? "(color: 0)" = some [⟨false, "all", [⟨none, "color", some "0"⟩]⟩] ∧
      matchAny (.ofList [("color", .integer 0)]) [⟨false, "all", [⟨none, "color", some "0"⟩]⟩] =
        .ok false ∧
      matchAny (.ofList [("color", .integer 1)]) [⟨false, "all", [⟨none, "color", some "0"⟩]⟩] =
        .ok true := by
  decide +kernel

theorem MediaQuery.matchAny_count_iff_of_colorIndex :
    "color-index" ∈ countFeatures ∧
      (ofCount (some .min) "color-index" 256).text = "(min-color-index: 256)" ∧
      (0 < 256 ∧ 256 < 10 ^ Number.maxIntegerDigits) ∧
      ∃ queries, parse? "(min-color-index: 256)" = some queries ∧
        (Table.ofList [("color-index", FeatureValue.integer 256)]).get? "color-index" =
          some (.integer 256) ∧
        matchAny (.ofList [("color-index", .integer 256)]) queries = .ok true ∧
        (Table.ofList [("color-index", FeatureValue.integer 255)]).get? "color-index" =
          some (.integer 255) ∧
        matchAny (.ofList [("color-index", .integer 255)]) queries = .ok false := by
  have counted : "color-index" ∈ countFeatures := by decide
  have positive : 0 < 256 ∧ 256 < 10 ^ Number.maxIntegerDigits := by
    refine ⟨by decide, ?_⟩
    calc 256 < 10 ^ 3 := by decide
      _ ≤ 10 ^ Number.maxIntegerDigits := Nat.pow_le_pow_right (by decide) (by decide)
  obtain ⟨queries, parsed, -, compares⟩ := matchAny_count_iff counted (some .min) 256
  have told := compares.mpr positive
  have written : (ofCount (some .min) "color-index" 256).text = "(min-color-index: 256)" := by
    decide +kernel
  rw [written] at parsed
  exact ⟨counted, written, positive, queries, parsed, rfl, told _ 256 rfl, rfl, told _ 255 rfl⟩

end StyleObjects
