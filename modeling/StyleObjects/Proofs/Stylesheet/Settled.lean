import StyleObjects.Proofs.Stylesheet.Values

/-!
# Tokens that no continuation changes

A text with a mark in it settles its first token: whatever follows the text, the same token is
taken.  A value may hold semicolons in its groups, so only a brace settles it.
-/

namespace StyleObjects.Token

open Text

variable {α β : Type}

/-- A scanner takes the same off a text whatever follows the text. -/
def Settles (scan : List Char → Option (α × List Char)) (cs : List Char) : Prop :=
  ∀ more, scan (cs ++ more) = (scan cs).map (followedBy more)

/-! ## Preludes -/

/-- A run of characters ends before a mark, if no mark can be in it. -/
theorem run_append_of_marked {p : Char → Bool} (stops : ∀ c, isMark c = true → p c = false)
    {cs : List Char} (marked : cs.any isMark = true) (more : List Char) :
    (cs ++ more).takeWhile p = cs.takeWhile p ∧
      (cs ++ more).dropWhile p = cs.dropWhile p ++ more := by
  rcases List.any_eq_true.mp marked with ⟨c, member, mark⟩
  exact Lists.run_append_of_any (List.any_eq_true.mpr ⟨c, member, by simp [stops c mark]⟩) more

theorem settles_takeAtPrelude? {cs : List Char} (marked : cs.any isMark = true) :
    Settles takeAtPrelude? cs := by
  intro more
  have stop : ∀ c, isMark c = true → (!isMark c) = false := fun c mark => by rw [mark]; rfl
  have run := run_append_of_marked stop marked more
  simp only [takeAtPrelude?, run]
  cases cs.takeWhile (!isMark ·) <;> rfl

theorem settles_takePrelude? {cs : List Char} (marked : cs.any isMark = true) :
    Settles takePrelude? cs := by
  intro more
  cases cs with
  | nil => simp at marked
  | cons c cs =>
      have text := settles_takeAtPrelude? marked more
      simp only [List.cons_append] at text
      simp only [List.cons_append, takePrelude?, text]
      split <;> rfl

/-! ## Names -/

theorem takeDashes_append_of_marked (limit : Nat) {cs : List Char} (marked : cs.any isMark = true)
    (more : List Char) : takeDashes limit (cs ++ more) = followedBy more (takeDashes limit cs) := by
  fun_induction takeDashes limit cs with
  | case1 limit cs dashes rest taken ih =>
      rw [taken] at ih
      simp only [List.cons_append, takeDashes, ih (by simpa [isMark] using marked), followedBy]
  | case2 limit cs other =>
      cases limit with
      | zero => rfl
      | succ limit =>
          cases cs with
          | nil => simp at marked
          | cons c cs =>
              have apart : c ≠ '-' := fun same => other limit cs rfl (by rw [same])
              simp [takeDashes, apart, followedBy]

theorem settles_takeName? {starts : Char → Bool} (stops : ∀ c, isMark c = true → starts c = false)
    {cs : List Char} (marked : cs.any isMark = true) : Settles (takeName? starts) cs := by
  intro more
  cases cs with
  | nil => simp at marked
  | cons c cs =>
      cases starting : c.isAlpha || starts c with
      | false => simp [takeName?, starting]
      | true =>
          have later : cs.any isMark = true := by
            simpa [isMark_of_starts stops starting] using marked
          have run := run_append_of_marked
            (fun _ => Stylesheet.isNameChar_of_isMark) later more
          simp [takeName?, starting, run, followedBy]

theorem settles_takeAtKeyword? {cs : List Char} (marked : cs.any isMark = true) :
    Settles takeAtKeyword? cs := by
  intro more
  cases cs with
  | nil => simp at marked
  | cons c cs =>
      by_cases sign : c = '@'
      · subst sign
        have later : cs.any isMark = true := by simpa [isMark] using marked
        have name := settles_takeName? (fun _ _ => rfl)
          ((leaves_takeDashes 1 cs).any_isMark later) more
        rw [List.cons_append, takeAtKeyword?, takeAtKeyword?,
          takeDashes_append_of_marked 1 later more]
        simp only [followedBy, name, Option.map_map]
        rfl
      · rw [takeAtKeyword?_eq_none (by simpa using sign),
          takeAtKeyword?_eq_none (by simpa using sign)]
        rfl

/-- A keyword that no mark can be part of is found before a mark or not at all. -/
theorem dropKeyword?_append_of_marked {word : List Char}
    (letters : ∀ c, isMark c = true → foldChar c ∉ word) {cs : List Char}
    (marked : cs.any isMark = true) (more : List Char) :
    dropKeyword? word (cs ++ more) = (dropKeyword? word cs).map (· ++ more) ∧
      ∀ rest, dropKeyword? word cs = some rest → rest ≠ [] := by
  induction word generalizing cs with
  | nil =>
      refine ⟨rfl, fun rest taken => ?_⟩
      cases taken
      rintro rfl
      simp at marked
  | cons w word ih =>
      cases cs with
      | nil => simp at marked
      | cons c cs =>
          by_cases folded : foldChar c = w
          · have unmarked : isMark c = false := by
              rw [← Bool.not_eq_true]
              intro mark
              exact letters c mark (by simp [folded])
            have others : ∀ c, isMark c = true → foldChar c ∉ word := by
              intro d mark member
              exact letters d mark (List.mem_cons_of_mem w member)
            simpa [dropKeyword?, folded] using ih others (by simpa [unmarked] using marked)
          · simp [dropKeyword?, folded]

theorem settles_take?_mediaKeyword {cs : List Char} (marked : cs.any isMark = true) :
    Settles Kind.mediaKeyword.take? cs := by
  intro more
  simp only [Kind.take?]
  cases cs with
  | nil => simp at marked
  | cons c cs =>
      by_cases sign : c = '@'
      · subst sign
        have letters : ∀ c, isMark c = true → foldChar c ∉ ['m', 'e', 'd', 'i', 'a'] :=
          fun c mark => of_isMark (p := (foldChar · ∉ ['m', 'e', 'd', 'i', 'a'])) (by decide) mark
        have later : cs.any isMark = true := by simpa [isMark] using marked
        have word := dropKeyword?_append_of_marked letters later more
        rw [List.cons_append, takeMediaKeyword?, takeMediaKeyword?, word.1]
        cases dropped : dropKeyword? ['m', 'e', 'd', 'i', 'a'] cs with
        | none => rfl
        | some rest =>
            rcases List.exists_cons_of_ne_nil (word.2 rest dropped) with ⟨d, rest, rfl⟩
            cases boundary : isWord d <;> simp [boundary, followedBy]
      · rw [takeMediaKeyword?_eq_none (by simpa using sign),
          takeMediaKeyword?_eq_none (by simpa using sign)]
        rfl

/-! ## Properties and values -/

theorem settles_takeProperty? {cs : List Char} (unquoted : cs.all isUnquoted = true)
    (marked : cs.any isMark = true) : Settles takeProperty? cs := by
  intro more
  have dashes := leaves_takeDashes 2 cs
  have name := settles_takeName? startsProperty_of_isMark (dashes.any_isMark marked) more
  simp only [takeProperty?, takeDashes_append_of_marked 2 marked more, followedBy, name]
  cases taken : takeName? (· == '_') (takeDashes 2 cs).2 with
  | none => rfl
  | some found =>
      rcases found with ⟨word, rest⟩
      have named := dashes.trans (leaves_of_takeName? startsProperty_of_isMark taken)
      have later := named.any_isMark marked
      have blanks := leaves_dropWhile (fun _ => isBlank_of_isMark) rest
      simp only [Option.map_some, followedBy, Option.bind_some,
        (run_append_of_marked (fun _ => isBlank_of_isMark) later more).2]
      have further := blanks.any_isMark later
      have rests := blanks.suffix.trans named.suffix
      cases left : rest.dropWhile isBlank with
      | nil => simp [left] at further
      | cons c value =>
          rw [left] at further rests
          by_cases colon : c = ':'
          · subst colon
            have valued : value.any isMark = true := by simpa [isMark] using further
            have plain := Lists.all_of_suffix ((List.suffix_cons ':' value).trans rests) unquoted
            rw [List.cons_append]
            simp only [reachesEnd_append_of_marked plain valued more]
            split <;> rfl
          · simp [colon]

/-- A text with a brace in it settles a value. -/
theorem settles_takeValue? {cs : List Char} (unquoted : cs.all isUnquoted = true)
    (braced : cs.any isBrace = true) : Settles takeValue? cs := by
  intro more
  rcases List.any_eq_true.mp braced with ⟨brace, member, isEnd⟩
  rcases List.append_of_mem member with ⟨text, rest, rfl⟩
  simp only [List.all_append, Bool.and_eq_true] at unquoted
  have short := takeValue_append_brace unquoted.1 isEnd rest
  have long := takeValue_append_brace unquoted.1 isEnd (rest ++ more)
  simp only [List.append_assoc, List.cons_append, takeValue?, short, long, followedBy]
  cases (takeValue text).1 <;> simp [followedBy]

/-! ## Classes of tokens -/

theorem Settles.map {scan : List Char → Option (α × List Char)} {cs : List Char}
    (settled : Settles scan cs) (f : α → β) :
    Settles (fun cs => (scan cs).map fun (taken, rest) => (f taken, rest)) cs := by
  intro more
  simp only [settled more, Option.map_map]
  rfl

/-- A text with a mark settles every token but a value, which a brace settles. -/
theorem settles_take? {cs : List Char} (unquoted : cs.all isUnquoted = true)
    (marked : cs.any isMark = true) {kind : Kind}
    (braced : kind = .value → cs.any isBrace = true) : Settles kind.take? cs := by
  cases kind
  case mediaKeyword => exact settles_take?_mediaKeyword marked
  case property => exact (settles_takeProperty? unquoted marked).map Token.property
  case atKeyword => exact (settles_takeAtKeyword? marked).map Token.atKeyword
  case value => exact (settles_takeValue? unquoted (braced rfl)).map Token.value
  case prelude => exact (settles_takePrelude? marked).map Token.prelude
  case atPrelude => exact (settles_takeAtPrelude? marked).map Token.atPrelude
  case colon | openBrace | closeBrace | semicolon =>
    intro more
    cases cs with
    | nil => simp at marked
    | cons c cs =>
      simp only [Kind.take?, List.cons_append, takeMark?]
      split <;> rfl

/-- The first class that has a token is settled if every class is. -/
theorem settles_takeFirst? {kinds : List Kind} {cs : List Char}
    (settled : ∀ kind ∈ kinds, Settles kind.take? cs) : Settles (takeFirst? kinds) cs := by
  intro more
  induction kinds with
  | nil => rfl
  | cons kind kinds ih =>
      have first := settled kind List.mem_cons_self more
      have others := ih fun other member => settled other (List.mem_cons_of_mem kind member)
      cases taken : kind.take? cs with
      | none =>
          rw [taken, Option.map_none] at first
          rw [takeFirst?_cons_of_none first, takeFirst?_cons_of_none taken, others]
      | some found =>
          rw [taken, Option.map_some] at first
          rw [takeFirst?_cons first, takeFirst?_cons taken, Option.map_some]

end StyleObjects.Token
