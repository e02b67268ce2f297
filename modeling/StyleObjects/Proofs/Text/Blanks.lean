import StyleObjects.Proofs.Stylesheet.Queries
import StyleObjects.Proofs.Text.Splitting

/-!
# Blanks and scans

A scan that blanks leave where it is does not notice when a text is trimmed or collapsed: it ends in
the same state, and it cuts the text nowhere if it has not cut it before.
-/

namespace StyleObjects.Text

theorem trim_append_trim {blanks : List Char} (blank : blanks.all isBlank = true)
    (cs : List Char) : trim (blanks ++ trim cs) = trim cs := by
  have alone : trim (blanks ++ trim cs ++ []) = trim (trim cs) := trim_blanks_append blank rfl
  rwa [List.append_nil, trim_trim] at alone

/-- A text with a visible character at either end. -/
structure IsTrimmed (text : String) : Prop where
  filled : text ≠ ""
  first : ∀ c, text.toList.head? = some c → isBlank c = false
  last : ∀ c, text.toList.getLast? = some c → isBlank c = false

theorem IsTrimmed.trim_eq {text : String} (trimmed : IsTrimmed text) :
    trim text.toList = text.toList := by
  have filled : text.toList ≠ [] := fun empty => trimmed.filled (String.toList_eq_nil_iff.mp empty)
  apply Stylesheet.trim_of_visible
  · have first := List.head?_eq_some_head filled
    rw [first, Option.any_some, trimmed.first _ first]
    rfl
  · have last := List.getLast?_eq_some_getLast filled
    rw [last, Option.any_some, trimmed.last _ last]
    rfl

theorem IsTrimmed.append {first last : String} (opening : IsTrimmed first)
    (closing : IsTrimmed last) (between : String) : IsTrimmed (first ++ between ++ last) := by
  have start : first.toList ≠ [] := fun empty => opening.filled (String.toList_eq_nil_iff.mp empty)
  have ending : last.toList ≠ [] := fun empty => closing.filled (String.toList_eq_nil_iff.mp empty)
  constructor
  · intro empty
    have nothing := congrArg String.toList empty
    simp [start] at nothing
  · intro c head
    rw [String.toList_append, String.toList_append, List.append_assoc,
      List.head?_append_of_ne_nil _ start] at head
    exact opening.first c head
  · intro c final
    rw [String.toList_append, List.getLast?_append_of_ne_nil _ ending] at final
    exact closing.last c final

theorem isTrimmed_intercalate {text : String} {texts : List String}
    (trimmed : ∀ own ∈ text :: texts, IsTrimmed own) (separator : String) :
    IsTrimmed (separator.intercalate (text :: texts)) := by
  induction texts generalizing text with
  | nil => simpa using trimmed
  | cons next texts ih =>
      rw [List.forall_mem_cons] at trimmed
      rw [String.intercalate_cons_cons]
      exact trimmed.1.append (ih trimmed.2) separator

section Scans

variable {σ : Type} {next : σ → Char → σ} {cuts : σ → Char → Bool} {state : σ}

/-- Blanks leave the scan in the state. -/
def StaysOnBlanks (next : σ → Char → σ) (state : σ) : Prop :=
  ∀ c, isBlank c = true → next state c = state

theorem StaysOnBlanks.foldl (stays : StaysOnBlanks next state) {blanks : List Char}
    (blank : blanks.all isBlank = true) : blanks.foldl next state = state := by
  induction blanks with
  | nil => rfl
  | cons c blanks ih =>
      rw [List.all_cons, Bool.and_eq_true] at blank
      rw [List.foldl_cons, stays c blank.1, ih blank.2]

theorem StaysOnBlanks.isWhole_trim (stays : StaysOnBlanks next state) {cs : List Char}
    (whole : IsWhole next cuts state cs) : IsWhole next cuts state (trim cs) := by
  obtain ⟨before, after, left, -, split⟩ := exists_trim cs
  rw [split, isWhole_append_iff, isWhole_append_iff, stays.foldl left] at whole
  exact whole.1.2

theorem StaysOnBlanks.foldl_trim (stays : StaysOnBlanks next state) (cs : List Char)
    (ending : StaysOnBlanks next ((trim cs).foldl next state)) :
    (trim cs).foldl next state = cs.foldl next state := by
  obtain ⟨before, after, left, right, split⟩ := exists_trim cs
  conv_rhs => rw [split, List.foldl_append, List.foldl_append, stays.foldl left,
    ending.foldl right]

variable (stays : ∀ state, StaysOnBlanks next state)

include stays

theorem foldl_collapse (state : σ) (cs : List Char) :
    (collapse cs).foldl next state = cs.foldl next state := by
  have space : isBlank ' ' = true := by decide
  induction cs generalizing state with
  | nil => rfl
  | cons c cs ih =>
      rw [collapse]
      split
      · rename_i blank
        rw [List.foldl_cons, stays state c blank]
        split
        · exact ih state
        · rw [List.foldl_cons, stays state ' ' space, ih state]
      · rw [List.foldl_cons, List.foldl_cons, ih]

theorem isWhole_collapse (kept : ∀ state c, isBlank c = true → cuts state c = false)
    {state : σ} {cs : List Char} (whole : IsWhole next cuts state cs) :
    IsWhole next cuts state (collapse cs) := by
  have space : isBlank ' ' = true := by decide
  induction cs generalizing state with
  | nil => exact whole
  | cons c cs ih =>
      rw [isWhole_cons_iff] at whole
      rw [collapse]
      split
      · rename_i blank
        rw [stays state c blank] at whole
        split
        · exact ih whole.2
        · rw [isWhole_cons_iff, stays state ' ' space]
          exact ⟨kept state ' ' space, ih whole.2⟩
      · exact isWhole_cons_iff.mpr ⟨whole.1, ih whole.2⟩

end Scans

end StyleObjects.Text
