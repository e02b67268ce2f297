import Mathlib.Data.List.Chain
import StyleObjects.Proofs.Stylesheet.Selectors
import StyleObjects.Proofs.Stylesheet.Written

/-!
# Query texts of a stylesheet that has been read

The text of a media rule is read up to its block and normalized: its words are separated by single
spaces, and it has no white space at its ends.
-/

namespace StyleObjects

open Text

/-! ## Normalized texts -/

/-- Two characters of which one at least is visible. -/
def Text.Apart (left right : Char) : Prop :=
  isBlank left = false ∨ isBlank right = false

theorem Text.head?_collapse (cs : List Char) :
    (collapse cs).head?.any isBlank = cs.head?.any isBlank := by
  have space : isBlank ' ' = true := by decide
  induction cs with
  | nil => rfl
  | cons c cs ih =>
      simp only [collapse]
      grind

/-- No two blanks are left side by side. -/
theorem Text.isChain_collapse (cs : List Char) : (collapse cs).IsChain Apart := by
  induction cs with
  | nil => exact .nil
  | cons c cs ih =>
      have apart (d : Char) (visible : isBlank d = false ∨ cs.head?.any isBlank = false) :
          (d :: collapse cs).IsChain Apart := by
        refine List.isChain_cons.mpr ⟨fun e start => visible.imp_right fun next => ?_, ih⟩
        rw [← head?_collapse, Option.mem_def.mp start] at next
        exact next
      simp only [collapse]
      split
      · split
        · exact ih
        · exact apart ' ' (.inr (by simp_all))
      · exact apart c (.inl (by simp_all))

theorem Text.isBlank_of_head?_dropWhile {cs : List Char} {c : Char}
    (first : (cs.dropWhile isBlank).head? = some c) : isBlank c = false := by
  have next := List.head?_dropWhile_not isBlank cs
  rw [first] at next
  exact next

theorem Text.trim_isPrefix (cs : List Char) : trim cs <+: skipBlanks cs := by
  rw [← List.reverse_suffix]
  simpa [trim, dropTrailingBlanks] using List.dropWhile_suffix isBlank

theorem Text.trim_isInfix (cs : List Char) : trim cs <:+: cs :=
  (trim_isPrefix cs).isInfix.trans (List.dropWhile_suffix isBlank).isInfix

theorem Text.isChain_normalize (cs : List Char) : (normalize cs).IsChain Apart := by
  rcases trim_isInfix (collapse cs) with ⟨left, right, whole⟩
  have chain := isChain_collapse cs
  rw [← whole] at chain
  exact chain.left_of_append.right_of_append

theorem Text.eq_space_of_mem_normalize {cs : List Char} {c : Char} (member : c ∈ normalize cs)
    (blank : isBlank c = true) : c = ' ' := by
  rcases eq_or_mem_of_mem_collapse (normalize_subset cs member) with space | ⟨-, visible⟩
  · exact space
  · rw [blank] at visible
    cases visible

theorem Text.isBlank_of_head?_trim {cs : List Char} {c : Char}
    (first : (trim cs).head? = some c) : isBlank c = false := by
  rcases trim_isPrefix cs with ⟨trailing, same⟩
  have untrimmed : (cs.dropWhile isBlank).head? = some c := by
    rw [← skipBlanks, ← same, List.head?_append, first, Option.some_or]
  exact isBlank_of_head?_dropWhile untrimmed

theorem Text.isBlank_of_getLast?_trim {cs : List Char} {c : Char}
    (last : (trim cs).getLast? = some c) : isBlank c = false := by
  rw [trim, dropTrailingBlanks, List.getLast?_reverse] at last
  exact isBlank_of_head?_dropWhile last

/-- The blanks that are dropped from the end of a text. -/
theorem Text.exists_dropTrailingBlanks (cs : List Char) :
    ∃ after, after.all isBlank = true ∧ cs = dropTrailingBlanks cs ++ after := by
  refine ⟨(cs.reverse.takeWhile isBlank).reverse, ?_, ?_⟩
  · rw [List.all_reverse]
    exact List.all_takeWhile
  · rw [dropTrailingBlanks, ← List.reverse_append, List.takeWhile_append_dropWhile,
      List.reverse_reverse]

/-- Trimming removes blanks at the two ends. -/
theorem Text.exists_trim (cs : List Char) : ∃ before after, before.all isBlank = true ∧
    after.all isBlank = true ∧ cs = before ++ trim cs ++ after := by
  obtain ⟨after, closes, trailing⟩ := exists_dropTrailingBlanks (skipBlanks cs)
  refine ⟨cs.takeWhile isBlank, after, List.all_takeWhile, closes, ?_⟩
  rw [List.append_assoc, trim, ← trailing]
  exact List.takeWhile_append_dropWhile.symm

theorem Text.trim_of_blank {cs : List Char} (blank : cs.all isBlank = true) : trim cs = [] := by
  rw [trim, skipBlanks, List.dropWhile_eq_nil_iff.mpr (List.all_eq_true.mp blank)]
  rfl

/-- Trimming leaves all visible characters. -/
theorem Text.count_trim {c : Char} (visible : isBlank c = false) (cs : List Char) :
    (trim cs).count c = cs.count c := by
  have unblanked {blanks : List Char} (blank : blanks.all isBlank = true) : blanks.count c = 0 := by
    rw [List.count_eq_zero]
    intro member
    rw [List.all_eq_true.mp blank c member] at visible
    cases visible
  rcases exists_trim cs with ⟨before, after, left, right, split⟩
  have counted := congrArg (List.count c) split
  rw [List.count_append, List.count_append, unblanked left, unblanked right] at counted
  omega

theorem Text.trim_ne_nil {cs : List Char} {c : Char} (member : c ∈ cs)
    (visible : isBlank c = false) : trim cs ≠ [] := by
  intro nothing
  have counted := count_trim visible cs
  rw [nothing, List.count_nil] at counted
  exact List.count_eq_zero.mp counted.symm member

/-- Blanks around a text are trimmed together with its own. -/
theorem Text.trim_blanks_append {before cs after : List Char} (left : before.all isBlank = true)
    (right : after.all isBlank = true) : trim (before ++ cs ++ after) = trim cs := by
  obtain ⟨front, back, opens, closes, split⟩ := exists_trim cs
  have starts : (before ++ front).all isBlank = true := by rw [List.all_append, left, opens]; rfl
  have ends : (back ++ after).all isBlank = true := by rw [List.all_append, closes, right]; rfl
  have whole : before ++ cs ++ after = (before ++ front) ++ trim cs ++ (back ++ after) := by
    conv_lhs => rw [split]
    simp only [List.append_assoc]
  rw [whole]
  by_cases nothing : trim cs = []
  · rw [nothing, List.append_nil]
    apply trim_of_blank
    rw [List.all_append, starts, ends]
    rfl
  · apply Stylesheet.trim_surrounded starts _ _ ends
    · rw [List.head?_eq_some_head nothing, Option.any_some,
        isBlank_of_head?_trim (List.head?_eq_some_head nothing)]
      rfl
    · rw [List.getLast?_eq_some_getLast nothing, Option.any_some,
        isBlank_of_getLast?_trim (List.getLast?_eq_some_getLast nothing)]
      rfl

theorem Text.trim_trim (cs : List Char) : trim (trim cs) = trim cs := by
  obtain ⟨before, after, opens, closes, split⟩ := exists_trim cs
  conv_rhs => rw [split]
  exact (trim_blanks_append opens closes).symm

namespace Stylesheet

/-- Spaces that are apart stand between visible characters where the text ends with one. -/
theorem isCollapsedAfter_of_isChain {cs : List Char} {afterSpace : Bool}
    (plain : ∀ c ∈ cs, isBlank c = true → c = ' ') (apart : cs.IsChain Apart)
    (last : ∀ c, cs.getLast? = some c → isBlank c = false)
    (first : afterSpace = true → cs.head?.any (!isBlank ·) = true) :
    isCollapsedAfter afterSpace cs = true := by
  have space : isBlank ' ' = true := by decide
  induction cs generalizing afterSpace with
  | nil => simpa [isCollapsedAfter] using first
  | cons c cs ih =>
      rw [List.forall_mem_cons] at plain
      rw [List.isChain_cons] at apart
      simp only [List.getLast?_cons, Option.some.injEq, forall_eq'] at last
      have others (d : Char) (ends : cs.getLast? = some d) : isBlank d = false := by
        simpa [ends] using last
      rw [isCollapsedAfter]
      split
      · -- A space is neither the last character nor next to another one.
        rename_i same
        have visible : cs.head?.any (!isBlank ·) = true := by
          cases cs with
          | nil => simp_all
          | cons d cs => simpa [same, Apart, space] using apart.1
        have before : afterSpace = false := by simpa [same, space] using first
        simp [before, ih plain.2 apart.2 others fun _ => visible]
      · rename_i other
        have visible : isBlank c = false := by simpa [other] using plain.1
        simp [visible, ih plain.2 apart.2 others]

/-- The text of a prelude is collapsed. -/
theorem isCollapsed_normalize (cs : List Char) : isCollapsed (normalize cs) = true := by
  cases text : normalize cs with
  | nil => rfl
  | cons c rest =>
      have starts : (trim (collapse cs)).head? = some c := congrArg List.head? text
      have collapsed : isCollapsedAfter true (normalize cs) = true := by
        apply isCollapsedAfter_of_isChain (fun c => eq_space_of_mem_normalize)
          (isChain_normalize cs) (fun c => isBlank_of_getLast?_trim)
        simp [text, isBlank_of_head?_trim starts]
      rw [text] at collapsed
      simp [isCollapsed, collapsed]

/-- The query of a media rule that is read is collapsed. -/
theorem isCollapsed_of_built {query : String} {rules : List Rule}
    (built : (Rule.media query rules).Built) : isCollapsed query.toList = true := by
  cases built with
  | media text nested =>
      rw [preludeOf, String.toList_ofList]
      exact isCollapsed_normalize text

end Stylesheet

end StyleObjects
