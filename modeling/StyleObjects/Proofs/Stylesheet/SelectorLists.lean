import StyleObjects.Proofs.Stylesheet.Canonical
import StyleObjects.Proofs.Text.Blanks

/-!
# Selector lists that meet at a comma

Blanks open and close no bracket and separate no selectors.  So two lists that meet at a comma
outside of brackets have the selectors of both, and selectors that are joined by commas and spaces
come apart again.
-/

namespace StyleObjects

open Text

namespace Selector

/-- A blank is neither a bracket nor a comma. -/
theorem ne_of_isBlank {c : Char} (blank : isBlank c = true) :
    ∀ mark ∈ ['(', '[', ')', ']', ','], c ≠ mark := by
  have marks : ['(', '[', ')', ']', ','].all (!isBlank ·) = true := by decide
  rintro mark member rfl
  have visible := List.all_eq_true.mp marks c member
  simp [blank] at visible

theorem staysOnBlanks (depth : Nat) : StaysOnBlanks bracketDepth depth := by
  intro c blank
  have other := ne_of_isBlank blank
  simp only [List.forall_mem_cons] at other
  simp [bracketDepth, other]

theorem separates_of_isBlank (depth : Nat) (c : Char) (blank : isBlank c = true) :
    separates depth c = false := by
  have other := ne_of_isBlank blank
  simp only [List.forall_mem_cons] at other
  simp [separates, other]

theorem normalize_append_normalize {blanks : List Char} (blank : blanks.all isBlank = true)
    (cs : List Char) : normalize (blanks ++ normalize cs) = normalize cs := by
  by_cases nothing : normalize cs = []
  · rw [nothing, List.append_nil, Text.normalize]
    exact trim_of_blank (Stylesheet.all_isBlank_collapse blank)
  · have alone := Stylesheet.normalize_surrounded blank nothing
      (Stylesheet.isCollapsed_normalize cs) (rfl : [].all isBlank = true)
    rwa [List.append_nil] at alone

/-- The way in which lists of selectors are cut. -/
def splitter : Splitter Nat where
  next := bracketDepth
  cuts := separates
  home := 0
  tidy := normalize
  eq_home := by
    intro depth c cut
    rw [separates, Bool.and_eq_true] at cut
    exact eq_of_beq cut.1
  next_home := by
    intro c cut
    rw [separates, Bool.and_eq_true] at cut
    rw [eq_of_beq cut.2]
    rfl
  tidy_nil := rfl
  tidy_append := normalize_append_normalize
  isWhole_tidy := fun whole =>
    (staysOnBlanks 0).isWhole_trim (isWhole_collapse staysOnBlanks separates_of_isBlank whole)
  foldl_tidy := fun cs =>
    ((staysOnBlanks 0).foldl_trim (collapse cs) (staysOnBlanks _)).trans
      (foldl_collapse staysOnBlanks 0 cs)

/-- The depth of brackets after a list. -/
def depthAfter (list : String) : Nat :=
  list.toList.foldl bracketDepth 0

theorem splitSelectors_eq (list : String) :
    splitSelectors list = (splitter.parts list.toList).map String.ofList := rfl

end Selector

open Selector

/-- Two lists of selectors that meet at a comma outside of brackets have the selectors of both.
Every selector is a text of words with single spaces between them, and selectors that are joined by
commas and spaces come apart again. -/
theorem splitSelectors_append_and_intercalate :
    (∀ first second : String, depthAfter first = 0 →
      splitSelectors (first ++ "," ++ second) = splitSelectors first ++ splitSelectors second) ∧
    ∀ list : String,
      (∀ selector ∈ splitSelectors list,
        selector ≠ "" ∧ Stylesheet.isCollapsed selector.toList = true) ∧
      splitSelectors (", ".intercalate (splitSelectors list)) = splitSelectors list := by
  have cut : splitter.cuts splitter.home ',' = true := rfl
  constructor
  · intro first second outside
    have meet : (first ++ "," ++ second).toList = first.toList ++ ',' :: second.toList := by simp
    rw [splitSelectors_eq, meet, Splitter.parts_append cut outside, List.map_append]
    rfl
  · intro list
    constructor
    · intro selector member
      obtain ⟨cs, listed, rfl⟩ := List.mem_map.mp member
      obtain ⟨filled, piece, rfl⟩ := splitter.exists_of_mem_parts listed
      constructor
      · intro empty
        exact filled (String.ofList_inj.mp empty)
      · rw [String.toList_ofList]
        exact Stylesheet.isCollapsed_normalize piece
    · have joined : (", ".intercalate (splitSelectors list)).toList =
          [',', ' '].intercalate (splitter.parts list.toList) :=
        toList_intercalate_ofList ", " _
      have again := Splitter.parts_intercalate cut (rfl : [' '].all isBlank = true)
        (fun whole => isWhole_cons_iff.mpr ⟨rfl, whole⟩) (fun _ => rfl) list.toList
      rw [splitSelectors_eq, joined, again, ← splitSelectors_eq]

/-- A bracket that closes none, commas in brackets, an empty entry, and a bracket without an end. -/
theorem splitSelectors_append_and_intercalate_of_openBracket :
    let first := ") :is(.a,\t[b,  c])"
    let second := " .d\n> .e, ,f(.g,  h "
    let selectors := [") :is(.a, [b, c])", ".d > .e", "f(.g, h"]
    depthAfter first = 0 ∧ splitSelectors (first ++ "," ++ second) = selectors ∧
      splitSelectors (", ".intercalate selectors) = selectors := by
  intro first second selectors
  have outside : depthAfter first = 0 := by decide
  have both : splitSelectors first ++ splitSelectors second = selectors := by decide +kernel
  have meet := splitSelectors_append_and_intercalate.1 first second outside
  have again := (splitSelectors_append_and_intercalate.2 (first ++ "," ++ second)).2
  rw [meet, both] at again
  exact ⟨outside, meet.trans both, again⟩

end StyleObjects
