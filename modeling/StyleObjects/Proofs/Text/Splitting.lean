import StyleObjects.Text.Blank
import StyleObjects.Text.Split

/-!
# Pieces of a text

The pieces of a text are those of its first part and those of its rest, of which the two at the seam
belong together.  A splitter cuts a text in one state of its scan only, and takes nothing off the
pieces that the scan would see.  So two texts that meet at a separator have the parts of both, and
parts that are joined by separators come apart again.
-/

namespace StyleObjects.Text

/-! ## Pieces of a text in two parts -/

section Pieces

variable {σ : Type} {next : σ → Char → σ} {cuts : σ → Char → Bool}

theorem splitScanning_ne_nil (next : σ → Char → σ) (cuts : σ → Char → Bool)
    (state : σ) (cs : List Char) : splitScanning next cuts state cs ≠ [] := by
  cases cs with
  | nil => simp [splitScanning]
  | cons c cs =>
      simp only [splitScanning]
      split
      · simp
      · cases splitScanning next cuts (next state c) cs <;> simp [extendFirst]

theorem subset_of_mem_splitScanning {cs piece : List Char} {state : σ}
    (member : piece ∈ splitScanning next cuts state cs) : piece ⊆ cs := by
  induction cs generalizing piece state with
  | nil => simp_all [splitScanning]
  | cons c cs ih =>
      simp only [splitScanning] at member
      split at member
      · rcases List.mem_cons.mp member with rfl | member
        · exact List.nil_subset _
        · exact List.subset_cons_of_subset c (ih member)
      · cases pieces : splitScanning next cuts (next state c) cs with
        | nil => simp_all [extendFirst]
        | cons first others =>
            rw [pieces, extendFirst] at member
            rcases List.mem_cons.mp member with rfl | member
            · exact List.cons_subset_cons c (ih (pieces ▸ List.mem_cons_self))
            · exact List.subset_cons_of_subset c (ih (pieces ▸ List.mem_cons_of_mem first member))

/-- Pieces of two texts, when the last one of the first text and the first one of the second belong
together. -/
def joinPieces : List (List Char) → List (List Char) → List (List Char)
  | [], pieces => pieces
  | piece :: [], [] => [piece]
  | piece :: [], other :: others => (piece ++ other) :: others
  | piece :: next :: pieces, others => piece :: joinPieces (next :: pieces) others

theorem joinPieces_cons (piece : List Char) {pieces : List (List Char)} (filled : pieces ≠ [])
    (others : List (List Char)) :
    joinPieces (piece :: pieces) others = piece :: joinPieces pieces others := by
  cases pieces with
  | nil => exact absurd rfl filled
  | cons next pieces => rfl

theorem joinPieces_extendFirst (c : Char) {pieces others : List (List Char)}
    (filled : pieces ≠ []) :
    joinPieces (extendFirst c pieces) others = extendFirst c (joinPieces pieces others) := by
  cases pieces with
  | nil => exact absurd rfl filled
  | cons piece pieces =>
      cases pieces with
      | nil => cases others <;> rfl
      | cons next pieces => rfl

/-- Pieces that begin with a cut stay apart from those before them. -/
theorem joinPieces_nil_cons {pieces : List (List Char)} (filled : pieces ≠ [])
    (others : List (List Char)) : joinPieces pieces ([] :: others) = pieces ++ others := by
  induction pieces with
  | nil => exact absurd rfl filled
  | cons piece pieces ih =>
      cases pieces with
      | nil => simp [joinPieces]
      | cons next pieces =>
          have more := List.cons_ne_nil next pieces
          rw [joinPieces_cons piece more, ih more]
          rfl

/-- A text is cut where its first part is, and where the scan cuts the rest after it. -/
theorem splitScanning_append (state : σ) (cs rest : List Char) :
    splitScanning next cuts state (cs ++ rest) =
      joinPieces (splitScanning next cuts state cs)
        (splitScanning next cuts (cs.foldl next state) rest) := by
  induction cs generalizing state with
  | nil =>
      rcases List.exists_cons_of_ne_nil (splitScanning_ne_nil next cuts state rest) with
        ⟨piece, pieces, cut⟩
      simp [splitScanning, joinPieces, cut]
  | cons c cs ih =>
      have filled := splitScanning_ne_nil next cuts (next state c) cs
      simp only [List.cons_append, splitScanning, ih, List.foldl_cons]
      cases cuts state c with
      | true => exact (joinPieces_cons [] filled _).symm
      | false => exact (joinPieces_extendFirst c filled).symm

/-- A text that is cut at a character has the pieces before it and those after it. -/
theorem splitScanning_append_cons {state : σ} {cs : List Char} {c : Char}
    (cut : cuts (cs.foldl next state) c = true) (rest : List Char) :
    splitScanning next cuts state (cs ++ c :: rest) =
      splitScanning next cuts state cs ++
        splitScanning next cuts (next (cs.foldl next state) c) rest := by
  rw [splitScanning_append, splitScanning, if_pos cut]
  exact joinPieces_nil_cons (splitScanning_ne_nil next cuts state cs) _

/-- A text is one piece, or it is cut for the first time at some character. -/
theorem splitScanning_eq (state : σ) (cs : List Char) :
    splitScanning next cuts state cs = [cs] ∨
      ∃ first c rest, cs = first ++ c :: rest ∧ cuts (first.foldl next state) c = true ∧
        splitScanning next cuts state cs =
          first :: splitScanning next cuts (next (first.foldl next state) c) rest := by
  induction cs generalizing state with
  | nil => exact .inl rfl
  | cons c cs ih =>
      cases here : cuts state c with
      | true => exact .inr ⟨[], c, cs, rfl, here, by simp [splitScanning, here]⟩
      | false =>
          rcases ih (next state c) with whole | ⟨first, separator, rest, split, later, cut⟩
          · exact .inl (by simp [splitScanning, here, whole, extendFirst])
          · exact .inr ⟨c :: first, separator, rest, by rw [split]; rfl, later,
              by simp [splitScanning, here, cut, extendFirst]⟩

/-- A character that cuts in no state stands in one of the pieces. -/
theorem exists_mem_splitScanning {c : Char} (kept : ∀ state, cuts state c = false)
    {cs : List Char} (member : c ∈ cs) (state : σ) :
    ∃ piece ∈ splitScanning next cuts state cs, c ∈ piece := by
  induction cs generalizing state with
  | nil => cases member
  | cons d cs ih =>
      rcases List.exists_cons_of_ne_nil (splitScanning_ne_nil next cuts (next state d) cs) with
        ⟨piece, pieces, cut⟩
      simp only [splitScanning]
      rcases List.mem_cons.mp member with rfl | later
      · rw [kept state, cut]
        exact ⟨c :: piece, List.mem_cons_self, List.mem_cons_self⟩
      · rcases ih later (next state d) with ⟨found, inside, stands⟩
        split
        · exact ⟨found, List.mem_cons_of_mem _ inside, stands⟩
        · rw [cut] at inside ⊢
          rcases List.mem_cons.mp inside with rfl | inside
          · exact ⟨d :: found, List.mem_cons_self, List.mem_cons_of_mem d stands⟩
          · exact ⟨found, List.mem_cons_of_mem _ inside, stands⟩

/-- What stands behind a separator can be put in front of the texts after it. -/
theorem intercalate_cons_eq (separator : Char) (behind first : List Char)
    (others : List (List Char)) :
    (separator :: behind).intercalate (first :: others) =
      [separator].intercalate (first :: others.map (behind ++ ·)) := by
  have moved (text : List Char) (texts : List (List Char)) :
      [separator].intercalate ((behind ++ text) :: texts) =
        behind ++ [separator].intercalate (text :: texts) := by
    cases texts with
    | nil => simp
    | cons next texts => simp [List.intercalate_cons_cons]
  induction others generalizing first with
  | nil => rfl
  | cons next others ih =>
      rw [List.map_cons, List.intercalate_cons_cons, List.intercalate_cons_cons, moved, ih]
      simp

/-- Joining strings joins their characters. -/
theorem toList_intercalate_ofList (separator : String) (parts : List (List Char)) :
    (separator.intercalate (parts.map String.ofList)).toList =
      separator.toList.intercalate parts := by
  have same : (parts.map String.ofList).map String.toList = parts := by
    rw [List.map_map]
    exact (List.map_congr_left fun part _ => String.toList_ofList).trans (List.map_id parts)
  rw [String.toList_intercalate, same]

/-! ## Texts that are one piece -/

/-- A scan from a state cuts a text nowhere. -/
def IsWhole (next : σ → Char → σ) (cuts : σ → Char → Bool) (state : σ) (cs : List Char) : Prop :=
  splitScanning next cuts state cs = [cs]

theorem isWhole_nil (state : σ) : IsWhole next cuts state [] := rfl

theorem isWhole_cons_iff {state : σ} {c : Char} {cs : List Char} :
    IsWhole next cuts state (c :: cs) ↔
      cuts state c = false ∧ IsWhole next cuts (next state c) cs := by
  unfold IsWhole
  simp only [splitScanning]
  cases cuts state c with
  | true => simp
  | false =>
      rcases List.exists_cons_of_ne_nil (splitScanning_ne_nil next cuts (next state c) cs) with
        ⟨piece, pieces, cut⟩
      simp [cut, extendFirst]

theorem isWhole_append_iff {state : σ} {cs rest : List Char} :
    IsWhole next cuts state (cs ++ rest) ↔
      IsWhole next cuts state cs ∧ IsWhole next cuts (cs.foldl next state) rest := by
  induction cs generalizing state with
  | nil => simp [isWhole_nil]
  | cons c cs ih => rw [List.cons_append, isWhole_cons_iff, isWhole_cons_iff, ih, and_assoc]; rfl

/-- A text is one piece if the scan would cut at none of its characters. -/
theorem isWhole_iff {state : σ} {cs : List Char} :
    IsWhole next cuts state cs ↔
      ∀ before c after, cs = before ++ c :: after → cuts (before.foldl next state) c = false := by
  constructor
  · rintro whole before c after rfl
    rw [isWhole_append_iff, isWhole_cons_iff] at whole
    exact whole.2.1
  · intro kept
    rcases splitScanning_eq state cs with whole | ⟨first, c, rest, split, cut, -⟩
    · exact whole
    · exact absurd cut (by simp [kept first c rest split])

end Pieces

/-! ## Splitters -/

/-- A way to cut texts into parts.  The blanks that it takes off the pieces are nothing that its scan
sees. -/
structure Splitter (σ : Type) where
  next : σ → Char → σ
  cuts : σ → Char → Bool
  /-- The state in which a scan begins, and the only one in which it cuts. -/
  home : σ
  /-- A piece without its superfluous blanks. -/
  tidy : List Char → List Char
  eq_home : ∀ {state c}, cuts state c = true → state = home
  next_home : ∀ {c}, cuts home c = true → next home c = home
  tidy_nil : tidy [] = []
  tidy_append : ∀ {blanks}, blanks.all isBlank = true → ∀ cs, tidy (blanks ++ tidy cs) = tidy cs
  isWhole_tidy : ∀ {cs}, IsWhole next cuts home cs → IsWhole next cuts home (tidy cs)
  foldl_tidy : ∀ cs, (tidy cs).foldl next home = cs.foldl next home

namespace Splitter

variable {σ : Type} (splitter : Splitter σ)

/-- The state after a text. -/
def scan (cs : List Char) : σ :=
  cs.foldl splitter.next splitter.home

/-- The pieces of a text. -/
def pieces (cs : List Char) : List (List Char) :=
  splitScanning splitter.next splitter.cuts splitter.home cs

/-- The text is one piece. -/
def Whole (cs : List Char) : Prop :=
  splitter.pieces cs = [cs]

/-- The tidy pieces that are not empty. -/
def visible (pieces : List (List Char)) : List (List Char) :=
  (pieces.map splitter.tidy).filter (!·.isEmpty)

/-- The parts of a text. -/
def parts (cs : List Char) : List (List Char) :=
  splitter.visible (splitter.pieces cs)

theorem visible_append (pieces others : List (List Char)) :
    splitter.visible (pieces ++ others) = splitter.visible pieces ++ splitter.visible others := by
  simp [visible]

/-- No part is empty, and each is a tidy piece. -/
theorem exists_of_mem_parts {cs part : List Char} (member : part ∈ splitter.parts cs) :
    part ≠ [] ∧ ∃ piece, splitter.tidy piece = part := by
  simp only [parts, visible, List.mem_filter, List.mem_map, Bool.not_eq_true',
    List.isEmpty_eq_false_iff] at member
  obtain ⟨⟨piece, -, tidied⟩, filled⟩ := member
  exact ⟨filled, piece, tidied⟩

/-- Parts are their own visible pieces, also with blanks in front of them. -/
theorem visible_map_append {blanks : List Char} (blank : blanks.all isBlank = true)
    {parts : List (List Char)}
    (tidied : ∀ part ∈ parts, part ≠ [] ∧ ∃ piece, splitter.tidy piece = part) :
    splitter.visible (parts.map (blanks ++ ·)) = parts := by
  have tidy : (parts.map (blanks ++ ·)).map splitter.tidy = parts := by
    have same : ∀ part ∈ parts, splitter.tidy (blanks ++ part) = id part := by
      intro part member
      obtain ⟨-, piece, rfl⟩ := tidied part member
      exact splitter.tidy_append blank piece
    rw [List.map_map]
    exact (List.map_congr_left same).trans (List.map_id parts)
  rw [visible, tidy, List.filter_eq_self]
  intro part member
  simp [(tidied part member).1]

variable {splitter} {separator : Char} (cut : splitter.cuts splitter.home separator = true)

include cut

theorem pieces_append {cs : List Char} (outside : splitter.scan cs = splitter.home)
    (rest : List Char) :
    splitter.pieces (cs ++ separator :: rest) = splitter.pieces cs ++ splitter.pieces rest := by
  have seam : splitter.cuts (cs.foldl splitter.next splitter.home) separator = true := by
    rw [← scan, outside]
    exact cut
  rw [pieces, splitScanning_append_cons seam, ← scan, outside, splitter.next_home cut]
  rfl

/-- Two texts that meet at a separator have the parts of both. -/
theorem parts_append {cs : List Char} (outside : splitter.scan cs = splitter.home)
    (rest : List Char) :
    splitter.parts (cs ++ separator :: rest) = splitter.parts cs ++ splitter.parts rest := by
  rw [parts, pieces_append cut outside, visible_append]
  rfl

omit cut

/-- Texts that are one piece each; only the last one may leave the scan in another state. -/
inductive Settled (splitter : Splitter σ) : List (List Char) → Prop where
  | nil : Settled splitter []
  | last {piece : List Char} : splitter.Whole piece → Settled splitter [piece]
  | cons {piece : List Char} {pieces : List (List Char)} : splitter.Whole piece →
      splitter.scan piece = splitter.home → Settled splitter pieces →
      Settled splitter (piece :: pieces)

/-- The pieces of a text are such texts, since a scan goes on after a cut as it has begun. -/
theorem settled_pieces (cs : List Char) : splitter.Settled (splitter.pieces cs) := by
  cases splitScanning_eq splitter.home cs with
  | inl whole =>
      rw [pieces, whole]
      exact .last whole
  | inr found =>
      obtain ⟨first, c, rest, split, cut, cutPieces⟩ := found
      have outside : splitter.scan first = splitter.home := splitter.eq_home cut
      rw [← scan, outside] at cut
      rw [← pieces, ← scan, outside, splitter.next_home cut, ← pieces] at cutPieces
      have seam := pieces_append cut outside rest
      rw [← split, cutPieces, ← List.singleton_append, List.append_cancel_right_eq] at seam
      have shorter : rest.length < cs.length := by
        rw [split, List.length_append, List.length_cons]
        omega
      rw [cutPieces]
      exact .cons seam.symm outside (settled_pieces rest)
termination_by cs.length

/-- A change that a scan does not see keeps such texts as they are. -/
theorem Settled.map {pieces : List (List Char)} (settled : splitter.Settled pieces)
    {change : List Char → List Char}
    (whole : ∀ {cs}, splitter.Whole cs → splitter.Whole (change cs))
    (unseen : ∀ cs, splitter.scan (change cs) = splitter.scan cs) :
    splitter.Settled (pieces.map change) := by
  induction settled with
  | nil => exact .nil
  | last piece => exact .last (whole piece)
  | cons piece outside others ih => exact .cons (whole piece) ((unseen _).trans outside) ih

theorem Settled.filter {pieces : List (List Char)} (settled : splitter.Settled pieces)
    (keeps : List Char → Bool) : splitter.Settled (pieces.filter keeps) := by
  induction settled with
  | nil => exact .nil
  | @last piece whole =>
      rw [List.filter_cons, List.filter_nil]
      split
      · exact .last whole
      · exact .nil
  | @cons piece pieces whole outside others ih =>
      rw [List.filter_cons]
      split
      · exact .cons whole outside ih
      · exact ih

theorem settled_parts (cs : List Char) : splitter.Settled (splitter.parts cs) :=
  ((settled_pieces cs).map splitter.isWhole_tidy splitter.foldl_tidy).filter _

/-- Only the last of some whole pieces may leave the scan in another state. -/
theorem settled_of_dropLast {pieces : List (List Char)}
    (whole : ∀ piece ∈ pieces, splitter.Whole piece)
    (outside : ∀ piece ∈ pieces.dropLast, splitter.scan piece = splitter.home) :
    splitter.Settled pieces := by
  induction pieces with
  | nil => exact .nil
  | cons piece pieces ih =>
      rw [List.forall_mem_cons] at whole
      cases pieces with
      | nil => exact .last whole.1
      | cons next pieces =>
          rw [List.dropLast_cons_cons, List.forall_mem_cons] at outside
          exact .cons whole.1 outside.1 (ih whole.2 outside.2)

theorem Settled.whole {pieces : List (List Char)} (settled : splitter.Settled pieces)
    {piece : List Char} (member : piece ∈ pieces) : splitter.Whole piece := by
  induction settled with
  | nil => cases member
  | last whole =>
      rw [List.mem_singleton] at member
      exact member ▸ whole
  | cons whole outside others ih =>
      cases List.mem_cons.mp member with
      | inl same => exact same ▸ whole
      | inr later => exact ih later

/-- A part of a text is its own only part. -/
theorem parts_of_mem_parts {cs part : List Char} (member : part ∈ splitter.parts cs) :
    splitter.parts part = [part] := by
  have whole : splitter.pieces part = [part] := (settled_parts cs).whole member
  have alone := splitter.visible_map_append (rfl : [].all isBlank = true)
    (List.forall_mem_singleton.mpr (splitter.exists_of_mem_parts member))
  rw [List.map_singleton, List.nil_append] at alone
  rw [parts, whole, alone]

include cut

/-- Such texts come apart again when they are joined by separators. -/
theorem Settled.pieces_intercalate {first : List Char} {others : List (List Char)}
    (settled : splitter.Settled (first :: others)) :
    splitter.pieces ([separator].intercalate (first :: others)) = first :: others := by
  induction others generalizing first with
  | nil =>
      cases settled with
      | last whole => rwa [List.intercalate_singleton]
      | cons whole outside others => rwa [List.intercalate_singleton]
  | cons next others ih =>
      cases settled with
      | cons whole outside rest =>
          rw [List.intercalate_cons_cons, List.append_assoc, List.singleton_append,
            pieces_append cut outside, ih rest, whole]
          rfl

/-- Tidy pieces that are joined by a separator with blanks after it come apart again, where a scan
sees nothing of the blanks. -/
theorem Settled.parts_intercalate {parts : List (List Char)} (settled : splitter.Settled parts)
    (tidy : ∀ part ∈ parts, part ≠ [] ∧ ∃ piece, splitter.tidy piece = part)
    {blanks : List Char} (blank : blanks.all isBlank = true)
    (unseen : ∀ {cs}, splitter.Whole cs → splitter.Whole (blanks ++ cs))
    (stays : ∀ cs, splitter.scan (blanks ++ cs) = splitter.scan cs) :
    splitter.parts ((separator :: blanks).intercalate parts) = parts := by
  cases parts with
  | nil => simp [Splitter.parts, visible, pieces, splitScanning, splitter.tidy_nil]
  | cons first others =>
      have spaced : splitter.Settled (first :: others.map (blanks ++ ·)) := by
        cases settled with
        | last whole => exact .last whole
        | cons whole outside rest => exact .cons whole outside (rest.map unseen stays)
      have alone := splitter.visible_map_append (rfl : [].all isBlank = true)
        (List.forall_mem_singleton.mpr (tidy first List.mem_cons_self))
      have behind := splitter.visible_map_append blank
        fun part member => tidy part (List.mem_cons_of_mem first member)
      rw [List.map_singleton, List.nil_append] at alone
      rw [intercalate_cons_eq, Splitter.parts, spaced.pieces_intercalate cut,
        ← List.singleton_append, visible_append, alone, behind, List.singleton_append]

/-- The parts of a text come apart again. -/
theorem parts_intercalate {blanks : List Char} (blank : blanks.all isBlank = true)
    (unseen : ∀ {cs}, splitter.Whole cs → splitter.Whole (blanks ++ cs))
    (stays : ∀ cs, splitter.scan (blanks ++ cs) = splitter.scan cs) (cs : List Char) :
    splitter.parts ((separator :: blanks).intercalate (splitter.parts cs)) =
      splitter.parts cs :=
  (settled_parts cs).parts_intercalate cut (fun _ => splitter.exists_of_mem_parts) blank unseen
    stays

end Splitter

end StyleObjects.Text
