import Mathlib.Data.List.Forall2
import Mathlib.Data.List.TakeWhile

/-!
# Lists

General laws of lists: what a function that can fail gives for all items of a list, what a run that
can fail keeps at every item, where runs of items of one kind end, and how a list comes apart.
-/

namespace StyleObjects.Lists

/-! ## Results for all items -/

section Results

variable {ε α β : Type} {items : List α}

/-- The items of a list have results together if and only if each of them has its own. -/
theorem mapM_eq_some_iff {image : α → Option β} {images : List β} :
    items.mapM image = some images ↔
      List.Forall₂ (fun item value => image item = some value) items images := by
  induction items generalizing images with
  | nil => simp
  | cons item items ih =>
      rw [List.mapM_cons, Option.bind_eq_bind, Option.bind_eq_some_iff]
      simp only [Option.bind_eq_bind, Option.bind_eq_some_iff, Option.pure_def, Option.some.injEq,
        List.forall₂_cons_left_iff, ih]
      tauto

/-- There are no results if one of the items has none. -/
theorem mapM_eq_none {image : α → Option β} {item : α} (member : item ∈ items)
    (failed : image item = none) : items.mapM image = none := by
  induction items with
  | nil => cases member
  | cons first items ih =>
      rw [List.mapM_cons]
      rcases List.mem_cons.mp member with rfl | later
      · rw [failed]
        rfl
      · rw [ih later]
        cases image first <;> rfl

/-- What holds of the result of every item holds of all results. -/
theorem forall_of_mapM {image : α → Option β} {holds : β → Prop} {images : List β}
    (found : items.mapM image = some images)
    (known : ∀ item ∈ items, ∀ value, image item = some value → holds value) :
    ∀ value ∈ images, holds value := by
  induction items generalizing images with
  | nil =>
      cases found
      exact List.forall_mem_nil holds
  | cons item items ih =>
      simp only [List.mapM_cons, Option.bind_eq_bind, Option.bind_eq_some_iff, Option.pure_def,
        Option.some.injEq] at found
      rcases found with ⟨first, read, others, more, rfl⟩
      rw [List.forall_mem_cons] at known ⊢
      exact ⟨known.1 first read, ih more known.2⟩

theorem mapM_eq_ok_iff {image : α → Except ε β} {images : List β} :
    items.mapM image = .ok images ↔
      List.Forall₂ (fun item value => image item = .ok value) items images := by
  induction items generalizing images with
  | nil => simp [pure, Except.pure, eq_comm]
  | cons item items ih =>
      simp only [List.mapM_cons, List.forall₂_cons_left_iff, ← ih]
      cases image item with
      | error cause => simp [bind, Except.bind]
      | ok value =>
          cases items.mapM image with
          | error cause => simp [bind, Except.bind]
          | ok values => simp [bind, Except.bind, pure, Except.pure, eq_comm]

/-- The items of a list fail together if and only if one of them fails on its own. -/
theorem exists_mapM_eq_error_iff {image : α → Except ε β} :
    (∃ cause, items.mapM image = .error cause) ↔
      ∃ item ∈ items, ∃ cause, image item = .error cause := by
  induction items with
  | nil => simp [pure, Except.pure]
  | cons item items ih =>
      rw [List.mapM_cons]
      cases first : image item with
      | error cause => simp [bind, Except.bind, first]
      | ok value =>
          simp only [List.exists_mem_cons_iff, first, reduceCtorEq, exists_false, false_or, ← ih]
          cases items.mapM image with
          | error cause => simp [bind, Except.bind]
          | ok values => simp [bind, Except.bind, pure, Except.pure]

theorem mapM_congr_of_mem {image other : α → Except ε β}
    (same : ∀ item ∈ items, image item = other item) : items.mapM image = items.mapM other := by
  induction items with
  | nil => rfl
  | cons item items ih =>
      rw [List.forall_mem_cons] at same
      rw [List.mapM_cons, List.mapM_cons, same.1, ih same.2]

end Results

/-! ## Runs over the items -/

section Runs

variable {ε α σ : Type} {items : List α} {state final : σ}

/-- What every step keeps holds at the end. -/
theorem holds_of_foldlM (holds : σ → Prop) {step : σ → α → Option σ} (start : holds state)
    (found : items.foldlM step state = some final)
    (kept : ∀ state, ∀ item ∈ items, ∀ next, holds state → step state item = some next →
      holds next) : holds final := by
  induction items generalizing state with
  | nil =>
      cases found
      exact start
  | cons item items ih =>
      rw [List.foldlM_cons, Option.bind_eq_bind, Option.bind_eq_some_iff] at found
      rcases found with ⟨next, first, others⟩
      exact ih (kept state item List.mem_cons_self next start first) others
        fun state item member => kept state item (List.mem_cons_of_mem _ member)

/-- A run that succeeds does so whatever its causes of failure are. -/
theorem foldlM_toOption {step : σ → α → Except ε σ} (found : items.foldlM step state = .ok final) :
    items.foldlM (fun state item => (step state item).toOption) state = some final := by
  induction items generalizing state with
  | nil =>
      cases found
      rfl
  | cons item items ih =>
      rw [List.foldlM_cons] at found ⊢
      cases first : step state item with
      | error cause => simp [first, Bind.bind, Except.bind] at found
      | ok next =>
          rw [first] at found
          exact ih found

theorem foldlM_congr_of_mem {step other : σ → α → Except ε σ}
    (same : ∀ item ∈ items, ∀ state, step state item = other state item) (state : σ) :
    items.foldlM step state = items.foldlM other state := by
  induction items generalizing state with
  | nil => rfl
  | cons item items ih =>
      rw [List.forall_mem_cons] at same
      rw [List.foldlM_cons, List.foldlM_cons, same.1]
      exact congrArg _ (funext (ih same.2))

end Runs

/-! ## Items of one kind -/

section Kinds

variable {α : Type} {p : α → Bool} {items rest : List α}

theorem all_of_suffix (suffix : rest <:+ items) (inside : items.all p = true) :
    rest.all p = true :=
  List.all_eq_true.mpr fun item member => List.all_eq_true.mp inside item (suffix.subset member)

theorem any_of_suffix (suffix : rest <:+ items) (found : rest.any p = true) :
    items.any p = true := by
  rcases List.any_eq_true.mp found with ⟨item, member, holds⟩
  exact List.any_eq_true.mpr ⟨item, suffix.subset member, holds⟩

theorem not_mem_of_all {item : α} (inside : items.all p = true) (excludes : p item = false) :
    item ∉ items := by
  intro member
  have held := List.all_eq_true.mp inside item member
  rw [excludes] at held
  cases held

/-- Items of one kind are taken up to the first item of another kind. -/
theorem takeWhile_append_of_stop (inside : items.all p = true) (stop : rest.head?.any p = false) :
    (items ++ rest).takeWhile p = items := by
  rw [List.takeWhile_append_of_pos (by simpa using inside)]
  cases rest with
  | nil => simp
  | cons item rest => simp_all

theorem dropWhile_append_of_stop (inside : items.all p = true) (stop : rest.head?.any p = false) :
    (items ++ rest).dropWhile p = rest := by
  rw [List.dropWhile_append_of_pos (by simpa using inside)]
  cases rest with
  | nil => simp
  | cons item rest => simp_all

/-- A run of items of one kind that ends inside of a list ends there whatever follows the list. -/
theorem run_append_of_any (stops : items.any (!p ·) = true) (more : List α) :
    (items ++ more).takeWhile p = items.takeWhile p ∧
      (items ++ more).dropWhile p = items.dropWhile p ++ more := by
  induction items with
  | nil => simp at stops
  | cons item items ih =>
      cases inside : p item with
      | false => simp [inside]
      | true => simpa [inside] using ih (by simpa [inside] using stops)

end Kinds

/-! ## Parts of lists -/

section Parts

variable {α β : Type}

/-- An item other than the last one stands before the last one. -/
theorem exists_of_append_singleton {items before after : List α} {last item : α}
    (other : item ≠ last) (split : items ++ [last] = before ++ item :: after) :
    ∃ rest, after = rest ++ [last] ∧ items = before ++ item :: rest := by
  rcases List.eq_nil_or_concat after with rfl | ⟨rest, final, rfl⟩
  · exact absurd (List.cons.inj (List.append_inj_right' split rfl)).1.symm other
  · have whole : items ++ [last] = (before ++ item :: rest) ++ [final] := by simpa using split
    rcases List.append_inj' whole rfl with ⟨rfl, ends⟩
    cases ends
    exact ⟨rest, by simp, rfl⟩

/-- A piece of a list that is put together from two stands behind the seam, before it or across
it. -/
theorem behind_or_before_or_across {front back before piece after : List α}
    (split : front ++ back = before ++ (piece ++ after)) :
    (∃ inner, before = front ++ inner) ∨ (∃ rest, front = before ++ (piece ++ rest)) ∨
      ∃ start tail, front = before ++ start ∧ piece = start ++ tail ∧ start ≠ [] ∧ tail ≠ [] := by
  rcases List.append_eq_append_iff.mp split with ⟨inner, behind, -⟩ | ⟨start, ends, meets⟩
  · exact .inl ⟨inner, behind⟩
  · rcases List.append_eq_append_iff.mp meets with ⟨rest, within, -⟩ | ⟨tail, across, -⟩
    · exact .inr (.inl ⟨rest, by rw [ends, within]⟩)
    · cases start with
      | nil => exact .inl ⟨[], by rw [ends, List.append_nil, List.append_nil]⟩
      | cons item start =>
          cases tail with
          | nil => exact .inr (.inl ⟨[], by rw [ends, across, List.append_nil, List.append_nil]⟩)
          | cons next tail =>
              exact .inr (.inr ⟨item :: start, next :: tail, ends, across,
                List.cons_ne_nil item start, List.cons_ne_nil next tail⟩)

/-- Two items that stand next to each other in neither of two lists do so in the lists together
only across the seam. -/
theorem not_infix_append {first second : α} {items others : List α}
    (left : ¬[first, second] <:+: items) (right : ¬[first, second] <:+: others)
    (seam : items.getLast? = some first → others.head? ≠ some second) :
    ¬[first, second] <:+: items ++ others := by
  rw [List.infix_append_iff]
  rintro (inside | inside | ⟨ending, starting, split, ends, starts⟩)
  · exact left inside
  · exact right inside
  · rcases ending with _ | ⟨item, _ | ⟨next, ending⟩⟩
    · rw [List.nil_append] at split
      exact right (split ▸ starts.isInfix)
    · rcases ends with ⟨front, rfl⟩
      rcases starts with ⟨back, rfl⟩
      cases split
      exact seam List.getLast?_concat rfl
    · rw [List.cons_append, List.cons_append, List.cons.injEq, List.cons.injEq,
        List.nil_eq_append_iff] at split
      rcases split with ⟨rfl, rfl, rfl, -⟩
      exact left ends.isInfix

/-- Lists with the same members are the same if they are the same but for their first members. -/
theorem eq_of_perm_of_drop {items others : List α} (same : others.Perm items)
    (tails : others.drop 1 = items.drop 1) : others = items := by
  cases items with
  | nil => exact same.eq_nil
  | cons item items =>
      cases others with
      | nil => exact absurd same.symm.eq_nil (List.cons_ne_nil item items)
      | cons other others =>
          rw [List.drop_succ_cons, List.drop_succ_cons, List.drop_zero, List.drop_zero] at tails
          rw [tails] at same ⊢
          have first : [other].Perm [item] := (List.perm_append_right_iff items).mp same
          rw [List.singleton_perm_singleton.mp first]

/-- Values that are all images of something are the image of a list. -/
theorem exists_map_eq {image : α → β} {holds : α → Prop} {values : List β}
    (every : ∀ value ∈ values, ∃ own, holds own ∧ image own = value) :
    ∃ owns : List α, (∀ own ∈ owns, holds own) ∧ owns.map image = values := by
  induction values with
  | nil => exact ⟨[], by simp, rfl⟩
  | cons value values ih =>
      rw [List.forall_mem_cons] at every
      rcases every with ⟨⟨own, known, rfl⟩, others⟩
      rcases ih others with ⟨owns, rest, rfl⟩
      exact ⟨own :: owns, List.forall_mem_cons.mpr ⟨known, rest⟩, rfl⟩

theorem eraseDups_eq_nil_iff [BEq α] [LawfulBEq α] {items : List α} :
    items.eraseDups = [] ↔ items = [] := by
  simp [List.eq_nil_iff_forall_not_mem]

end Parts

end StyleObjects.Lists
