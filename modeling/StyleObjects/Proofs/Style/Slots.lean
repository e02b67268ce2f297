import Mathlib.Data.List.Nodup
import Mathlib.Data.List.Perm.Basic
import StyleObjects.Proofs.Style.Values

/-!
# Slots of styles

The words of a shorthand fill slots of its styles: each has a slot of its own, which holds the word
as a text or as the scalar that it writes, and what no word fills has a constant of the shorthand.
A shorthand that gives its words places one after the other does so if every step puts a word in one
place that has been free, and leaves the others as they are.
-/

namespace StyleObjects

/-! ## Slots -/

/-- Where styles hold one value: a key, or a field of the map under a key. -/
structure Slot where
  key : String
  field : Option String := none
  deriving DecidableEq, Repr

/-- The slots of an entry: the fields of a map, and the key of any other value. -/
def slotsOf : String × Value → List (Slot × Value)
  | (key, .map fields) => fields.map fun field => (⟨key, some field.1⟩, field.2)
  | (key, value) => [(⟨key, none⟩, value)]

/-- All slots of styles with what they hold. -/
def Styles.slots (styles : Styles) : List (Slot × Value) :=
  styles.entries.flatMap slotsOf

/-- Values without parts stand in the slots of their keys. -/
theorem Styles.slots_of_scalars {styles : Styles}
    (scalars : ∀ value ∈ styles.values, ∃ scalar, value = .scalar scalar) :
    styles.slots = styles.entries.map fun entry => (⟨entry.1, none⟩, entry.2) := by
  have single : ∀ entry ∈ styles.entries, slotsOf entry = [(⟨entry.1, none⟩, entry.2)] := by
    intro entry member
    obtain ⟨scalar, same⟩ := scalars entry.2 (List.mem_map_of_mem member)
    obtain ⟨key, value⟩ := entry
    cases same
    rfl
  rw [slots, List.flatMap_congr single, List.map_eq_flatMap]

open Value (IsOfWord)

/-- Each of the words has a slot of its own that holds it, and all other slots hold constants. -/
def Fills (words : List String) (slots constants : List (Slot × Value)) : Prop :=
  (slots.map Prod.fst).Nodup ∧
    ∃ slotOf : Fin words.length → Slot, Function.Injective slotOf ∧
      (∀ i, ∃ value, (slotOf i, value) ∈ slots ∧ IsOfWord words[i] value) ∧
      ∀ entry ∈ slots, (∀ i, slotOf i ≠ entry.1) → entry ∈ constants

/-- Where no slot holds a constant, every slot holds a word. -/
theorem Fills.exists_word {words : List String} {slots : List (Slot × Value)}
    (filled : Fills words slots []) {entry : Slot × Value} (member : entry ∈ slots) :
    ∃ word ∈ words, IsOfWord word entry.2 := by
  obtain ⟨apart, slotOf, -, held, others⟩ := filled
  obtain ⟨i, here⟩ : ∃ i, slotOf i = entry.1 := by
    by_contra free
    cases others entry member (not_exists.mp free)
  obtain ⟨value, inside, own⟩ := held i
  have same : value = entry.2 :=
    congrArg Prod.snd (List.inj_on_of_nodup_map apart inside member here)
  exact ⟨words[i], List.getElem_mem _, same ▸ own⟩

/-- Words that are paired with some of the slots fill these. -/
theorem Fills.of_forall₂ {words : List String} {slots constants placed : List (Slot × Value)}
    (apart : (slots.map Prod.fst).Nodup) (own : (placed.map Prod.fst).Nodup)
    (filled : List.Forall₂ (fun word entry => IsOfWord word entry.2) words placed)
    (within : ∀ entry ∈ placed, entry ∈ slots)
    (others : ∀ entry ∈ slots, entry ∈ placed ∨ entry ∈ constants) :
    Fills words slots constants := by
  have length := filled.length_eq
  refine ⟨apart, fun i => placed[i].1, ?_, ?_, ?_⟩
  · intro i j same
    have bound : ∀ i : Fin words.length, (i : Nat) < (placed.map Prod.fst).length := by
      intro i
      rw [List.length_map]
      omega
    have equal : (placed.map Prod.fst).get ⟨i, bound i⟩ =
        (placed.map Prod.fst).get ⟨j, bound j⟩ := by
      simpa using same
    exact Fin.ext (Fin.mk.inj ((List.Nodup.get_inj_iff own).mp equal))
  · intro i
    exact ⟨placed[i].2, within _ (List.getElem_mem _), filled.get i.isLt (length ▸ i.isLt)⟩
  · intro entry member free
    refine (others entry member).resolve_left fun inside => ?_
    obtain ⟨i, bound, found⟩ := List.mem_iff_getElem.mp inside
    exact free ⟨i, by omega⟩ (congrArg Prod.fst found)

/-- Slots that are added with constants leave the others filled. -/
theorem Fills.append {words : List String} {slots constants : List (Slot × Value)}
    (fills : Fills words slots constants) (more : List (Slot × Value))
    (apart : ((slots ++ more).map Prod.fst).Nodup) :
    Fills words (slots ++ more) (constants ++ more) := by
  obtain ⟨-, slotOf, injective, held, others⟩ := fills
  refine ⟨apart, slotOf, injective, ?_, ?_⟩
  · intro i
    obtain ⟨value, member, own⟩ := held i
    exact ⟨value, List.mem_append_left _ member, own⟩
  · intro entry member free
    rw [List.mem_append] at member ⊢
    exact member.imp_left fun inside => others entry inside free

/-! ## Words and values -/

/-- Values are words, one value for each word, in any order. -/
def Accounts (words : List String) (values : List Value) : Prop :=
  ∃ given, List.Forall₂ IsOfWord words given ∧ given.Perm values

namespace Accounts

theorem perm {words others : List String} {values : List Value} (accounts : Accounts others values)
    (same : words.Perm others) : Accounts words values := by
  obtain ⟨given, related, ordered⟩ := accounts
  obtain ⟨moved, again, back⟩ := List.perm_comp_forall₂ same related
  exact ⟨moved, again, back.trans ordered⟩

/-- Words are scalars. -/
theorem exists_scalar {words : List String} {values : List Value}
    (accounts : Accounts words values) :
    ∀ value ∈ values, ∃ scalar, value = .scalar scalar := by
  obtain ⟨given, related, ordered⟩ := accounts
  intro value member
  have inside := ordered.mem_iff.mpr member
  clear ordered member
  induction related with
  | nil => cases inside
  | cons first others ih =>
      cases List.mem_cons.mp inside with
      | inl same =>
          cases first with
          | inl text => exact ⟨_, same.trans text⟩
          | inr scalar => exact ⟨_, same.trans scalar⟩
      | inr later => exact ih later

section Runs

variable {σ : Type}

/-- Every step that takes a word which counts adds what the word gives to the values that a state
holds; other words leave these as they are. -/
def OfSteps (counts : String → Bool) (gives : String → Value → Prop)
    (place? : σ → String → Option σ) (held : σ → List Value) : Prop :=
  ∀ state word next, place? state word = some next →
    if counts word then ∃ value, gives word value ∧ (held next).Perm (value :: held state)
    else held next = held state

variable {counts : String → Bool} {gives : String → Value → Prop} {place? : σ → String → Option σ}
  {held : σ → List Value} {words : List String} {start final : σ}

/-- A run adds one value for each of its words that count. -/
theorem exists_of_foldlM (steps : OfSteps counts gives place? held)
    (found : words.foldlM place? start = some final) :
    ∃ given, List.Forall₂ gives (words.filter counts) given ∧
      (held final).Perm (given ++ held start) := by
  induction words generalizing start with
  | nil =>
      cases found
      exact ⟨[], .nil, .refl _⟩
  | cons word words ih =>
      rw [List.foldlM_cons, Option.bind_eq_bind, Option.bind_eq_some_iff] at found
      obtain ⟨next, first, others⟩ := found
      obtain ⟨given, related, ordered⟩ := ih others
      have stepped := steps start word next first
      cases counted : counts word with
      | true =>
          rw [if_pos counted] at stepped
          obtain ⟨value, own, one⟩ := stepped
          rw [List.filter_cons_of_pos counted]
          refine ⟨value :: given, .cons own related, ?_⟩
          exact (ordered.trans (one.append_left given)).trans List.perm_middle
      | false =>
          rw [counted, if_neg Bool.false_ne_true] at stepped
          rw [List.filter_cons_of_neg (by simp [counted]), ← stepped]
          exact ⟨given, related, ordered⟩

theorem of_foldlM (steps : OfSteps counts IsOfWord place? held) (free : held start = [])
    (found : words.foldlM place? start = some final) :
    Accounts (words.filter counts) (held final) := by
  obtain ⟨given, related, ordered⟩ := exists_of_foldlM steps found
  rw [free, List.append_nil] at ordered
  exact ⟨given, related, ordered.symm⟩

/-- If every word counts, a run from nothing accounts for all of its words. -/
theorem of_foldlM_of_every (steps : OfSteps (fun _ => true) IsOfWord place? held)
    (free : held start = []) (found : words.foldlM place? start = some final) :
    Accounts words (held final) := by
  rw [← List.filter_true words]
  exact of_foldlM steps free found

end Runs

end Accounts

/-! ## Fields -/

/-- A slot, with the value that a word has given it, if there is one, and with its constant. -/
structure Field where
  slot : Slot
  held : Option Value
  initial : Value

namespace Field

/-- What a slot holds in the end. -/
def entry (field : Field) : Slot × Value :=
  (field.slot, field.held.getD field.initial)

/-- The constant of a slot. -/
def constant (field : Field) : Slot × Value :=
  (field.slot, field.initial)

/-- The values that words have given to slots. -/
def values (fields : List Field) : List Value :=
  fields.filterMap held

/-- The slots that words have filled. -/
def filled (fields : List Field) : List (Slot × Value) :=
  fields.filterMap fun field => field.held.map (field.slot, ·)

theorem map_snd_filled (fields : List Field) : (filled fields).map Prod.snd = values fields := by
  rw [filled, values, List.map_filterMap]
  refine List.filterMap_congr fun field _ => ?_
  cases field.held <;> rfl

theorem mem_filled_iff {fields : List Field} {entry : Slot × Value} :
    entry ∈ filled fields ↔ ∃ field ∈ fields, field.held = some entry.2 ∧ field.slot = entry.1 := by
  simp only [filled, List.mem_filterMap, Option.map_eq_some_iff, Prod.ext_iff]
  grind

theorem sublist_filled (fields : List Field) :
    ((filled fields).map Prod.fst).Sublist (fields.map slot) := by
  induction fields with
  | nil => exact .slnil
  | cons field fields ih =>
      cases held : field.held with
      | none => simpa [filled, held] using ih.cons field.slot
      | some value => simpa [filled, held] using ih

/-- A word that takes a free place adds its value to those that are given. -/
theorem perm_values {α : Type} {place : Option α} (free : place.isNone = true) (image : α → Value)
    (taken : α) (before after : List Field) (slot : Slot) (initial : Value) :
    (values (before ++ ⟨slot, some (image taken), initial⟩ :: after)).Perm
      (image taken :: values (before ++ ⟨slot, place.map image, initial⟩ :: after)) := by
  rw [Option.isNone_iff_eq_none] at free
  simp [free, values, List.filterMap_append, List.perm_middle]

end Field

/-- Words that account for the given values fill their slots. -/
theorem Fills.of_accounts {words : List String} {fields : List Field}
    {constants : List (Slot × Value)} (apart : (fields.map Field.slot).Nodup)
    (accounts : Accounts words (Field.values fields))
    (known : ∀ field ∈ fields, field.held = none → field.constant ∈ constants) :
    Fills words (fields.map Field.entry) constants := by
  obtain ⟨given, related, ordered⟩ := accounts
  rw [← Field.map_snd_filled] at ordered
  -- The filled slots in the order of the words.
  obtain ⟨placed, values, moved⟩ : ∃ placed : List (Slot × Value), given = placed.map Prod.snd ∧
      placed.Perm (Field.filled fields) :=
    (congrFun (congrFun (List.eq_map_comp_perm Prod.snd) given) (Field.filled fields)).mpr ordered
  rw [values, List.forall₂_map_right_iff] at related
  refine .of_forall₂ ?_ ?_ related ?_ ?_
  · rwa [List.map_map]
  · exact (moved.map Prod.fst).nodup_iff.mpr (apart.sublist (Field.sublist_filled fields))
  · intro entry member
    obtain ⟨field, listed, held, slot⟩ := Field.mem_filled_iff.mp (moved.mem_iff.mp member)
    exact List.mem_map.mpr ⟨field, listed, by simp [Field.entry, held, slot]⟩
  · intro entry member
    obtain ⟨field, listed, rfl⟩ := List.mem_map.mp member
    cases held : field.held with
    | none =>
        right
        simpa [Field.entry, held, Field.constant] using known field listed held
    | some value =>
        left
        rw [moved.mem_iff, Field.mem_filled_iff]
        exact ⟨field, listed, by simp [Field.entry, held], rfl⟩

/-- Words that are all the values of styles, which have no parts, fill all of their slots. -/
theorem Fills.of_values {words : List String} {styles : Styles}
    (accounts : Accounts words styles.values) : Fills words styles.slots [] := by
  let fields := styles.entries.map fun entry : String × Value =>
    (⟨⟨entry.1, none⟩, some entry.2, entry.2⟩ : Field)
  have slots : styles.slots = fields.map Field.entry := by
    rw [Styles.slots_of_scalars accounts.exists_scalar, List.map_map]
    rfl
  have values : Field.values fields = styles.values := by
    rw [Field.values, List.filterMap_map]
    exact congrFun List.filterMap_eq_map styles.entries
  rw [slots]
  refine .of_accounts ?_ (values ▸ accounts) ?_
  · have single : Function.Injective fun key : String => (⟨key, none⟩ : Slot) := by
      intro key other same
      cases same
      rfl
    have named : fields.map Field.slot = styles.keys.map fun key => ⟨key, none⟩ := by
      rw [Table.keys, List.map_map, List.map_map]
      rfl
    rw [named]
    exact styles.nodup_keys.map single
  · intro field member free
    obtain ⟨entry, -, rfl⟩ := List.mem_map.mp member
    cases free

end StyleObjects
