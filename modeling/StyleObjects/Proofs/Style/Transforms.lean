import Mathlib.Data.List.DropRight
import StyleObjects.Proofs.Lists
import StyleObjects.Proofs.Stylesheet.Canonical
import StyleObjects.Style.Transform

/-!
# Transforms one after the other

A transform is written as one or more calls of functions, with blanks around them or not.  The
reader takes one call after the other, and what a call contributes does not depend on those around
it.  So two transforms, with any blanks between them, are the transform of all their calls.
-/

namespace StyleObjects.Transform

open Text

/-! ## Calls -/

/-- A call of a function with the blanks around it. -/
structure Call where
  before : List Char
  name : List Char
  arguments : List Char
  after : List Char
  blank_before : before.all isBlank = true
  blank_after : after.all isBlank = true
  isAlpha_first : name.head?.any Char.isAlpha = true
  isAlphanum_name : name.all Char.isAlphanum = true
  plain_arguments : arguments.all isArgumentChar = true

namespace Call

/-- The text of a call. -/
def text (call : Call) : List Char :=
  call.before ++ call.name ++ '(' :: call.arguments ++ ')' :: call.after

/-- What a call contributes to a transform. -/
def entries? (call : Call) : Option (List (String × Value)) :=
  apply (String.ofList call.name) (items (String.ofList call.arguments))

/-- A call with more blanks before it. -/
def indent (call : Call) (blanks : List Char) (blank : blanks.all isBlank = true) : Call :=
  { call with
    before := blanks ++ call.before
    blank_before := by simp [blank, call.blank_before] }

theorem text_indent (call : Call) {blanks : List Char} (blank : blanks.all isBlank = true) :
    (call.indent blanks blank).text = blanks ++ call.text := by
  simp [text, indent]

theorem mem_text (call : Call) : '(' ∈ call.text := by
  simp [text]

end Call

/-! ## Reading calls -/

/-- The reader takes a call as a whole, and the blanks that follow. -/
theorem takeFunction?_text (call : Call) (rest : List Char) :
    takeFunction? (call.text ++ rest) =
      some ((call.name, call.arguments), skipBlanks rest) := by
  have start : skipBlanks (call.text ++ rest) =
      call.name ++ '(' :: (call.arguments ++ ')' :: (call.after ++ rest)) := by
    have whole : call.text ++ rest = call.before ++
        (call.name ++ '(' :: (call.arguments ++ ')' :: (call.after ++ rest))) := by
      simp [Call.text]
    rw [whole, Stylesheet.skipBlanks_append call.blank_before]
    apply Stylesheet.skipBlanks_of_visible
    have letter := call.isAlpha_first
    cases name : call.name with
    | nil => simp [name] at letter
    | cons c cs =>
        simp only [name, List.head?_cons, Option.any_some] at letter
        simp [Stylesheet.isBlank_of_isAlpha letter]
  have letter : (call.name ++ '(' :: (call.arguments ++ ')' :: (call.after ++ rest))).head?.any
      Char.isAlpha = true := by
    have first := call.isAlpha_first
    cases name : call.name with
    | nil => simp [name] at first
    | cons c cs => simpa [name] using first
  have opened : ('(' :: (call.arguments ++ ')' :: (call.after ++ rest))).head?.any
      Char.isAlphanum = false := rfl
  have closed : (')' :: (call.after ++ rest)).head?.any isArgumentChar = false := rfl
  simp only [takeFunction?, start, if_pos letter,
    Lists.takeWhile_append_of_stop call.isAlphanum_name opened,
    Lists.dropWhile_append_of_stop call.isAlphanum_name opened,
    Lists.takeWhile_append_of_stop call.plain_arguments closed,
    Lists.dropWhile_append_of_stop call.plain_arguments closed,
    Stylesheet.skipBlanks_append call.blank_after]

/-- Whatever the reader takes is a call. -/
theorem exists_call_of_takeFunction? {cs rest name arguments : List Char}
    (taken : takeFunction? cs = some ((name, arguments), rest)) :
    ∃ call : Call, cs = call.text ++ rest := by
  simp only [takeFunction?] at taken
  split at taken
  · rename_i letter
    split at taken
    · rename_i body opened
      split at taken
      · rename_i after closed
        simp only [Option.some.injEq, Prod.mk.injEq] at taken
        obtain ⟨-, rfl⟩ := taken
        refine ⟨⟨cs.takeWhile isBlank, (skipBlanks cs).takeWhile Char.isAlphanum,
          body.takeWhile isArgumentChar, after.takeWhile isBlank, List.all_takeWhile,
          List.all_takeWhile, ?_, List.all_takeWhile, List.all_takeWhile⟩, ?_⟩
        · cases start : skipBlanks cs with
          | nil => simp [start] at letter
          | cons c rest =>
              simp only [start, List.head?_cons, Option.any_some] at letter
              simp [Char.isAlphanum, letter]
        · have blanks := List.takeWhile_append_dropWhile (p := isBlank) (l := after)
          simp only [Call.text, List.append_assoc, List.cons_append, skipBlanks, blanks, ← closed,
            List.takeWhile_append_dropWhile]
          simp only [← opened, skipBlanks, List.takeWhile_append_dropWhile]
      · cases taken
    · cases taken
  · cases taken

theorem takeFunction?_skipBlanks (cs : List Char) :
    takeFunction? (skipBlanks cs) = takeFunction? cs := by
  have once : skipBlanks (skipBlanks cs) = skipBlanks cs := List.dropWhile_idempotent isBlank cs
  unfold takeFunction?
  rw [once]

/-- The first call of a text is applied, and then the rest is read. -/
theorem read?_of_takeFunction? {cs rest name arguments : List Char}
    (taken : takeFunction? cs = some ((name, arguments), rest)) :
    read? cs = (apply (String.ofList name) (items (String.ofList arguments))).bind fun entries =>
      (read? rest).map (entries ++ ·) := by
  cases cs with
  | nil => simp [takeFunction?, skipBlanks] at taken
  | cons c cs =>
      rw [read?.eq_def]
      dsimp only
      split
      · rename_i found
        rw [taken] at found
        cases found
        cases apply (String.ofList name) (items (String.ofList arguments)) with
        | none => rfl
        | some entries => cases read? rest <;> rfl
      · simp_all

theorem read?_text (call : Call) (rest : List Char) :
    read? (call.text ++ rest) =
      call.entries?.bind fun entries => (read? (skipBlanks rest)).map (entries ++ ·) :=
  read?_of_takeFunction? (takeFunction?_text call rest)

/-- Blanks before calls are skipped. -/
theorem read?_skipBlanks (calls : List Call) :
    read? (skipBlanks (calls.flatMap Call.text)) = read? (calls.flatMap Call.text) := by
  cases calls with
  | nil => rfl
  | cons call calls =>
      have taken := takeFunction?_text call (calls.flatMap Call.text)
      rw [List.flatMap_cons, read?_of_takeFunction? taken,
        read?_of_takeFunction? ((takeFunction?_skipBlanks _).trans taken)]

/-- Calls are read one by one. -/
theorem read?_flatMap_text (calls : List Call) :
    read? (calls.flatMap Call.text) = (calls.mapM Call.entries?).map List.flatten := by
  induction calls with
  | nil =>
      unfold read?
      rfl
  | cons call calls ih =>
      rw [List.flatMap_cons, read?_text, read?_skipBlanks, ih, List.mapM_cons]
      cases call.entries? with
      | none => rfl
      | some entries => cases calls.mapM Call.entries? <;> rfl

/-- A text that is read is a text of calls. -/
theorem exists_calls_of_read? {cs : List Char} {entries : List (String × Value)}
    (found : read? cs = some entries) : ∃ calls : List Call, cs = calls.flatMap Call.text := by
  fun_induction read? cs generalizing entries with
  | case1 => exact ⟨[], rfl⟩
  | case2 c cs name arguments rest taken ih =>
      simp only [Option.bind_eq_bind, Option.bind_eq_some_iff] at found
      obtain ⟨first, -, others, more, -⟩ := found
      obtain ⟨calls, rfl⟩ := ih more
      obtain ⟨call, split⟩ := exists_call_of_takeFunction? taken
      exact ⟨call :: calls, split⟩
  | case3 => cases found

/-! ## Whole transforms -/

/-- The styles of a list of entries: a map of one key for each of them. -/
def styles (entries : List (String × Value)) : Styles :=
  .ofList [("transform", .list (entries.map fun entry => .map [entry]))]

theorem styles_injective : Function.Injective styles := by
  intro first second same
  have single : Function.Injective fun entry : String × Value => Value.map [entry] := by
    intro left right equal
    simpa using equal
  have held : (styles first).entries = (styles second).entries := congrArg Table.entries same
  simp only [styles, Table.ofList, Table.insertAll, List.foldl_cons, List.foldl_nil, Table.insert,
    Table.empty, Table.insertEntry, List.cons.injEq, Prod.mk.injEq, Value.list.injEq, true_and,
    and_true] at held
  exact single.list_map held

/-- A text of calls is a transform if the calls contribute something. -/
theorem transform?_of_calls {value : String} {calls : List Call}
    {entries : List (List (String × Value))} (text : value.toList = calls.flatMap Call.text)
    (applied : calls.mapM Call.entries? = some entries) (filled : entries.flatten ≠ []) :
    transform? value = some (styles entries.flatten) := by
  have apart : value ≠ "none" := by
    rintro rfl
    cases calls with
    | nil => cases text
    | cons call calls =>
        have member : '(' ∈ "none".toList := by
          rw [text, List.flatMap_cons]
          exact List.mem_append_left _ call.mem_text
        exact absurd member (by decide)
  rw [transform?, if_neg apart, text, read?_flatMap_text, applied, Option.map_some,
    Option.bind_some, if_neg (by simpa using filled)]
  rfl

theorem exists_calls_of_transform? {value : String} (given : value ≠ "none") {result : Styles}
    (found : transform? value = some result) :
    ∃ (calls : List Call) (entries : List (List (String × Value))),
      value.toList = calls.flatMap Call.text ∧ calls.mapM Call.entries? = some entries ∧
        entries.flatten ≠ [] ∧ result = styles entries.flatten := by
  rw [transform?, if_neg given, Option.bind_eq_some_iff] at found
  obtain ⟨entries, read, chosen⟩ := found
  obtain ⟨calls, text⟩ := exists_calls_of_read? read
  rw [text, read?_flatMap_text, Option.map_eq_some_iff] at read
  obtain ⟨each, applied, rfl⟩ := read
  rw [Option.ite_none_left_eq_some, List.isEmpty_iff, Option.some.injEq] at chosen
  exact ⟨calls, each, text, applied, chosen.1, chosen.2.symm⟩

/-- Two transforms with blanks between them, or none, are the transform of the entries of both.  The
value of a transform is a text of calls, and its styles are a list of maps of one key, which the
calls contribute in their order; there is at least one. -/
theorem transform?_append :
    (∀ (first second : String) (blanks : List Char) (entries others : List (String × Value)),
      first ≠ "none" → second ≠ "none" → blanks.all isBlank = true →
      transform? first = some (styles entries) → transform? second = some (styles others) →
      transform? (first ++ String.ofList blanks ++ second) = some (styles (entries ++ others))) ∧
    ∀ (value : String) (result : Styles), value ≠ "none" → transform? value = some result →
      ∃ (calls : List Call) (contributed : List (List (String × Value))),
        value.toList = calls.flatMap Call.text ∧
        List.Forall₂ (fun call entries => call.entries? = some entries) calls contributed ∧
        contributed.flatten ≠ [] ∧ result = styles contributed.flatten := by
  constructor
  · intro first second blanks entries others given other blank former latter
    obtain ⟨calls, parts, text, applied, filled, same⟩ := exists_calls_of_transform? given former
    obtain ⟨more, added, written, appliedToo, remains, equal⟩ :=
      exists_calls_of_transform? other latter
    rw [styles_injective same, styles_injective equal, ← List.flatten_append]
    cases more with
    | nil =>
        cases appliedToo
        exact absurd rfl remains
    | cons call more =>
        -- The blanks between the values belong to the first call of the second one.
        have together : (first ++ String.ofList blanks ++ second).toList =
            (calls ++ call.indent blanks blank :: more).flatMap Call.text := by
          simp [text, written, Call.text_indent]
        have kept : (call.indent blanks blank :: more).mapM Call.entries? = some added := by
          rw [List.mapM_cons] at appliedToo ⊢
          exact appliedToo
        refine transform?_of_calls together ?_ ?_
        · simp [List.mapM_append, applied, kept]
        · simp [filled]
  · intro value result given found
    obtain ⟨calls, parts, text, applied, filled, same⟩ := exists_calls_of_transform? given found
    exact ⟨calls, parts, text, Lists.mapM_eq_some_iff.mp applied, filled, same⟩

/-- Two values without a blank between them but those of their own, of which the second one has a
function of two axes. -/
theorem transform?_append_of_translations :
    let first := " rotate( 0 ) "
    let second := "translate(1.50px,-2%)matrix(1, 0, 0, 1, 2, 3)"
    let entries := [("rotate", Value.text "0deg")]
    let others := [("translateX", .ofNumber (.ofDecimal false 15 (-1))),
      ("translateY", .text "-2%"), ("matrix", .list ([1, 0, 0, 1, 2, 3].map Value.integer))]
    transform? first = some (styles entries) ∧ transform? second = some (styles others) ∧
      transform? (first ++ String.ofList [] ++ second) = some (styles (entries ++ others)) := by
  intro first second entries others
  have former : transform? first = some (styles entries) := by decide +kernel
  have latter : transform? second = some (styles others) := by decide +kernel
  exact ⟨former, latter,
    transform?_append.1 first second [] entries others (by decide) (by decide) rfl former latter⟩

end StyleObjects.Transform
