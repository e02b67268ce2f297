import StyleObjects.Table
import StyleObjects.Text.Blank

/-!
# Keyframe blocks

Keyframe blocks are cut out of a stylesheet's text before it is read.  A block runs from its header
to the brace that closes it, which is found by counting braces.  A block that is never closed ends
the search and stays in the text.
-/

namespace StyleObjects.Keyframes

open Text

/-- The word that starts a header. -/
def keyword : List Char :=
  ['@', 'k', 'e', 'y', 'f', 'r', 'a', 'm', 'e', 's']

/-- May stand in the name of a block. -/
def isNameChar (c : Char) : Bool :=
  !isBlank c && c != '\x7b'

/-- The text after a given one at its start. -/
def dropStart? : List Char → List Char → Option (List Char)
  | [], cs => some cs
  | _ :: _, [] => none
  | w :: word, c :: cs => if w = c then dropStart? word cs else none

/-- The name in a header at the start of a text, and the text after its brace. -/
def takeHeader? (cs : List Char) : Option (List Char × List Char) :=
  (dropStart? keyword cs).bind fun rest =>
    let named := skipBlanks rest
    let name := named.takeWhile isNameChar
    if rest.head?.any isBlank && !name.isEmpty then
      match skipBlanks (named.dropWhile isNameChar) with
      | '\x7b' :: body => some (name, body)
      | _ => none
    else none

/-- The text up to the brace that closes a block at some depth, and the text after that brace. -/
def takeBody? : Nat → List Char → Option (List Char × List Char)
  | _, [] => none
  | depth, c :: cs =>
    if c = '\x7d' ∧ depth = 0 then some ([], cs)
    else
      let depth := if c = '\x7b' then depth + 1 else if c = '\x7d' then depth - 1 else depth
      (takeBody? depth cs).map fun (body, rest) => (c :: body, rest)

/-- The name and the body of the block at the start of a text, and the text after it. -/
def takeBlock? (cs : List Char) : Option ((List Char × List Char) × List Char) :=
  (takeHeader? cs).bind fun (name, rest) =>
    (takeBody? 0 rest).map fun (body, rest) => ((name, body), rest)

theorem length_of_dropStart? {word cs rest : List Char} (h : dropStart? word cs = some rest) :
    rest.length ≤ cs.length := by
  fun_induction dropStart? word cs with
  | case1 => simp_all
  | case2 => cases h
  | case3 word c cs ih =>
    have := ih h
    simp only [List.length_cons]
    omega
  | case4 => cases h

theorem length_of_takeHeader? {cs name rest : List Char}
    (h : takeHeader? cs = some (name, rest)) : rest.length < cs.length := by
  simp only [takeHeader?] at h
  obtain ⟨after, found, h⟩ := Option.bind_eq_some_iff.1 h
  have := length_of_dropStart? found
  split at h
  · split at h
    · rename_i body opened
      simp only [Option.some.injEq, Prod.mk.injEq] at h
      have outer := (List.dropWhile_suffix isBlank
        (l := (skipBlanks after).dropWhile isNameChar)).length_le
      have middle := (List.dropWhile_suffix isNameChar (l := skipBlanks after)).length_le
      have inner := (List.dropWhile_suffix isBlank (l := after)).length_le
      have := congrArg List.length opened
      simp only [skipBlanks, List.length_cons] at this outer middle inner
      rw [← h.2]
      omega
    · cases h
  · cases h

theorem length_of_takeBody? {depth : Nat} {cs body rest : List Char}
    (h : takeBody? depth cs = some (body, rest)) : rest.length < cs.length := by
  induction cs generalizing depth body with
  | nil => simp [takeBody?] at h
  | cons c cs ih =>
    simp only [takeBody?] at h
    split at h
    · simp only [Option.some.injEq, Prod.mk.injEq] at h
      simp [h.2]
    · obtain ⟨⟨inner, after⟩, found, same⟩ := Option.map_eq_some_iff.1 h
      simp only [Prod.mk.injEq] at same
      have := ih (same.2 ▸ found)
      simp only [List.length_cons]
      omega

theorem length_of_takeBlock? {cs rest : List Char} {block : List Char × List Char}
    (h : takeBlock? cs = some (block, rest)) : rest.length < cs.length := by
  simp only [takeBlock?] at h
  obtain ⟨⟨name, after⟩, header, h⟩ := Option.bind_eq_some_iff.1 h
  dsimp only at h
  obtain ⟨⟨body, last⟩, closed, same⟩ := Option.map_eq_some_iff.1 h
  simp only [Prod.mk.injEq] at same
  have := length_of_takeHeader? header
  have := length_of_takeBody? closed
  rw [← same.2]
  omega

/-- Cut all blocks out of a text: what is left of it, and the names and bodies of the blocks.  A
header without a closed block ends the search. -/
def cut (cs : List Char) : List Char × List (List Char × List Char) :=
  match cs with
  | [] => ([], [])
  | c :: cs =>
    match _found : takeBlock? (c :: cs) with
    | some (block, rest) =>
      let (text, blocks) := cut rest
      (text, block :: blocks)
    | none =>
      if (takeHeader? (c :: cs)).isSome then (c :: cs, [])
      else
        let (text, blocks) := cut cs
        (c :: text, blocks)
termination_by cs.length
decreasing_by
  · have := length_of_takeBlock? _found
    simpa using this
  · simp

end Keyframes

/-- A text without its keyframe blocks, and the blocks in the order in which they stood. -/
structure KeyframeCut where
  text : String
  blocks : List (String × String)
  deriving DecidableEq, Repr

/-- Cut the keyframe blocks out of a text.  A block has its name and its trimmed body. -/
def cutKeyframes (source : String) : KeyframeCut :=
  let (text, blocks) := Keyframes.cut source.toList
  ⟨String.ofList text, blocks.map fun (name, body) =>
    (String.ofList name, String.ofList (Text.trim body))⟩

/-- The bodies by name.  A later block replaces an earlier one of its name. -/
def KeyframeCut.table (found : KeyframeCut) : Table String :=
  .ofList found.blocks

end StyleObjects
