/-!
# Glob patterns

A pattern matches a whole text: `*` stands for any text, `?` for any character, `[…]` for one
character of a set, `[!…]` for one outside of it, and anything else for itself.  In a set two
characters with a dash between them are a range; a range that runs backwards is empty.  A bracket
that is never closed stands for itself.
-/

namespace StyleObjects.Text

/-- What a set of characters lists. -/
inductive SetMember where
  | single (c : Char)
  | range (first last : Char)
  deriving DecidableEq, Repr

namespace SetMember

/-- The character is listed. -/
def lists : SetMember → Char → Bool
  | .single c, d => c == d
  | .range first last, d => first ≤ d && d ≤ last

/-- Lists at least one character. -/
def isInhabited : SetMember → Bool
  | .single _ => true
  | .range first last => first ≤ last

/-- Read the members of a set from left to right. -/
def readAll : List Char → List SetMember
  | [] => []
  | [c] => [.single c]
  | [c, d] => [.single c, .single d]
  | c :: d :: e :: rest =>
    if d = '-' then .range c e :: readAll rest else .single c :: readAll (d :: e :: rest)

end SetMember

/-- A set of characters, or with `negated` the characters outside of it. -/
structure CharSet where
  negated : Bool
  members : List SetMember
  deriving DecidableEq, Repr

namespace CharSet

/-- The character is accepted. -/
def accepts (set : CharSet) (c : Char) : Bool :=
  set.members.any (·.lists c) != set.negated

/-- Read the text between the brackets.  Empty ranges are dropped first, so a mark of negation
counts as one as soon as nothing is left before it; if it was the start of a range, the dash and
the end of the range stay as members. -/
def ofText (text : List Char) : CharSet :=
  match text with
  | '!' :: body => ⟨true, (SetMember.readAll body).filter (·.isInhabited)⟩
  | _ =>
    match (SetMember.readAll text).filter (·.isInhabited) with
    | .single '!' :: rest => ⟨true, rest⟩
    | .range '!' last :: rest => ⟨true, .single '-' :: .single last :: rest⟩
    | members => ⟨false, members⟩

end CharSet

/-- A part of a pattern. -/
inductive GlobPart where
  | anyText
  | anyChar
  | literal (c : Char)
  | oneOf (set : CharSet)
  deriving DecidableEq, Repr

/-- A pattern, as its parts from left to right. -/
abbrev Glob := List GlobPart

namespace Glob

/-- A bracket right at the start of a set, after a mark of negation, belongs to the set. -/
def takeSetStart : List Char → List Char × List Char
  | '!' :: ']' :: rest => (['!', ']'], rest)
  | '!' :: rest => (['!'], rest)
  | ']' :: rest => ([']'], rest)
  | rest => ([], rest)

/-- The text of a set up to its closing bracket, and the text after the bracket. -/
def takeSet? (cs : List Char) : Option (List Char × List Char) :=
  let (start, cs) := takeSetStart cs
  match cs.dropWhile (· != ']') with
  | _ :: rest => some (start ++ cs.takeWhile (· != ']'), rest)
  | [] => none

theorem length_takeSetStart (cs : List Char) : (takeSetStart cs).2.length ≤ cs.length := by
  fun_cases takeSetStart cs with
  | case1 rest =>
    simp only [List.length_cons]
    omega
  | case2 => simp
  | case3 => simp
  | case4 => exact Nat.le_refl _

theorem length_of_takeSet? {cs text rest : List Char} (h : takeSet? cs = some (text, rest)) :
    rest.length < cs.length := by
  unfold takeSet? at h
  dsimp only at h
  split at h
  · rename_i c r found
    have bound := length_takeSetStart cs
    have dropped := (List.dropWhile_suffix (· != ']') (l := (takeSetStart cs).2)).length_le
    rw [found] at dropped
    simp only [Option.some.injEq, Prod.mk.injEq] at h
    simp only [List.length_cons] at dropped
    rw [← h.2]
    omega
  · cases h

/-- Read a pattern. -/
def read (cs : List Char) : Glob :=
  match cs with
  | [] => []
  | c :: cs =>
    if c = '*' then .anyText :: read cs
    else if c = '?' then .anyChar :: read cs
    else if c = '[' then
      match _found : takeSet? cs with
      | some (text, rest) => .oneOf (CharSet.ofText text) :: read rest
      | none => .literal c :: read cs
    else .literal c :: read cs
termination_by cs.length
decreasing_by
  all_goals simp_wf
  have := length_of_takeSet? _found
  omega

/-- Given for which ends of a text something holds, for which of them it holds of an end of that
end. -/
def anyEnd : List Bool → List Bool
  | [] => []
  | holds :: later =>
    let later := anyEnd later
    (holds || later.head?.getD false) :: later

/-- Given for which ends of a text something holds, for which of them a character is accepted and it
holds of what follows.  It never does of the empty end. -/
def afterChar (accepts : Char → Bool) : List Char → List Bool → List Bool
  | c :: cs, _ :: later => (accepts c && later.head?.getD false) :: afterChar accepts cs later
  | _, _ => [false]

/-- For which ends of a text a pattern matches the whole end.  The ends are listed from the whole
text to the empty one, so the work is that of a table of the parts and the characters. -/
def ends : Glob → List Char → List Bool
  | [], cs => cs.map (fun _ => false) ++ [true]
  | .anyText :: parts, cs => anyEnd (ends parts cs)
  | .anyChar :: parts, cs => afterChar (fun _ => true) cs (ends parts cs)
  | .literal d :: parts, cs => afterChar (· == d) cs (ends parts cs)
  | .oneOf set :: parts, cs => afterChar set.accepts cs (ends parts cs)

/-- The whole text matches the pattern. -/
def accepts (pattern : Glob) (cs : List Char) : Bool :=
  (ends pattern cs).head?.getD false

/-- A string matches the pattern that another one writes. -/
def isMatch (pattern text : String) : Bool :=
  accepts (read pattern.toList) text.toList

end Glob

end StyleObjects.Text
