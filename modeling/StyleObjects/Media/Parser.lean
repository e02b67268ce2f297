import StyleObjects.Media.Query
import StyleObjects.Text.Blank
import StyleObjects.Text.Case
import StyleObjects.Text.Split

/-!
# Reading media queries

    list       = query { "," query }
    query      = [ "only" | "not" ] type { "and" expression }
               | expression { "and" expression }
    expression = "(" [ "min-" | "max-" ] name [ ":" value ] ")"

A query without a type is one of all media.  Letter case plays no part.  The word `and` needs no
space before it after a type, so a type is the longest one that leaves nothing or a text that starts
with `and`.
-/

namespace StyleObjects.MediaQuery

open Text

/-- May start the name of a type. -/
def startsName (c : Char) : Bool :=
  (foldChar c).isLower || c == '_'

/-- May stand in the name of a type or feature. -/
def isNameChar (c : Char) : Bool :=
  startsName c || c.isDigit || c == '-'

/-- The text after `and`, with blanks around it, at the start of a text. -/
def takeAnd? (cs : List Char) : Option (List Char) :=
  (dropKeyword? ['a', 'n', 'd'] (skipBlanks cs)).map skipBlanks

/-- The text of the expressions after a type or a first expression: none of it, or what follows an
`and`. -/
def takeTail? (cs : List Char) : Option (Option (List Char)) :=
  if cs.isEmpty then some none else (takeAnd? cs).map some

/-- The longest name of a type at the start of a text that leaves a tail, and the tail.  The length
of the name is at most `length`. -/
def takeType? : Nat → List Char → Option (List Char × Option (List Char))
  | 0, _ => none
  | length + 1, cs =>
    match takeTail? (cs.drop (length + 1)) with
    | some tail => some (cs.take (length + 1), tail)
    | none => takeType? length cs

/-- The name of a type at the start of a text, and the tail. -/
def takeTyped? (cs : List Char) : Option (List Char × Option (List Char)) :=
  if cs.head?.any startsName then takeType? (cs.takeWhile isNameChar).length cs else none

/-- The text after a qualifier and blanks. -/
def dropQualifier? (word cs : List Char) : Option (List Char) :=
  (dropKeyword? word cs).bind fun rest =>
    if rest.head?.any isBlank then some (skipBlanks rest) else none

/-- The parts of a query before its expressions are read. -/
structure Outline where
  inverse : Bool
  type : List Char
  /-- The expression that stands in place of a type. -/
  first : Option (List Char)
  tail : Option (List Char)

/-- A qualifier, a type and a tail. -/
def takeQualified? (cs : List Char) : Option Outline :=
  let qualified (inverse : Bool) (word : List Char) : Option Outline :=
    ((dropQualifier? word cs).bind takeTyped?).map fun (type, tail) => ⟨inverse, type, none, tail⟩
  (qualified false ['o', 'n', 'l', 'y']).orElse fun _ => qualified true ['n', 'o', 't']

/-- A type and a tail. -/
def takeUnqualified? (cs : List Char) : Option Outline :=
  (takeTyped? cs).map fun (type, tail) => ⟨false, type, none, tail⟩

/-- The type of a query that names none. -/
def anyType : List Char := ['a', 'l', 'l']

/-- An expression in place of a type, and a tail. -/
def takeUntyped? (cs : List Char) : Option Outline :=
  match cs with
  | '(' :: rest =>
    let inner := rest.takeWhile (· != ')')
    match rest.dropWhile (· != ')') with
    | close :: after =>
      if inner.isEmpty then none
      else (takeTail? after).map fun tail => ⟨false, anyType, some ('(' :: inner ++ [close]), tail⟩
    | [] => none
  | _ => none

/-- The parts of a query.  Where the first word cannot be a qualifier, it is the type. -/
def outline? (cs : List Char) : Option Outline :=
  ((takeQualified? cs).orElse fun _ => takeUnqualified? cs).orElse fun _ => takeUntyped? cs

/-- The text after an `and` between two expressions, which has blanks on both sides, or stands
between a closing and an opening parenthesis; `closed` tells whether the text comes after a closing
one. -/
def takeJoint? (closed : Bool) (cs : List Char) : Option (List Char) :=
  (dropKeyword? ['a', 'n', 'd'] (skipBlanks cs)).bind fun rest =>
    if cs.head?.any isBlank && rest.head?.any isBlank then some (skipBlanks rest)
    else if closed && (skipBlanks rest).head? = some '(' then some (skipBlanks rest)
    else none

theorem length_of_takeJoint? {closed : Bool} {cs rest : List Char}
    (h : takeJoint? closed cs = some rest) : rest.length < cs.length := by
  simp only [takeJoint?] at h
  obtain ⟨after, found, h⟩ := Option.bind_eq_some_iff.1 h
  have keyword := length_of_dropKeyword? found
  have before := length_skipBlanks cs
  have behind := length_skipBlanks after
  simp only [List.length_cons, List.length_nil] at keyword
  split at h
  · simp only [Option.some.injEq] at h
    rw [← h]
    omega
  · split at h
    · simp only [Option.some.injEq] at h
      rw [← h]
      omega
    · cases h

/-- The expressions of a tail, not yet read. -/
def splitTail (closed : Bool) (cs : List Char) : List (List Char) :=
  match cs with
  | [] => [[]]
  | c :: cs =>
    match _found : takeJoint? closed (c :: cs) with
    | some rest => [] :: splitTail false rest
    | none => extendFirst c (splitTail (c == ')') cs)
termination_by cs.length
decreasing_by
  · have := length_of_takeJoint? _found
    simpa using this
  · simp

/-- The bound at the start of a feature's name, and the name after it. -/
def takeBound : List Char → Option MediaBound × List Char
  | 'm' :: 'i' :: 'n' :: '-' :: rest => (some .min, rest)
  | 'm' :: 'a' :: 'x' :: '-' :: rest => (some .max, rest)
  | name => (none, name)

/-- The value between a colon and the parenthesis at the end.  A value of blanks alone is the last
of them. -/
def valueOf? (cs : List Char) : Option (List Char) :=
  let value := trim cs
  if value.isEmpty then cs.getLast?.map ([·]) else some value

/-- The value that a text after a feature's name gives, if it gives one; none if the text does not
end the expression. -/
def takeValue? (cs : List Char) : Option (Option (List Char)) :=
  match skipBlanks cs with
  | [')'] => some none
  | ':' :: rest =>
    let value := rest.takeWhile (· != ')')
    if rest.drop value.length = [')'] then (valueOf? value).map some else none
  | _ => none

/-- Read an expression. -/
def readExpression? (cs : List Char) : Option MediaExpression :=
  match trim cs with
  | '(' :: rest =>
    let named := skipBlanks rest
    if named.head?.any fun c => startsName c || c == '-' then
      (takeValue? (named.dropWhile isNameChar)).map fun value =>
        let (bound, feature) := takeBound (lower (named.takeWhile isNameChar))
        ⟨bound, String.ofList feature, value.map String.ofList⟩
    else none
  | _ => none

/-- The expressions of a query, not yet read; none if there is nothing after an `and`. -/
def Outline.expressions? (outline : Outline) : Option (List (List Char)) :=
  match outline.tail with
  | none => some outline.first.toList
  | some tail =>
    let tail := trim tail
    if tail.isEmpty then none else some (outline.first.toList ++ splitTail false tail)

/-- Read one query. -/
def readQuery? (cs : List Char) : Option MediaQuery := do
  let outline ← outline? (trim cs)
  let expressions ← (← outline.expressions?).mapM readExpression?
  return ⟨outline.inverse, String.ofList (lower outline.type), expressions⟩

/-- Read a list of queries. -/
def parse? (text : String) : Option (List MediaQuery) :=
  (splitAt ',' text.toList).mapM readQuery?

end StyleObjects.MediaQuery
