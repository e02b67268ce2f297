import StyleObjects.Style.Scalar
import StyleObjects.Style.Words

/-!
# Transforms

A transform is a list of functions of angles, lengths or numbers.  It becomes a list of maps of one
key each, in the order of the functions; a function of two axes becomes one map for each.
-/

namespace StyleObjects.Transform

open Text

/-- An angle; zero needs no unit. -/
def angle? (word : String) : Option Value :=
  if word = "0" then some (.text "0deg")
  else if Measure.isAngle word then some (.text word)
  else none

/-- A length. -/
def length? (word : String) : Option Value :=
  if Scalar.isLengthWord word then some (.scalar (.read word)) else none

/-- A number. -/
def number? (word : String) : Option Value :=
  (Scalar.readNumber? word).map .scalar

/-- What the arguments of a function of one argument are. -/
def argument? (function : String) : Option (String → Option Value) :=
  if ["rotate", "rotateX", "rotateY", "rotateZ", "skewX", "skewY"].contains function then
    some angle?
  else if ["translateX", "translateY"].contains function then some length?
  else if ["scaleX", "scaleY", "perspective", "scale"].contains function then some number?
  else none

/-- Two values under two keys. -/
def pair? (read? : String → Option Value) (first second : String) (x y : String) :
    Option (List (String × Value)) := do
  return [(first, ← read? x), (second, ← read? y)]

/-- The entries that a function with arguments contributes. -/
def apply (function : String) (arguments : List String) : Option (List (String × Value)) :=
  match function, arguments with
  | "translate", [x] => pair? length? "translateX" "translateY" x "0"
  | "translate", [x, y] => pair? length? "translateX" "translateY" x y
  | "scale", [x, y] => pair? number? "scaleX" "scaleY" x y
  | "skew", [x] => pair? angle? "skewX" "skewY" x "0"
  | "skew", [x, y] => pair? angle? "skewX" "skewY" x y
  | "matrix", [a, b, c, d, e, f] =>
    ([a, b, c, d, e, f].mapM number?).map fun numbers => [("matrix", .list numbers)]
  | function, [argument] => do
    let read? ← argument? function
    return [(function, ← read? argument)]
  | _, _ => none

/-- May stand in the arguments of a function. -/
def isArgumentChar (c : Char) : Bool :=
  c != '(' && c != ')'

/-- The name and the arguments of a function at the start of a text, and the text after the blanks
that follow it. -/
def takeFunction? (cs : List Char) : Option ((List Char × List Char) × List Char) :=
  let cs := skipBlanks cs
  if cs.head?.any Char.isAlpha then
    match cs.dropWhile Char.isAlphanum with
    | '(' :: rest =>
      match rest.dropWhile isArgumentChar with
      | ')' :: after =>
        some ((cs.takeWhile Char.isAlphanum, rest.takeWhile isArgumentChar), skipBlanks after)
      | _ => none
    | _ => none
  else none

theorem length_of_takeFunction? {cs rest : List Char} {function : List Char × List Char}
    (h : takeFunction? cs = some (function, rest)) : rest.length < cs.length := by
  simp only [takeFunction?] at h
  have start := (List.dropWhile_suffix isBlank (l := cs)).length_le
  have name := (List.dropWhile_suffix Char.isAlphanum (l := skipBlanks cs)).length_le
  split at h
  · split at h
    · rename_i body opened
      have arguments := (List.dropWhile_suffix isArgumentChar (l := body)).length_le
      split at h
      · rename_i after closed
        have blanks := (List.dropWhile_suffix isBlank (l := after)).length_le
        simp only [Option.some.injEq, Prod.mk.injEq, skipBlanks] at h
        rw [opened, List.length_cons] at name
        rw [closed, List.length_cons] at arguments
        rw [h.2] at blanks
        simp only [skipBlanks] at name
        omega
      · cases h
    · cases h
  · cases h

/-- The entries that the functions of a text contribute, in order. -/
def read? (cs : List Char) : Option (List (String × Value)) :=
  match cs with
  | [] => some []
  | c :: cs =>
    match _found : takeFunction? (c :: cs) with
    | some ((name, arguments), rest) => do
      let entries ← apply (String.ofList name) (items (String.ofList arguments))
      return entries ++ (← read? rest)
    | none => none
termination_by cs.length
decreasing_by
  have := length_of_takeFunction? _found
  simpa using this

/-- A whole transform. -/
def transform? (value : String) : Option Styles :=
  if value = "none" then some (.ofList [("transform", .list [])])
  else
    (read? value.toList).bind fun entries =>
      if entries.isEmpty then none
      else some (.ofList [("transform", .list (entries.map fun entry => .map [entry]))])

end StyleObjects.Transform
