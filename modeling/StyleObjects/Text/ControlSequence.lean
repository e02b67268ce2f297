/-!
# Control sequences of terminals

A control sequence tells a terminal to move, to color what follows, and the like.  It starts with
the escape character and a bracket, which parameters, intermediate characters and one final
character follow.  Text that is printed for reading has none.
-/

namespace StyleObjects.Text

/-- May stand in the parameters of a control sequence. -/
def isParameter (c : Char) : Bool :=
  '0' ≤ c && c ≤ '?'

/-- May stand between the parameters and the final character of a control sequence. -/
def isIntermediate (c : Char) : Bool :=
  ' ' ≤ c && c ≤ '/'

/-- May end a control sequence. -/
def isFinal (c : Char) : Bool :=
  '@' ≤ c && c ≤ '~'

/-- The text after the control sequence at the start of a text. -/
def dropControlSequence? : List Char → Option (List Char)
  | '\x1b' :: '[' :: rest =>
    match (rest.dropWhile isParameter).dropWhile isIntermediate with
    | c :: rest => if isFinal c then some rest else none
    | [] => none
  | _ => none

theorem length_of_dropControlSequence? {cs rest : List Char}
    (h : dropControlSequence? cs = some rest) : rest.length < cs.length := by
  unfold dropControlSequence? at h
  split at h
  · rename_i body
    have parameters := (List.dropWhile_suffix isParameter (l := body)).length_le
    have intermediates := (List.dropWhile_suffix isIntermediate
      (l := body.dropWhile isParameter)).length_le
    split at h
    · rename_i final after found
      simp only [Option.ite_none_right_eq_some, Option.some.injEq] at h
      rw [found, List.length_cons] at intermediates
      simp only [List.length_cons, ← h.2]
      omega
    · cases h
  · cases h

/-- The text without its control sequences. -/
def dropControlSequences (cs : List Char) : List Char :=
  match cs with
  | [] => []
  | c :: cs =>
    match _found : dropControlSequence? (c :: cs) with
    | some rest => dropControlSequences rest
    | none => c :: dropControlSequences cs
termination_by cs.length
decreasing_by
  · have := length_of_dropControlSequence? _found
    simpa using this
  · simp

/-- The text as it is printed for reading. -/
def legible (text : String) : String :=
  String.ofList (dropControlSequences text.toList)

end StyleObjects.Text
