/-!
# Comments

A comment runs from `/*` to the next `*/`.  It is removed except for its line breaks, so that what
is left stands on the lines where it stood.  A comment that is never closed is no comment.
-/

namespace StyleObjects.Comment

/-- The text of a comment after its `/*` and before its `*/`, and the text after that. -/
def takeBody? : List Char → Option (List Char × List Char)
  | '*' :: '/' :: rest => some ([], rest)
  | c :: rest => (takeBody? rest).map fun (body, rest) => (c :: body, rest)
  | [] => none

theorem length_of_takeBody? {cs body rest : List Char} (h : takeBody? cs = some (body, rest)) :
    rest.length < cs.length := by
  fun_induction takeBody? cs generalizing body with
  | case1 =>
    simp only [Option.some.injEq, Prod.mk.injEq] at h
    simp only [← h.2, List.length_cons]
    omega
  | case2 c cs _ ih =>
    obtain ⟨⟨inner, after⟩, found, same⟩ := Option.map_eq_some_iff.1 h
    simp only [Prod.mk.injEq] at same
    have := ih (same.2 ▸ found)
    simp only [List.length_cons]
    omega
  | case3 => cases h

/-- The text with every comment replaced by its line breaks. -/
def strip (cs : List Char) : List Char :=
  match cs with
  | '/' :: '*' :: rest =>
    match _found : takeBody? rest with
    | some (body, rest) => body.filter (· == '\n') ++ strip rest
    | none => '/' :: strip ('*' :: rest)
  | c :: rest => c :: strip rest
  | [] => []
termination_by cs.length
decreasing_by
  · have := length_of_takeBody? _found
    simp only [List.length_cons]
    omega
  all_goals simp

end StyleObjects.Comment

namespace StyleObjects

/-- A stylesheet's text without its comments. -/
def stripComments (source : String) : String :=
  String.ofList (Comment.strip source.toList)

end StyleObjects
