import StyleObjects.Text.Blank
import StyleObjects.Text.Split

/-!
# The parts of a value

A value is cut into words at its white space, or into items at its commas, where these stand
outside of parentheses and quotes.
-/

namespace StyleObjects

open Text

/-- Where a scan of a value stands. -/
inductive Nesting where
  /-- Inside a string that a quote has opened, at some depth of parentheses. -/
  | quoted (quote : Char) (depth : Nat)
  /-- Outside of strings, at some depth of parentheses. -/
  | plain (depth : Nat)
  deriving DecidableEq, Repr

namespace Nesting

/-- Where the scan stands after a character. -/
def next : Nesting → Char → Nesting
  | .quoted quote depth, c => if c = quote then .plain depth else .quoted quote depth
  | .plain depth, c =>
    if c = '"' ∨ c = '\'' then .quoted c depth
    else if c = '(' then .plain (depth + 1)
    else if c = ')' then .plain (depth - 1)
    else .plain depth

/-- Outside of strings and parentheses. -/
def isOutside (nesting : Nesting) : Bool :=
  nesting = .plain 0

end Nesting

/-- The trimmed parts of a value between separators; empty ones are dropped. -/
def splitParts (separates : Char → Bool) (cs : List Char) : List (List Char) :=
  let cuts (nesting : Nesting) (c : Char) : Bool := nesting.isOutside && separates c
  ((splitScanning Nesting.next cuts (.plain 0) cs).map trim).filter (!·.isEmpty)

/-- The words of a value. -/
def words (value : String) : List String :=
  (splitParts isBlank value.toList).map String.ofList

/-- The items of a value, which commas separate. -/
def items (value : String) : List String :=
  (splitParts (· == ',') value.toList).map String.ofList

/-- A text without the quotes around it. -/
def unquoted (text : String) : String :=
  match text.toList with
  | first :: second :: rest =>
    if (first = '"' ∨ first = '\'') ∧ (second :: rest).getLast? = some first then
      String.ofList (second :: rest).dropLast
    else text
  | _ => text

end StyleObjects
