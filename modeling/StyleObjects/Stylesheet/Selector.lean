import StyleObjects.Text.Blank
import StyleObjects.Text.Split

/-!
# Selectors

A selector list is cut at its commas outside brackets.  There is no cascade, so a selector is
accepted only if it names exactly one style object: a class, the root, or a part of a component
where those are enabled.  The selector `:export` marks a block of values for export, and anything
that combines selectors, matches attributes or uses other pseudo-classes is rejected.
-/

namespace StyleObjects

open Text

/-- What a selector names. -/
inductive SelectorKind where
  | valueExport
  | root
  | styleClass
  | part
  | rejected
  deriving DecidableEq, Repr

/-- Selectors of the kind name a style object. -/
def SelectorKind.isAccepted : SelectorKind → Bool
  | .root | .styleClass | .part => true
  | .valueExport | .rejected => false

namespace Selector

/-- The depth of round and square brackets after a character. -/
def bracketDepth (depth : Nat) (c : Char) : Nat :=
  if c = '(' ∨ c = '[' then depth + 1
  else if c = ')' ∨ c = ']' then depth - 1
  else depth

/-- A comma outside of all brackets separates selectors. -/
def separates (depth : Nat) (c : Char) : Bool :=
  depth == 0 && c == ','

/-- The selectors of a list, with single spaces for runs of white space; empty ones are dropped. -/
def splitList (cs : List Char) : List (List Char) :=
  ((splitScanning bracketDepth separates 0 cs).map normalize).filter (!·.isEmpty)

/-- Characters that combine selectors or match attributes. -/
def combines (c : Char) : Bool :=
  c == '[' || c == '~' || c == '>' || c == '+' || c == ' ' || c == '\t' || c == '\n'

/-- The text after a class name at its start, which is a dot and a name without colon. -/
def skipClass? : List Char → Option (List Char)
  | '.' :: rest =>
    if rest.head?.any (· != ':') then some (rest.dropWhile (· != ':')) else none
  | rest => some rest

/-- `part(…)` with something between the parentheses, and nothing after them. -/
def isPartCall : List Char → Bool
  | 'p' :: 'a' :: 'r' :: 't' :: '(' :: rest =>
    rest.head?.any (· != ')') && rest.dropWhile (· != ')') == [')']
  | _ => false

/-- One or two colons and the part, after an optional class. -/
def isPart (cs : List Char) : Bool :=
  match skipClass? cs with
  | some (':' :: ':' :: rest) => isPartCall rest
  | some (':' :: rest) => isPartCall rest
  | _ => false

/-- What the characters of a selector name, with part selectors enabled or not. -/
def kindOf (partSelectors : Bool) (cs : List Char) : SelectorKind :=
  if cs.any combines then .rejected
  else if partSelectors && isPart cs then .part
  else
    match cs with
    | '.' :: name => if name.isEmpty || name.contains ':' then .rejected else .styleClass
    | _ => .rejected

/-- The selector of an export block. -/
def exportSelector : String := ":export"

/-- The selector of the root variables. -/
def rootSelector : String := ":root"

/-- What a selector names, with part selectors enabled or not. -/
def classify (partSelectors : Bool) (selector : String) : SelectorKind :=
  if selector = exportSelector then .valueExport
  else if selector = rootSelector then .root
  else kindOf partSelectors selector.toList

/-- The name of the style object of an accepted selector: the selector without a leading dot. -/
def key (selector : String) : String :=
  match selector.toList with
  | '.' :: name => String.ofList name
  | _ => selector

end Selector

/-- The selectors of a selector list. -/
def splitSelectors (list : String) : List String :=
  (Selector.splitList list.toList).map String.ofList

end StyleObjects
