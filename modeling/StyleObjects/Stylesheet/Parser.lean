import StyleObjects.Stylesheet.Basic
import StyleObjects.Stylesheet.Comment
import StyleObjects.Stylesheet.Selector
import StyleObjects.Stylesheet.Token

/-!
# Reading a stylesheet

A machine reads one token after the other.  It keeps the blocks that are open and the place it has
reached, which together decide the classes of tokens that are tried next.  Reading stops at the
first position where no class fits, where a token is out of place, or at the last token if the text
ends too early.
-/

namespace StyleObjects

open Text

/-- A position in a text, counted from one; only a line break ends a line. -/
structure Position where
  line : Nat
  column : Nat
  deriving DecidableEq, Repr

/-- The position after a text. -/
def Position.after (cs : List Char) : Position :=
  ⟨1 + cs.count '\n', 1 + (cs.reverse.takeWhile (· != '\n')).length⟩

namespace Stylesheet

/-- A block that is still open, with its contents so far, the last one first. -/
inductive Scope where
  | style (selectors : List String) (declarations : List Declaration)
  | media (query : String) (rules : List Rule)
  | atRule (name prelude : String)

/-- What has been read of the next rule or declaration. -/
inductive Place where
  /-- Nothing of the whole text. -/
  | start
  /-- Nothing since the end of a rule. -/
  | ruleEnd
  /-- Nothing since the beginning of a block, a semicolon or a declaration. -/
  | body
  /-- The name of a property. -/
  | property (name : List Char)
  /-- The name of a property and the colon. -/
  | colon (name : List Char)
  /-- The selector list of a rule. -/
  | prelude (text : List Char)
  /-- The keyword `@media`. -/
  | mediaKeyword
  /-- The keyword `@media` and the query. -/
  | mediaQuery (text : List Char)
  /-- The name of an at-rule. -/
  | atKeyword (name : List Char)
  /-- The name of an at-rule and the text after it. -/
  | atPrelude (name text : List Char)

/-- The classes of tokens that are tried between the contents of an at-rule. -/
def atRuleKinds : List Token.Kind :=
  [.mediaKeyword, .property, .atKeyword, .prelude, .closeBrace, .semicolon]

/-- The classes of tokens that are tried inside a block. -/
def Scope.kinds : Scope → List Token.Kind
  | .style .. => [.property, .closeBrace, .semicolon]
  | .media .. => [.mediaKeyword, .atKeyword, .prelude, .closeBrace, .semicolon]
  | .atRule .. => atRuleKinds

/-- The classes of tokens that are tried at a place, inside the open blocks.  At the end of a rule
the classes are the same in all blocks, so a property is taken for one even where it may not
stand. -/
def Place.kinds (scopes : List Scope) : Place → List Token.Kind
  | .start => [.mediaKeyword, .atKeyword, .prelude]
  | .ruleEnd => atRuleKinds
  | .body => (scopes.head?.map Scope.kinds).getD []
  | .property _ => [.colon]
  | .colon _ => [.value]
  | .prelude _ => [.openBrace]
  | .mediaKeyword => [.atPrelude]
  | .mediaQuery _ => [.openBrace]
  | .atKeyword _ => [.atPrelude, .openBrace, .semicolon]
  | .atPrelude .. => [.openBrace, .semicolon]

/-- Spaces are dropped before every token but a value, which may start with them. -/
def Place.skipSpaces : Place → List Char → List Char
  | .colon _, cs => cs
  | _, cs => cs.dropWhile Token.isSpace

/-- The declaration of a property name and a value.  Names are in lower case, but those of custom
properties stay as they are. -/
def declarationOf (name value : List Char) : Declaration where
  property := String.ofList (if name.take 2 = ['-', '-'] then name else lower name)
  value := String.ofList (trim value)

/-- The selectors of a rule's selector list. -/
def selectorsOf (text : List Char) : List String :=
  (Selector.splitList text).map String.ofList

/-- The text before a block, with single spaces for runs of white space. -/
def preludeOf (text : List Char) : String :=
  String.ofList (normalize text)

/-- The name of an at-rule, in lower case. -/
def atRuleName (name : List Char) : String :=
  String.ofList (lower name)

/-- How far the reading has come: the place, the open blocks from the inside, and the rules that
are complete and stand outside of them, the last one first. -/
structure Progress where
  place : Place
  scopes : List Scope
  rules : List Rule

namespace Progress

/-- Go on at another place. -/
def goto (progress : Progress) (place : Place) : Progress :=
  { progress with place }

/-- Open a block. -/
def enter (progress : Progress) (scope : Scope) : Progress :=
  { progress with place := .body, scopes := scope :: progress.scopes }

/-- Add a complete rule to the block it stands in. -/
def addRule (progress : Progress) (rule : Rule) : Progress :=
  match progress.scopes with
  | [] => { progress with place := .ruleEnd, rules := rule :: progress.rules }
  | .media query rules :: outer =>
    { progress with place := .ruleEnd, scopes := .media query (rule :: rules) :: outer }
  | _ => progress.goto .ruleEnd

/-- Add a declaration to the block it stands in. -/
def addDeclaration (progress : Progress) (declaration : Declaration) : Progress :=
  match progress.scopes with
  | .style selectors declarations :: outer =>
    { progress with place := .body,
                    scopes := .style selectors (declaration :: declarations) :: outer }
  | _ => progress.goto .body

/-- Close the innermost block, which completes a rule. -/
def close? (progress : Progress) : Option Progress :=
  match progress.scopes with
  | [] => none
  | .style selectors declarations :: outer =>
    some ({ progress with scopes := outer }.addRule (.style selectors declarations.reverse))
  | .media query rules :: outer =>
    some ({ progress with scopes := outer }.addRule (.media query rules.reverse))
  | .atRule name prelude :: outer =>
    some ({ progress with scopes := outer }.addRule (.atRule name prelude))

/-- A declaration may stand in the innermost block. -/
def allowsDeclaration (progress : Progress) : Bool :=
  match progress.scopes with
  | .style .. :: _ | .atRule .. :: _ => true
  | _ => false

/-- Read a token between rules and declarations. -/
def begin? (progress : Progress) : Token → Option Progress
  | .mediaKeyword => some (progress.goto .mediaKeyword)
  | .atKeyword name => some (progress.goto (.atKeyword name))
  | .prelude text => some (progress.goto (.prelude text))
  | .property name =>
    if progress.allowsDeclaration then some (progress.goto (.property name)) else none
  | .semicolon => if progress.scopes.isEmpty then none else some (progress.goto .body)
  | .closeBrace => progress.close?
  | _ => none

/-- Read a token; none if it is out of place. -/
def advance? (progress : Progress) (token : Token) : Option Progress :=
  match progress.place, token with
  | .start, token | .ruleEnd, token | .body, token => progress.begin? token
  | .property name, .colon => some (progress.goto (.colon name))
  | .colon name, .value text => some (progress.addDeclaration (declarationOf name text))
  | .prelude text, .openBrace => some (progress.enter (.style (selectorsOf text) []))
  | .mediaKeyword, .atPrelude text => some (progress.goto (.mediaQuery text))
  | .mediaQuery text, .openBrace => some (progress.enter (.media (preludeOf text) []))
  | .atKeyword name, .atPrelude text => some (progress.goto (.atPrelude name text))
  | .atKeyword name, .openBrace => some (progress.enter (.atRule (atRuleName name) ""))
  | .atKeyword name, .semicolon => some (progress.addRule (.atRule (atRuleName name) ""))
  | .atPrelude name text, .openBrace =>
    some (progress.enter (.atRule (atRuleName name) (preludeOf text)))
  | .atPrelude name text, .semicolon =>
    some (progress.addRule (.atRule (atRuleName name) (preludeOf text)))
  | _, _ => none

/-- The rules, if the text may end here. -/
def finish? (progress : Progress) : Option Stylesheet :=
  match progress.place, progress.scopes with
  | .start, [] | .ruleEnd, [] => some progress.rules.reverse
  | _, _ => none

/-- Read a text.  Where reading stops is given by the text from there on; `lastToken` is the text
from the token before this text on. -/
def run (progress : Progress) (lastToken cs : List Char) : Except (List Char) Stylesheet :=
  if (progress.place.skipSpaces cs).isEmpty then
    match progress.finish? with
    | some rules => .ok rules
    | none => .error lastToken
  else
    match _found : Token.takeFirst? (progress.place.kinds progress.scopes)
        (progress.place.skipSpaces cs) with
    | none => .error (progress.place.skipSpaces cs)
    | some (token, rest) =>
      match progress.advance? token with
      | none => .error (progress.place.skipSpaces cs)
      | some next => next.run (progress.place.skipSpaces cs) rest
termination_by cs.length
decreasing_by
  have shorter := Token.length_of_takeFirst? _found
  have : (progress.place.skipSpaces cs).length ≤ cs.length := by
    unfold Place.skipSpaces
    split
    · exact Nat.le_refl _
    · exact (List.dropWhile_suffix Token.isSpace).length_le
  omega

end Progress

/-- Read a text without comments, or give what is left where reading stops. -/
def read (cs : List Char) : Except (List Char) Stylesheet :=
  Progress.run ⟨.start, [], []⟩ cs cs

/-- Read a stylesheet.  The position where reading stops is one in the text without comments. -/
def parse (source : String) : Except Position Stylesheet :=
  let cs := Comment.strip source.toList
  (read cs).mapError fun left => Position.after (cs.take (cs.length - left.length))

end Stylesheet

end StyleObjects
