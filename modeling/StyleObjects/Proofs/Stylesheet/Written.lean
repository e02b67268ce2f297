import StyleObjects.Stylesheet.Parser

/-!
# Written stylesheets

A written stylesheet is the tree of everything that its text spells out.  Unlike the rules that
reading keeps, it has the bodies of at-rules.  A layout chooses the white space between the tokens,
and whether the last declaration of a style rule ends with a semicolon; nothing else of a text is
left open by the tree.

A tree is canonical if its words can be told apart without quotes, comments or escapes: names are
in lower case, texts are collapsed, and no text has a mark that ends it.
-/

namespace StyleObjects.Stylesheet

open Text

/-- A rule as it is written.  The body of an at-rule mixes declarations and rules. -/
inductive Written where
  /-- A style rule. -/
  | style (selectors : List String) (declarations : List Declaration)
  /-- A media rule. -/
  | media (query : String) (rules : List Written)
  /-- An at-rule that ends with a semicolon. -/
  | statement (name prelude : String)
  /-- An at-rule with a body. -/
  | block (name prelude : String) (body : List (Declaration ⊕ Written))

namespace Written

mutual

/-- What reading keeps of a written rule: all but the bodies of at-rules. -/
def toRule : Written → Rule
  | .style selectors declarations => .style selectors declarations
  | .media query rules => .media query (toRules rules)
  | .statement name prelude => .atRule name prelude
  | .block name prelude _ => .atRule name prelude

/-- What reading keeps of a list of written rules. -/
def toRules : List Written → List Rule
  | [] => []
  | rule :: rules => rule.toRule :: toRules rules

end

end Written

/-! ## Layouts -/

/-- White space between two tokens. -/
abbrev Gap := { cs : List Char // cs.all Token.isSpace = true }

/-- The white space of a text. -/
structure Layout where
  /-- Before a rule or a declaration, by the number of blocks around it. -/
  beforeItem : Nat → Gap
  /-- Before the brace that closes a block, and at the end of the text. -/
  beforeClose : Nat → Gap
  /-- Before the brace that opens a block. -/
  beforeBlock : Gap
  /-- After a comma between selectors. -/
  afterComma : Gap
  /-- After the colon of a declaration. -/
  afterColon : Gap
  /-- Before a semicolon. -/
  beforeSemicolon : Gap
  /-- The last declaration of a style rule ends with a semicolon, as all others do. -/
  endsLast : Bool

namespace Layout

/-- The selectors of a style rule. -/
def selectors (layout : Layout) : List String → List Char
  | [] => []
  | [selector] => selector.toList
  | selector :: others =>
      selector.toList ++ ',' :: (layout.afterComma.1 ++ layout.selectors others)

/-- A declaration without its semicolon. -/
def declaration (layout : Layout) (depth : Nat) (declaration : Declaration) : List Char :=
  (layout.beforeItem depth).1 ++ (declaration.property.toList ++
    ':' :: (layout.afterColon.1 ++ declaration.value.toList))

/-- The end of a declaration or of an at-rule without body. -/
def semicolon (layout : Layout) : List Char :=
  layout.beforeSemicolon.1 ++ [';']

/-- The declarations of a style rule. -/
def declarations (layout : Layout) (depth : Nat) : List Declaration → List Char
  | [] => []
  | [last] => layout.declaration depth last ++ if layout.endsLast then layout.semicolon else []
  | first :: others =>
      layout.declaration depth first ++ (layout.semicolon ++ layout.declarations depth others)

/-- A block with a content at some depth. -/
def block (layout : Layout) (depth : Nat) (content : List Char) : List Char :=
  layout.beforeBlock.1 ++ '\x7b' :: (content ++ ((layout.beforeClose depth).1 ++ ['\x7d']))

/-- The name of an at-rule and its prelude, if it has one. -/
def atRule (name prelude : String) : List Char :=
  '@' :: (name.toList ++ if prelude.isEmpty then [] else ' ' :: prelude.toList)

mutual

/-- A written rule inside a number of blocks. -/
def rule (layout : Layout) (depth : Nat) : Written → List Char
  | .style selectors declarations =>
      (layout.beforeItem depth).1 ++ (layout.selectors selectors ++
        layout.block depth (layout.declarations (depth + 1) declarations))
  | .media query rules =>
      (layout.beforeItem depth).1 ++ (atRule "media" query ++
        layout.block depth (layout.rules (depth + 1) rules))
  | .statement name prelude =>
      (layout.beforeItem depth).1 ++ (atRule name prelude ++ layout.semicolon)
  | .block name prelude body =>
      (layout.beforeItem depth).1 ++ (atRule name prelude ++
        layout.block depth (layout.body (depth + 1) body))

/-- The rules of a media rule, or of the whole text. -/
def rules (layout : Layout) (depth : Nat) : List Written → List Char
  | [] => []
  | rule :: rules => layout.rule depth rule ++ layout.rules depth rules

/-- The declarations and rules of an at-rule. -/
def body (layout : Layout) (depth : Nat) : List (Declaration ⊕ Written) → List Char
  | [] => []
  | .inl declaration :: items =>
      layout.declaration depth declaration ++ (layout.semicolon ++ layout.body depth items)
  | .inr rule :: items => layout.rule depth rule ++ layout.body depth items

end

/-- The text of a written stylesheet. -/
def print (layout : Layout) (rules : List Written) : String :=
  String.ofList (layout.rules 0 rules ++ (layout.beforeClose 0).1)

/-- A line break and two spaces for every block around. -/
def newline (depth : Nat) : Gap :=
  ⟨'\n' :: List.replicate (2 * depth) ' ', by simp [Token.isSpace]⟩

/-- Every rule and every declaration on a line of its own. -/
def indented : Layout where
  beforeItem := newline
  beforeClose := newline
  beforeBlock := ⟨[' '], rfl⟩
  afterComma := ⟨[' '], rfl⟩
  afterColon := ⟨[' '], rfl⟩
  beforeSemicolon := ⟨[], rfl⟩
  endsLast := true

end Layout

/-! ## Canonical trees -/

/-- No blanks but single spaces between words; `afterSpace` tells that none may come first. -/
def isCollapsedAfter (afterSpace : Bool) : List Char → Bool
  | [] => !afterSpace
  | c :: cs =>
      if c = ' ' then !afterSpace && isCollapsedAfter true cs
      else !isBlank c && isCollapsedAfter false cs

/-- Words with single spaces between them, or nothing. -/
def isCollapsed (cs : List Char) : Bool :=
  cs.isEmpty || isCollapsedAfter true cs

/-- May stand in a canonical selector. -/
def isSelectorChar (c : Char) : Bool :=
  c.isAlphanum || ['.', '#', ':', '-', '_', '*', '>', '+', '~', ' '].contains c

/-- A canonical selector. -/
def isSelector (cs : List Char) : Bool :=
  !cs.isEmpty && isCollapsed cs && cs.all isSelectorChar

/-- May stand in a canonical name. -/
def isLowerNameChar (c : Char) : Bool :=
  c.isLower || c.isDigit || c == '_' || c == '-'

/-- A lower-case name that starts with a letter, or with a character that `starts` accepts. -/
def isLowerName (starts : Char → Bool) : List Char → Bool
  | [] => false
  | c :: cs => (c.isLower || starts c) && cs.all isLowerNameChar

/-- A canonical property: up to two dashes, and a name that starts with a letter or `_`. -/
def isPropertyName : List Char → Bool
  | '-' :: '-' :: name => isLowerName (· == '_') name
  | '-' :: name => isLowerName (· == '_') name
  | name => isLowerName (· == '_') name

/-- Marks of the syntax that no canonical value has. -/
def isValueMark (c : Char) : Bool :=
  ['\x7b', '\x7d', ';', '(', ')', '/', '\'', '"'].contains c

/-- A canonical value: neither empty nor with blanks at its ends. -/
def isValue (cs : List Char) : Bool :=
  cs.head?.any (!isBlank ·) && cs.getLast?.any (!isBlank ·) && cs.all (!isValueMark ·)

/-- The name of a canonical at-rule: a lower-case identifier that no keyword `@media` starts. -/
def isAtRuleName (cs : List Char) : Bool :=
  isLowerName (fun _ => false) (if cs.head? = some '-' then cs.tail else cs)
    && cs != "media".toList && !"media-".toList.isPrefixOf cs

/-- A canonical prelude of an at-rule. -/
def isPrelude (cs : List Char) : Bool :=
  isCollapsed cs && cs.all fun c => !Token.isMark c && c != '/'

/-- A canonical declaration. -/
def isCanonicalDeclaration (declaration : Declaration) : Bool :=
  isPropertyName declaration.property.toList && isValue declaration.value.toList

namespace Written

mutual

/-- The texts of a rule and of everything in it are canonical. -/
def isCanonical : Written → Bool
  | .style selectors declarations =>
      !selectors.isEmpty && selectors.all (fun selector => isSelector selector.toList)
        && declarations.all isCanonicalDeclaration
  | .media query rules => !query.isEmpty && isPrelude query.toList && areCanonical rules
  | .statement name prelude => isAtRuleName name.toList && isPrelude prelude.toList
  | .block name prelude body =>
      isAtRuleName name.toList && isPrelude prelude.toList && isCanonicalBody body

/-- The rules of a list are canonical. -/
def areCanonical : List Written → Bool
  | [] => true
  | rule :: rules => rule.isCanonical && areCanonical rules

/-- The declarations and rules of a body are canonical. -/
def isCanonicalBody : List (Declaration ⊕ Written) → Bool
  | [] => true
  | .inl declaration :: items => isCanonicalDeclaration declaration && isCanonicalBody items
  | .inr rule :: items => rule.isCanonical && isCanonicalBody items

end

end Written

end StyleObjects.Stylesheet
