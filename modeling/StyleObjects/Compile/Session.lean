import StyleObjects.Compile.Plan

/-!
# Growing an output piece by piece

An output can also be made from pieces: declarations for an entry, whole rules in the order in which
they stand, exported values, and things left out.  A piece that fails keeps what it has done.
-/

namespace StyleObjects.Session

/-- Declarations for an entry, which is made even if there are none. -/
def addDeclarations (context : Context) (entry : Entry) (declarations : List Declaration)
    (output : Output) : Run :=
  .of context (Plan.entrySteps entry declarations) output

/-- The steps of a rule; media rules are compiled whatever the options are, and at-rules are not
noted. -/
def ruleSteps (options : Options) : Rule → List Step
  | .atRule .. => []
  | rule => Plan.ruleSteps { options with mediaQueries := true } rule

/-- All rules of a text, in the order in which they stand. -/
def addRules (options : Options) (context : Context) (source : String) (output : Output) : Run :=
  match Stylesheet.parse source with
  | .error position => ⟨output, some (.unreadable position), []⟩
  | .ok rules => .of context (rules.flatMap (ruleSteps options)) output

/-- Exported values. -/
def addExports (context : Context) (declarations : List Declaration) (output : Output) : Run :=
  .of context (Plan.exportSteps declarations) output

/-- A node of a block: a declaration, or anything else, which is passed over. -/
inductive Node where
  | declaration (declaration : Declaration)
  | other (text : String)
  deriving DecidableEq, Repr

/-- The declaration that a node is. -/
def Node.declaration? : Node → Option Declaration
  | .declaration own => some own
  | .other _ => none

/-- The declarations among the nodes of a block, for an entry. -/
def addNodes (context : Context) (entry : Entry) (nodes : List Node) (output : Output) : Run :=
  addDeclarations context entry (nodes.filterMap Node.declaration?) output

/-- One thing that can be done to an output. -/
inductive Operation where
  /-- Add the nodes of a block to an entry. -/
  | addNodes (entry : Entry) (nodes : List Node)
  /-- Compile a style rule at the top. -/
  | styleRule (selectors : List String) (declarations : List Declaration)
  /-- Compile a media rule. -/
  | mediaRule (query : String) (rules : List Rule)
  /-- Export the values of a block. -/
  | exportValues (nodes : List Node)
  /-- Leave something out. -/
  | skip (skipped : Skipped)
  deriving Repr

/-- Do one thing to an output. -/
def Operation.run (options : Options) (context : Context) (output : Output) : Operation → Run
  | .addNodes entry nodes => Session.addNodes context entry nodes output
  | .styleRule selectors declarations =>
    .of context (Plan.styleSteps options none selectors declarations) output
  | .mediaRule query rules => .of context (Plan.mediaSteps options query rules) output
  | .exportValues nodes => addExports context (nodes.filterMap Node.declaration?) output
  | .skip skipped => .of context [.skip skipped] output

/-- An operation, with the options and the context in which it is done. -/
structure Call where
  options : Options
  context : Context
  operation : Operation

/-- Do one thing. -/
def Call.run (call : Call) (output : Output) : Run :=
  call.operation.run call.options call.context output

/-- The output after one thing after the other.  One that fails does not keep the next from being
done. -/
def after (output : Output) (calls : List Call) : Output :=
  calls.foldl (fun output call => (call.run output).output) output

end StyleObjects.Session
