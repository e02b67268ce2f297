import StyleObjects.Compile.Wire
import StyleObjects.Json.Printer

/-!
# The summary of an output

The summary lists selectors, media rules, exported values and what has been left out.
-/

namespace StyleObjects.Command

/-- Lines of text. -/
def unlines (lines : List String) : String :=
  String.join (lines.map (· ++ "\n"))

/-- The line of a selector. -/
def selectorLine (entry : String × Styles) : String :=
  let count := entry.2.size
  "  " ++ entry.1 ++ "  (" ++ toString count ++ (if count = 1 then " property)" else " properties)")

/-- The line of a media rule. -/
def mediaLine (output : Output) (entry : String × List MediaQuery) : String :=
  let selectors := ", ".intercalate ((output.media.get? entry.1).getD .empty).keys
  "  " ++ entry.1 ++ "  [" ++ toString entry.2.length ++ " alternative(s)]  "
    ++ (if selectors.isEmpty then "-" else selectors)

/-- The lines of a summary. -/
def summaryLines (output : Output) : List String :=
  ["Selectors: " ++ toString output.classes.size] ++ output.classes.entries.map selectorLine
    ++ ["", "Media queries: " ++ toString output.queries.size]
    ++ output.queries.entries.map (mediaLine output)
    ++ ["", "Exports: " ++ toString output.exports.size]
    ++ output.exports.entries.map (fun entry => "  " ++ entry.1 ++ " = " ++ entry.2)
    ++ ["", "Viewport units: " ++ (if output.usesViewport then "yes" else "no"),
      "Skipped: " ++ toString output.skipped.length]
    ++ output.skipped.map (fun skipped => "  " ++ skipped.text)

/-- The summary of an output. -/
def summary (output : Output) : String :=
  unlines (summaryLines output)

/-- The wire format over several lines.  An indentation below zero is none. -/
def indentedWire (indent : Int) (output : Output) : String :=
  output.wire.render (.indented indent.toNat)

end StyleObjects.Command
