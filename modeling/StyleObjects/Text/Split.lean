/-!
# Splitting a text where a scan allows it

A text is cut at separators, but only where a scan of the text so far permits a cut: outside quotes
and parentheses, say.  The scan is a state that each character moves on.
-/

namespace StyleObjects.Text

/-- Put a character in front of the first piece. -/
def extendFirst (c : Char) : List (List Char) → List (List Char)
  | [] => [[c]]
  | piece :: pieces => (c :: piece) :: pieces

/-- The pieces of a text, cut at every character that `cuts` in the state before it.  A text has
one piece more than it has cuts. -/
def splitScanning {σ : Type} (next : σ → Char → σ) (cuts : σ → Char → Bool) :
    σ → List Char → List (List Char)
  | _, [] => [[]]
  | state, c :: cs =>
    let pieces := splitScanning next cuts (next state c) cs
    if cuts state c then [] :: pieces else extendFirst c pieces

/-- The pieces of a text between the occurrences of one character. -/
def splitAt (separator : Char) (cs : List Char) : List (List Char) :=
  splitScanning (fun (_ : Unit) _ => ()) (fun _ c => c == separator) () cs

end StyleObjects.Text
