import StyleObjects.Text.CaseTable

/-!
# Upper and lower case

Texts are lowered with the full mapping of all scripts, in which a capital sigma at the end of a
word becomes the final sigma.  A word is capitalised by giving its first character its title case
and lowering the rest.  Keywords are compared by a smaller rule, the simple folding of ASCII
letters, in which a few characters beyond ASCII stand for an ASCII letter.
-/

namespace StyleObjects.Text

/-- The lower-case form of a character, wherever it stands. -/
def lowerChar (c : Char) : List Char :=
  let code := c.toNat
  if code < 128 then [c.toLower]
  else
    match lowerSequences.lookup code with
    | some image => image.map Char.ofNat
    | none => [Char.ofNat ((lowerRuns.findSome? (·.imageOf? code)).getD code)]

/-- The title-case form of a character. -/
def titleChar (c : Char) : List Char :=
  let code := c.toNat
  if code < 128 then [c.toUpper]
  else
    match titleSequences.lookup code with
    | some image => image.map Char.ofNat
    | none => [Char.ofNat ((titleRuns.findSome? (·.imageOf? code)).getD code)]

/-- A character with case that case does not look past. -/
def isCased (c : Char) : Bool :=
  inRanges casedRanges c.toNat

/-- A character that case looks past. -/
def isCaseIgnorable (c : Char) : Bool :=
  inRanges caseIgnorableRanges c.toNat

/-- The first character that case does not look past has case. -/
def meetsCased (cs : List Char) : Bool :=
  (cs.dropWhile isCaseIgnorable).head?.any isCased

/-- Lower a text of which `before`, read backwards, comes first.  A capital sigma takes its final
form when a cased character stands before it and none after it. -/
def lowerAfter (before : List Char) : List Char → List Char
  | [] => []
  | c :: cs =>
    let image :=
      if c = 'Σ' then if meetsCased before && !meetsCased cs then ['ς'] else ['σ']
      else lowerChar c
    image ++ lowerAfter (c :: before) cs

/-- The text in lower case. -/
def lower (cs : List Char) : List Char :=
  lowerAfter [] cs

/-- The text with its first character in title case and the rest in lower case. -/
def capitalize : List Char → List Char
  | [] => []
  | c :: cs => titleChar c ++ lowerAfter [c] cs

/-- A string in lower case. -/
def lowered (s : String) : String :=
  String.ofList (lower s.toList)

/-- The character that keywords are compared by: ASCII letters in lower case, with the dotless and
the dotted `i`, the long `s` and the kelvin sign taken for the letters they resemble. -/
def foldChar (c : Char) : Char :=
  if c = 'ı' ∨ c = 'İ' then 'i'
  else if c = 'ſ' then 's'
  else if c = '\u212a' then 'k'
  else c.toLower

/-- The text after `word` at its start, letter case aside. -/
def dropKeyword? : List Char → List Char → Option (List Char)
  | [], cs => some cs
  | _ :: _, [] => none
  | w :: word, c :: cs => if foldChar c = w then dropKeyword? word cs else none

theorem length_of_dropKeyword? {word cs rest : List Char} (h : dropKeyword? word cs = some rest) :
    rest.length + word.length = cs.length := by
  fun_induction dropKeyword? word cs with
  | case1 => simp_all
  | case2 => cases h
  | case3 word c cs ih =>
    have := ih h
    simp only [List.length_cons]
    omega
  | case4 => cases h

end StyleObjects.Text
