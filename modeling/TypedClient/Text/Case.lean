import TypedClient.Text.Basic
import TypedClient.Text.CaseTable

/-! Letter case over the whole of Unicode. -/

namespace TypedClient.Text

def isAscii (c : Char) : Bool := c.toNat < 128

def isUppercase (c : Char) : Bool :=
  if isAscii c then c.isUpper else inRuns uppercaseRuns c

def isLowercase (c : Char) : Bool :=
  if isAscii c then c.isLower else inRuns lowercaseRuns c

/-- Letters that have a case. -/
def isCased (c : Char) : Bool :=
  isUppercase c || isLowercase c || inRuns titlecaseRuns c

def isCaseIgnorable (c : Char) : Bool :=
  if isAscii c then c == '\'' || c == '.' || c == ':' || c == '^' || c == '\x60'
  else inRuns caseIgnorableRuns c

/-- The lower case of one character apart from its place in a word. -/
def lowerChar (c : Char) : Text :=
  if isAscii c then [c.toLower]
  else if c == 'İ' then ['i', '\u0307']
  else
    match loweringRuns.find? (·.1.contains c.toNat) with
    | some (_, distance) => [Char.ofNat (c.toNat + distance).toNat]
    | none => [c]

/-- Whether the nearest character that is not case-ignorable is a cased letter. -/
def meetsCased (text : Text) : Bool :=
  match text.dropWhile isCaseIgnorable with
  | [] => false
  | c :: _ => isCased c

/-- Lower case with the characters already passed, nearest first; a sigma that ends a word takes
its final form. -/
def lowerAfter (passed : Text) : Text → Text
  | [] => []
  | c :: rest =>
    (if c == 'Σ' then (if meetsCased passed && !meetsCased rest then ['ς'] else ['σ'])
      else lowerChar c) ++ lowerAfter (c :: passed) rest

def lower (text : Text) : Text := lowerAfter [] text

end TypedClient.Text
