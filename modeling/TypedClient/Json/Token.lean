import TypedClient.Json.Basic
import TypedClient.Json.Reader

/-! Words, strings and numbers of JSON documents. -/

namespace TypedClient.Json.Reader

open Text

/-- The rest of a word. -/
def word : Text → Reader Unit
  | [] => pure ()
  | c :: rest => do
    match ← peek with
    | none => failHere .openValue
    | some found =>
      if found = c then
        advance
        word rest
      else failNext .badWord

/-! Strings. -/

def hexValue? (c : Char) : Option Nat :=
  if c.isDigit then some (c.toNat - '0'.toNat)
  else if 'a' ≤ c ∧ c ≤ 'f' then some (c.toNat - 'a'.toNat + 10)
  else if 'A' ≤ c ∧ c ≤ 'F' then some (c.toNat - 'A'.toNat + 10)
  else none

def hexNumber? (digits : Text) : Option Nat :=
  digits.foldl (fun found c => do some (16 * (← found) + (← hexValue? c))) (some 0)

/-- The four digits of an escape such as `\u00e9`. -/
def codeUnit : Reader Nat := do
  let cursor ← get
  if cursor.rest.size < 4 then failAt (cursor.offset + cursor.rest.size) .openString
  else
    match hexNumber? (cursor.rest.take 4) with
    | some unit =>
      set (⟨cursor.rest.drop 4, cursor.offset + 4⟩ : Cursor)
      return unit
    | none => failAt (cursor.offset + 4) .badEscape

def isFirstHalf (unit : Nat) : Bool := 0xD800 ≤ unit && unit ≤ 0xDBFF

def isSecondHalf (unit : Nat) : Bool := 0xDC00 ≤ unit && unit ≤ 0xDFFF

/-- One character of the escape that holds the second half of a surrogate pair. -/
def secondEscape (c : Char) : Reader Unit := do
  match ← peek with
  | none => failHere .openString
  | some found => if found = c then advance else failNext .openSurrogate

/-- The character of a code unit, which together with an escape after it may make up a pair. -/
def charOfUnit (unit : Nat) : Reader Char := do
  if isSecondHalf unit then failHere .loneSurrogate
  else if isFirstHalf unit then
    secondEscape '\\'
    secondEscape 'u'
    let second ← codeUnit
    if isSecondHalf second then
      return Char.ofNat (0x10000 + (unit - 0xD800) * 0x400 + (second - 0xDC00))
    else failHere .loneSurrogate
  else return Char.ofNat unit

/-- The character that a backslash and one letter stand for. -/
def shortEscape? (c : Char) : Option Char :=
  [('"', '"'), ('\\', '\\'), ('/', '/'), ('b', '\x08'), ('f', '\x0c'), ('n', '\n'), ('r', '\r'),
    ('t', '\t')].lookup c

/-- What follows a backslash; `ofUnit` reads on after the four digits of a code unit. -/
def escapeWith (ofUnit : Nat → Reader Char) : Reader Char := do
  match ← peek with
  | none => failHere .openString
  | some c =>
    if c = 'u' then
      advance
      ofUnit (← codeUnit)
    else
      match shortEscape? c with
      | some meant =>
        advance
        return meant
      | none => failNext .badEscape

def isControl (c : Char) : Bool := c.toNat < 32

/-- The rest of a string, its closing quote included. -/
def stringTail : Nat → Reader Text
  | 0 => pure []
  | bound + 1 => do
    match ← peek with
    | none => failHere .openString
    | some c =>
      if isControl c then failNext .controlCharacter
      else
        advance
        if c = '"' then return []
        else if c = '\\' then
          let meant ← escapeWith charOfUnit
          return meant :: (← stringTail bound)
        else return c :: (← stringTail bound)

/-- A string at its opening quote. -/
def string : Reader Text := do
  advance
  stringTail (← room)

/-! Numbers. -/

structure NumberLiteral where
  isNegative : Bool
  whole : Text
  fraction : Option Text
  exponent : Option (Bool × Text)
  deriving DecidableEq, Repr

def digits : Reader Text := takeRun Char.isDigit

/-- Digits of which there has to be at least one. A document that ends instead has the fault
`cut`. -/
def someDigits (cut : Fault) : Reader Text := do
  match ← peek with
  | none => failHere cut
  | some c => if c.isDigit then digits else failNext .badNumber

/-- Takes a character if it comes next. -/
def skip? (wanted : Char → Bool) : Reader (Option Char) := do
  match ← peek with
  | none => return none
  | some c =>
    if wanted c then
      advance
      return some c
    else return none

/-- The digits before the point; a zero stands alone. -/
def wholeDigits (cut : Fault) : Reader Text := do
  match ← skip? (· == '0') with
  | none => someDigits cut
  | some zero =>
    match ← peek with
    | none => return [zero]
    | some c => if c.isDigit then failNext .badNumber else return [zero]

def isExponentMark (c : Char) : Bool := c == 'e' || c == 'E'

def isSign (c : Char) : Bool := c == '+' || c == '-'

def numberLiteral (cut : Fault) : Reader NumberLiteral := do
  let minus ← skip? (· == '-')
  let whole ← wholeDigits cut
  let fraction ← do
    match ← skip? (· == '.') with
    | none => pure none
    | some _ => some <$> someDigits cut
  let exponent ← do
    match ← skip? isExponentMark with
    | none => pure none
    | some _ =>
      let sign ← skip? isSign
      let found ← someDigits cut
      pure (some (sign == some '-', found))
  return ⟨minus.isSome, whole, fraction, exponent⟩

def digitValue (c : Char) : Nat := c.toNat - '0'.toNat

def maxNatural : Nat := 18446744073709551615

/-- The number written so far, as long as it takes 64 bits, and how many digits came too late. -/
def addWhole (found : Nat × Nat) (c : Char) : Nat × Nat :=
  let next := 10 * found.1 + digitValue c
  if found.2 = 0 ∧ next ≤ maxNatural then (next, 0) else (found.1, found.2 + 1)

def maxExponent : Nat := 2147483647

/-- The length of the shortest beginning of an exponent that is out of range. -/
def exponentLimit? (found : Text) : Option Nat :=
  (List.range found.length).find? (fun n =>
    maxExponent < (found.take (n + 1)).foldl (fun value c => 10 * value + digitValue c) 0)
    |>.map (· + 1)

namespace NumberLiteral

/-- The digits that count, and the power of ten to multiply them by. -/
def scaled (literal : NumberLiteral) : Nat × Int :=
  let (whole, late) := literal.whole.foldl addWhole (0, 0)
  let fraction := literal.fraction.getD []
  let (all, lateAfter) := fraction.foldl addWhole (whole, 0)
  (all, (late : Int) - (fraction.length - lateAfter : Nat))

def isWhole (literal : NumberLiteral) : Bool :=
  literal.fraction.isNone && literal.exponent.isNone && (literal.whole.foldl addWhole (0, 0)).2 == 0

def exponentValue (literal : NumberLiteral) : Int :=
  match literal.exponent with
  | none => 0
  | some (isNegative, found) =>
    let value : Nat := found.foldl (fun value c => 10 * value + digitValue c) 0
    if isNegative then -(value : Int) else value

/-- Whether a negative whole number takes 64 bits with its sign. -/
def fitsNegative (n : Nat) : Bool := 0 < n && n ≤ 9223372036854775808

def wholeNumber (literal : NumberLiteral) : Number :=
  let n := literal.scaled.1
  if !literal.isNegative then .natural n
  else if fitsNegative n then .negative n
  else .real true (.ofNat n)

/-- The number as a real one; nothing if it is too large. -/
def realNumber? (literal : NumberLiteral) : Option Number :=
  let (digits, exponent) := literal.scaled
  ((Double.ofNat digits).shift? (exponent + literal.exponentValue)).map (.real literal.isNegative)

end NumberLiteral

def number : Reader Number := do
  let literal ← numberLiteral .openValue
  if literal.isWhole then return literal.wholeNumber
  let found := (literal.exponent.map (·.2)).getD []
  match exponentLimit? found with
  | some taken =>
    if literal.scaled.1 ≠ 0 ∧ 0 ≤ literal.exponentValue then
      failAt ((← get).offset - (found.length - taken)) .numberTooLarge
    else return .real literal.isNegative .zero
  | none =>
    match literal.realNumber? with
    | some value => return value
    | none => failHere .numberTooLarge

/-! Values that are neither lists nor objects. -/

def opensNumber (c : Char) : Bool := c == '-' || c.isDigit

/-- The value at the cursor, unless it is a list, an object or no value. -/
def scalar? : Reader (Option Json) := do
  match ← peek with
  | some 'n' =>
    word "null"
    return some .null
  | some 't' =>
    word "true"
    return some (.bool true)
  | some 'f' =>
    word "false"
    return some (.bool false)
  | some '"' => return some (.string (← string))
  | some c => if opensNumber c then return some (.number (← number)) else return none
  | none => return none

end TypedClient.Json.Reader
