import TypedClient.Text.Case
import TypedClient.Text.WordTable

/-! Word characters and decimal digits over the whole of Unicode. -/

namespace TypedClient.Text

def isWord (c : Char) : Bool :=
  if isAscii c then c.isAlphanum || c == '_' else inRuns wordRuns c

def isDecimalDigit (c : Char) : Bool :=
  if isAscii c then c.isDigit else inRuns decimalDigitRuns c

end TypedClient.Text
