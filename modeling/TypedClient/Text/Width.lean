import TypedClient.Text.Basic
import TypedClient.Text.Case
import TypedClient.Text.WidthTable

/-! The number of columns that text takes in a terminal. -/

namespace TypedClient.Text

def charWidth (c : Char) : Nat :=
  if isAscii c then 1
  else if inRuns zeroWidthRuns c then 0
  else if inRuns wideRuns c then 2
  else 1

def width : Text → Nat
  | [] => 0
  | c :: rest => charWidth c + width rest

end TypedClient.Text
