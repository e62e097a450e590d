import TypedClient.Number.Shortest

/-! Numbers of JSON documents: whole numbers of 64 bits, and all others with double precision. -/

namespace TypedClient

open Text

inductive Number
  | natural (n : Nat)
  /-- The number `-n`. -/
  | negative (n : Nat)
  | real (isNegative : Bool) (magnitude : Double)
  deriving DecidableEq, Repr

namespace Number

def minus (isNegative : Bool) : Text := if isNegative then ['-'] else []

def text : Number → Text
  | natural n => Text.ofNat n
  | negative n => '-' :: Text.ofNat n
  | real isNegative magnitude => minus isNegative ++ magnitude.text

end Number

end TypedClient
