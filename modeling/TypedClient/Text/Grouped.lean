import TypedClient.Text.Basic

/-! Numbers with a comma before every third digit, counted from the end. -/

namespace TypedClient.Text

/-- The last three digits of a number. -/
def lastThree (n : Nat) : Text :=
  [n / 100 % 10, n / 10 % 10, n % 10].map Nat.digitChar

def grouped (n : Nat) : Text :=
  if n < 1000 then ofNat n else grouped (n / 1000) ++ "," ++ lastThree n
termination_by n

end TypedClient.Text
