import TypedClient.Text.Basic

/-! Lines of terminal output. -/

namespace TypedClient

inductive Channel
  | output
  | errors
  deriving DecidableEq, Repr

structure Line where
  channel : Channel
  text : Text
  deriving DecidableEq, Repr

end TypedClient
