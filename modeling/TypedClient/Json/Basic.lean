import TypedClient.Number.Basic

/-! JSON documents. -/

namespace TypedClient

inductive Json
  | null
  | bool (b : Bool)
  | number (n : Number)
  | string (text : Text)
  | array (items : List Json)
  /-- The members in their order; a name can stand more than once. -/
  | object (members : List (Text × Json))

end TypedClient
