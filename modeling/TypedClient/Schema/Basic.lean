import TypedClient.Schema.Property

/-! Schemas declared as object literals. -/

namespace TypedClient

structure Schema where
  name : Text
  body : Text
  properties : List Property
  deriving DecidableEq, Repr

/-- Index signatures are members, but no properties. -/
def isIndexSignature (name : Text) : Bool := name.head? = some '['

/-- Reads the properties of a body. Its comments go first, so that an example written in one is
never taken for a property. -/
def Schema.ofBody (name body : Text) : Except CutLiteral Schema :=
  let declared := (members (stripComments body)).filter fun member => !isIndexSignature member.name
  (declared.mapM fun member => Property.ofMember member.name member.value member.optional).map
    fun properties => ⟨name, body, properties⟩

end TypedClient
