import TypedClient.Text.Basic

/-! Request methods: tokens compared with regard to case. -/

namespace TypedClient

structure Method where
  token : Text
  deriving DecidableEq, Repr

namespace Method

def get : Method := ⟨"GET"⟩
def put : Method := ⟨"PUT"⟩
def post : Method := ⟨"POST"⟩
def delete : Method := ⟨"DELETE"⟩
def options : Method := ⟨"OPTIONS"⟩
def head : Method := ⟨"HEAD"⟩
def patch : Method := ⟨"PATCH"⟩
def trace : Method := ⟨"TRACE"⟩

/-- The methods a path can declare. -/
def known : List Method := [get, put, post, delete, options, head, patch, trace]

/-- The known method of a name in any case. -/
def named? (name : Text) : Option Method :=
  known.find? fun method => method.token = Text.upperAscii name

def isTokenChar (c : Char) : Bool :=
  c.isAlphanum || "!#$%&'*+-.^_\x60|~".toList.contains c

/-- A method is a non-empty run of token characters. -/
def ofToken? (token : Text) : Option Method :=
  if token ≠ [] ∧ token.all isTokenChar then some ⟨token⟩ else none

def lowerName (method : Method) : Text := Text.lowerAscii method.token

end Method

end TypedClient
