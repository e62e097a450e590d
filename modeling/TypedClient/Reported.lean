import TypedClient.Warning

/-! Values together with the warnings raised on the way to them. -/

namespace TypedClient

structure Reported (α : Type) where
  value : α
  warnings : List Warning
  deriving DecidableEq, Repr

namespace Reported

variable {α β : Type}

instance : Monad Reported where
  pure value := ⟨value, []⟩
  bind first next := ⟨(next first.value).value, first.warnings ++ (next first.value).warnings⟩

@[simp] theorem value_pure (a : α) : (pure a : Reported α).value = a := rfl

@[simp] theorem warnings_pure (a : α) : (pure a : Reported α).warnings = [] := rfl

@[simp] theorem value_bind (first : Reported α) (next : α → Reported β) :
    (first >>= next).value = (next first.value).value := rfl

@[simp] theorem warnings_bind (first : Reported α) (next : α → Reported β) :
    (first >>= next).warnings = first.warnings ++ (next first.value).warnings := rfl

/-- A value with one warning. -/
def warn (warning : Warning) (value : α) : Reported α := ⟨value, [warning]⟩

/-- The values of a list of items in order, with all their warnings. -/
def forEach (items : List α) (f : α → Reported β) : Reported (List β) :=
  ⟨items.map fun item => (f item).value, items.flatMap fun item => (f item).warnings⟩

end Reported

end TypedClient
