import TypedRecords.Object

/-!
# Inquiries

A computation that asks an object for properties, one after the other. Run on an object it gives its result
and the names it asked for, so that what is fetched is part of what an inquiry means.
-/

namespace TypedRecords

inductive Inquiry (α : Type) : Type
  | answer (a : α)
  | ask (name : String) (next : Answer → Inquiry α)

namespace Inquiry

def bind : Inquiry α → (α → Inquiry β) → Inquiry β
  | answer a, f => f a
  | ask name next, f => ask name fun got => (next got).bind f

def result (o : Object) : Inquiry α → α
  | answer a => a
  | ask name next => (next (o name)).result o

def log (o : Object) : Inquiry α → List String
  | answer _ => []
  | ask name next => name :: (next (o name)).log o

@[simp] theorem result_bind (o : Object) (i : Inquiry α) (f : α → Inquiry β) :
    (i.bind f).result o = (f (i.result o)).result o := by
  induction i with
  | answer a => rfl
  | ask name next ih => exact ih (o name)

@[simp] theorem log_bind (o : Object) (i : Inquiry α) (f : α → Inquiry β) :
    (i.bind f).log o = i.log o ++ (f (i.result o)).log o := by
  induction i with
  | answer a => rfl
  | ask name next ih => simpa [bind, log, result] using ih (o name)

end Inquiry

end TypedRecords
