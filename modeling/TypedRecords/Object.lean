import TypedRecords.Coercion
import TypedRecords.Text.Caseless

/-!
# Objects and property bags

An object answers a request for a property with a value, with nothing, or with a fault. A bag of properties
is an object whose pairs keep their order: the first pair whose name fits up to ASCII case answers.
-/

namespace TypedRecords

/-- Why an object or a hook fails. A fault that passes on a conversion error has that error's sources. -/
inductive Fault
  | text (message : String)
  | coercion (e : CoercionError)
  deriving DecidableEq, Repr

def Fault.message : Fault → String
  | .text message => message
  | .coercion e => e.message

def Fault.chain : Fault → List String
  | .text _ => []
  | .coercion e => e.chain

abbrev Answer := Except Fault (Option Value)

abbrev Object := String → Answer

def Object.failing (o : Object) (faults : List (String × String)) : Object := fun name =>
  match faults.lookup name with
  | some message => .error (.text message)
  | none => o name

inductive Handle
  | direct (o : Object)
  | borrowed (h : Handle)
  | owned (h : Handle)
  | shared (h : Handle)

def Handle.object : Handle → Object
  | .direct o => o
  | .borrowed h | .owned h | .shared h => fun name => h.object name

structure Bag where
  pairs : List (String × Value)

namespace Bag

def empty : Bag := ⟨[]⟩

def insert (b : Bag) (name : String) (v : Value) : Bag := ⟨b.pairs ++ [(name, v)]⟩

def ofList (pairs : List (String × Value)) : Bag := pairs.foldl (fun b p => b.insert p.1 p.2) empty

def size (b : Bag) : Nat := b.pairs.length

def isEmpty (b : Bag) : Bool := b.pairs.isEmpty

def get? (b : Bag) (name : String) : Option Value :=
  (b.pairs.find? fun p => caseless p.1 name).map (·.2)

def getExact? (b : Bag) (name : String) : Option Value :=
  (b.pairs.find? fun p => p.1 == name).map (·.2)

def eqPairs : List (String × Value) → List (String × Value) → Bool
  | [], [] => true
  | p :: ps, q :: qs => p.1 == q.1 && p.2.eq q.2 && eqPairs ps qs
  | _, _ => false

def eq (b c : Bag) : Bool := eqPairs b.pairs c.pairs

def object (b : Bag) : Object := fun name => .ok (b.get? name)

@[simp] theorem pairs_insert (b : Bag) (name : String) (v : Value) :
    (b.insert name v).pairs = b.pairs ++ [(name, v)] := rfl

@[simp] theorem pairs_ofList (pairs : List (String × Value)) : (ofList pairs).pairs = pairs := by
  have key : ∀ (ps : List (String × Value)) (b : Bag),
      (ps.foldl (fun b p => b.insert p.1 p.2) b).pairs = b.pairs ++ ps := by
    intro ps
    induction ps with
    | nil => intro b; simp
    | cons p ps ih => intro b; simp [ih]
  simpa [ofList, empty] using key pairs empty

end Bag

end TypedRecords
