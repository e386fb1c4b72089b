import TypedRecords.RecordType

/-!
# Records as tables

Records whose fields are given as data: a table from field names to cells. Each setter writes the cell of its
own field and no other. A hook may be given as a script of requests.
-/

namespace TypedRecords

variable [CustomTypes]

inductive Cell
  | typed (τ : Target) (x : τ.El)
  | found (v : Value)
  | absent

structure Record where
  cells : List (String × Cell)

namespace Record

def empty : Record := ⟨[]⟩

def get? (r : Record) (field : String) : Option Cell := r.cells.lookup field

def putCell (field : String) (c : Cell) : List (String × Cell) → List (String × Cell)
  | [] => [(field, c)]
  | (f, d) :: cells => if f = field then (field, c) :: cells else (f, d) :: putCell field c cells

def put (field : String) (c : Cell) (r : Record) : Record := ⟨putCell field c r.cells⟩

theorem lookup_putCell (field : String) (c : Cell) (cells : List (String × Cell)) (f : String) :
    (putCell field c cells).lookup f = if f = field then some c else cells.lookup f := by
  induction cells with
  | nil =>
    by_cases h : f = field
    · simp [putCell, h]
    · simp [putCell, List.lookup_cons, h, beq_eq_false_iff_ne.mpr h]
  | cons p cells ih =>
    obtain ⟨g, d⟩ := p
    by_cases hg : g = field
    · subst hg
      by_cases h : f = g
      · simp [putCell, h]
      · simp [putCell, List.lookup_cons, h, beq_eq_false_iff_ne.mpr h]
    · by_cases h : f = g
      · subst h
        simp [putCell, hg]
      · simp [putCell, List.lookup_cons, hg, beq_eq_false_iff_ne.mpr h, ih]

@[simp] theorem get?_put (field : String) (c : Cell) (r : Record) (f : String) :
    (r.put field c).get? f = if f = field then some c else r.get? f := lookup_putCell field c r.cells f

end Record

/-! ## Fields as data -/

/-- How a field is declared: with a type, which may be described as optional or not, and a first value to
be coerced to it; as skipped; or without a slot. -/
inductive FieldForm
  | typed (τ : Target) (optional : Option Bool) (preset : Option Value)
  | skipped
  | bare

inductive Link
  | directive (text : String)
  | rename (property : String)
  deriving DecidableEq, Repr

structure FieldSpec where
  field : String
  form : FieldForm
  chain : List Link

namespace FieldSpec

def slot (field : String) (τ : Target) (optional : Option Bool) : Slot Record :=
  let slot := Slot.typed τ fun x => Record.put field (.typed τ x)
  { slot with type := { slot.type with optional := optional.getD slot.type.optional } }

def link (d : FieldDecl R) : Link → FieldDecl R
  | .directive text => d.addDirective text
  | .rename property => d.rename property

def decl (s : FieldSpec) : FieldDecl Record :=
  let first : FieldDecl Record := match s.form with
    | .typed τ optional _ => .ofSlot s.field (slot s.field τ optional)
    | .skipped => .skipped s.field
    | .bare => ⟨s.field, none, none⟩
  s.chain.foldl link first

def firstValue (τ : Target) (preset : Option Value) : τ.El :=
  match preset with
  | none => τ.default
  | some v =>
    match τ.coerce v with
    | .ok x => x
    | .error _ => τ.default

def start (s : FieldSpec) (r : Record) : Record :=
  match s.form with
  | .typed τ _ preset => r.put s.field (.typed τ (firstValue τ preset))
  | _ => r

end FieldSpec

def RecordType.ofFields (name : String) (specs : List FieldSpec) : RecordType Record where
  name := name
  fresh := specs.foldl (fun r s => s.start r) .empty
  declaration := .fields (specs.map (·.decl))

/-! ## Hooks as data -/

inductive Request
  | fail (message : String)
  | get (property key : String)
  | getAs (property : String) (τ : Target) (key : String)

/-- Runs the requests in order; a fault ends the script. An absent value is coerced as null. -/
def script : List Request → Hook Record
  | [], r => .answer (.ok r)
  | .fail message :: _, _ => .answer (.error (.text message))
  | .get property key :: rest, r => .ask property fun
    | .error fault => .answer (.error fault)
    | .ok none => script rest (r.put key .absent)
    | .ok (some v) => script rest (r.put key (.found v))
  | .getAs property τ key :: rest, r => .ask property fun
    | .error fault => .answer (.error fault)
    | .ok got =>
      match τ.coerce (got.getD .null) with
      | .error e => .answer (.error (.coercion e))
      | .ok x => script rest (r.put key (.typed τ x))

def RecordType.ofScript (name : String) (requests : List Request) : RecordType Record where
  name := name
  fresh := .empty
  declaration := .selfDecoding (script requests)

end TypedRecords
