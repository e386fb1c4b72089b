import TypedRecords.RecordType

/-!
# Schemas

The resolved form of a list of field declarations: which property feeds which field. A schema is built from
the left; a declaration whose directives are faulty, which lacks a slot, or which shares its field or its
property with an earlier one, ends the building.
-/

namespace TypedRecords

inductive SchemaError
  | malformed (typeName field directive : String) (reason : Malformed)
  | repeatedDirective (typeName field directive : String)
  | sharedProperty (typeName property first second : String)
  | repeatedField (typeName field : String)
  | noSlot (typeName field : String)
  deriving DecidableEq, Repr

def SchemaError.message : SchemaError → String
  | .malformed typeName field directive reason =>
    "malformed directive '" ++ directive ++ "' on " ++ typeName ++ "." ++ field ++ ": " ++ reason.text
  | .repeatedDirective typeName field directive =>
    "conflicting directive '" ++ directive ++ "' on " ++ typeName ++ "." ++ field
  | .sharedProperty typeName property first second =>
    typeName ++ "." ++ first ++ " and " ++ typeName ++ "." ++ second ++
      " both resolve to property '" ++ property ++ "'"
  | .repeatedField typeName field => "field " ++ typeName ++ "." ++ field ++ " is declared more than once"
  | .noSlot typeName field =>
    "field " ++ typeName ++ "." ++ field ++ " is not skipped but has no decoder"

structure Entry (R : Type) where
  property : String
  field : String
  skip : Bool
  slot : Option (Slot R)

namespace Entry

def type? (e : Entry R) : Option FieldType := e.slot.map (·.type)

def isOptional (e : Entry R) : Bool := e.type?.any (·.optional)

def decoded? (e : Entry R) : Option (Slot R) := if e.skip then none else e.slot

end Entry

structure Schema (R : Type) where
  typeName : String
  entries : List (Entry R)

namespace FieldDecl

def directives (typeName : String) (d : FieldDecl R) : Except SchemaError Directives :=
  match d.directive with
  | none => .ok .none
  | some text => (Directives.read text).mapError fun
    | .malformed reason => .malformed typeName d.field text reason
    | .repeated item => .repeatedDirective typeName d.field item

def entry (typeName : String) (d : FieldDecl R) : Except SchemaError (Entry R) :=
  match d.directives typeName with
  | .error e => .error e
  | .ok ds =>
    if d.slot.isNone && !ds.skip then .error (.noSlot typeName d.field)
    else .ok ⟨ds.rename.getD d.field, d.field, ds.skip, d.slot⟩

end FieldDecl

namespace Schema

def clash (e f : Entry R) : Bool := e.field == f.field || caseless e.property f.property

def add (typeName : String) (entries : List (Entry R)) (new : Entry R) :
    Except SchemaError (List (Entry R)) :=
  match entries.find? (clash · new) with
  | none => .ok (entries ++ [new])
  | some old =>
    if old.field = new.field then .error (.repeatedField typeName new.field)
    else .error (.sharedProperty typeName new.property old.field new.field)

def accept (typeName : String) (entries : List (Entry R)) (d : FieldDecl R) :
    Except SchemaError (List (Entry R)) :=
  (d.entry typeName).bind (add typeName entries)

def build (typeName : String) (decls : List (FieldDecl R)) : Except SchemaError (Schema R) :=
  (decls.foldlM (accept typeName) []).map (⟨typeName, ·⟩)

def lookup? (s : Schema R) (property : String) : Option (Entry R) :=
  s.entries.find? fun e => caseless e.property property

def decoded (s : Schema R) : List (Entry R × Slot R) :=
  s.entries.filterMap fun e => e.decoded?.map (e, ·)

def skippedCount (s : Schema R) : Nat := s.entries.countP (·.skip)

end Schema

end TypedRecords
