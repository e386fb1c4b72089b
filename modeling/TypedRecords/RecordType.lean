import TypedRecords.Directive
import TypedRecords.Inquiry

/-!
# Declarations of record types

How a record type `R` wants to be decoded: field by field, from a list of declarations, or as a whole, by a
hook of its own. A field declaration has the raw text of its directives, which counts only when the schema
of the type is built.
-/

namespace TypedRecords

structure Slot (R : Type) where
  type : FieldType
  assign : Value → R → Coerced R

structure FieldDecl (R : Type) where
  field : String
  directive : Option String
  slot : Option (Slot R)

abbrev Hook (R : Type) := R → Inquiry (Except Fault R)

inductive Declaration (R : Type)
  | fields (decls : List (FieldDecl R))
  | selfDecoding (hook : Hook R)

structure RecordType (R : Type) where
  name : String
  fresh : R
  declaration : Declaration R

def Conversion.slot (c : Conversion α) (set : α → R → R) : Slot R where
  type := c.type
  assign v r := (c.coerce v).map (set · r)

def Slot.typed [CustomTypes] (τ : Target) (set : τ.El → R → R) : Slot R := τ.conversion.slot set

namespace FieldDecl

def ofSlot (field : String) (slot : Slot R) : FieldDecl R := ⟨field, none, some slot⟩

def typed [CustomTypes] (field : String) (τ : Target) (set : τ.El → R → R) : FieldDecl R := ofSlot field (.typed τ set)

def skipped (field : String) : FieldDecl R := ⟨field, some "skip", none⟩

def addDirective (d : FieldDecl R) (text : String) : FieldDecl R :=
  { d with directive := match d.directive with
      | some before => some (before ++ ", " ++ text)
      | none => some text }

/-- The name is not checked here. -/
def rename (d : FieldDecl R) (property : String) : FieldDecl R := d.addDirective ("rename(" ++ property ++ ")")

end FieldDecl

end TypedRecords
