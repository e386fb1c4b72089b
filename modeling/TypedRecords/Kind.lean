import TypedRecords.Number.Integer

/-!
# Kinds of types

How the types that a field may have are described: by what their values are made of, and by whether they can hold an
absence.
-/

namespace TypedRecords

inductive Kind
  | bool
  | int (t : IntType)
  | single
  | double
  | string
  | datetime
  | duration
  | list (k : Kind)
  | custom (name : String)
  deriving DecidableEq, Repr

def Kind.name : Kind → String
  | .bool => "bool"
  | .int t => t.name
  | .single => "f32"
  | .double => "f64"
  | .string => "string"
  | .datetime => "datetime"
  | .duration => "duration"
  | .list k => "list<" ++ k.name ++ ">"
  | .custom name => name

structure FieldType where
  kind : Kind
  optional : Bool
  deriving DecidableEq, Repr

def FieldType.name (t : FieldType) : String :=
  if t.optional then "optional<" ++ t.kind.name ++ ">" else t.kind.name

end TypedRecords
