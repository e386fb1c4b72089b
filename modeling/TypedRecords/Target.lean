import TypedRecords.Conversion
import TypedRecords.Time.Timestamp

/-!
# Destination types

The types a field of a record may have, what each stands for, and how each is described. Besides the types that are
built in there are those that an application brings along. An absent value of an optional type is `none`.
-/

namespace TypedRecords

/-- The types that are not built in: their values, their conversions, and what a field of theirs starts with. -/
class CustomTypes where
  Name : Type
  [decEq : DecidableEq Name]
  El : Name → Type
  conversion : (c : Name) → Conversion (El c)
  default : (c : Name) → El c

attribute [reducible, instance] CustomTypes.decEq

/-- A destination type. `utc` holds the timestamps at offset 0. -/
inductive Target [CustomTypes]
  | bool
  | int (t : IntType)
  | single
  | double
  | string
  | datetime
  | utc
  | duration
  | custom (c : CustomTypes.Name)
  | option (τ : Target)
  | list (τ : Target)
  deriving DecidableEq

namespace Target

variable [CustomTypes]

def El : Target → Type
  | .bool => Bool
  | .int t => t.El
  | .single => Single
  | .double => Double
  | .string => String
  | .datetime => Timestamp
  | .utc => Timestamp
  | .duration => Duration
  | .custom c => CustomTypes.El c
  | .option τ => Option τ.El
  | .list τ => List τ.El

def kind : Target → Kind
  | .bool => .bool
  | .int t => .int t
  | .single => .single
  | .double => .double
  | .string => .string
  | .datetime | .utc => .datetime
  | .duration => .duration
  | .custom c => (CustomTypes.conversion c).type.kind
  | .option τ => τ.kind
  | .list τ => .list τ.kind

def optional : Target → Bool
  | .option _ => true
  | .custom c => (CustomTypes.conversion c).type.optional
  | _ => false

def fieldType (τ : Target) : FieldType := ⟨τ.kind, τ.optional⟩

def customs : Target → List CustomTypes.Name
  | .custom c => [c]
  | .option τ | .list τ => τ.customs
  | _ => []

def default : (τ : Target) → τ.El
  | .bool => false
  | .int t => ⟨0, t.range.zero_mem⟩
  | .single => 0#_
  | .double => 0#_
  | .string => ""
  | .datetime | .utc => Timestamp.epoch
  | .duration => Duration.zero
  | .custom c => CustomTypes.default c
  | .option _ => none
  | .list _ => []

end Target

end TypedRecords
