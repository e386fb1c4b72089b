import TypedRecords.Kind
import TypedRecords.Value

/-!
# Conversions

A conversion gives a value of its type for a dynamic value, or tells why there is none. Whoever writes a conversion
chooses the texts of its errors, so an error keeps what it calls a kind, a type or a number and not the thing itself.
-/

namespace TypedRecords

/-- What an error calls a kind of values or a type. -/
structure Label where
  name : String
  deriving DecidableEq, Repr

/-- How an error puts a number or a reason. -/
structure Wording where
  text : String
  deriving DecidableEq, Repr

def ValueKind.label (k : ValueKind) : Label := ⟨k.name⟩

def Kind.label (k : Kind) : Label := ⟨k.name⟩

inductive CoercionError
  | mismatch (source target : Label)
  | outOfRange (value : Wording) (target : Label)
  | timestamp (text : String) (reason : Wording)
  | element (index : Nat) (source : CoercionError)
  deriving DecidableEq, Repr

namespace CoercionError

def message : CoercionError → String
  | .mismatch source target => "cannot convert " ++ source.name ++ " value into " ++ target.name
  | .outOfRange value target => "value " ++ value.text ++ " is out of range for " ++ target.name
  | .timestamp text reason => "malformed timestamp '" ++ text ++ "': " ++ reason.text
  | .element index source => "array element " ++ toString index ++ ": " ++ source.message

def chain : CoercionError → List String
  | .element _ source => source.message :: source.chain
  | _ => []

end CoercionError

abbrev Coerced := Except CoercionError

def Value.mismatch (v : Value) (target : Kind) : Coerced α := .error (.mismatch v.kind.label target.label)

def coerceElements (coerce : Value → Coerced α) : (i : Nat) → List Value → Coerced (List α)
  | _, [] => .ok []
  | i, v :: vs =>
    match coerce v with
    | .error e => .error (.element i e)
    | .ok x => (coerceElements coerce (i + 1) vs).map (x :: ·)

def coerceList (coerce : Value → Coerced α) (item : Kind) : Value → Coerced (List α)
  | .array vs => coerceElements coerce 0 vs
  | v => v.mismatch (.list item)

def coerceOption (coerce : Value → Coerced α) : Value → Coerced (Option α)
  | .null => .ok none
  | v => (coerce v).map some

structure Conversion (α : Type) where
  type : FieldType
  coerce : Value → Coerced α

namespace Conversion

def option (c : Conversion α) : Conversion (Option α) := ⟨⟨c.type.kind, true⟩, coerceOption c.coerce⟩

def list (c : Conversion α) : Conversion (List α) :=
  ⟨⟨.list c.type.kind, false⟩, coerceList c.coerce c.type.kind⟩

end Conversion

end TypedRecords
