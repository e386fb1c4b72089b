import TypedRecords.Number.Binary
import TypedRecords.Number.Integer

/-!
# Dynamic values

The values an object gives for its properties. A value knows its kind, and timestamps stay text until a
field asks for them in another form.
-/

namespace TypedRecords

inductive Value
  | null
  | bool (b : Bool)
  | int (k : IntKind) (n : k.El)
  | single (x : Single)
  | double (x : Double)
  | string (s : String)
  | datetime (text : String)
  | array (items : List Value)

inductive ValueKind
  | null | bool | int (k : IntKind) | single | double | string | datetime | array
  deriving DecidableEq, Repr

def ValueKind.name : ValueKind → String
  | .null => "null"
  | .bool => "bool"
  | .int k => k.name
  | .single => "f32"
  | .double => "f64"
  | .string => "string"
  | .datetime => "datetime"
  | .array => "array"

namespace Value

def kind : Value → ValueKind
  | .null => .null
  | .bool _ => .bool
  | .int k _ => .int k
  | .single _ => .single
  | .double _ => .double
  | .string _ => .string
  | .datetime _ => .datetime
  | .array _ => .array

def isNull : Value → Bool
  | .null => true
  | _ => false

def toInt? : Value → Option Int
  | .int _ n => some n.val
  | _ => none

mutual
/-- Equality of values of one kind. Numbers compare as numbers, so that a NaN differs from itself. -/
def eq : Value → Value → Bool
  | .null, .null => true
  | .bool a, .bool b => a == b
  | .int j a, .int k b => j == k && a.val == b.val
  | .single x, .single y => x.numEq y
  | .double x, .double y => x.numEq y
  | .string a, .string b => a == b
  | .datetime a, .datetime b => a == b
  | .array as, .array bs => eqAll as bs
  | _, _ => false

def eqAll : List Value → List Value → Bool
  | [], [] => true
  | a :: as, b :: bs => a.eq b && eqAll as bs
  | _, _ => false
end

end Value

end TypedRecords
