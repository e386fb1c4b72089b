import TypedRecords.Target

/-!
# Values of plain types

The destination types whose values can be written as dynamic values, and how they are written. Coercion
undoes this writing, except that it cannot tell an absence inside an optional value from an absence.
-/

namespace TypedRecords

inductive Plain
  | bool
  | int (k : IntKind)
  | single
  | double
  | string
  | option (p : Plain)
  | list (p : Plain)
  deriving DecidableEq, Repr

namespace Plain

def target [CustomTypes] : Plain → Target
  | .bool => .bool
  | .int k => .int (.fixed k)
  | .single => .single
  | .double => .double
  | .string => .string
  | .option p => .option p.target
  | .list p => .list p.target

def encode [CustomTypes] : (p : Plain) → p.target.El → Value
  | .bool, b => .bool b
  | .int k, n => .int k n
  | .single, x => .single x
  | .double, x => .double x
  | .string, s => .string s
  | .option _, none => .null
  | .option p, some x => p.encode x
  | .list p, xs => .array (xs.map p.encode)

end Plain

end TypedRecords
