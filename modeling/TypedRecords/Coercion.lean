import TypedRecords.Number.Layout
import TypedRecords.Target
import TypedRecords.Time.Text

/-!
# Coercion

How values become values of the types that are built in. Integers convert between all integer types by range alone,
floating-point numbers only without loss, and lists element by element; every other kind converts to its own type only.
-/

namespace TypedRecords

def Wording.int (n : Int) : Wording := ⟨toString n⟩

def Wording.double (x : Double) : Wording := ⟨Layout.plain.text x⟩

def coerceBetween (lo hi : Int) (target : Kind) (v : Value) : Coerced (Between lo hi) :=
  match v.toInt? with
  | none => v.mismatch target
  | some n => if h : lo ≤ n ∧ n ≤ hi then .ok ⟨n, h⟩ else .error (.outOfRange (.int n) target.label)

def coerceSingle : Value → Coerced Single
  | .single x => .ok x
  | .double x => if x.isSingle then .ok x.narrow else .error (.outOfRange (.double x) Kind.single.label)
  | v => v.mismatch .single

def coerceDouble : Value → Coerced Double
  | .single x => .ok x.widen
  | .double x => .ok x
  | v => v.mismatch .double

def coerceText (read : String → Except TimeFault α) (target : Kind) : Value → Coerced α
  | .datetime text => (read text).mapError fun fault => .timestamp text ⟨fault.text⟩
  | v => v.mismatch target

def Target.coerce [CustomTypes] : (τ : Target) → Value → Coerced τ.El
  | .bool, v => match v with
    | .bool b => .ok b
    | v => v.mismatch .bool
  | .int t, v => coerceBetween t.range.lo t.range.hi (.int t) v
  | .single, v => coerceSingle v
  | .double, v => coerceDouble v
  | .string, v => match v with
    | .string s => .ok s
    | v => v.mismatch .string
  | .datetime, v => coerceText Timestamp.read .datetime v
  | .utc, v => (coerceText Timestamp.read .datetime v).map Timestamp.toUtc
  | .duration, v => coerceText Duration.read .duration v
  | .custom c, v => (CustomTypes.conversion c).coerce v
  | .option τ, v => coerceOption τ.coerce v
  | .list τ, v => coerceList τ.coerce τ.kind v

def Target.conversion [CustomTypes] (τ : Target) : Conversion τ.El := ⟨τ.fieldType, τ.coerce⟩

end TypedRecords
