import TypedRecords.Event
import TypedRecords.Schema

/-!
# Decoding

Objects become records one after the other, by the schema of the record type or by its hook. The first
fault ends the decoding, and objects after it are not asked for anything.
-/

namespace TypedRecords

/-- `allowMissing` leaves a field without a value at its default. -/
structure Options where
  allowMissing : Bool
  deriving DecidableEq, Repr

def Options.strict : Options := ⟨false⟩

inductive DecodeError
  | schema (e : SchemaError)
  | coercion (record : Nat) (property field : String) (source : CoercionError)
  | missing (record : Nat) (property field : String)
  | hook (record : Nat) (source : Fault)
  | fetch (record : Nat) (property : String) (source : Fault)
  deriving DecidableEq, Repr

namespace DecodeError

def record? : DecodeError → Option Nat
  | .schema _ => none
  | .coercion record .. | .missing record .. | .hook record _ | .fetch record .. => some record

def message : DecodeError → String
  | .schema e => e.message
  | .coercion record property field source =>
    "record " ++ toString record ++ ": cannot decode property '" ++ property ++ "' into field '" ++ field ++
      "': " ++ source.message
  | .missing record property field =>
    "record " ++ toString record ++ ": property '" ++ property ++ "' for field '" ++ field ++ "' is missing"
  | .hook record source =>
    "record " ++ toString record ++ ": unmarshal hook failed: " ++ source.message
  | .fetch record property source =>
    "record " ++ toString record ++ ": failed to fetch property '" ++ property ++ "': " ++ source.message

def chain : DecodeError → List String
  | .schema _ => []
  | .coercion _ _ _ source => source.message :: source.chain
  | .missing .. => []
  | .hook _ source => source.message :: source.chain
  | .fetch _ _ source => source.message :: source.chain

end DecodeError

abbrev Decoded := Except DecodeError

/-! ## One record -/

/-- The value that an answer gives a field, or `none` if the field keeps its default. -/
def received (options : Options) (record : Nat) (e : Entry R) (slot : Slot R) :
    Answer → Decoded (Option Value)
  | .error fault => .error (.fetch record e.property fault)
  | .ok none =>
    if slot.type.optional then .ok (some .null)
    else if options.allowMissing then .ok none
    else .error (.missing record e.property e.field)
  | .ok (some v) =>
    if v.isNull && !slot.type.optional && options.allowMissing then .ok none else .ok (some v)

def fill (options : Options) (record : Nat) (e : Entry R) (slot : Slot R) (answer : Answer) (r : R) :
    Decoded R :=
  match received options record e slot answer with
  | .error err => .error err
  | .ok none => .ok r
  | .ok (some v) => (slot.assign v r).mapError (.coercion record e.property e.field)

def decodeEntries (options : Options) (record : Nat) : List (Entry R × Slot R) → R → Inquiry (Decoded R)
  | [], r => .answer (.ok r)
  | (e, slot) :: rest, r => .ask e.property fun answer =>
    match fill options record e slot answer r with
    | .error err => .answer (.error err)
    | .ok r => decodeEntries options record rest r

inductive Route (R : Type)
  | hook (hook : Hook R)
  | fields (schema : Schema R)

namespace Route

def selfDecoding : Route R → Bool
  | .hook _ => true
  | .fields _ => false

def decodeRecord (options : Options) (fresh : R) (record : Nat) : Route R → Inquiry (Decoded R)
  | .hook fill => (fill fresh).bind fun r => .answer (r.mapError (.hook record))
  | .fields schema => decodeEntries options record schema.decoded fresh

def recordEvent (record : Nat) : Route R → Event
  | .hook _ => .hookedRecord record
  | .fields schema => .decodedRecord schema.typeName record

end Route

/-! ## Many records -/

structure Batch (R : Type) where
  result : Decoded (List R)
  fetched : List (List String)
  events : List Event

def decodeFrom (options : Options) (fresh : R) (route : Route R) : (record : Nat) → List Object → Batch R
  | _, [] => ⟨.ok [], [], []⟩
  | record, o :: os =>
    let inquiry := route.decodeRecord options fresh record
    match inquiry.result o with
    | .error e => ⟨.error e, inquiry.log o :: os.map fun _ => [], []⟩
    | .ok r =>
      let rest := decodeFrom options fresh route (record + 1) os
      ⟨rest.result.map (r :: ·), inquiry.log o :: rest.fetched, route.recordEvent record :: rest.events⟩

def decodeBatch (options : Options) (type : RecordType R) (route : Route R) (os : List Object) : Batch R :=
  let b := decodeFrom options type.fresh route 0 os
  let finished := match b.result with
    | .ok rs => [.decodedRecords type.name rs.length]
    | .error _ => []
  { b with events := .decodingRecords type.name route.selfDecoding :: b.events ++ finished }

end TypedRecords
