/-!
# Log events

What decoding and querying report as they go, each with a level, a message and named data.
-/

namespace TypedRecords

inductive Event
  | runningQuery (query : String)
  | resolvedSchema (recordType : String) (entries skipped : Nat)
  | decodingRecords (recordType : String) (selfDecoding : Bool)
  | decodedRecord (recordType : String) (record : Nat)
  | hookedRecord (record : Nat)
  | decodedRecords (recordType : String) (count : Nat)
  deriving DecidableEq, Repr

inductive Level
  | debug | trace
  deriving DecidableEq, Repr

def Level.name : Level → String
  | .debug => "DEBUG"
  | .trace => "TRACE"

inductive Datum
  | text (s : String)
  | number (n : Nat)
  | flag (b : Bool)
  deriving DecidableEq, Repr

namespace Event

def level : Event → Level
  | .decodedRecord .. | .hookedRecord _ => .trace
  | _ => .debug

def message : Event → String
  | .runningQuery _ => "running query"
  | .resolvedSchema .. => "resolved record schema"
  | .decodingRecords .. => "decoding records"
  | .decodedRecord .. => "decoded record"
  | .hookedRecord _ => "unmarshalled record"
  | .decodedRecords .. => "decoded records"

def fields : Event → List (String × Datum)
  | .runningQuery query => [("query", .text query)]
  | .resolvedSchema recordType entries skipped =>
    [("record_type", .text recordType), ("entries", .number entries), ("skipped", .number skipped)]
  | .decodingRecords recordType selfDecoding =>
    [("record_type", .text recordType), ("self_decoding", .flag selfDecoding)]
  | .decodedRecord recordType record => [("record_type", .text recordType), ("record", .number record)]
  | .hookedRecord record => [("record", .number record)]
  | .decodedRecords recordType count => [("record_type", .text recordType), ("count", .number count)]

end Event

end TypedRecords
