import TypedRecords.Decoding

/-!
# Sessions

Record types, their schemas once resolved, decoding options and queries, over time. A schema that has been
resolved stays in force for its type; a failure to resolve is not kept. Whether a type decodes itself, and
what a fresh record of it holds, is read from its declaration each time.
-/

namespace TypedRecords

inductive QueryError
  | failed (query source : String)
  | decode (e : DecodeError)
  deriving DecidableEq, Repr

namespace QueryError

def message : QueryError → String
  | .failed query source => "query '" ++ query ++ "' failed: " ++ source
  | .decode e => e.message

def chain : QueryError → List String
  | .failed _ source => [source]
  | .decode e => e.chain

end QueryError

abbrev Enumerator := String → Except String (List Object)

def Enumerator.none : Enumerator := fun query => .error ("invalid query: " ++ query)

def update (f : String → α) (key : String) (a : α) : String → α := fun k => if k = key then a else f k

structure Session (R : Type) where
  options : Options
  types : String → RecordType R
  schemas : String → Option (Schema R)
  enumerator : Enumerator

structure Outcome (R α : Type) where
  result : α
  events : List Event
  session : Session R

structure Fetched (α : Type) where
  result : α
  fetched : List (List String)

namespace Session

def start (types : String → RecordType R) (options : Options) : Session R :=
  ⟨options, types, fun _ => none, .none⟩

def declare (s : Session R) (key : String) (type : RecordType R) : Session R :=
  { s with types := update s.types key type }

def setOptions (s : Session R) (options : Options) : Session R := { s with options }

def setQuery (s : Session R) (query : String) (answer : Except String (List Object)) : Session R :=
  { s with enumerator := update s.enumerator query answer }

def isCached (s : Session R) (key : String) : Bool := (s.schemas key).isSome

def resolve (s : Session R) (key : String) : Outcome R (Except SchemaError (Schema R)) :=
  match s.schemas key with
  | some schema => ⟨.ok schema, [], s⟩
  | none =>
    let type := s.types key
    let decls := match type.declaration with
      | .fields decls => decls
      | .selfDecoding _ => []
    match Schema.build type.name decls with
    | .error e => ⟨.error e, [], s⟩
    | .ok schema =>
      ⟨.ok schema, [.resolvedSchema type.name schema.entries.length schema.skippedCount],
        { s with schemas := update s.schemas key (some schema) }⟩

def route (s : Session R) (key : String) : Outcome R (Except SchemaError (Route R)) :=
  match (s.types key).declaration with
  | .selfDecoding hook => ⟨.ok (.hook hook), [], s⟩
  | .fields _ =>
    let resolved := s.resolve key
    ⟨resolved.result.map .fields, resolved.events, resolved.session⟩

def decode (s : Session R) (key : String) (os : List Object) : Outcome R (Fetched (Decoded (List R))) :=
  let routed := s.route key
  match routed.result with
  | .error e => ⟨⟨.error (.schema e), os.map fun _ => []⟩, routed.events, routed.session⟩
  | .ok route =>
    let b := decodeBatch s.options (s.types key) route os
    ⟨⟨b.result, b.fetched⟩, routed.events ++ b.events, routed.session⟩

def decodeOne (s : Session R) (key : String) (o : Object) : Outcome R (Fetched (Decoded R)) :=
  let routed := s.route key
  match routed.result with
  | .error e => ⟨⟨.error (.schema e), [[]]⟩, routed.events, routed.session⟩
  | .ok route =>
    let inquiry := route.decodeRecord s.options (s.types key).fresh 0
    let reported := match inquiry.result o with
      | .ok _ => [route.recordEvent 0]
      | .error _ => []
    ⟨⟨inquiry.result o, [inquiry.log o]⟩, routed.events ++ reported, routed.session⟩

def query (s : Session R) (key text : String) : Outcome R (Fetched (Except QueryError (List R))) :=
  match s.enumerator text with
  | .error source => ⟨⟨.error (.failed text source), []⟩, [.runningQuery text], s⟩
  | .ok os =>
    let out := s.decode key os
    ⟨⟨out.result.result.mapError .decode, out.result.fetched⟩, .runningQuery text :: out.events, out.session⟩

end Session

/-! ## Runs -/

inductive Command (R : Type)
  | declare (key : String) (type : RecordType R)
  | isCached (key : String)
  | resolve (key : String)
  | setOptions (options : Options)
  | getOptions
  | setQuery (query : String) (answer : Except String (List Object))
  | query (key text : String)
  | decode (key : String) (os : List Object)
  | decodeOne (key : String) (o : Object)

inductive Reply (R : Type)
  | done
  | flag (b : Bool)
  | schema (result : Except SchemaError (Schema R))
  | query (result : Fetched (Except QueryError (List R)))
  | records (result : Fetched (Decoded (List R)))
  | record (result : Fetched (Decoded R))

namespace Session

def step (s : Session R) : Command R → Outcome R (Reply R)
  | .declare key type => ⟨.done, [], s.declare key type⟩
  | .isCached key => ⟨.flag (s.isCached key), [], s⟩
  | .resolve key => let out := s.resolve key; { out with result := .schema out.result }
  | .setOptions options => ⟨.done, [], s.setOptions options⟩
  | .getOptions => ⟨.flag s.options.allowMissing, [], s⟩
  | .setQuery query answer => ⟨.done, [], s.setQuery query answer⟩
  | .query key text => let out := s.query key text; { out with result := .query out.result }
  | .decode key os => let out := s.decode key os; { out with result := .records out.result }
  | .decodeOne key o => let out := s.decodeOne key o; { out with result := .record out.result }

def run (s : Session R) : List (Command R) → List (Reply R × List Event) × Session R
  | [] => ([], s)
  | c :: cs =>
    let out := s.step c
    let rest := out.session.run cs
    ((out.result, out.events) :: rest.1, rest.2)

end Session

end TypedRecords
