import TypedRecords.Proofs.Building
import TypedRecords.Proofs.Caching

/-!
# What the events tell

The events of a step follow from what was declared and kept before it, from what it answers and from what is kept after
it. A schema is reported when a step makes the session keep it, hence once for a type over a whole session, and the
records of a decoding up to the first object that fails.
-/

namespace TypedRecords

def Reply.succeeded : Reply R → Bool
  | .done | .flag _ => true
  | .schema result => result.isOk
  | .query result => result.result.isOk
  | .records result => result.result.isOk
  | .record result => result.result.isOk

def Command.type? : Command R → Option String
  | .declare key _ | .isCached key | .resolve key | .query key _ | .decode key _ | .decodeOne key _ => some key
  | .setOptions _ | .getOptions | .setQuery .. => none

theorem isOk_mapError (x : Except ε α) (f : ε → ε') : (x.mapError f).isOk = x.isOk := by
  cases x <;> rfl

/-! ## Records -/

section
variable (options : Options) (fresh : R) (route : Route R)

/-- The place of the first object that does not decode, or the number of objects. -/
def Route.firstFailing (os : List Object) : Nat := os.findIdx fun o => !(route.single options fresh o).isOk

theorem firstFailing_cons_ok {o : Object} {r : R} (h : route.single options fresh o = .ok r) (os : List Object) :
    route.firstFailing options fresh (o :: os) = route.firstFailing options fresh os + 1 := by
  simp [Route.firstFailing, List.findIdx_cons, h, Except.isOk, Except.toBool]

theorem firstFailing_cons_error {o : Object} {e : DecodeError} (h : route.single options fresh o = .error e)
    (os : List Object) : route.firstFailing options fresh (o :: os) = 0 := by
  simp [Route.firstFailing, List.findIdx_cons, h, Except.isOk, Except.toBool]

theorem decodeRecord_of_single_ok {o : Object} {r : R} (h : route.single options fresh o = .ok r) (record : Nat) :
    (route.decodeRecord options fresh record).result o = .ok r := by
  rw [(route.decodeRecord_atRecord options record fresh o).1]
  exact mapError_eq_ok.mpr h

theorem decodeRecord_of_single_error {o : Object} {e : DecodeError} (h : route.single options fresh o = .error e)
    (record : Nat) : (route.decodeRecord options fresh record).result o = .error (e.atRecord record) := by
  rw [(route.decodeRecord_atRecord options record fresh o).1]
  exact mapError_eq_error.mpr ⟨e, h, rfl⟩

theorem events_decodeFrom (record : Nat) (os : List Object) :
    (decodeFrom options fresh route record os).events =
      (List.range' record (route.firstFailing options fresh os)).map route.recordEvent := by
  induction os generalizing record with
  | nil => rfl
  | cons o os ih =>
    cases ho : route.single options fresh o with
    | error e =>
      simp only [decodeFrom, decodeRecord_of_single_error options fresh route ho record]
      rw [firstFailing_cons_error options fresh route ho]
      rfl
    | ok r =>
      simp only [decodeFrom, decodeRecord_of_single_ok options fresh route ho record, ih]
      rw [firstFailing_cons_ok options fresh route ho, List.range'_succ, List.map_cons]

theorem length_of_decodeFrom {record : Nat} {os : List Object} {rs : List R}
    (h : (decodeFrom options fresh route record os).result = .ok rs) :
    rs.length = os.length ∧ route.firstFailing options fresh os = os.length := by
  have hall := (decodeFrom_eq_ok options fresh route).mp h
  refine ⟨by simpa using (congrArg List.length hall).symm, ?_⟩
  refine List.findIdx_eq_length.mpr ?_
  intro o ho
  obtain ⟨r, hr⟩ := (exists_map_ok _).mp ⟨rs, hall⟩ o ho
  rw [hr]
  rfl

theorem record?_of_decodeFrom {record : Nat} {os : List Object} {e : DecodeError}
    (h : (decodeFrom options fresh route record os).result = .error e) :
    e.record? = some (record + route.firstFailing options fresh os) ∧
      route.firstFailing options fresh os < os.length := by
  induction os generalizing record with
  | nil => cases h
  | cons o os ih =>
    cases ho : route.single options fresh o with
    | error e' =>
      rw [(decodeFrom_fail options fresh route record o os ho).1] at h
      cases h
      rw [firstFailing_cons_error options fresh route ho]
      exact ⟨DecodeError.record?_atRecord (Route.decodeRecord_error options 0 ho) record, by simp⟩
    | ok r =>
      simp only [decodeFrom, decodeRecord_of_single_ok options fresh route ho record, map_eq_error] at h
      obtain ⟨hrecord, hlt⟩ := ih h
      rw [firstFailing_cons_ok options fresh route ho, List.length_cons, hrecord]
      exact ⟨congrArg some (by omega), by omega⟩

end

namespace Session

/-! ## What a step should report -/

/-- A schema that the second session keeps for a type and the first does not. -/
def resolvedTold (s s' : Session R) (key : String) : List Event :=
  match s.schemas key, s'.schemas key with
  | none, some schema =>
    [.resolvedSchema schema.typeName schema.entries.length (schema.entries.filter (·.skip)).length]
  | _, _ => []

def fails (s : Session R) (key : String) (o : Object) : Bool := !(s.decodeOne key o).result.result.isOk

def recordTold (s : Session R) (key : String) (succeeded : Bool) : List Event :=
  match (s.route key).result with
  | .error _ => []
  | .ok (.hook _) => if succeeded then [.hookedRecord 0] else []
  | .ok (.fields schema) => if succeeded then [.decodedRecord schema.typeName 0] else []

def recordsTold (s : Session R) (key : String) (os : List Object) (succeeded : Bool) : List Event :=
  let name := (s.types key).name
  let k := os.findIdx (s.fails key)
  let finished := if succeeded then [.decodedRecords name k] else []
  match (s.route key).result with
  | .error _ => []
  | .ok (.hook _) => .decodingRecords name true :: (List.range k).map .hookedRecord ++ finished
  | .ok (.fields schema) => .decodingRecords name false :: (List.range k).map (.decodedRecord schema.typeName) ++ finished

/-- What is reported of a command before anything is done about it. -/
def announced : Command R → List Event
  | .query _ text => [.runningQuery text]
  | _ => []

/-- The events of a step, from the session before it, its reply and what is kept after it. -/
def told (s : Session R) (c : Command R) : List Event :=
  let out := s.step c
  match c with
  | .query key text =>
    .runningQuery text :: match s.enumerator text with
      | .error _ => []
      | .ok os => s.resolvedTold out.session key ++ s.recordsTold key os out.result.succeeded
  | .decode key os => s.resolvedTold out.session key ++ s.recordsTold key os out.result.succeeded
  | .decodeOne key _ => s.resolvedTold out.session key ++ s.recordTold key out.result.succeeded
  | .resolve key => s.resolvedTold out.session key
  | .declare .. | .isCached _ | .setOptions _ | .getOptions | .setQuery .. => []

/-! ## Schemas that are kept -/

section
variable {s s' s'' : Session R} {key : String}

theorem resolvedTold_of_eq (h : s'.schemas key = s.schemas key) : s.resolvedTold s' key = [] := by
  unfold resolvedTold
  rw [h]
  cases s.schemas key <;> rfl

theorem resolvedTold_append (h : ∀ schema, s.schemas key = some schema → s'.schemas key = some schema)
    (h' : ∀ schema, s'.schemas key = some schema → s''.schemas key = some schema) :
    s.resolvedTold s' key ++ s'.resolvedTold s'' key = s.resolvedTold s'' key := by
  cases hs : s.schemas key with
  | some schema => simp [resolvedTold, hs, h schema hs, h' schema (h schema hs)]
  | none =>
    cases hs' : s'.schemas key with
    | some schema => simp [resolvedTold, hs, hs', h' schema hs']
    | none => simp [resolvedTold, hs, hs']

theorem typeName_of_schema {type : RecordType R} {schema : Schema R} (h : type.schema = .ok schema) :
    schema.typeName = type.name := by
  obtain ⟨-, rfl⟩ := Schema.build_eq_ok.mp h
  rfl

theorem events_resolve_of_none (hs : s.schemas key = none) : (s.resolve key).events =
    match (s.types key).schema with
    | .error _ => []
    | .ok schema => [.resolvedSchema (s.types key).name schema.entries.length schema.skippedCount] := by
  unfold resolve RecordType.schema
  simp only [hs]
  generalize Schema.build _ _ = built
  cases built <;> rfl

theorem events_resolve : (s.resolve key).events = s.resolvedTold (s.resolve key).session key := by
  cases hs : s.schemas key with
  | some kept =>
    have hsame : s.resolve key = ⟨.ok kept, [], s⟩ := by simp only [resolve, hs]
    rw [hsame, resolvedTold_of_eq rfl]
  | none =>
    rw [events_resolve_of_none hs]
    cases hb : (s.types key).schema with
    | error e =>
      rw [session_resolve, resolve_eq_error.mpr ⟨hs, hb⟩]
      exact (resolvedTold_of_eq rfl).symm
    | ok schema =>
      have hkept := schemas_resolve_self.mpr (resolve_eq_ok.mpr (.inr ⟨hs, hb⟩))
      simp only [resolvedTold, hs, hkept, typeName_of_schema hb, Schema.skippedCount, List.countP_eq_length_filter]

theorem events_route : (s.route key).events = s.resolvedTold (s.route key).session key := by
  cases hd : (s.types key).declaration with
  | selfDecoding hook =>
    rw [(route_of_selfDecoding hd).2, resolvedTold_of_eq rfl]
    simp only [route, hd]
  | fields decls =>
    rw [(route_of_fields hd).2, ← events_resolve]
    simp only [route, hd]

end

/-! ## Steps -/

section
variable {s : Session R} {key : String}

theorem findIdx_fails {route : Route R} (hr : (s.route key).result = .ok route) (os : List Object) :
    os.findIdx (s.fails key) = route.firstFailing s.options (s.types key).fresh os := by
  have hone : s.fails key = fun o => !(route.single s.options (s.types key).fresh o).isOk := by
    funext o
    rw [fails, decodeOne_of_route hr]
  rw [hone]
  rfl

theorem recordsTold_of_route {route : Route R} (hr : (s.route key).result = .ok route) (os : List Object)
    (succeeded : Bool) : s.recordsTold key os succeeded =
      .decodingRecords (s.types key).name route.selfDecoding ::
        (List.range (os.findIdx (s.fails key))).map (fun n => route.recordEvent n) ++
          if succeeded then [.decodedRecords (s.types key).name (os.findIdx (s.fails key))] else [] := by
  cases route <;> simp only [recordsTold, hr] <;> rfl

theorem events_decode (os : List Object) :
    (s.decode key os).events =
      s.resolvedTold (s.decode key os).session key ++ s.recordsTold key os (s.decode key os).result.result.isOk := by
  rw [session_decode, ← events_route]
  cases hr : (s.route key).result with
  | error e => simp only [decode, recordsTold, hr, List.append_nil]
  | ok route =>
    have hevents := events_decodeFrom s.options (s.types key).fresh route 0 os
    rw [← findIdx_fails hr, ← List.range_eq_range'] at hevents
    rw [recordsTold_of_route hr, decode_of_route hr]
    simp only [decode, hr, decodeBatch, hevents]
    -- the last event counts the records, which are as many as the objects before the first that fails
    cases hd : (decodeFrom s.options (s.types key).fresh route 0 os).result with
    | error e => rfl
    | ok rs =>
      obtain ⟨hlen, hall⟩ := length_of_decodeFrom s.options (s.types key).fresh route hd
      rw [← findIdx_fails hr, ← hlen] at hall
      simp only [hall]
      rfl

theorem events_decodeOne (o : Object) :
    (s.decodeOne key o).events =
      s.resolvedTold (s.decodeOne key o).session key ++ s.recordTold key (s.decodeOne key o).result.result.isOk := by
  rw [session_decodeOne, ← events_route]
  cases hr : (s.route key).result with
  | error e => simp only [decodeOne, recordTold, hr, List.append_nil]
  | ok route =>
    simp only [decodeOne, hr]
    cases (route.decodeRecord s.options (s.types key).fresh 0).result o <;> cases route <;> simp only [recordTold, hr] <;> rfl

variable (s)

theorem events_step (c : Command R) : (s.step c).events = s.told c := by
  cases c with
  | resolve key => exact events_resolve
  | decode key os => exact events_decode os
  | decodeOne key o => exact events_decodeOne o
  | query key text =>
    cases ho : s.enumerator text with
    | error source => simp only [told, step, query, ho]
    | ok os =>
      simp only [told, step, query, ho, Reply.succeeded, isOk_mapError]
      exact congrArg _ (events_decode os)
  | declare _ _ | isCached _ | setOptions _ | getOptions | setQuery _ _ => rfl

variable {s} {c : Command R}

theorem events_of_schemaError {e : SchemaError} (h : (s.step c).result.schemaError? = some e) :
    (s.step c).events = announced c := by
  obtain ⟨key, hw, hnone, hb⟩ := schemaError?_step.mp h
  have hnew : s.resolvedTold (s.step c).session key = [] :=
    resolvedTold_of_eq (congrArg (·.schemas key) (session_step_of_schemaError h))
  have hroute : ∀ decls, (s.types key).declaration = .fields decls → (s.route key).result = .error e :=
    fun decls hd => route_eq_error.mpr ⟨⟨decls, hd⟩, resolve_eq_error.mpr ⟨hnone, hb⟩⟩
  rw [events_step]
  cases hw with
  | resolve => exact hnew
  | decode hd => simp only [told, hnew, recordsTold, hroute _ hd, List.append_nil, announced]
  | decodeOne hd => simp only [told, hnew, recordTold, hroute _ hd, List.append_nil, announced]
  | query hd ho => simp only [told, ho, hnew, recordsTold, hroute _ hd, List.append_nil, announced]

end

/-! ## Runs -/

def reportsOf (s : Session R) (key : String) (cs : List (Command R)) : List Event :=
  ((cs.zip (s.run cs).1).filter fun x => x.1.type? == some key).flatMap (·.2.2)

def tellsSchema (e : Event) : Bool := e.message == "resolved record schema"

section
variable (s : Session R) (key : String)

theorem reportsOf_cons (c : Command R) (cs : List (Command R)) :
    s.reportsOf key (c :: cs) =
      (if c.type? = some key then (s.step c).events else []) ++ (s.step c).session.reportsOf key cs := by
  by_cases h : c.type? = some key <;> simp [reportsOf, run, h]

theorem filter_resolvedTold (s' : Session R) :
    (s.resolvedTold s' key).filter tellsSchema = s.resolvedTold s' key := by
  unfold resolvedTold
  cases s.schemas key <;> cases s'.schemas key <;> rfl

theorem filter_recordTold (succeeded : Bool) : (s.recordTold key succeeded).filter tellsSchema = [] := by
  unfold recordTold
  cases (s.route key).result with
  | error e => rfl
  | ok route => cases route <;> cases succeeded <;> rfl

theorem filter_lines {line : Nat → Event} (h : ∀ n, tellsSchema (line n) = false) (k : Nat) :
    ((List.range k).map line).filter tellsSchema = [] := by
  rw [List.filter_eq_nil_iff]
  intro e he
  obtain ⟨n, -, rfl⟩ := List.mem_map.mp he
  simp [h n]

theorem filter_recordsTold (os : List Object) (succeeded : Bool) :
    (s.recordsTold key os succeeded).filter tellsSchema = [] := by
  unfold recordsTold
  cases (s.route key).result with
  | error e => rfl
  | ok route =>
    have hhooked : ∀ n, tellsSchema (.hookedRecord n) = false := fun _ => rfl
    have hdecoded : ∀ name n, tellsSchema (.decodedRecord name n) = false := fun _ _ => rfl
    cases route with
    | hook hook => cases succeeded <;> simp [tellsSchema, Event.message, filter_lines hhooked]
    | fields schema => cases succeeded <;> simp [tellsSchema, Event.message, filter_lines (hdecoded _)]

variable {s key}

theorem Wants.type? {c : Command R} (h : s.Wants key c) : c.type? = some key := by
  cases h <;> rfl

theorem filter_step (c : Command R) :
    (if c.type? = some key then (s.step c).events else []).filter tellsSchema = s.resolvedTold (s.step c).session key := by
  by_cases h : c.type? = some key
  · rw [if_pos h, events_step]
    cases c with
    | declare _ _ | isCached _ => exact (resolvedTold_of_eq rfl).symm
    | setOptions _ | getOptions | setQuery _ _ => cases h
    | resolve key' =>
      cases h
      exact filter_resolvedTold ..
    | decode key' os =>
      cases h
      simp [told, filter_resolvedTold, filter_recordsTold]
    | decodeOne key' o =>
      cases h
      simp [told, filter_resolvedTold, filter_recordTold]
    | query key' text =>
      cases h
      cases ho : s.enumerator text with
      | error source =>
        have hsame : (s.step (.query key text)).session = s := by simp only [step, query, ho]
        rw [hsame, resolvedTold_of_eq rfl]
        simp [told, ho, tellsSchema, Event.message]
      | ok os => simp [told, ho, filter_resolvedTold, filter_recordsTold, tellsSchema, Event.message]
  · have hw : ¬ s.Wants key c := fun hw => h hw.type?
    rw [if_neg h, resolvedTold_of_eq (schemas_step_of_not_wants hw)]
    rfl

/-- A run reports the schema of a type if the type is kept in the end and was not before. -/
theorem filter_reportsOf (cs : List (Command R)) :
    (s.reportsOf key cs).filter tellsSchema = s.resolvedTold (s.after cs) key := by
  induction cs generalizing s with
  | nil => exact (resolvedTold_of_eq rfl).symm
  | cons c cs ih =>
    rw [reportsOf_cons, List.filter_append, filter_step, ih]
    refine resolvedTold_append ?_ ?_
    · intro schema h
      exact schemas_step_eq_some.mpr (.inl h)
    · intro schema h
      exact kept_after h cs

end

section
variable {s : Session R} {key : String} {route : Route R} (hr : (s.route key).result = .ok route)
include hr

theorem decode_succeeds_iff (os : List Object) :
    (∃ rs, (s.decode key os).result.result = .ok rs) ↔ os.findIdx (s.fails key) = os.length := by
  rw [decode_of_route hr, findIdx_fails hr]
  refine ⟨?_, ?_⟩
  · intro h
    obtain ⟨rs, hrs⟩ := h
    exact (length_of_decodeFrom s.options (s.types key).fresh route hrs).2
  · intro h
    cases hd : (decodeFrom s.options (s.types key).fresh route 0 os).result with
    | ok rs => exact ⟨rs, rfl⟩
    | error e =>
      have hlt := (record?_of_decodeFrom s.options (s.types key).fresh route hd).2
      omega

theorem record?_of_decode {os : List Object} {e : DecodeError} (h : (s.decode key os).result.result = .error e) :
    e.record? = some (os.findIdx (s.fails key)) := by
  rw [decode_of_route hr] at h
  rw [findIdx_fails hr]
  simpa using (record?_of_decodeFrom s.options (s.types key).fresh route h).1

end

/-- The events of every step of every session. They are those that its reply and the schemas kept before and after it
tell, where a decoding tells the records before the first object that fails: all of them if it succeeds, else those
before the position of its error. A schema error is reported by no event. Over the whole session the schema of a type
is reported once if one is kept, and else never. -/
theorem events_told (types : String → RecordType R) (options : Options) (before : List (Command R)) :
    let s := (start types options).after before
    (∀ c, (s.step c).events = s.told c) ∧
    (∀ key route, (s.route key).result = .ok route → ∀ os,
      ((∃ rs, (s.decode key os).result.result = .ok rs) ↔ os.findIdx (s.fails key) = os.length) ∧
      ∀ e, (s.decode key os).result.result = .error e → e.record? = some (os.findIdx (s.fails key))) ∧
    (∀ c e, (s.step c).result.schemaError? = some e → (s.step c).events = announced c) ∧
    ∀ key, ((start types options).reportsOf key before).filter tellsSchema =
      match s.schemas key with
      | none => []
      | some schema =>
        [.resolvedSchema schema.typeName schema.entries.length (schema.entries.filter (·.skip)).length] := by
  intro s
  refine ⟨events_step s, ?_, fun c e h => events_of_schemaError h, ?_⟩
  · intro key route hr os
    exact ⟨decode_succeeds_iff hr os, fun e => record?_of_decode hr⟩
  · intro key
    rw [filter_reportsOf]
    show resolvedTold (start types options) s key = _
    unfold resolvedTold start
    cases s.schemas key <;> rfl

theorem events_told_lamps :
    let lamp : String → RecordType Int := fun property => ⟨"Lamp", 0, .fields
      [(FieldDecl.typed "level" (.int (.fixed .u8)) fun x _ => x.val).rename property, .skipped "shade"]⟩
    let full := (Bag.ofList [("LEVEL", .int .u8 ⟨5, by decide⟩)]).object
    let found : Command Int := .setQuery "all" (.ok [full, Bag.empty.object, full])
    let s := (start (fun _ => lamp "Level") .strict).after [found, .query "L" "none"]
    let s' := (start (fun _ => lamp "") .strict).after [found]
    (s.step (.query "L" "all")).events =
      [.runningQuery "all", .resolvedSchema "Lamp" 2 1, .decodingRecords "Lamp" false, .decodedRecord "Lamp" 0] ∧
    (s.decode "L" [full, Bag.empty.object, full]).result.result = .error (.missing 1 "Level" "level") ∧
    DecodeError.record? (.missing 1 "Level" "level") = some 1 ∧
    ((start (fun _ => lamp "Level") .strict).reportsOf "L" [found, .query "L" "none", .query "L" "all", .decode "L" [full]]).filter
      tellsSchema = [.resolvedSchema "Lamp" 2 1] ∧
    (s'.step (.query "L" "all")).events = [.runningQuery "all"] := by
  intro lamp full found s s'
  obtain ⟨hsteps, hrecords, -, -⟩ := events_told (fun _ => lamp "Level") .strict [found, .query "L" "none"]
  obtain ⟨-, -, -, honce⟩ := events_told (fun _ => lamp "Level") .strict
    [found, .query "L" "none", .query "L" "all", .decode "L" [full]]
  obtain ⟨-, -, hfault, -⟩ := events_told (fun _ => lamp "") .strict [found]
  have hfailed : (s.decode "L" [full, Bag.empty.object, full]).result.result = .error (.missing 1 "Level" "level") := rfl
  refine ⟨(hsteps _).trans rfl, hfailed, ?_, (honce "L").trans rfl, ?_⟩
  · exact (hrecords "L" _ rfl [full, Bag.empty.object, full]).2 _ hfailed
  · exact hfault (.query "L" "all") (.malformed "Lamp" "level" "rename()" .emptyName) rfl

end Session

end TypedRecords
