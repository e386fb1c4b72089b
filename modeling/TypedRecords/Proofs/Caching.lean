import Mathlib.Data.List.Induction
import TypedRecords.Proofs.Batch

/-!
# Schemas over a session

A session keeps the schema that a type had when it was first resolved. From then on everything that needs the
schema of the type uses the kept one, however the type is declared anew. A declaration that does not build is
reported as long as nothing is kept, and the report leaves the session as it was.
-/

namespace TypedRecords

def RecordType.schema (type : RecordType R) : Except SchemaError (Schema R) :=
  Schema.build type.name <| match type.declaration with
    | .fields decls => decls
    | .selfDecoding _ => []

def DecodeError.schema? : DecodeError → Option SchemaError
  | .schema e => some e
  | _ => none

def Reply.schemaError? : Reply R → Option SchemaError
  | .schema (.error e) => some e
  | .query ⟨.error (.decode e), _⟩ => e.schema?
  | .records ⟨.error e, _⟩ | .record ⟨.error e, _⟩ => e.schema?
  | _ => none

namespace Session

/-- A command that needs the schema of a type. A query needs it once its objects are there, and a type that
decodes itself needs it only to be resolved. -/
inductive Wants (s : Session R) (key : String) : Command R → Prop
  | resolve : Wants s key (.resolve key)
  | decode {decls os} : (s.types key).declaration = .fields decls → Wants s key (.decode key os)
  | decodeOne {decls o} : (s.types key).declaration = .fields decls → Wants s key (.decodeOne key o)
  | query {decls text os} : (s.types key).declaration = .fields decls → s.enumerator text = .ok os →
      Wants s key (.query key text)

/-! ## Resolving -/

section
variable {s : Session R} {key : String}

theorem resolve_eq_ok {schema : Schema R} : (s.resolve key).result = .ok schema ↔
    s.schemas key = some schema ∨ s.schemas key = none ∧ (s.types key).schema = .ok schema := by
  unfold resolve RecordType.schema
  cases s.schemas key with
  | some kept => simp
  | none =>
    simp only [reduceCtorEq, false_or, true_and]
    generalize Schema.build _ _ = built
    cases built <;> simp

theorem resolve_eq_error {e : SchemaError} : (s.resolve key).result = .error e ↔
    s.schemas key = none ∧ (s.types key).schema = .error e := by
  unfold resolve RecordType.schema
  cases s.schemas key with
  | some kept => simp
  | none =>
    simp only [true_and]
    generalize Schema.build _ _ = built
    cases built <;> simp

theorem schemas_resolve_of_ne {other : String} (h : other ≠ key) :
    (s.resolve key).session.schemas other = s.schemas other := by
  rw [session_resolve]
  cases (s.resolve key).result with
  | error e => rfl
  | ok schema => exact if_neg h

theorem schemas_resolve_self {schema : Schema R} :
    (s.resolve key).session.schemas key = some schema ↔ (s.resolve key).result = .ok schema := by
  rw [session_resolve]
  cases h : (s.resolve key).result with
  | error e => simp [(resolve_eq_error.mp h).1]
  | ok kept => simp [update]

end

/-! ## Routes -/

section
variable {s : Session R} {key : String}

theorem route_of_fields {decls : List (FieldDecl R)} (hd : (s.types key).declaration = .fields decls) :
    (s.route key).result = (s.resolve key).result.map .fields ∧ (s.route key).session = (s.resolve key).session := by
  simp only [route, hd, and_self]

theorem route_of_selfDecoding {hook : Hook R} (hd : (s.types key).declaration = .selfDecoding hook) :
    (s.route key).result = .ok (.hook hook) ∧ (s.route key).session = s := by
  simp only [route, hd, and_self]

theorem route_eq_error {e : SchemaError} : (s.route key).result = .error e ↔
    (∃ decls, (s.types key).declaration = .fields decls) ∧ (s.resolve key).result = .error e := by
  cases hd : (s.types key).declaration with
  | fields decls => simp [(route_of_fields hd).1, map_eq_error]
  | selfDecoding hook => simp [(route_of_selfDecoding hd).1]

theorem schemas_route_of_ne {other : String}
    (h : ∀ decls, (s.types key).declaration = .fields decls → other ≠ key) :
    (s.route key).session.schemas other = s.schemas other := by
  cases hd : (s.types key).declaration with
  | fields decls => rw [(route_of_fields hd).2, schemas_resolve_of_ne (h decls hd)]
  | selfDecoding hook => rw [(route_of_selfDecoding hd).2]

theorem session_decode (os : List Object) : (s.decode key os).session = (s.route key).session := by
  unfold decode
  cases h : (s.route key).result <;> simp only [h]

theorem session_query {text : String} {os : List Object} (h : s.enumerator text = .ok os) :
    (s.query key text).session = (s.route key).session := by
  simp only [query, h]
  exact session_decode os

end

/-! ## One command -/

section
variable {s : Session R} {key : String} {c : Command R}

theorem Wants.session (h : s.Wants key c) : (s.step c).session = (s.resolve key).session := by
  cases h with
  | resolve => rfl
  | decode hd => exact (session_decode _).trans (route_of_fields hd).2
  | decodeOne hd => exact (session_decodeOne ..).trans (route_of_fields hd).2
  | query hd ho => exact (session_query ho).trans (route_of_fields hd).2

theorem schemas_step_of_not_wants (h : ¬ s.Wants key c) : (s.step c).session.schemas key = s.schemas key := by
  cases c with
  | resolve k =>
    refine schemas_resolve_of_ne ?_
    rintro rfl
    exact h .resolve
  | decode k os =>
    show (s.decode k os).session.schemas key = _
    rw [session_decode]
    apply schemas_route_of_ne
    rintro decls hd rfl
    exact h (.decode hd)
  | decodeOne k o =>
    show (s.decodeOne k o).session.schemas key = _
    rw [session_decodeOne]
    apply schemas_route_of_ne
    rintro decls hd rfl
    exact h (.decodeOne hd)
  | query k text =>
    cases ho : s.enumerator text with
    | error source => simp only [step, query, ho]
    | ok os =>
      show (s.query k text).session.schemas key = _
      rw [session_query ho]
      apply schemas_route_of_ne
      rintro decls hd rfl
      exact h (.query hd ho)
  | declare _ _ | isCached _ | setOptions _ | getOptions | setQuery _ _ => rfl

/-- A step keeps the schema of a type, and gives it one if it wants the schema and the type declares one. -/
theorem schemas_step_eq_some {schema : Schema R} : (s.step c).session.schemas key = some schema ↔
    s.schemas key = some schema ∨
      s.schemas key = none ∧ s.Wants key c ∧ (s.types key).schema = .ok schema := by
  by_cases hw : s.Wants key c
  · rw [hw.session, schemas_resolve_self, resolve_eq_ok]
    simp [hw]
  · rw [schemas_step_of_not_wants hw]
    simp [hw]

theorem types_step : (s.step c).session.types =
    match c with
    | .declare key type => update s.types key type
    | _ => s.types := by
  cases c with
  | resolve k => exact types_resolve s k
  | decode k os =>
    show (s.decode k os).session.types = _
    rw [session_decode, types_route]
  | decodeOne k o =>
    show (s.decodeOne k o).session.types = _
    rw [session_decodeOne, types_route]
  | query k text =>
    cases ho : s.enumerator text with
    | error source => simp only [step, query, ho]
    | ok os =>
      show (s.query k text).session.types = _
      rw [session_query ho, types_route]
  | declare _ _ | isCached _ | setOptions _ | getOptions | setQuery _ _ => rfl

/-! ## Reported errors -/

theorem schema?_eq_none {e : DecodeError} {record : Nat} (h : e.record? = some record) : e.schema? = none := by
  cases e with
  | schema e => cases h
  | _ => rfl

theorem decodeFrom_error {options : Options} {fresh : R} {route : Route R} {record : Nat} {os : List Object}
    {e : DecodeError} (h : (decodeFrom options fresh route record os).result = .error e) : e.schema? = none := by
  obtain ⟨n, -, o, -, he⟩ := exists_of_decodeFrom_error options fresh route h
  exact schema?_eq_none (Route.decodeRecord_error options n he)

theorem schemaError?_decode {os : List Object} {e : SchemaError} :
    (Reply.records (s.decode key os).result).schemaError? = some e ↔ (s.route key).result = .error e := by
  cases hr : (s.route key).result with
  | error e' => simp [decode, hr, Reply.schemaError?, DecodeError.schema?]
  | ok route =>
    rw [decode_of_route hr]
    cases hd : (decodeFrom s.options (s.types key).fresh route 0 os).result with
    | error e' => simp [Reply.schemaError?, decodeFrom_error hd]
    | ok rs => simp [Reply.schemaError?]

theorem schemaError?_decodeOne {o : Object} {e : SchemaError} :
    (Reply.record (s.decodeOne key o).result).schemaError? = some e ↔ (s.route key).result = .error e := by
  cases hr : (s.route key).result with
  | error e' => simp [decodeOne, hr, Reply.schemaError?, DecodeError.schema?]
  | ok route =>
    rw [decodeOne_of_route hr]
    cases hd : route.single s.options (s.types key).fresh o with
    | error e' => simp [Reply.schemaError?, schema?_eq_none (Route.decodeRecord_error s.options 0 hd)]
    | ok r => simp [Reply.schemaError?]

theorem schemaError?_query {text : String} {os : List Object} (ho : s.enumerator text = .ok os) :
    (Reply.query (s.query key text).result).schemaError? =
      (Reply.records (s.decode key os).result).schemaError? := by
  simp only [query, ho]
  cases hd : (s.decode key os).result with
  | mk result fetched => cases result <;> rfl

theorem schemaError?_step {e : SchemaError} : (s.step c).result.schemaError? = some e ↔
    ∃ key, s.Wants key c ∧ s.schemas key = none ∧ (s.types key).schema = .error e := by
  simp only [← resolve_eq_error]
  refine ⟨?_, ?_⟩
  · intro h
    cases c with
    | resolve k =>
      refine ⟨k, .resolve, ?_⟩
      cases hr : (s.resolve k).result with
      | error e' => simpa [step, hr, Reply.schemaError?] using h
      | ok schema => simp [step, hr, Reply.schemaError?] at h
    | decode k os =>
      obtain ⟨⟨decls, hd⟩, hr⟩ := route_eq_error.mp (schemaError?_decode.mp h)
      exact ⟨k, .decode hd, hr⟩
    | decodeOne k o =>
      obtain ⟨⟨decls, hd⟩, hr⟩ := route_eq_error.mp (schemaError?_decodeOne.mp h)
      exact ⟨k, .decodeOne hd, hr⟩
    | query k text =>
      cases ho : s.enumerator text with
      | error source => simp [step, query, ho, Reply.schemaError?] at h
      | ok os =>
        obtain ⟨⟨decls, hd⟩, hr⟩ := route_eq_error.mp (schemaError?_decode.mp ((schemaError?_query ho).symm.trans h))
        exact ⟨k, .query hd ho, hr⟩
    | declare _ _ | isCached _ | setOptions _ | getOptions | setQuery _ _ => cases h
  · intro h
    obtain ⟨key, hw, hr⟩ := h
    cases hw with
    | resolve => simp [step, hr, Reply.schemaError?]
    | decode hd => exact schemaError?_decode.mpr (route_eq_error.mpr ⟨⟨_, hd⟩, hr⟩)
    | decodeOne hd => exact schemaError?_decodeOne.mpr (route_eq_error.mpr ⟨⟨_, hd⟩, hr⟩)
    | query hd ho => exact (schemaError?_query ho).trans (schemaError?_decode.mpr (route_eq_error.mpr ⟨⟨_, hd⟩, hr⟩))

theorem session_step_of_schemaError {e : SchemaError} (h : (s.step c).result.schemaError? = some e) :
    (s.step c).session = s := by
  obtain ⟨key, hw, hr⟩ := schemaError?_step.mp h
  rw [hw.session, session_resolve, resolve_eq_error.mpr hr]

end

/-! ## The schema in force -/

/-- Every command that needs the schema of a type is answered with this one. -/
structure InForce (s : Session R) (key : String) (schema : Schema R) : Prop where
  isCached : (s.step (.isCached key)).result = .flag true
  resolve : (s.step (.resolve key)).result = .schema (.ok schema)
  decode : ∀ decls, (s.types key).declaration = .fields decls → ∀ os,
    let b := decodeBatch s.options (s.types key) (.fields schema) os
    (s.step (.decode key os)).result = .records ⟨b.result, b.fetched⟩
  decodeOne : ∀ decls, (s.types key).declaration = .fields decls → ∀ o,
    let inquiry := (Route.fields schema).decodeRecord s.options (s.types key).fresh 0
    (s.step (.decodeOne key o)).result = .record ⟨inquiry.result o, [inquiry.log o]⟩
  query : ∀ decls, (s.types key).declaration = .fields decls → ∀ text os, s.enumerator text = .ok os →
    let b := decodeBatch s.options (s.types key) (.fields schema) os
    (s.step (.query key text)).result = .query ⟨b.result.mapError .decode, b.fetched⟩

section
variable {s : Session R} {key : String} {schema : Schema R}

theorem inForce_of_kept (h : s.schemas key = some schema) : s.InForce key schema := by
  have hroute : ∀ decls, (s.types key).declaration = .fields decls → (s.route key).result = .ok (.fields schema) := by
    intro decls hd
    rw [(route_of_fields hd).1, resolve_of_cached s key h]
    rfl
  refine ⟨?_, ?_, ?_, ?_, ?_⟩
  · simp [step, Session.isCached, h]
  · simp [step, resolve_of_cached s key h]
  · intro decls hd os
    exact congrArg Reply.records (decode_of_route (hroute decls hd) os)
  · intro decls hd o
    exact congrArg Reply.record (decodeOne_of_route (hroute decls hd) o)
  · intro decls hd text os ho
    simp only [step, Session.query, ho, decode_of_route (hroute decls hd)]
    rfl

end

theorem isCached_iff {s : Session R} {key : String} : s.isCached key = true ↔ ∃ schema, s.schemas key = some schema :=
  Option.isSome_iff_exists

/-! ## Runs -/

def after (s : Session R) (cs : List (Command R)) : Session R := (s.run cs).2

def declared (types : String → RecordType R) (cs : List (Command R)) : String → RecordType R :=
  cs.foldl (fun types c => match c with
    | .declare key type => update types key type
    | _ => types) types

theorem run_append (s : Session R) (cs cs' : List (Command R)) :
    s.run (cs ++ cs') = ((s.run cs).1 ++ ((s.after cs).run cs').1, (s.after cs).after cs') := by
  induction cs generalizing s with
  | nil => rfl
  | cons c cs ih =>
    simp only [List.cons_append, run, after] at ih ⊢
    rw [ih]

theorem length_run (s : Session R) (cs : List (Command R)) : (s.run cs).1.length = cs.length := by
  induction cs generalizing s with
  | nil => rfl
  | cons c cs ih => simp [run, ih]

theorem after_snoc (s : Session R) (cs : List (Command R)) (c : Command R) :
    s.after (cs ++ [c]) = ((s.after cs).step c).session :=
  congrArg Prod.snd (run_append s cs [c])

theorem reply_run (s : Session R) (before rest : List (Command R)) (c : Command R) :
    (s.run (before ++ c :: rest)).1[before.length]? =
      some (((s.after before).step c).result, ((s.after before).step c).events) := by
  rw [run_append, List.getElem?_append_right (Nat.le_of_eq (length_run ..)), length_run, Nat.sub_self]
  rfl

theorem types_after (s : Session R) (cs : List (Command R)) : (s.after cs).types = declared s.types cs := by
  induction cs using List.reverseRecOn with
  | nil => rfl
  | append_singleton cs c ih =>
    rw [after_snoc, types_step, ih]
    simp [declared]

theorem kept_after {s : Session R} {key : String} {schema : Schema R} (h : s.schemas key = some schema)
    (cs : List (Command R)) : (s.after cs).schemas key = some schema := by
  induction cs generalizing s with
  | nil => exact h
  | cons c cs ih => exact ih (schemas_step_eq_some.mpr (.inl h))

theorem exists_split_snoc {P : List α → α → Prop} {l : List α} {y : α} :
    (∃ before x rest, l ++ [y] = before ++ x :: rest ∧ P before x) ↔
      (∃ before x rest, l = before ++ x :: rest ∧ P before x) ∨ P l y := by
  refine ⟨?_, ?_⟩
  · intro h
    obtain ⟨before, x, rest, hl, hp⟩ := h
    cases rest using List.reverseRecOn with
    | nil =>
      obtain ⟨rfl, hx⟩ := List.append_inj' hl rfl
      cases hx
      exact .inr hp
    | append_singleton rest z =>
      rw [← List.cons_append, ← List.append_assoc] at hl
      exact .inl ⟨before, x, rest, (List.append_inj' hl rfl).1, hp⟩
  · intro h
    rcases h with ⟨before, x, rest, rfl, hp⟩ | hp
    · exact ⟨before, x, rest ++ [y], by simp, hp⟩
    · exact ⟨l, y, [], rfl, hp⟩

section
variable {types : String → RecordType R} {options : Options}

theorem kept_iff {cs : List (Command R)} {key : String} {schema : Schema R} :
    ((start types options).after cs).schemas key = some schema ↔
      ∃ before c rest, cs = before ++ c :: rest ∧ ((start types options).after before).schemas key = none ∧
        ((start types options).after before).Wants key c ∧ (declared types before key).schema = .ok schema := by
  induction cs using List.reverseRecOn with
  | nil => simp [after, run, start]
  | append_singleton cs c ih =>
    rw [after_snoc, schemas_step_eq_some, ih, exists_split_snoc, types_after]
    rfl

/-- Schemas over every session that starts with none. For the session after some commands: the next command is
answered by a step from it; a schema once kept is in force after all further commands; what is kept is what the
type declared when its schema was first wanted and built; a schema error says that nothing is kept and that the
declaration does not build, and changes nothing, so that a declaration which builds can still be kept; the schema
of a type changes in no step that does not want it; and a type is cached if and only if a schema is kept for it. -/
theorem kept_schemas (types : String → RecordType R) (options : Options) (before : List (Command R)) :
    let s := (start types options).after before
    s.types = declared types before ∧
    (∀ c rest, ((start types options).run (before ++ c :: rest)).1[before.length]? =
      some ((s.step c).result, (s.step c).events)) ∧
    (∀ key schema, s.schemas key = some schema → ∀ later, (s.after later).InForce key schema) ∧
    (∀ key schema, s.schemas key = some schema ↔
      ∃ earlier c rest, before = earlier ++ c :: rest ∧
        ((start types options).after earlier).schemas key = none ∧
        ((start types options).after earlier).Wants key c ∧ (declared types earlier key).schema = .ok schema) ∧
    (∀ c e, (s.step c).result.schemaError? = some e ↔
      ∃ key, s.Wants key c ∧ s.schemas key = none ∧ (declared types before key).schema = .error e) ∧
    (∀ c e, (s.step c).result.schemaError? = some e → (s.step c).session = s) ∧
    (∀ key type schema, s.schemas key = none → type.schema = .ok schema →
      ((s.declare key type).resolve key).result = .ok schema) ∧
    (∀ key c, ¬ s.Wants key c → (s.step c).session.schemas key = s.schemas key) ∧
    ∀ key, (s.step (.isCached key)).result = .flag (s.isCached key) ∧
      (s.isCached key = true ↔ ∃ schema, s.schemas key = some schema) := by
  intro s
  have htypes : s.types = declared types before := types_after ..
  refine ⟨htypes, fun c rest => reply_run .., ?_, fun key schema => kept_iff, ?_, ?_, ?_, ?_,
    fun key => ⟨rfl, isCached_iff⟩⟩
  · intro key schema h later
    exact inForce_of_kept (kept_after h later)
  · intro c e
    rw [← htypes]
    exact schemaError?_step
  · intro c e h
    exact session_step_of_schemaError h
  · intro key type schema hnone hb
    have hdeclared : (s.declare key type).types key = type := if_pos rfl
    rw [resolve_eq_ok, hdeclared]
    exact .inr ⟨hnone, hb⟩
  · intro key c h
    exact schemas_step_of_not_wants h

theorem kept_schemas_redeclared :
    let strength : String → RecordType Int := fun property =>
      ⟨"Strength", 0, .fields [(FieldDecl.typed "level" (.int (.fixed .u8)) fun x _ => x.val).rename property]⟩
    let s := start (fun _ => strength "") .strict
    let schema : Schema Int :=
      ⟨"Strength", [⟨"Level", "level", false, some (.typed (.int (.fixed .u8)) fun x _ => x.val)⟩]⟩
    (s.step (.resolve "S")).result.schemaError? = some (.malformed "Strength" "level" "rename()" .emptyName) ∧
    (s.step (.resolve "S")).session = s ∧
    ((s.declare "S" (strength "Level")).resolve "S").result = .ok schema ∧
    ((s.after [.resolve "S", .declare "S" (strength "Level"), .decode "S" []]).after
      [.declare "S" (strength "Force")]).InForce "S" schema := by
  intro strength s schema
  have hfault : (s.step (.resolve "S")).result.schemaError? =
      some (.malformed "Strength" "level" "rename()" .emptyName) := rfl
  have hbuilds : (strength "Level").schema = .ok schema := rfl
  obtain ⟨-, -, -, -, -, hsame, hlater, -⟩ := kept_schemas (fun _ => strength "") .strict []
  obtain ⟨-, -, hkept, -⟩ := kept_schemas (fun _ => strength "") .strict
    [.resolve "S", .declare "S" (strength "Level"), .decode "S" []]
  exact ⟨hfault, hsame _ _ hfault, hlater "S" _ schema rfl hbuilds, hkept "S" schema rfl _⟩

end

end Session

end TypedRecords
