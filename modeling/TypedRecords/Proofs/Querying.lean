import TypedRecords.Proofs.Caching

/-!
# Queries

A query has its objects enumerated and then decodes them, with the options and the answers that the commands before it
left in force. Decoding does not look at the answers to queries, so every decoder with these options that shares the
declarations and the kept schemas gives the same.
-/

namespace TypedRecords.Session

/-! ## What commands set -/

def set (s : Session R) : Command R → Session R
  | .declare key type => s.declare key type
  | .setOptions options => s.setOptions options
  | .setQuery query answer => s.setQuery query answer
  | _ => s

section
variable (s : Session R)

theorem resolve_changes_schemas (key : String) :
    (s.resolve key).session = { s with schemas := (s.resolve key).session.schemas } := by
  rw [session_resolve]
  cases (s.resolve key).result <;> rfl

theorem route_changes_schemas (key : String) :
    (s.route key).session = { s with schemas := (s.route key).session.schemas } := by
  rcases s.session_route key with h | h
  · rw [h]
  · rw [h]
    exact s.resolve_changes_schemas key

/-- Apart from what a command sets, a step changes nothing but the kept schemas. -/
theorem session_step (c : Command R) :
    (s.step c).session = { s.set c with schemas := (s.step c).session.schemas } := by
  cases c with
  | resolve key => exact s.resolve_changes_schemas key
  | decode key os =>
    show (s.decode key os).session = { s with schemas := (s.decode key os).session.schemas }
    rw [session_decode]
    exact s.route_changes_schemas key
  | decodeOne key o =>
    show (s.decodeOne key o).session = { s with schemas := (s.decodeOne key o).session.schemas }
    rw [session_decodeOne]
    exact s.route_changes_schemas key
  | query key text =>
    show (s.query key text).session = { s with schemas := (s.query key text).session.schemas }
    cases ho : s.enumerator text with
    | error source => simp only [query, ho]
    | ok os =>
      rw [session_query ho]
      exact s.route_changes_schemas key
  | declare _ _ | isCached _ | setOptions _ | getOptions | setQuery _ _ => rfl

def chosen (options : Options) (cs : List (Command R)) : Options :=
  cs.foldl (fun options c => match c with
    | .setOptions options => options
    | _ => options) options

def answered (enumerator : Enumerator) (cs : List (Command R)) : Enumerator :=
  cs.foldl (fun enumerator c => match c with
    | .setQuery query answer => update enumerator query answer
    | _ => enumerator) enumerator

theorem options_after (cs : List (Command R)) : (s.after cs).options = chosen s.options cs := by
  induction cs using List.reverseRecOn with
  | nil => rfl
  | append_singleton cs c ih =>
    unfold chosen at ih ⊢
    rw [after_snoc, session_step, List.foldl_append, ← ih]
    cases c <;> rfl

theorem enumerator_after (cs : List (Command R)) : (s.after cs).enumerator = answered s.enumerator cs := by
  induction cs using List.reverseRecOn with
  | nil => rfl
  | append_singleton cs c ih =>
    unfold answered at ih ⊢
    rw [after_snoc, session_step, List.foldl_append, ← ih]
    cases c <;> rfl

end

/-! ## Decoding and the answers to queries -/

section
variable (s : Session R) (enumerator : Enumerator) (key : String)

theorem resolve_enumerator : { s with enumerator }.resolve key =
    { s.resolve key with session := { (s.resolve key).session with enumerator } } := by
  unfold resolve
  cases s.schemas key with
  | some schema => rfl
  | none =>
    simp only
    generalize Schema.build _ _ = built
    cases built <;> rfl

theorem route_enumerator : { s with enumerator }.route key =
    { s.route key with session := { (s.route key).session with enumerator } } := by
  unfold route
  simp only [resolve_enumerator]
  cases (s.types key).declaration <;> rfl

theorem decode_enumerator (os : List Object) : { s with enumerator }.decode key os =
    { s.decode key os with session := { (s.decode key os).session with enumerator } } := by
  unfold decode
  simp only [route_enumerator]
  cases (s.route key).result <;> rfl

end

/-- A query in a session that can come about. Where the query has objects, it is the decoding of these objects by a
decoder with the options in force, whatever else that decoder has been told before: the records or the error are the
same, and so are the requests, the session after it and the events after the first. Where it has none, that is the error,
and no declaration is looked at. -/
theorem query_eq_decode (types : String → RecordType R) (options : Options) (cs : List (Command R))
    (key text : String) :
    let s := (start types options).after cs
    let q := s.query key text
    (∀ os, answered .none cs text = .ok os → ∀ t : Session R, t.types = s.types → t.schemas = s.schemas →
      let d := (t.setOptions (chosen options cs)).decode key os
      (∀ rs, q.result.result = .ok rs ↔ d.result.result = .ok rs) ∧
      (∀ err, q.result.result = .error err ↔ ∃ e, d.result.result = .error e ∧ err = .decode e) ∧
      (∀ e, (QueryError.decode e).message = e.message ∧ (QueryError.decode e).chain = e.chain) ∧
      q.result.fetched = d.result.fetched ∧
      q.session = { d.session with enumerator := s.enumerator } ∧
      q.events = .runningQuery text :: d.events) ∧
    ∀ source, answered .none cs text = .error source →
      q = ⟨⟨.error (.failed text source), []⟩, [.runningQuery text], s⟩ := by
  intro s q
  have hanswer : s.enumerator = answered .none cs := enumerator_after ..
  refine ⟨?_, ?_⟩
  · intro os ho t ht hs d
    rw [← hanswer] at ho
    -- the other decoder has the client's session but for the answers to queries
    have hclient : t.setOptions (chosen options cs) = { s with enumerator := t.enumerator } := by
      rw [show chosen options cs = s.options from (options_after (start types options) cs).symm]
      show ({ t with options := s.options } : Session R) = _
      rw [ht, hs]
    have hd : d = { s.decode key os with session := { (s.decode key os).session with enumerator := t.enumerator } } := by
      rw [← decode_enumerator, ← hclient]
    have hq : q = ⟨⟨(s.decode key os).result.result.mapError .decode, (s.decode key os).result.fetched⟩,
        .runningQuery text :: (s.decode key os).events, (s.decode key os).session⟩ := by
      simp only [q, query, ho]
    rw [hq, hd]
    refine ⟨fun rs => mapError_eq_ok, ?_, fun e => ⟨rfl, rfl⟩, rfl, ?_, rfl⟩
    · intro err
      rw [mapError_eq_error]
      simp only [eq_comm]
    · have hkeep : (s.decode key os).session.enumerator = s.enumerator := by
        rw [session_decode, route_changes_schemas]
      rw [← hkeep]
  · intro source ho
    rw [← hanswer] at ho
    simp only [q, query, ho]

theorem query_eq_decode_lamp :
    let lamp : String → RecordType Int := fun property =>
      ⟨"Lamp", 0, .fields [(FieldDecl.typed "level" (.int (.fixed .u8)) fun x _ => x.val).rename property]⟩
    let cs : List (Command Int) :=
      [.setQuery "all" (.error "no lamps"), .setQuery "all" (.ok [Bag.empty.object]), .setOptions ⟨true⟩]
    let s := (start (fun _ => lamp "Level") .strict).after cs
    let t := start (fun _ => lamp "Level") .strict
    let s' := (start (fun _ => lamp "") .strict).after cs
    (t.decode "L" [Bag.empty.object]).result.result = .error (.missing 0 "Level" "level") ∧
    (s.query "L" "all").result.result = .ok [0] ∧
    (s.query "L" "all").events = .runningQuery "all" :: ((t.setOptions ⟨true⟩).decode "L" [Bag.empty.object]).events ∧
    (s'.query "L" "some").result = ⟨.error (.failed "some" "invalid query: some"), []⟩ ∧
    (s'.query "L" "some").session = s' := by
  intro lamp cs s t s'
  obtain ⟨hfound, -⟩ := query_eq_decode (fun _ => lamp "Level") .strict cs "L" "all"
  obtain ⟨hrecords, -, -, -, -, hevents⟩ := hfound [Bag.empty.object] rfl t rfl rfl
  obtain ⟨-, hnone⟩ := query_eq_decode (fun _ => lamp "") .strict cs "L" "some"
  have hfailed := hnone "invalid query: some" rfl
  exact ⟨rfl, (hrecords [0]).mpr rfl, hevents, congrArg Outcome.result hfailed, congrArg Outcome.session hfailed⟩

end TypedRecords.Session
