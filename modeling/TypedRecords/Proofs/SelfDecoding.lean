import TypedRecords.Proofs.Leniency

/-!
# Types that decode themselves

The records of a type that decodes itself are what its hook makes of a fresh record and the answers of each object.
Options, kept schemas and the objects before play no part, nothing is kept, and the only error is that of the hook.
-/

namespace TypedRecords

/-! ## Records of a hook -/

section
variable (options : Options) (hook : Hook R) (fresh : R)

theorem single_hook (o : Object) :
    (Route.hook hook).single options fresh o = ((hook fresh).result o).mapError (.hook 0) := by
  simp only [Route.single, Route.decodeRecord, Inquiry.result_bind, Inquiry.result]

theorem asked_hook : (Route.hook hook).asked options fresh = fun o => (hook fresh).log o := by
  funext o
  simp only [Route.asked, Route.decodeRecord, Inquiry.log_bind, Inquiry.log, List.append_nil]

theorem map_single_hook {os : List Object} {rs : List R} :
    os.map ((Route.hook hook).single options fresh) = rs.map .ok ↔
      os.map (fun o => (hook fresh).result o) = rs.map .ok := by
  induction os generalizing rs with
  | nil => simp
  | cons o os ih =>
    cases rs with
    | nil => simp
    | cons r rs => simp only [List.map_cons, List.cons.injEq, single_hook, mapError_eq_ok, ih]

variable {hook fresh}

theorem decodeFrom_hook_error {record : Nat} {os : List Object} {e : DecodeError}
    (h : (decodeFrom options fresh (.hook hook) record os).result = .error e) : ∃ n fault, e = .hook n fault := by
  obtain ⟨n, -, o, -, he⟩ := exists_of_decodeFrom_error options fresh (.hook hook) h
  simp only [Route.decodeRecord, Inquiry.result_bind, Inquiry.result] at he
  obtain ⟨fault, -, rfl⟩ := mapError_eq_error.mp he
  exact ⟨n, fault, rfl⟩

theorem fetched_hook_ok {os : List Object} {rs : List R}
    (h : (decodeFrom options fresh (.hook hook) 0 os).result = .ok rs) :
    (decodeFrom options fresh (.hook hook) 0 os).fetched = os.map fun o => (hook fresh).log o := by
  have hall := (decodeFrom_eq_ok options fresh (.hook hook)).mp h
  have hfetched := (decodeFrom_append options fresh (.hook hook) 0 os [] rs hall).2
  simpa [decodeFrom, asked_hook] using hfetched

theorem decodeFrom_hook_first {before after : List Object} {o : Object} {fault : Fault}
    (hok : ∀ o' ∈ before, ∃ r, (hook fresh).result o' = .ok r) (hfault : (hook fresh).result o = .error fault) :
    (decodeFrom options fresh (.hook hook) 0 (before ++ o :: after)).result = .error (.hook before.length fault) ∧
      (decodeFrom options fresh (.hook hook) 0 (before ++ o :: after)).fetched =
        (before ++ [o]).map (fun o => (hook fresh).log o) ++ after.map fun _ => [] := by
  obtain ⟨rs, hrs⟩ := (exists_map_ok _).mpr hok
  have hone : (Route.hook hook).single options fresh o = .error (.hook 0 fault) := by
    rw [single_hook, hfault, mapError_error]
  obtain ⟨hres, hlog⟩ := decodeFrom_append options fresh (.hook hook) 0 before (o :: after) rs
    ((map_single_hook options hook fresh).mpr hrs)
  obtain ⟨hres', hlog'⟩ := decodeFrom_fail options fresh (.hook hook) (0 + before.length) o after hone
  rw [hres, hlog, hres', hlog', Nat.zero_add]
  exact ⟨rfl, by simp [asked_hook]⟩

end

namespace Session

structure SelfDecodes (s : Session R) (key : String) (hook : Hook R) (fresh : R) : Prop where
  declaration : (s.types key).declaration = .selfDecoding hook
  fresh : (s.types key).fresh = fresh

section
variable {s : Session R} {key : String} {hook : Hook R} {fresh : R} (h : s.SelfDecodes key hook fresh)
include h

theorem SelfDecodes.route_eq : (s.route key).result = .ok (.hook hook) ∧ (s.route key).session = s :=
  route_of_selfDecoding h.declaration

theorem SelfDecodes.decode_eq (options : Options) (os : List Object) :
    (s.decode key os).result = ⟨(decodeFrom options fresh (.hook hook) 0 os).result,
      (decodeFrom options fresh (.hook hook) 0 os).fetched⟩ := by
  rw [decode_of_route h.route_eq.1, h.fresh, decodeFrom_hook s.options options]

theorem SelfDecodes.decodeOne_eq (o : Object) :
    (s.decodeOne key o).result = ⟨((hook fresh).result o).mapError (.hook 0), [(hook fresh).log o]⟩ := by
  rw [decodeOne_of_route h.route_eq.1, h.fresh, single_hook, asked_hook]

theorem SelfDecodes.query_eq {text : String} {os : List Object} (ho : s.enumerator text = .ok os) :
    (s.query key text).result = ⟨(s.decode key os).result.result.mapError .decode, (s.decode key os).result.fetched⟩ ∧
      (s.query key text).session = s := by
  refine ⟨?_, (session_query ho).trans h.route_eq.2⟩
  simp only [Session.query, ho]

end

/-- Two sessions in which a type decodes itself by the same hook, with whatever options and kept schemas. Both decode
the same objects to the same, with the same requests, alone, in a list or as the answer to a query, and neither changes.
The records are what the hook makes of a fresh record and each object; the first object on which it fails gives the
error, with its position and the fault as it is; and there is no other error. -/
theorem selfDecoding_bypasses {s t : Session R} {key : String} {hook : Hook R} {fresh : R}
    (hs : s.SelfDecodes key hook fresh) (ht : t.SelfDecodes key hook fresh) :
    (∀ os, (s.decode key os).result = (t.decode key os).result ∧
      (s.decode key os).session = s ∧ (t.decode key os).session = t) ∧
    (∀ o, (s.decodeOne key o).result = (t.decodeOne key o).result ∧
      (s.decodeOne key o).session = s ∧ (t.decodeOne key o).session = t) ∧
    (∀ text text' os, s.enumerator text = .ok os → t.enumerator text' = .ok os →
      (s.query key text).result = (t.query key text').result ∧
      (s.query key text).session = s ∧ (t.query key text').session = t) ∧
    (∀ os rs, (s.decode key os).result.result = .ok rs ↔ os.map (fun o => (hook fresh).result o) = rs.map .ok) ∧
    (∀ os rs, (s.decode key os).result.result = .ok rs →
      (s.decode key os).result.fetched = os.map fun o => (hook fresh).log o) ∧
    (∀ before o after fault, (∀ o' ∈ before, ∃ r, (hook fresh).result o' = .ok r) →
      (hook fresh).result o = .error fault →
        (s.decode key (before ++ o :: after)).result = ⟨.error (.hook before.length fault),
          (before ++ [o]).map (fun o => (hook fresh).log o) ++ after.map fun _ => []⟩) ∧
    (∀ os e, (s.decode key os).result.result = .error e → ∃ i fault, e = .hook i fault) ∧
    (∀ o, (s.decodeOne key o).result = ⟨((hook fresh).result o).mapError (.hook 0), [(hook fresh).log o]⟩) ∧
    ∀ text os, s.enumerator text = .ok os → (s.query key text).result =
      ⟨(s.decode key os).result.result.mapError .decode, (s.decode key os).result.fetched⟩ := by
  have hdecode : ∀ os, (s.decode key os).result = (t.decode key os).result := by
    intro os
    rw [hs.decode_eq .strict, ht.decode_eq .strict]
  refine ⟨?_, ?_, ?_, ?_, ?_, ?_, ?_, hs.decodeOne_eq, fun text os ho => (hs.query_eq ho).1⟩
  · intro os
    exact ⟨hdecode os, (session_decode os).trans hs.route_eq.2, (session_decode os).trans ht.route_eq.2⟩
  · intro o
    rw [hs.decodeOne_eq, ht.decodeOne_eq, session_decodeOne, session_decodeOne]
    exact ⟨rfl, hs.route_eq.2, ht.route_eq.2⟩
  · intro text text' os ho ho'
    obtain ⟨hq, hsame⟩ := hs.query_eq ho
    obtain ⟨hq', hsame'⟩ := ht.query_eq ho'
    rw [hq, hq', hdecode]
    exact ⟨rfl, hsame, hsame'⟩
  · intro os rs
    rw [hs.decode_eq .strict, decodeFrom_eq_ok, map_single_hook]
  · intro os rs h
    rw [hs.decode_eq .strict] at h ⊢
    exact fetched_hook_ok .strict h
  · intro before o after fault hok hfault
    obtain ⟨hres, hfetched⟩ := decodeFrom_hook_first .strict hok hfault
    rw [hs.decode_eq .strict, hres, hfetched]
  · intro os e h
    rw [hs.decode_eq .strict] at h
    exact decodeFrom_hook_error .strict h

/-- The hook of a door reads a sign and fails without one. It is run in a strict session with nothing kept, and in a
lenient one that keeps the schema of a former declaration of the door by its fields. -/
theorem selfDecoding_bypasses_door :
    let hook : Hook (List Value) := fun r => .ask "Sign" fun
      | .ok (some v) => .answer (.ok (v :: r))
      | _ => .answer (.error (.text "no sign"))
    let door : RecordType (List Value) := ⟨"Door", [], .selfDecoding hook⟩
    let former : RecordType (List Value) := ⟨"Door", [], .fields [.typed "width" .bool fun _ r => r]⟩
    let s := start (fun _ => door) .strict
    let t := (start (fun _ => former) .strict).after [.decode "D" [], .setOptions ⟨true⟩, .declare "D" door]
    let signed := (Bag.ofList [("sign", .bool true)]).object
    s.isCached "D" = false ∧ t.isCached "D" = true ∧
    (s.decode "D" [signed, signed]).result = (t.decode "D" [signed, signed]).result ∧
    (s.decode "D" [signed, signed]).result.result = .ok [[.bool true], [.bool true]] ∧
    (t.decode "D" [signed, Bag.empty.object, signed]).result =
      ⟨.error (.hook 1 (.text "no sign")), [["Sign"], ["Sign"], []]⟩ ∧
    (t.decode "D" [signed]).session = t := by
  intro hook door former s t signed
  have hs : s.SelfDecodes "D" hook [] := ⟨rfl, rfl⟩
  have ht : t.SelfDecodes "D" hook [] := ⟨rfl, rfl⟩
  obtain ⟨hdecode, -, -, hrecords, -⟩ := selfDecoding_bypasses hs ht
  obtain ⟨hdecode', -, -, -, -, hfirst, -⟩ := selfDecoding_bypasses ht hs
  have hok : ∀ o ∈ [signed], ∃ r, (hook []).result o = .ok r := by
    rw [List.forall_mem_singleton]
    exact ⟨[.bool true], rfl⟩
  refine ⟨rfl, rfl, (hdecode _).1, (hrecords [signed, signed] _).mpr rfl, ?_, (hdecode' _).2.1⟩
  exact hfirst [signed] Bag.empty.object [signed] (.text "no sign") hok rfl

end Session

end TypedRecords
