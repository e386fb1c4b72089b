import TypedRecords.Catalog
import TypedRecords.Proofs.Folding
import TypedRecords.Session

/-!
# Batches and single records

Decoding a list of objects is decoding its objects one at a time: the records are those of the single
decodings, and the first error is that of a single decoding with the position of its object. Objects after
the first that fails are not asked for anything.
-/

namespace TypedRecords

def DecodeError.atRecord (record : Nat) : DecodeError → DecodeError
  | .schema e => .schema e
  | .coercion _ property field source => .coercion record property field source
  | .missing _ property field => .missing record property field
  | .hook _ source => .hook record source
  | .fetch _ property source => .fetch record property source

namespace DecodeError

theorem record?_atRecord {e : DecodeError} {n : Nat} (h : e.record? = some n) (record : Nat) :
    (e.atRecord record).record? = some record := by
  cases e with
  | schema e => cases h
  | _ => rfl

end DecodeError

/-! ## One record at any position -/

section
variable (options : Options) (record : Nat)

theorem received_atRecord (e : Entry R) (slot : Slot R) (answer : Answer) :
    received options record e slot answer =
      (received options 0 e slot answer).mapError (DecodeError.atRecord record) := by
  rcases answer with fault | _ | v
  · rfl
  · simp only [received]
    split
    · rfl
    · split <;> rfl
  · simp only [received]
    split <;> rfl

theorem fill_atRecord (e : Entry R) (slot : Slot R) (answer : Answer) (r : R) :
    fill options record e slot answer r =
      (fill options 0 e slot answer r).mapError (DecodeError.atRecord record) := by
  unfold fill
  rw [received_atRecord]
  cases received options 0 e slot answer with
  | error err => rfl
  | ok v? =>
    cases v? with
    | none => rfl
    | some v => cases h : slot.assign v r <;> simp [DecodeError.atRecord, h]

/-- The position of a record is only reported: it changes neither the record nor what is asked for. -/
theorem decodeEntries_atRecord (o : Object) (ps : List (Entry R × Slot R)) (r : R) :
    (decodeEntries options record ps r).result o =
        ((decodeEntries options 0 ps r).result o).mapError (DecodeError.atRecord record) ∧
      (decodeEntries options record ps r).log o = (decodeEntries options 0 ps r).log o := by
  induction ps generalizing r with
  | nil => exact ⟨rfl, rfl⟩
  | cons p ps ih =>
    obtain ⟨e, slot⟩ := p
    simp only [decodeEntries, Inquiry.result, Inquiry.log]
    rw [fill_atRecord]
    cases fill options 0 e slot (o e.property) r with
    | error err => exact ⟨rfl, rfl⟩
    | ok r₁ => exact ⟨(ih r₁).1, congrArg _ (ih r₁).2⟩

theorem received_error {e : Entry R} {slot : Slot R} {answer : Answer} {err : DecodeError}
    (h : received options record e slot answer = .error err) : err.record? = some record := by
  unfold received at h
  split at h
  · cases h; rfl
  · split at h
    · cases h
    · split at h
      · cases h
      · cases h; rfl
  · split at h <;> cases h

theorem fill_error {e : Entry R} {slot : Slot R} {answer : Answer} {r : R} {err : DecodeError}
    (h : fill options record e slot answer r = .error err) : err.record? = some record := by
  unfold fill at h
  split at h
  · rename_i hr
    cases h
    exact received_error options record hr
  · cases h
  · obtain ⟨source, _, rfl⟩ := mapError_eq_error.mp h
    rfl

theorem decodeEntries_error {o : Object} {ps : List (Entry R × Slot R)} {r : R} {err : DecodeError}
    (h : (decodeEntries options record ps r).result o = .error err) : err.record? = some record := by
  induction ps generalizing r with
  | nil => cases h
  | cons p ps ih =>
    simp only [decodeEntries, Inquiry.result] at h
    cases hf : fill options record p.1 p.2 (o p.1.property) r with
    | error err' =>
      rw [hf] at h
      cases h
      exact fill_error options record hf
    | ok r₁ =>
      rw [hf] at h
      exact ih h

namespace Route

theorem decodeRecord_atRecord (fresh : R) (route : Route R) (o : Object) :
    (route.decodeRecord options fresh record).result o =
        ((route.decodeRecord options fresh 0).result o).mapError (DecodeError.atRecord record) ∧
      (route.decodeRecord options fresh record).log o = (route.decodeRecord options fresh 0).log o := by
  cases route with
  | hook h =>
    simp only [decodeRecord, Inquiry.result_bind, Inquiry.log_bind, Inquiry.result, Inquiry.log, and_true]
    cases (h fresh).result o <;> rfl
  | fields schema => exact decodeEntries_atRecord options record o schema.decoded fresh

theorem decodeRecord_error {fresh : R} {route : Route R} {o : Object} {err : DecodeError}
    (h : (route.decodeRecord options fresh record).result o = .error err) : err.record? = some record := by
  cases route with
  | hook hook =>
    simp only [decodeRecord, Inquiry.result_bind, Inquiry.result] at h
    obtain ⟨source, _, rfl⟩ := mapError_eq_error.mp h
    rfl
  | fields schema => exact decodeEntries_error options record h

end Route
end

/-! ## Many records -/

section
variable (options : Options) (fresh : R) (route : Route R)

def Route.single (o : Object) : Decoded R := (route.decodeRecord options fresh 0).result o

def Route.asked (o : Object) : List String := (route.decodeRecord options fresh 0).log o

theorem decodeFrom_append (record : Nat) (before os : List Object) (rs : List R)
    (h : before.map (route.single options fresh) = rs.map .ok) :
    (decodeFrom options fresh route record (before ++ os)).result =
        (decodeFrom options fresh route (record + before.length) os).result.map (rs ++ ·) ∧
      (decodeFrom options fresh route record (before ++ os)).fetched =
        before.map (route.asked options fresh) ++
          (decodeFrom options fresh route (record + before.length) os).fetched := by
  induction before generalizing record rs with
  | nil =>
    have : rs = [] := by simpa using h.symm
    subst this
    refine ⟨?_, rfl⟩
    simp only [List.nil_append, List.length_nil, Nat.add_zero]
    cases (decodeFrom options fresh route record os).result <;> rfl
  | cons o before ih =>
    cases rs with
    | nil => cases h
    | cons r rs =>
      rw [List.map_cons, List.map_cons, List.cons.injEq] at h
      obtain ⟨ho, hb⟩ := h
      obtain ⟨hr, hl⟩ := route.decodeRecord_atRecord options record fresh o
      obtain ⟨ih₁, ih₂⟩ := ih (record + 1) rs hb
      have hk : record + 1 + before.length = record + (o :: before).length := by simp; omega
      rw [hk] at ih₁ ih₂
      have hd : (route.decodeRecord options fresh record).result o = .ok r := by
        rw [hr, show (route.decodeRecord options fresh 0).result o = .ok r from ho]
        rfl
      simp only [List.cons_append, decodeFrom, hd, ih₁, ih₂, hl, Route.asked, List.map_cons, and_true]
      cases (decodeFrom options fresh route (record + (o :: before).length) os).result <;> rfl

theorem decodeFrom_fail (record : Nat) (o : Object) (after : List Object) {e : DecodeError}
    (h : route.single options fresh o = .error e) :
    (decodeFrom options fresh route record (o :: after)).result = .error (e.atRecord record) ∧
      (decodeFrom options fresh route record (o :: after)).fetched =
        route.asked options fresh o :: after.map fun _ => [] := by
  obtain ⟨hr, hl⟩ := route.decodeRecord_atRecord options record fresh o
  have hd : (route.decodeRecord options fresh record).result o = .error (e.atRecord record) := by
    rw [hr, show (route.decodeRecord options fresh 0).result o = .error e from h]
    rfl
  simp only [decodeFrom, hd, hl, Route.asked]
  exact ⟨trivial, trivial⟩

theorem decodeFrom_eq_ok {record : Nat} {os : List Object} {rs : List R} :
    (decodeFrom options fresh route record os).result = .ok rs ↔
      os.map (route.single options fresh) = rs.map .ok := by
  refine ⟨?_, ?_⟩
  · intro h
    rcases all_ok_or_first_error (route.single options fresh) os with hall | ⟨before, o, after, e, rfl, hb, he⟩
    · obtain ⟨rs', hrs⟩ := (exists_map_ok _).mpr hall
      have hd := (decodeFrom_append options fresh route record os [] rs' hrs).1
      rw [List.append_nil, h] at hd
      simp only [decodeFrom, Except.map, List.append_nil, Except.ok.injEq] at hd
      rw [hrs, hd]
    · obtain ⟨rs', hrs⟩ := (exists_map_ok _).mpr hb
      rw [(decodeFrom_append options fresh route record before _ rs' hrs).1,
        (decodeFrom_fail options fresh route _ o after he).1] at h
      cases h
  · intro h
    have hd := (decodeFrom_append options fresh route record os [] rs h).1
    rw [List.append_nil] at hd
    rw [hd]
    simp [decodeFrom, Except.map]

theorem exists_of_decodeFrom_error {record : Nat} {os : List Object} {e : DecodeError}
    (h : (decodeFrom options fresh route record os).result = .error e) :
    ∃ n, record ≤ n ∧ ∃ o ∈ os, (route.decodeRecord options fresh n).result o = .error e := by
  induction os generalizing record with
  | nil => cases h
  | cons o os ih =>
    simp only [decodeFrom] at h
    cases hr : (route.decodeRecord options fresh record).result o with
    | error e' =>
      rw [hr] at h
      cases h
      exact ⟨record, Nat.le_refl _, o, List.mem_cons_self .., hr⟩
    | ok r =>
      rw [hr] at h
      obtain ⟨n, hn, o', ho', he⟩ := ih (map_eq_error.mp h)
      exact ⟨n, Nat.le_of_succ_le hn, o', List.mem_cons_of_mem _ ho', he⟩

end

/-! ## Sessions -/

theorem update_self (f : String → α) (key : String) : update f key (f key) = f := by
  funext k
  unfold update
  split
  · rename_i h
    rw [h]
  · rfl

namespace Session

variable (s : Session R) (key : String)

theorem session_resolve : (s.resolve key).session =
    match (s.resolve key).result with
    | .error _ => s
    | .ok schema => { s with schemas := update s.schemas key (some schema) } := by
  unfold resolve
  cases hc : s.schemas key with
  | some schema =>
    show s = { s with schemas := update s.schemas key (some schema) }
    rw [← hc, update_self]
  | none =>
    simp only
    generalize Schema.build _ _ = built
    cases built <;> rfl

theorem types_resolve : (s.resolve key).session.types = s.types := by
  rw [session_resolve]
  cases (s.resolve key).result <;> rfl

theorem options_resolve : (s.resolve key).session.options = s.options := by
  rw [session_resolve]
  cases (s.resolve key).result <;> rfl

theorem resolve_of_cached {schema : Schema R} (h : s.schemas key = some schema) :
    (s.resolve key).result = .ok schema := by
  simp only [resolve, h]

theorem resolve_resolve : ((s.resolve key).session.resolve key).result = (s.resolve key).result := by
  rw [session_resolve]
  cases h : (s.resolve key).result with
  | error e => exact h
  | ok schema => exact resolve_of_cached _ key (if_pos rfl)

theorem session_route : (s.route key).session = s ∨ (s.route key).session = (s.resolve key).session := by
  unfold route
  cases (s.types key).declaration with
  | fields decls => exact .inr rfl
  | selfDecoding hook => exact .inl rfl

theorem types_route : (s.route key).session.types = s.types := by
  rcases s.session_route key with h | h
  · rw [h]
  · rw [h, types_resolve]

theorem options_route : (s.route key).session.options = s.options := by
  rcases s.session_route key with h | h
  · rw [h]
  · rw [h, options_resolve]

theorem route_route : ((s.route key).session.route key).result = (s.route key).result := by
  have ht := s.types_route key
  cases hd : (s.types key).declaration with
  | selfDecoding hook => simp only [route, hd]
  | fields decls =>
    have hs : (s.route key).session = (s.resolve key).session := by simp only [route, hd]
    rw [hs] at ht ⊢
    simp only [route, ht, hd]
    rw [resolve_resolve]

theorem session_decodeOne (o : Object) : (s.decodeOne key o).session = (s.route key).session := by
  unfold decodeOne
  cases h : (s.route key).result <;> simp only [h]

variable {s key} {route : Route R}

theorem route_of_build {decls : List (FieldDecl R)} {schema : Schema R}
    (hdecl : (s.types key).declaration = .fields decls) (hb : Schema.build (s.types key).name decls = .ok schema)
    (hcache : ∀ cached, s.schemas key = some cached → cached = schema) :
    (s.route key).result = .ok (.fields schema) := by
  have hres : (s.resolve key).result = .ok schema := by
    cases hc : s.schemas key with
    | some cached => rw [resolve_of_cached s key hc, hcache cached hc]
    | none => simp only [resolve, hc, hdecl, hb]
  simp only [route, hdecl, hres]
  rfl

theorem decodeOne_of_route (hr : (s.route key).result = .ok route) (o : Object) :
    (s.decodeOne key o).result =
      ⟨route.single s.options (s.types key).fresh o, [route.asked s.options (s.types key).fresh o]⟩ := by
  simp only [decodeOne, hr]
  rfl

theorem decode_of_route (hr : (s.route key).result = .ok route) (os : List Object) :
    (s.decode key os).result =
      ⟨(decodeFrom s.options (s.types key).fresh route 0 os).result,
        (decodeFrom s.options (s.types key).fresh route 0 os).fetched⟩ := by
  simp only [decode, hr]
  rfl

theorem decodeOne_decodeOne (hr : (s.route key).result = .ok route) (o o' : Object) :
    ((s.decodeOne key o).session.decodeOne key o').result = (s.decodeOne key o').result := by
  have hr' : ((s.route key).session.route key).result = .ok route := (s.route_route key).trans hr
  rw [session_decodeOne, decodeOne_of_route hr', decodeOne_of_route hr, types_route, options_route]

/-- Decoding a list is decoding its objects one by one, from any session in which the type has a route. The
last part says that the single decodings may also follow each other. -/
theorem decode_eq_decodeOne (hr : (s.route key).result = .ok route) (os : List Object) :
    (∀ rs, (s.decode key os).result.result = .ok rs ↔
      os.map (fun o => (s.decodeOne key o).result.result) = rs.map .ok) ∧
    ((∃ rs, (s.decode key os).result.result = .ok rs) ↔
      ∀ o ∈ os, ∃ r, (s.decodeOne key o).result.result = .ok r) ∧
    (∀ before o after e, os = before ++ o :: after →
      (∀ o' ∈ before, ∃ r, (s.decodeOne key o').result.result = .ok r) →
      (s.decodeOne key o).result.result = .error e →
        e.record? = some 0 ∧
        (s.decode key os).result.result = .error (e.atRecord before.length) ∧
        (e.atRecord before.length).record? = some before.length ∧
        (s.decode key os).result.fetched =
          (before ++ [o]).flatMap (fun o' => (s.decodeOne key o').result.fetched) ++ after.map fun _ => []) ∧
    ∀ o o', ((s.decodeOne key o).session.decodeOne key o').result = (s.decodeOne key o').result := by
  have hone : ∀ o, (s.decodeOne key o).result.result = route.single s.options (s.types key).fresh o := fun o => by
    rw [decodeOne_of_route hr]
  have hasked : ∀ o, (s.decodeOne key o).result.fetched = [route.asked s.options (s.types key).fresh o] := fun o => by
    rw [decodeOne_of_route hr]
  simp only [hone, hasked, decode_of_route hr]
  refine ⟨fun rs => decodeFrom_eq_ok .., ?_, ?_, decodeOne_decodeOne hr⟩
  · simp only [decodeFrom_eq_ok]
    exact exists_map_ok _
  intro before o after e hos hb he
  subst hos
  obtain ⟨rs, hrs⟩ := (exists_map_ok _).mpr hb
  have hz : e.record? = some 0 := Route.decodeRecord_error s.options 0 he
  obtain ⟨hres, hlog⟩ := decodeFrom_append s.options (s.types key).fresh route 0 before (o :: after) rs hrs
  obtain ⟨hres', hlog'⟩ := decodeFrom_fail s.options (s.types key).fresh route (0 + before.length) o after he
  rw [Nat.zero_add] at hres hlog hres' hlog'
  refine ⟨hz, by rw [hres, hres']; rfl, DecodeError.record?_atRecord hz _, ?_⟩
  rw [hlog, hlog', ← List.map_eq_flatMap, List.map_append]
  simp

theorem decode_eq_decodeOne_levels :
    let level : RecordType Int :=
      ⟨"Level", 0, .fields [.typed "level" (.int (.fixed .u8)) fun x _ => x.val]⟩
    let s := Session.start (fun _ => level) .strict
    let full := (Bag.ofList [("LEVEL", .int .u8 ⟨5, by decide⟩)]).object
    (s.decodeOne "Level" full).result.result = .ok 5 ∧
    (s.decodeOne "Level" Bag.empty.object).result.result = .error (.missing 0 "level" "level") ∧
    (s.decode "Level" [full, Bag.empty.object, full]).result.result = .error (.missing 1 "level" "level") ∧
    (s.decode "Level" [full, Bag.empty.object, full]).result.fetched = [["level"], ["level"], []] := by
  intro level s full
  have hr : (s.route "Level").result =
      .ok (.fields ⟨"Level", [⟨"level", "level", false, some (.typed (.int (.fixed .u8)) fun x _ => x.val)⟩]⟩) := rfl
  have hf : (s.decodeOne "Level" full).result.result = .ok 5 := rfl
  have he : (s.decodeOne "Level" Bag.empty.object).result.result = .error (.missing 0 "level" "level") := rfl
  obtain ⟨-, hd, -, hl⟩ := (decode_eq_decodeOne hr [full, Bag.empty.object, full]).2.2.1
    [full] Bag.empty.object [full] _ rfl (by simpa using ⟨5, hf⟩) he
  exact ⟨hf, he, hd, hl⟩

end Session

end TypedRecords
