import TypedRecords.Proofs.Caching
import TypedRecords.Proofs.Leniency

/-!
# Requests for properties

Decoding by a schema asks each object for the properties of the entries that are not skipped, one after the other.
An object that decodes is asked for all of them, the object that fails up to the property of the error, and the
objects after it for none. Without a schema no object is asked for anything.
-/

namespace TypedRecords

def Schema.wanted (s : Schema R) : List String := (s.entries.filter fun e => !e.skip).map (·.property)

theorem Schema.mem_wanted {s : Schema R} {p : String} :
    p ∈ s.wanted ↔ ∃ e ∈ s.entries, e.skip = false ∧ e.property = p := by
  simp [wanted, and_assoc]

namespace DecodeError

def property? : DecodeError → Option String
  | .coercion _ property _ _ | .missing _ property _ | .fetch _ property _ => some property
  | .schema _ | .hook .. => none

theorem property?_atRecord (e : DecodeError) (record : Nat) : (e.atRecord record).property? = e.property? := by
  cases e <;> rfl

end DecodeError

theorem property?_of_names {record : Nat} {e : Entry R} {err : DecodeError} (h : e.Names record err) :
    err.property? = some e.property := by
  cases err with
  | coercion n property field source | missing n property field =>
    obtain ⟨-, rfl, -⟩ := h
    rfl
  | fetch n property source =>
    obtain ⟨-, rfl⟩ := h
    rfl
  | schema source | hook n source => cases h

/-! ## One record -/

section
variable {options : Options} {record : Nat} {o : Object}

theorem log_decodeEntries_ok {ps : List (Entry R × Slot R)} {r r' : R}
    (h : (decodeEntries options record ps r).result o = .ok r') :
    (decodeEntries options record ps r).log o = ps.map (·.1.property) := by
  induction ps generalizing r with
  | nil => rfl
  | cons p ps ih =>
    simp only [decodeEntries, Inquiry.result, Inquiry.log, List.map_cons] at h ⊢
    cases hf : fill options record p.1 p.2 (o p.1.property) r with
    | error err =>
      rw [hf] at h
      cases h
    | ok r₁ =>
      rw [hf] at h
      exact congrArg _ (ih h)

/-- The last request of a decoding that fails is for the property of the error. -/
theorem log_decodeEntries_error {ps : List (Entry R × Slot R)} {r : R} {err : DecodeError}
    (h : (decodeEntries options record ps r).result o = .error err) :
    ∃ before p after, ps = before ++ p :: after ∧ p.1.Names record err ∧
      (decodeEntries options record ps r).log o = before.map (·.1.property) ++ [p.1.property] := by
  induction ps generalizing r with
  | nil => cases h
  | cons p ps ih =>
    simp only [decodeEntries, Inquiry.result, Inquiry.log] at h ⊢
    cases hf : fill options record p.1 p.2 (o p.1.property) r with
    | error err' =>
      rw [hf] at h
      cases h
      exact ⟨[], p, ps, rfl, fill_names hf, rfl⟩
    | ok r₁ =>
      rw [hf] at h
      obtain ⟨before, q, after, rfl, hn, hl⟩ := ih h
      exact ⟨p :: before, q, after, rfl, hn, congrArg _ hl⟩

end

/-! ## Built schemas -/

theorem map_decodedOf {es : List (Entry R)} (hk : ∀ e ∈ es, e.skip = false → e.slot ≠ none) :
    (decodedOf es).map (·.1) = es.filter fun e => !e.skip := by
  induction es with
  | nil => rfl
  | cons e es ih =>
    rw [List.forall_mem_cons] at hk
    cases hd : e.decoded? with
    | none =>
      have hs := skip_of_decoded?_eq_none hk.1 hd
      rw [decodedOf_cons_none hd, ih hk.2]
      simp [hs]
    | some slot =>
      have hs := (decoded?_eq_some.mp hd).1
      rw [decodedOf_cons_some hd, List.map_cons, ih hk.2]
      simp [hs]

namespace Schema

variable {typeName : String} {decls : List (FieldDecl R)} {s : Schema R} (hb : build typeName decls = .ok s)
include hb

theorem map_decoded : s.decoded.map (·.1.property) = s.wanted := by
  have h := congrArg (List.map (·.property)) (map_decodedOf (slot_ne_none hb))
  rw [List.map_map] at h
  exact h

theorem pairwise_wanted : s.wanted.Pairwise fun p p' => caseless p p' = false :=
  List.pairwise_map.mpr ((pairwise_properties hb).filter _)

theorem nodup_wanted : s.wanted.Nodup := by
  refine (pairwise_wanted hb).imp ?_
  rintro p _ hne rfl
  rw [caseless_refl] at hne
  cases hne

theorem caseless_of_mem_wanted {p : String} (hp : p ∈ s.wanted) {e : Entry R} (he : e ∈ s.entries)
    (hs : e.skip = true) : caseless p e.property = false := by
  obtain ⟨e', hmem, hs', rfl⟩ := mem_wanted.mp hp
  by_contra hne
  rw [Bool.not_eq_false] at hne
  rw [eq_of_caseless hb hmem he hne, hs] at hs'
  cases hs'

end Schema

section
variable {typeName : String} {decls : List (FieldDecl R)} {schema : Schema R}
  (hb : Schema.build typeName decls = .ok schema) {options : Options} {fresh : R} {o : Object}
include hb

theorem prefix_log_decodeRecord {record : Nat} :
    ((Route.fields schema).decodeRecord options fresh record).log o <+: schema.wanted := by
  rw [← Schema.map_decoded hb]
  show (decodeEntries options record schema.decoded fresh).log o <+: _
  cases h : (decodeEntries options record schema.decoded fresh).result o with
  | ok r => exact log_decodeEntries_ok h ▸ List.prefix_rfl
  | error err =>
    obtain ⟨before, p, after, hps, -, hl⟩ := log_decodeEntries_error h
    rw [hl, hps]
    exact ⟨after.map (·.1.property), by simp⟩

theorem asked_of_ok {r : R} (h : (Route.fields schema).single options fresh o = .ok r) :
    (Route.fields schema).asked options fresh o = schema.wanted :=
  (log_decodeEntries_ok h).trans (Schema.map_decoded hb)

theorem asked_of_error {err : DecodeError} (h : (Route.fields schema).single options fresh o = .error err) :
    (Route.fields schema).asked options fresh o <+: schema.wanted ∧
      ∃ p, err.property? = some p ∧ ((Route.fields schema).asked options fresh o).getLast? = some p := by
  refine ⟨prefix_log_decodeRecord hb, ?_⟩
  obtain ⟨before, p, after, -, hn, hl⟩ := log_decodeEntries_error h
  have hasked : (Route.fields schema).asked options fresh o = before.map (·.1.property) ++ [p.1.property] := hl
  exact ⟨p.1.property, property?_of_names hn, hasked ▸ List.getLast?_concat ..⟩

/-! ## Many records -/

theorem map_asked {os : List Object} (hok : ∀ o ∈ os, ∃ r, (Route.fields schema).single options fresh o = .ok r) :
    os.map ((Route.fields schema).asked options fresh) = os.map fun _ => schema.wanted := by
  refine List.map_congr_left ?_
  intro o ho
  obtain ⟨r, hr⟩ := hok o ho
  exact asked_of_ok hb hr

theorem fetched_of_ok {os : List Object} {rs : List R}
    (h : (decodeFrom options fresh (.fields schema) 0 os).result = .ok rs) :
    (decodeFrom options fresh (.fields schema) 0 os).fetched = os.map fun _ => schema.wanted := by
  have hall := (decodeFrom_eq_ok options fresh (.fields schema)).mp h
  have hl := (decodeFrom_append options fresh (.fields schema) 0 os [] rs hall).2
  rw [List.append_nil] at hl
  rw [hl]
  simp only [decodeFrom, List.append_nil]
  exact map_asked hb ((exists_map_ok _).mp ⟨rs, hall⟩)

theorem fetched_of_error {os : List Object} {err : DecodeError}
    (h : (decodeFrom options fresh (.fields schema) 0 os).result = .error err) :
    ∃ before o after, os = before ++ o :: after ∧ err.record? = some before.length ∧
      ∃ asked, asked <+: schema.wanted ∧ (∃ p, err.property? = some p ∧ asked.getLast? = some p) ∧
        (decodeFrom options fresh (.fields schema) 0 os).fetched =
          (before.map fun _ => schema.wanted) ++ asked :: after.map fun _ => [] := by
  rcases all_ok_or_first_error ((Route.fields schema).single options fresh) os with
    hall | ⟨before, o, after, e, rfl, hok, he⟩
  · obtain ⟨rs, hrs⟩ := (exists_map_ok _).mpr hall
    rw [(decodeFrom_eq_ok options fresh (.fields schema)).mpr hrs] at h
    cases h
  · obtain ⟨rs, hrs⟩ := (exists_map_ok _).mpr hok
    obtain ⟨hres, hlog⟩ := decodeFrom_append options fresh (.fields schema) 0 before (o :: after) rs hrs
    obtain ⟨hres', hlog'⟩ := decodeFrom_fail options fresh (.fields schema) (0 + before.length) o after he
    rw [Nat.zero_add] at hres hlog hres' hlog'
    rw [hres, hres'] at h
    cases h
    obtain ⟨hpre, p, hp, hlast⟩ := asked_of_error hb he
    refine ⟨before, o, after, rfl, DecodeError.record?_atRecord (Route.decodeRecord_error options 0 he) _,
      _, hpre, ⟨p, (DecodeError.property?_atRecord e _).trans hp, hlast⟩, ?_⟩
    rw [hlog, hlog', map_asked hb hok]

theorem prefix_of_mem_fetched {os : List Object} {asked : List String}
    (h : asked ∈ (decodeFrom options fresh (.fields schema) 0 os).fetched) : asked <+: schema.wanted := by
  cases hr : (decodeFrom options fresh (.fields schema) 0 os).result with
  | ok rs =>
    rw [fetched_of_ok hb hr] at h
    obtain ⟨o, -, rfl⟩ := List.mem_map.mp h
    exact List.prefix_rfl
  | error err =>
    obtain ⟨before, o, after, -, -, last, hpre, -, hl⟩ := fetched_of_error hb hr
    rw [hl, List.mem_append, List.mem_cons] at h
    rcases h with h | rfl | h
    · obtain ⟨o', -, rfl⟩ := List.mem_map.mp h
      exact List.prefix_rfl
    · exact hpre
    · obtain ⟨o', -, rfl⟩ := List.mem_map.mp h
      exact List.nil_prefix

end

/-! ## Sessions -/

namespace Session

/-- A session that some commands lead to from one that has resolved nothing. -/
def Reachable (s : Session R) : Prop :=
  ∃ (types : String → RecordType R) (options : Options) (cs : List (Command R)), s = (start types options).after cs

variable {s : Session R} {key : String}

theorem Reachable.build (h : s.Reachable) {schema : Schema R} (hr : (s.resolve key).result = .ok schema) :
    ∃ name decls, Schema.build name decls = .ok schema := by
  obtain ⟨types, options, cs, rfl⟩ := h
  -- a schema that is kept was built by one of the commands, from what was declared then
  rcases resolve_eq_ok.mp hr with hkept | ⟨-, hbuilt⟩
  · obtain ⟨before, c, rest, -, -, -, hbuilt⟩ := kept_iff.mp hkept
    exact ⟨_, _, hbuilt⟩
  · exact ⟨_, _, hbuilt⟩

/-- What is asked of each object, for a type declared by its fields in any session that can come about. -/
theorem fetched_in_order (hs : s.Reachable) {decls : List (FieldDecl R)}
    (hd : (s.types key).declaration = .fields decls) (os : List Object) :
    let out := (s.decode key os).result
    (∀ e, (s.resolve key).result = .error e →
      out.result = .error (.schema e) ∧ out.fetched = os.map fun _ => []) ∧
    ∀ schema, (s.resolve key).result = .ok schema →
      schema.wanted.Nodup ∧
      (∀ rs, out.result = .ok rs → out.fetched = os.map fun _ => schema.wanted) ∧
      (∀ err, out.result = .error err →
        ∃ before o after, os = before ++ o :: after ∧ err.record? = some before.length ∧
          ∃ asked, asked <+: schema.wanted ∧ (∃ p, err.property? = some p ∧ asked.getLast? = some p) ∧
            out.fetched = (before.map fun _ => schema.wanted) ++ asked :: after.map fun _ => []) ∧
      ∀ asked ∈ out.fetched, ∀ p ∈ asked, ∀ e ∈ schema.entries, e.skip = true → caseless p e.property = false := by
  intro out
  have hroute := (route_of_fields hd).1
  refine ⟨?_, ?_⟩
  · intro e he
    rw [he] at hroute
    have hnone : out = ⟨.error (.schema e), os.map fun _ => []⟩ := by
      simp only [out, decode, hroute]
      rfl
    exact ⟨congrArg Fetched.result hnone, congrArg Fetched.fetched hnone⟩
  intro schema hschema
  rw [hschema] at hroute
  obtain ⟨name, built, hb⟩ := hs.build hschema
  have hout : out = _ := decode_of_route hroute os
  refine ⟨Schema.nodup_wanted hb, ?_, ?_, ?_⟩
  · intro rs h
    rw [hout] at h ⊢
    exact fetched_of_ok hb h
  · intro err h
    rw [hout] at h ⊢
    exact fetched_of_error hb h
  · intro asked hasked p hp e he hskip
    rw [hout] at hasked
    exact Schema.caseless_of_mem_wanted hb ((prefix_of_mem_fetched hb hasked).mem hp) he hskip

theorem fetched_in_order_lamps :
    let lamp : RecordType (Int × String) := ⟨"Lamp", (0, ""), .fields
      [.typed "level" Catalog.u8 fun x r => (x.val, r.2),
        (FieldDecl.typed "shade" Catalog.u8 fun _ r => r).addDirective "skip",
        (FieldDecl.typed "name" .string fun x r => (r.1, x)).rename "Name", .typed "power" .bool fun _ r => r]⟩
    let s := (start (fun _ => lamp) .strict).after [.isCached "L", .resolve "L"]
    let full := (Bag.ofList [("LEVEL", .int .u8 ⟨5, by decide⟩), ("name", .string "a"), ("Power", .bool true)]).object
    let dim := (Bag.ofList [("level", .int .u8 ⟨1, by decide⟩), ("Name", .null)]).object
    let out := (s.decode "L" [full, dim, full]).result
    out.result = .error (.coercion 1 "Name" "name" (.mismatch ⟨"null"⟩ ⟨"string"⟩)) ∧
    (∃ asked, asked <+: ["level", "Name", "power"] ∧ asked.getLast? = some "Name" ∧
      out.fetched = [["level", "Name", "power"], asked, []]) ∧
    ∀ asked ∈ out.fetched, ∀ p ∈ asked, caseless p "Shade" = false := by
  intro lamp s full dim out
  have hs : s.Reachable := ⟨fun _ => lamp, .strict, [.isCached "L", .resolve "L"], rfl⟩
  have herror : out.result = .error (.coercion 1 "Name" "name" (.mismatch ⟨"null"⟩ ⟨"string"⟩)) := rfl
  have hfields : (s.types "L").declaration = lamp.declaration := rfl
  obtain ⟨-, hresolved⟩ := fetched_in_order hs hfields [full, dim, full]
  obtain ⟨-, -, hfailed, hskipped⟩ := hresolved _ rfl
  obtain ⟨before, o, after, hos, hrecord, asked, hpre, ⟨p, hp, hlast⟩, hfetched⟩ := hfailed _ herror
  cases hp
  have hos : [full] ++ [dim, full] = before ++ o :: after := hos
  obtain ⟨rfl, htail⟩ := List.append_inj hos (Option.some.inj hrecord)
  cases htail
  refine ⟨herror, ⟨asked, hpre, hlast, hfetched⟩, ?_⟩
  intro asked' hasked p hp
  exact hskipped asked' hasked p hp _ (List.mem_cons_of_mem _ (List.mem_cons_self ..)) rfl

end Session

end TypedRecords
