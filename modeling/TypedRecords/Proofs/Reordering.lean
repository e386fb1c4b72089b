import TypedRecords.Proofs.Fieldwise

/-!
# Declarations in another order

The order of declarations decides which error is reported and nothing else. A list builds if any reordering of it does,
with the same entries; and when each slot writes no field but its own, an object is decoded to the same fields.
-/

namespace TypedRecords

/-! ## Schemas -/

namespace Schema

variable {typeName : String} {decls decls' : List (FieldDecl R)}

theorem Acceptable.perm (hp : decls.Perm decls') (h : Acceptable decls) : Acceptable decls' where
  usable d hd := h.usable d (hp.mem_iff.mpr hd)
  fields := (hp.map _).nodup_iff.mp h.fields
  properties := h.properties.perm hp fun hne => caseless_comm .. ▸ hne

theorem exists_build_of_perm (hp : decls.Perm decls') {s : Schema R} (hb : build typeName decls = .ok s) :
    ∃ s', build typeName decls' = .ok s' :=
  ⟨_, build_eq_ok.mpr ⟨(build_eq_ok.mp hb).1.perm hp, rfl⟩⟩

section
variable {s s' : Schema R} (hp : decls.Perm decls') (hb : build typeName decls = .ok s)
  (hb' : build typeName decls' = .ok s')
include hp hb hb'

theorem perm_entries : s.entries.Perm s'.entries := by
  obtain ⟨-, rfl⟩ := build_eq_ok.mp hb
  obtain ⟨-, rfl⟩ := build_eq_ok.mp hb'
  exact hp.map _

theorem lookup?_of_perm (p : String) : s.lookup? p = s'.lookup? p := by
  apply Option.ext
  intro e
  rw [lookup?_eq_some (pairwise_properties hb), lookup?_eq_some (pairwise_properties hb'),
    (perm_entries hp hb hb').mem_iff]

end

end Schema

/-! ## Slots that keep to one field -/

/-- A slot that writes one field, as `get` reads it, and no other. Whether it fails, and what it writes, depends on the
value and on what the field holds. -/
structure Slot.Local {Val : String → Type} (slot : Slot R) (get : (field : String) → R → Val field) (field : String) :
    Prop where
  own : ∀ v r r', get field r = get field r' → (slot.assign v r).map (get field) = (slot.assign v r').map (get field)
  leaves : ∀ g, g ≠ field → slot.Leaves (get g)

theorem Slot.Stores.own {slot : Slot R} {get : R → α} {coerce : Value → Coerced α} (h : slot.Stores get coerce)
    (v : Value) (r : R) : (slot.assign v r).map get = coerce v := by
  cases hc : coerce v with
  | error e => rw [h.error v r e hc]; rfl
  | ok x =>
    obtain ⟨r', hr', hx⟩ := h.ok v r x hc
    rw [hr', ← hx]
    rfl

section
variable {Val : String → Type} {get : (field : String) → R → Val field} {options : Options} {record : Nat}
  {o : Object}

/-- What an entry makes of its own field, as the only one that is filled. -/
def alone (get : (field : String) → R → Val field) (options : Options) (record : Nat) (o : Object) (r : R)
    (p : Entry R × Slot R) : Decoded (Val p.1.field) :=
  (fill options record p.1 p.2 (o p.1.property) r).map (get p.1.field)

theorem alone_congr {p : Entry R × Slot R} (hl : p.2.Local get p.1.field) {r r' : R}
    (h : get p.1.field r = get p.1.field r') : alone get options record o r p = alone get options record o r' p := by
  unfold alone fill
  cases received options record p.1 p.2 (o p.1.property) with
  | error err => rfl
  | ok v? =>
    cases v? with
    | none => exact congrArg Except.ok h
    | some v => simp only [map_mapError, hl.own v r r' h]

section
variable {ps : List (Entry R × Slot R)} (hn : (ps.map (·.1.field)).Nodup) (hl : ∀ p ∈ ps, p.2.Local get p.1.field)
include hn hl

theorem alone_of_decodeEntries {r r' : R} (h : (decodeEntries options record ps r).result o = .ok r') :
    ∀ p ∈ ps, alone get options record o r p = .ok (get p.1.field r') := by
  induction ps generalizing r with
  | nil => exact nofun
  | cons p ps ih =>
    rw [List.map_cons, List.nodup_cons] at hn
    rw [List.forall_mem_cons] at hl ⊢
    have hne : ∀ q ∈ ps, q.1.field ≠ p.1.field := fun q hq he => hn.1 (he ▸ List.mem_map_of_mem hq)
    simp only [decodeEntries, Inquiry.result] at h
    cases hf : fill options record p.1 p.2 (o p.1.property) r with
    | error err =>
      rw [hf] at h
      cases h
    | ok r₁ =>
      rw [hf] at h
      -- the entries after `p` leave its field, and `p` leaves theirs
      refine ⟨?_, ?_⟩
      · have hkeep : get p.1.field r' = get p.1.field r₁ :=
          decodeEntries_leaves (fun q hq => (hl.2 q hq).leaves _ (hne q hq).symm) h
        rw [alone, hf, hkeep]
        rfl
      · intro q hq
        rw [← ih hn.2 hl.2 h q hq]
        exact alone_congr (hl.2 q hq) (fill_leaves (hl.1.leaves _ (hne q hq)) hf).symm

theorem exists_decodeEntries_of_alone {r : R} (h : ∀ p ∈ ps, ∃ x, alone get options record o r p = .ok x) :
    ∃ r', (decodeEntries options record ps r).result o = .ok r' := by
  induction ps generalizing r with
  | nil => exact ⟨r, rfl⟩
  | cons p ps ih =>
    rw [List.map_cons, List.nodup_cons] at hn
    rw [List.forall_mem_cons] at hl h
    have hne : ∀ q ∈ ps, q.1.field ≠ p.1.field := fun q hq he => hn.1 (he ▸ List.mem_map_of_mem hq)
    obtain ⟨x, hx⟩ := h.1
    obtain ⟨r₁, hf, -⟩ := map_eq_ok.mp hx
    simp only [decodeEntries, Inquiry.result, hf]
    refine ih hn.2 hl.2 ?_
    intro q hq
    rw [alone_congr (hl.2 q hq) (fill_leaves (hl.1.leaves _ (hne q hq)) hf)]
    exact h.2 q hq

end

theorem decodeEntries_perm {ps ps' : List (Entry R × Slot R)} (hp : ps.Perm ps') (hn : (ps.map (·.1.field)).Nodup)
    (hl : ∀ p ∈ ps, p.2.Local get p.1.field) {r r₁ : R} (h : (decodeEntries options record ps r).result o = .ok r₁) :
    ∃ r₂, (decodeEntries options record ps' r).result o = .ok r₂ ∧ ∀ field, get field r₁ = get field r₂ := by
  have hn' : (ps'.map (·.1.field)).Nodup := (hp.map _).nodup_iff.mp hn
  have hl' : ∀ p ∈ ps', p.2.Local get p.1.field := fun p hp' => hl p (hp.mem_iff.mpr hp')
  have halone := alone_of_decodeEntries hn hl h
  obtain ⟨r₂, h₂⟩ : ∃ r₂, (decodeEntries options record ps' r).result o = .ok r₂ :=
    exists_decodeEntries_of_alone hn' hl' fun p hp' => ⟨_, halone p (hp.mem_iff.mpr hp')⟩
  refine ⟨r₂, h₂, ?_⟩
  intro field
  by_cases hf : ∃ p ∈ ps, p.1.field = field
  · obtain ⟨p, hp₁, rfl⟩ := hf
    have h₂' := alone_of_decodeEntries hn' hl' h₂ p (hp.mem_iff.mp hp₁)
    rw [halone p hp₁] at h₂'
    exact Except.ok.inj h₂'
  · have hne : ∀ p ∈ ps, field ≠ p.1.field := fun p hp' he => hf ⟨p, hp', he.symm⟩
    have hkeep : get field r₁ = get field r := decodeEntries_leaves (fun p hp' => (hl p hp').leaves _ (hne p hp')) h
    have hkeep' : get field r₂ = get field r :=
      decodeEntries_leaves (fun p hp' => (hl' p hp').leaves _ (hne p (hp.mem_iff.mpr hp'))) h₂
    rw [hkeep, hkeep']

end

/-! ## Records -/

theorem nodup_decoded {typeName : String} {decls : List (FieldDecl R)} {s : Schema R}
    (hb : Schema.build typeName decls = .ok s) : (s.decoded.map (·.1.field)).Nodup := by
  have h := ((decodedOf_sublist s.entries).map (·.field)).nodup (Schema.nodup_fields hb)
  rwa [List.map_map] at h

theorem local_of_mem_decoded {Val : String → Type} {get : (field : String) → R → Val field} {typeName : String}
    {decls : List (FieldDecl R)} {s : Schema R} (hb : Schema.build typeName decls = .ok s)
    (hl : ∀ d ∈ decls, ∀ slot, d.slot = some slot → slot.Local get d.field) :
    ∀ p ∈ s.decoded, p.2.Local get p.1.field := by
  obtain ⟨-, rfl⟩ := Schema.build_eq_ok.mp hb
  intro p hp
  obtain ⟨he, hd⟩ := mem_decodedOf.mp hp
  obtain ⟨d, hd', he⟩ := List.mem_map.mp he
  rw [← he] at hd ⊢
  exact hl d hd' p.2 (decoded?_eq_some.mp hd).2

theorem decodeRecord_perm {Val : String → Type} {get : (field : String) → R → Val field} {typeName : String}
    {decls decls' : List (FieldDecl R)} (hp : decls.Perm decls') {s s' : Schema R}
    (hb : Schema.build typeName decls = .ok s) (hb' : Schema.build typeName decls' = .ok s')
    (hl : ∀ d ∈ decls, ∀ slot, d.slot = some slot → slot.Local get d.field) {options : Options} {fresh r : R}
    {record : Nat} {o : Object} (h : ((Route.fields s).decodeRecord options fresh record).result o = .ok r) :
    ∃ r', ((Route.fields s').decodeRecord options fresh record).result o = .ok r' ∧
      ∀ field, get field r = get field r' :=
  decodeEntries_perm ((Schema.perm_entries hp hb hb').filterMap _) (nodup_decoded hb) (local_of_mem_decoded hb hl) h

theorem local_table [CustomTypes] (field : String) (τ : Target) (optional : Option Bool) :
    (FieldSpec.slot field τ optional).Local (fun g r => r.get? g) field where
  own v r r' _ := by rw [(slot_stores field τ optional).own, (slot_stores field τ optional).own]
  leaves _ hg := slot_leaves hg τ optional

/-- A list of declarations builds if a reordering of it does. Each entry then stands where its declaration does, and
every property finds the same entry. When each slot keeps to its own field, an object is decoded by both schemas or by
neither, with the same value in every field. -/
theorem Schema.build_reordered {typeName : String} {decls decls' : List (FieldDecl R)} (hp : decls.Perm decls') :
    ((∃ s, build typeName decls = .ok s) ↔ ∃ s', build typeName decls' = .ok s') ∧
    ∀ s s', build typeName decls = .ok s → build typeName decls' = .ok s' →
      (s.entries.Perm s'.entries ∧ ∀ i j : Nat, decls[i]? = decls'[j]? → s.entries[i]? = s'.entries[j]?) ∧
      (∀ p, s.lookup? p = s'.lookup? p) ∧
      ∀ {Val : String → Type} (get : (field : String) → R → Val field),
        (∀ d ∈ decls, ∀ slot, d.slot = some slot → slot.Local get d.field) →
        ∀ (options : Options) (fresh : R) (record : Nat) (o : Object),
          ((∃ r, ((Route.fields s).decodeRecord options fresh record).result o = .ok r) ↔
            ∃ r', ((Route.fields s').decodeRecord options fresh record).result o = .ok r') ∧
          ∀ r r', ((Route.fields s).decodeRecord options fresh record).result o = .ok r →
            ((Route.fields s').decodeRecord options fresh record).result o = .ok r' →
              ∀ field, get field r = get field r' := by
  refine ⟨⟨fun ⟨_, h⟩ => exists_build_of_perm hp h, fun ⟨_, h⟩ => exists_build_of_perm hp.symm h⟩, ?_⟩
  intro s s' hb hb'
  refine ⟨⟨perm_entries hp hb hb', ?_⟩, lookup?_of_perm hp hb hb', ?_⟩
  · intro i j hij
    obtain ⟨-, rfl⟩ := build_eq_ok.mp hb
    obtain ⟨-, rfl⟩ := build_eq_ok.mp hb'
    rw [List.getElem?_map, List.getElem?_map, hij]
  intro Val get hl options fresh record o
  have hl' : ∀ d ∈ decls', ∀ slot, d.slot = some slot → slot.Local get d.field := fun d hd =>
    hl d (hp.mem_iff.mpr hd)
  refine ⟨⟨?_, ?_⟩, ?_⟩
  · intro h
    obtain ⟨r, hr⟩ := h
    obtain ⟨r', hr', -⟩ := decodeRecord_perm hp hb hb' hl hr
    exact ⟨r', hr'⟩
  · intro h
    obtain ⟨r', hr'⟩ := h
    obtain ⟨r, hr, -⟩ := decodeRecord_perm hp.symm hb' hb hl' hr'
    exact ⟨r, hr⟩
  · intro r r' hr hr' field
    obtain ⟨r₂, hr₂, hsame⟩ := decodeRecord_perm hp hb hb' hl hr
    rw [hr'] at hr₂
    cases hr₂
    exact hsame field

theorem Schema.build_reordered_manual :
    let pid := (Catalog.renamed "ProcessId" (Catalog.field "pid" Catalog.u32)).decl
    let label := (Catalog.renamed "Caption" (Catalog.field "label" (.option .string))).decl
    let b := Bag.ofList [("shadow", .bool true), ("PROCESSID", .int .u8 ⟨4, by decide⟩)]
    ∃ s s' r r', build "Manual" [pid, label, .skipped "shadow"] = .ok s ∧
      build "Manual" [.skipped "shadow", pid, label] = .ok s' ∧ s.lookup? "processid" = s'.lookup? "processid" ∧
      ((Route.fields s).decodeRecord .strict .empty 0).result b.object = .ok r ∧
      ((Route.fields s').decodeRecord .strict .empty 0).result b.object = .ok r' ∧
      r.get? "pid" = r'.get? "pid" ∧ r.get? "label" = r'.get? "label" := by
  intro pid label b
  have hp : ([pid, label] ++ FieldDecl.skipped "shadow" :: []).Perm (.skipped "shadow" :: ([pid, label] ++ [])) :=
    List.perm_middle
  have hb : build "Manual" [pid, label, .skipped "shadow"] =
      .ok ⟨"Manual", [⟨"ProcessId", "pid", false, some (FieldSpec.slot "pid" Catalog.u32 none)⟩,
        ⟨"Caption", "label", false, some (FieldSpec.slot "label" (.option .string) none)⟩,
        ⟨"shadow", "shadow", true, none⟩]⟩ := by
    unfold pid label
    rfl
  obtain ⟨s', hb'⟩ := (build_reordered hp).1.mp ⟨_, hb⟩
  obtain ⟨-, hlookup, hdecode⟩ := (build_reordered hp).2 _ _ hb hb'
  have hl : ∀ d ∈ [pid, label, .skipped "shadow"], ∀ slot, d.slot = some slot →
      slot.Local (fun g r => r.get? g) d.field := by
    refine List.forall_mem_cons.mpr ⟨?_, List.forall_mem_cons.mpr ⟨?_, List.forall_mem_singleton.mpr nofun⟩⟩
    · intro slot hs
      cases hs
      exact local_table "pid" Catalog.u32 none
    · intro slot hs
      cases hs
      exact local_table "label" (.option .string) none
  obtain ⟨hiff, hsame⟩ := hdecode _ hl .strict .empty 0 b.object
  obtain ⟨r', hr'⟩ := hiff.mp ⟨_, rfl⟩
  exact ⟨_, s', _, r', hb, hb', hlookup _, rfl, hr', hsame _ _ rfl hr' "pid", hsame _ _ rfl hr' "label"⟩

end TypedRecords
