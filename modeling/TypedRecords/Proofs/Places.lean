import TypedRecords.Proofs.Requests

/-!
# Pairs of a bag and the fields they feed

A request for a property reads one pair of a bag, the first of that name up to case. The entries of a schema ask for
properties that differ in more than case, so no pair is read for two of them, and a pair with the property of a skipped
entry is read for none. Another value in one pair therefore changes at most one field of the record.
-/

namespace TypedRecords

namespace Bag

def place? (b : Bag) (name : String) : Option Nat := b.pairs.findIdx? fun p => caseless p.1 name

def placesRead (b : Bag) (i : Inquiry α) : List Nat := (i.log b.object).filterMap b.place?

def setValue (b : Bag) (m : Nat) (v : Value) : Bag := ⟨b.pairs.modify m fun p => (p.1, v)⟩

theorem get?_eq_place? (b : Bag) (name : String) :
    b.get? name = (b.place? name).bind fun m => b.pairs[m]?.map (·.2) := by
  unfold get? place?
  rw [List.find?_eq_bind_findIdx?_getElem?, Option.map_bind]
  rfl

theorem exists_pair_of_place? {b : Bag} {name : String} {m : Nat} (h : b.place? name = some m) :
    ∃ p, b.pairs[m]? = some p ∧ caseless p.1 name = true := by
  obtain ⟨hlt, hp, -⟩ := List.findIdx?_eq_some_iff_getElem.mp h
  exact ⟨b.pairs[m], List.getElem?_eq_getElem hlt, hp⟩

theorem caseless_of_place? {b : Bag} {name name' : String} {m : Nat} (h : b.place? name = some m)
    (h' : b.place? name' = some m) : caseless name name' = true := by
  obtain ⟨p, hp, hn⟩ := exists_pair_of_place? h
  obtain ⟨p', hp', hn'⟩ := exists_pair_of_place? h'
  rw [hp] at hp'
  cases hp'
  exact caseless_trans (caseless_comm .. ▸ hn) hn'

theorem names_setValue (b : Bag) (m : Nat) (v : Value) : (b.setValue m v).pairs.map (·.1) = b.pairs.map (·.1) := by
  apply List.ext_getElem?
  intro i
  simp only [setValue, List.getElem?_map, List.getElem?_modify]
  by_cases h : m = i
  · subst h
    cases b.pairs[m]? <;> simp
  · simp [h]

theorem place?_setValue (b : Bag) (m : Nat) (v : Value) (name : String) :
    (b.setValue m v).place? name = b.place? name := by
  have hnames : ∀ b : Bag, b.place? name = (b.pairs.map (·.1)).findIdx? fun n => caseless n name := by
    intro b
    rw [List.findIdx?_map]
    rfl
  rw [hnames, hnames, names_setValue]

/-- A pair decides the answers of the requests that read it and of no others. -/
theorem get?_setValue (b : Bag) (m : Nat) (v : Value) (name : String) :
    (b.setValue m v).get? name = if b.place? name = some m then some v else b.get? name := by
  rw [get?_eq_place?, get?_eq_place?, place?_setValue]
  cases hp : b.place? name with
  | none => rfl
  | some i =>
    obtain ⟨p, hi, -⟩ := exists_pair_of_place? hp
    by_cases h : i = m
    · subst h
      simp [setValue, hi]
    · simp [setValue, hi, h, Ne.symm h]

end Bag

/-! ## Reading by a schema -/

section
variable {options : Options} {record : Nat} {o o' : Object}

theorem decodeEntries_congr {ps : List (Entry R × Slot R)} (h : ∀ p ∈ ps, o p.1.property = o' p.1.property) (r : R) :
    (decodeEntries options record ps r).result o = (decodeEntries options record ps r).result o' ∧
      (decodeEntries options record ps r).log o = (decodeEntries options record ps r).log o' := by
  induction ps generalizing r with
  | nil => exact ⟨rfl, rfl⟩
  | cons p ps ih =>
    rw [List.forall_mem_cons] at h
    simp only [decodeEntries, Inquiry.result, Inquiry.log, h.1]
    cases fill options record p.1 p.2 (o' p.1.property) r with
    | error err => exact ⟨rfl, rfl⟩
    | ok r₁ =>
      obtain ⟨hr, hl⟩ := ih h.2 r₁
      exact ⟨hr, congrArg _ hl⟩

theorem outcome_congr {e : Entry R} {coerce : Value → Coerced α} (h : o e.property = o' e.property) :
    e.outcome options record coerce o = e.outcome options record coerce o' := by
  simp only [Entry.outcome, h]

end

section
variable {typeName : String} {decls : List (FieldDecl R)} {schema : Schema R}
  (hb : Schema.build typeName decls = .ok schema) (b : Bag)
include hb

theorem pairwise_place? : schema.entries.Pairwise fun e e' =>
    ∀ m, b.place? e.property = some m → b.place? e'.property ≠ some m := by
  refine (Schema.pairwise_properties hb).imp ?_
  intro e e' hne m h h'
  rw [Bag.caseless_of_place? h h'] at hne
  cases hne

theorem place?_ne_of_skipped {e : Entry R} (he : e ∈ schema.entries) (hs : e.skip = true) {m : Nat}
    {p : String × Value} (hp : b.pairs[m]? = some p) (hn : caseless p.1 e.property = true) {name : String}
    (hname : name ∈ schema.wanted) : b.place? name ≠ some m := by
  intro h
  obtain ⟨p', hp', hn'⟩ := Bag.exists_pair_of_place? h
  rw [hp] at hp'
  cases hp'
  have hclash := Schema.caseless_of_mem_wanted hb hname he hs
  rw [caseless_trans (caseless_comm .. ▸ hn') hn] at hclash
  cases hclash

variable (options : Options) (fresh : R) (record : Nat)

theorem nodup_placesRead : (b.placesRead ((Route.fields schema).decodeRecord options fresh record)).Nodup := by
  -- one place for two of the wanted properties would make them equal up to case
  have hwanted : (schema.wanted.filterMap b.place?).Nodup := by
    refine (Schema.pairwise_wanted hb).filterMap _ ?_
    rintro name name' hne m h _ h' rfl
    rw [Bag.caseless_of_place? h h'] at hne
    cases hne
  exact hwanted.sublist ((prefix_log_decodeRecord hb).sublist.filterMap _)

theorem exists_of_mem_placesRead {m : Nat}
    (h : m ∈ b.placesRead ((Route.fields schema).decodeRecord options fresh record)) :
    ∃ e ∈ schema.entries, e.skip = false ∧ b.place? e.property = some m := by
  obtain ⟨name, hname, hm⟩ := List.mem_filterMap.mp h
  obtain ⟨e, he, hs, rfl⟩ := Schema.mem_wanted.mp ((prefix_log_decodeRecord hb).mem hname)
  exact ⟨e, he, hs, hm⟩

/-! ## Another value in one pair -/

variable {b options fresh record} {m : Nat} (v : Value)

omit hb in
theorem object_setValue {name : String} (h : b.place? name ≠ some m) :
    (b.setValue m v).object name = b.object name := by
  unfold Bag.object
  rw [Bag.get?_setValue, if_neg h]

theorem decodeRecord_setValue (h : ∀ name ∈ schema.wanted, b.place? name ≠ some m) :
    let inquiry := (Route.fields schema).decodeRecord options fresh record
    inquiry.result (b.setValue m v).object = inquiry.result b.object ∧
      inquiry.log (b.setValue m v).object = inquiry.log b.object := by
  refine decodeEntries_congr ?_ fresh
  intro p hp
  have hname : p.1.property ∈ schema.wanted := by
    rw [← Schema.map_decoded hb]
    exact List.mem_map_of_mem (f := fun p : Entry R × Slot R => p.1.property) hp
  exact object_setValue v (h _ hname)

variable {Val : String → Type} {get : (field : String) → R → Val field}
  {coerce : (field : String) → Value → Coerced (Val field)} (hw : WriteOwn get coerce schema.entries)
include hw

theorem get_of_decodeRecord {o : Object} {r : R}
    (h : ((Route.fields schema).decodeRecord options fresh record).result o = .ok r) {e : Entry R}
    (he : e ∈ schema.entries) :
    ∃ x, e.outcome options record (coerce e.field) o = .ok x ∧ get e.field r = x.getD (get e.field fresh) := by
  have hn := Schema.nodup_fields hb
  have hk := Schema.slot_ne_none hb
  have hall := (exists_decodeEntries_ok hn hk hw).mp ⟨r, h⟩
  obtain ⟨r', hr', hg⟩ := decodeEntries_ok hn hk hw hall fresh
  obtain ⟨x, hx⟩ := hall e he
  rw [show (decodeEntries options record (decodedOf schema.entries) fresh).result o = .ok r from h] at hr'
  cases hr'
  exact ⟨x, hx, hg e he x hx⟩

theorem exists_entry_of_get_ne {r r' : R}
    (hr : ((Route.fields schema).decodeRecord options fresh record).result b.object = .ok r)
    (hr' : ((Route.fields schema).decodeRecord options fresh record).result (b.setValue m v).object = .ok r')
    {field : String} (hne : get field r' ≠ get field r) :
    ∃ e ∈ schema.entries, e.skip = false ∧ e.field = field ∧ b.place? e.property = some m := by
  by_contra hno
  apply hne
  -- the field has an entry that reads other pairs, or it keeps its value in both records
  by_cases hf : ∃ e ∈ schema.entries, e.skip = false ∧ e.field = field
  · obtain ⟨e, he, hs, rfl⟩ := hf
    have hplace : b.place? e.property ≠ some m := fun h => hno ⟨e, he, hs, rfl, h⟩
    obtain ⟨x, hx, hg⟩ := get_of_decodeRecord hb hw hr he
    obtain ⟨x', hx', hg'⟩ := get_of_decodeRecord hb hw hr' he
    rw [outcome_congr (object_setValue v hplace), hx] at hx'
    cases hx'
    rw [hg, hg']
  · have hleft : ∀ e ∈ schema.entries, e.skip = false → e.field ≠ field := fun e he hs h => hf ⟨e, he, hs, h⟩
    exact (decodedOf_leaves hw hleft hr').trans (decodedOf_leaves hw hleft hr).symm

end

/-- No pair of a bag feeds two fields. A request is answered by the pair at its place; the places for different entries
are different, a pair with the property of a skipped entry is never read, and what decoding reads is read once, for an
entry that is not skipped. So another value in one pair changes one field at most, and nothing at all if the pair has
the property of a skipped entry. -/
theorem pair_feeds_one_field {typeName : String} {decls : List (FieldDecl R)} {schema : Schema R}
    (hb : Schema.build typeName decls = .ok schema) (b : Bag) (options : Options) (fresh : R) (record : Nat) :
    let inquiry := (Route.fields schema).decodeRecord options fresh record
    (∀ name, b.object name = .ok ((b.place? name).bind fun m => b.pairs[m]?.map (·.2))) ∧
    (schema.entries.Pairwise fun e e' => e.skip = false → e'.skip = false →
      ∀ m, b.place? e.property = some m → b.place? e'.property ≠ some m) ∧
    (∀ e ∈ schema.entries, e.skip = true → ∀ m p, b.pairs[m]? = some p → caseless p.1 e.property = true →
      m ∉ b.placesRead inquiry ∧ (∀ e' ∈ schema.entries, e'.skip = false → b.place? e'.property ≠ some m) ∧
      ∀ v, inquiry.result (b.setValue m v).object = inquiry.result b.object ∧
        inquiry.log (b.setValue m v).object = inquiry.log b.object) ∧
    (b.placesRead inquiry).Nodup ∧
    (∀ m ∈ b.placesRead inquiry, ∃ e ∈ schema.entries, e.skip = false ∧ b.place? e.property = some m) ∧
    ∀ {Val : String → Type} (get : (field : String) → R → Val field)
      (coerce : (field : String) → Value → Coerced (Val field)), WriteOwn get coerce schema.entries →
      ∀ m v r r', inquiry.result b.object = .ok r → inquiry.result (b.setValue m v).object = .ok r' →
        ∀ f g, get f r' ≠ get f r → get g r' ≠ get g r → f = g := by
  intro inquiry
  have hplaces := pairwise_place? hb b
  refine ⟨fun name => congrArg Except.ok (b.get?_eq_place? name), hplaces.imp fun h _ _ => h, ?_,
    nodup_placesRead hb b options fresh record, ?_, ?_⟩
  · intro e he hs m p hp hn
    have hnot : ∀ name ∈ schema.wanted, b.place? name ≠ some m :=
      fun name hname => place?_ne_of_skipped hb b he hs hp hn hname
    refine ⟨?_, ?_, fun v => decodeRecord_setValue hb v hnot⟩
    · intro hm
      obtain ⟨e', he', hs', hm'⟩ := exists_of_mem_placesRead hb b options fresh record hm
      exact hnot _ (Schema.mem_wanted.mpr ⟨e', he', hs', rfl⟩) hm'
    · intro e' he' hs'
      exact hnot _ (Schema.mem_wanted.mpr ⟨e', he', hs', rfl⟩)
  · intro m hm
    exact exists_of_mem_placesRead hb b options fresh record hm
  · intro Val get coerce hw m v r r' hr hr' f g hf hg
    obtain ⟨e, he, -, rfl, hm⟩ := exists_entry_of_get_ne hb v hw hr hr' hf
    obtain ⟨e', he', -, rfl, hm'⟩ := exists_entry_of_get_ne hb v hw hr hr' hg
    exact congrArg Entry.field (Schema.eq_of_caseless hb he he' (Bag.caseless_of_place? hm hm'))

theorem pair_feeds_one_field_lamp :
    let specs := [Catalog.renamed "Level" (Catalog.field "level" Catalog.u8),
      Catalog.renamed "Shade" (Catalog.skipped "shade"), Catalog.field "name" .string]
    let b := Bag.ofList [("LEVEL", .int .u8 ⟨1, by decide⟩), ("level", .null), ("SHADE", .bool true),
      ("Name", .string "a")]
    ∃ schema, Schema.build "Lamp" (specs.map (·.decl)) = .ok schema ∧
      let inquiry := (Route.fields schema).decodeRecord .strict (RecordType.ofFields "Lamp" specs).fresh 0
      b.placesRead inquiry = [0, 3] ∧ 2 ∉ b.placesRead inquiry ∧
      (∀ v, inquiry.result (b.setValue 2 v).object = inquiry.result b.object) ∧
      ∀ v r r', inquiry.result b.object = .ok r → inquiry.result (b.setValue 0 v).object = .ok r' →
        ∀ f g, r'.get? f ≠ r.get? f → r'.get? g ≠ r.get? g → f = g := by
  intro specs b
  have hb : Schema.build "Lamp" (specs.map (·.decl)) =
      .ok ⟨"Lamp", [⟨"Level", "level", false, some (FieldSpec.slot "level" Catalog.u8 none)⟩,
        ⟨"Shade", "shade", true, none⟩, ⟨"name", "name", false, some (FieldSpec.slot "name" .string none)⟩]⟩ := rfl
  obtain ⟨-, -, hskipped, -, -, hone⟩ :=
    pair_feeds_one_field hb b .strict (RecordType.ofFields "Lamp" specs).fresh 0
  obtain ⟨hnot, -, hsame⟩ := hskipped ⟨"Shade", "shade", true, none⟩ (by simp) rfl 2 ("SHADE", .bool true) rfl rfl
  refine ⟨_, hb, rfl, hnot, fun v => (hsame v).1, ?_⟩
  intro v
  refine hone _ _ (writeOwn_table (fun f => if f = "level" then Catalog.u8 else .string) ?_) 0 v
  intro e he slot hd
  simp only [List.mem_cons, List.not_mem_nil, or_false] at he
  rcases he with rfl | rfl | rfl
  · cases hd
    exact ⟨none, rfl⟩
  · cases hd
  · cases hd
    exact ⟨none, rfl⟩

end TypedRecords
