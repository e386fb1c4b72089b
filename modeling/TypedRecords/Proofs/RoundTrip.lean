import TypedRecords.Proofs.Batch
import TypedRecords.Proofs.Encoding
import TypedRecords.Proofs.Fieldwise

/-!
# Records written and decoded again

A record whose decoded fields have plain types is decoded back from any bag of properties that writes it: in
any order, under any case of the property names, among properties that no decoded entry asks for, and with or
without its absent values.
-/

namespace TypedRecords

structure Access [CustomTypes] (R : Type) where
  type : String → Plain
  get : (field : String) → R → (type field).target.El
  set : (field : String) → (type field).target.El → R → R

namespace Access

variable [CustomTypes]

/-- The declarations with a slot coerce to the types of `A`, each for a field with a place of its own. -/
structure Declares (A : Access R) (decls : List (FieldDecl R)) : Prop where
  typed : ∀ d ∈ decls, ∀ slot, d.slot = some slot → slot = .typed (A.type d.field).target (A.set d.field)
  get_set : ∀ d ∈ decls, d.slot ≠ none → ∀ x r, A.get d.field (A.set d.field x r) = x
  get_set_of_ne : ∀ d ∈ decls, d.slot ≠ none → ∀ g, g ≠ d.field → ∀ x r, A.get g (A.set d.field x r) = A.get g r

/-- The pairs that write the record `r` for a list of entries: one for each entry that is not skipped, named by
its property up to case. The pair of an absent value may be left out. -/
inductive Writes (A : Access R) (r : R) : List (Entry R) → List (String × Value) → Prop
  | nil : Writes A r [] []
  | skipped {e es pairs} : e.skip = true → Writes A r es pairs → Writes A r (e :: es) pairs
  | pair {e es pairs name} : e.skip = false → caseless name e.property = true → Writes A r es pairs →
      Writes A r (e :: es) ((name, (A.type e.field).encode (A.get e.field r)) :: pairs)
  | omitted {e es pairs} : e.skip = false → (A.type e.field).absent (A.get e.field r) = true →
      Writes A r es pairs → Writes A r (e :: es) pairs

variable {A : Access R} {r : R} {es : List (Entry R)} {pairs : List (String × Value)}

theorem Writes.value (h : A.Writes r es pairs) {p : String × Value} (hp : p ∈ pairs) :
    ∃ e ∈ es, e.skip = false ∧ caseless p.1 e.property = true ∧
      p.2 = (A.type e.field).encode (A.get e.field r) := by
  induction h with
  | nil => cases hp
  | skipped _ _ ih | omitted _ _ _ ih =>
    obtain ⟨e, he, h⟩ := ih hp
    exact ⟨e, List.mem_cons_of_mem _ he, h⟩
  | pair hs hn _ ih =>
    rcases List.mem_cons.mp hp with rfl | hp
    · exact ⟨_, List.mem_cons_self .., hs, hn, rfl⟩
    · obtain ⟨e, he, h⟩ := ih hp
      exact ⟨e, List.mem_cons_of_mem _ he, h⟩

theorem Writes.written (h : A.Writes r es pairs) {e : Entry R} (he : e ∈ es) (hs : e.skip = false) :
    (A.type e.field).absent (A.get e.field r) = true ∨ ∃ p ∈ pairs, caseless p.1 e.property = true := by
  induction h with
  | nil => cases he
  | skipped hs' _ ih =>
    rcases List.mem_cons.mp he with rfl | he
    · rw [hs] at hs'
      cases hs'
    · exact ih he
  | pair _ hn _ ih =>
    rcases List.mem_cons.mp he with rfl | he
    · exact .inr ⟨_, List.mem_cons_self .., hn⟩
    · rcases ih he with h | ⟨p, hp, h⟩
      · exact .inl h
      · exact .inr ⟨p, List.mem_cons_of_mem _ hp, h⟩
  | omitted _ ha _ ih =>
    rcases List.mem_cons.mp he with rfl | he
    · exact .inl ha
    · exact ih he

/-! ## Looking up what is written -/

theorem get?_of_writes {schema : Schema R}
    (hprop : schema.entries.Pairwise fun e e' => caseless e.property e'.property = false)
    {own extra : List (String × Value)} (hown : A.Writes r schema.entries own)
    (hextra : ∀ p ∈ extra, ∀ e ∈ schema.entries, e.skip = false → caseless p.1 e.property = false) {b : Bag}
    (hb : b.pairs.Perm (own ++ extra)) {e : Entry R} (he : e ∈ schema.entries) (hs : e.skip = false) :
    b.get? e.property = some ((A.type e.field).encode (A.get e.field r)) ∨
      (A.type e.field).absent (A.get e.field r) = true ∧ b.get? e.property = none := by
  unfold Bag.get?
  cases hf : b.pairs.find? fun p => caseless p.1 e.property with
  | none =>
    refine .inr ⟨?_, rfl⟩
    rcases hown.written he hs with h | ⟨p, hp, h⟩
    · exact h
    · have hmem : p ∈ b.pairs := hb.mem_iff.mpr (List.mem_append_left _ hp)
      exact absurd h (List.find?_eq_none.mp hf p hmem)
  | some p =>
    have hp : caseless p.1 e.property = true := by simpa using List.find?_some hf
    refine .inl ?_
    rcases List.mem_append.mp (hb.mem_iff.mp (List.mem_of_find?_eq_some hf)) with hm | hm
    · obtain ⟨e', he', _, hp', hv⟩ := hown.value hm
      have hl : caseless e'.property e.property = true := caseless_trans (caseless_comm .. ▸ hp') hp
      have h₁ := (Schema.lookup?_eq_some hprop).mpr ⟨he', hl⟩
      have h₂ := (Schema.lookup?_eq_some hprop).mpr ⟨he, caseless_refl e.property⟩
      rw [h₁] at h₂
      cases h₂
      rw [Option.map_some, hv]
    · rw [hextra p hm e he hs] at hp
      cases hp

theorem received_of_writes {options : Options} {record : Nat} {e : Entry R} {slot : Slot R} {b : Bag}
    (ht : slot.type.optional = (A.type e.field).target.optional)
    (hdef : (A.type e.field).definite (A.get e.field r) = true)
    (h : b.get? e.property = some ((A.type e.field).encode (A.get e.field r)) ∨
      (A.type e.field).absent (A.get e.field r) = true ∧ b.get? e.property = none) :
    received options record e slot (b.object e.property) =
      .ok (some ((A.type e.field).encode (A.get e.field r))) := by
  unfold Bag.object received
  rcases h with h | ⟨ha, h⟩
  · rw [h]
    by_cases ha : (A.type e.field).absent (A.get e.field r) = true
    · simp [ht, Plain.optional_of_absent ha]
    · simp [Plain.isNull_encode hdef (by simpa using ha)]
  · rw [h]
    simp [ht, Plain.optional_of_absent ha, Plain.encode_of_absent ha]

/-! ## Slots of declared fields -/

theorem typed_stores {τ : Target} {get : R → τ.El} {set : τ.El → R → R} (h : ∀ x r, get (set x r) = x) :
    (Slot.typed τ set).Stores get τ.coerce where
  ok _ r x hx := ⟨set x r, map_eq_ok.mpr ⟨x, hx, rfl⟩, h x r⟩
  error _ _ _ he := map_eq_error.mpr he

theorem typed_leaves {τ : Target} {set : τ.El → R → R} {view : R → α} (h : ∀ x r, view (set x r) = view r) :
    (Slot.typed τ set).Leaves view := by
  intro v r r' hr
  obtain ⟨x, _, rfl⟩ := map_eq_ok.mp hr
  exact h x r

section
variable {typeName : String} {decls : List (FieldDecl R)} {schema : Schema R}
  (hb : Schema.build typeName decls = .ok schema) (hA : A.Declares decls)
include hb hA

theorem slot_of_decoded {e : Entry R} (he : e ∈ schema.entries) {slot : Slot R} (hd : e.decoded? = some slot) :
    slot = .typed (A.type e.field).target (A.set e.field) ∧ (∀ x r, A.get e.field (A.set e.field x r) = x) ∧
      ∀ g, g ≠ e.field → ∀ x r, A.get g (A.set e.field x r) = A.get g r := by
  obtain ⟨-, rfl⟩ := Schema.build_eq_ok.mp hb
  obtain ⟨d, hd', rfl⟩ := List.mem_map.mp he
  have hs : d.slot = some slot := (decoded?_eq_some.mp hd).2
  have hne : d.slot ≠ none := by simp [hs]
  exact ⟨hA.typed d hd' slot hs, hA.get_set d hd' hne, hA.get_set_of_ne d hd' hne⟩

theorem writeOwn : WriteOwn A.get (fun field => (A.type field).target.coerce) schema.entries := by
  intro e he slot hd
  obtain ⟨rfl, hget, hne⟩ := slot_of_decoded hb hA he hd
  exact ⟨typed_stores hget, fun g hg => typed_leaves (hne g hg)⟩

theorem outcome_of_writes (hdef : ∀ e ∈ schema.entries, e.skip = false →
      (A.type e.field).definite (A.get e.field r) = true)
    {own extra : List (String × Value)} (hown : A.Writes r schema.entries own)
    (hextra : ∀ p ∈ extra, ∀ e ∈ schema.entries, e.skip = false → caseless p.1 e.property = false) {b : Bag}
    (hperm : b.pairs.Perm (own ++ extra)) {options : Options} {record : Nat} {e : Entry R} (he : e ∈ schema.entries)
    (hs : e.skip = false) :
    e.outcome options record (A.type e.field).target.coerce b.object = .ok (some (A.get e.field r)) := by
  obtain ⟨slot, hslot⟩ := Option.ne_none_iff_exists'.mp (Schema.slot_ne_none hb e he hs)
  have hd : e.decoded? = some slot := decoded?_eq_some.mpr ⟨hs, hslot⟩
  have ht : slot.type.optional = (A.type e.field).target.optional := by
    rw [(slot_of_decoded hb hA he hd).1]
    rfl
  have hget := get?_of_writes (Schema.pairwise_properties hb) hown hextra hperm he hs
  rw [outcome_eq_received hd, received_of_writes ht (hdef e he hs) hget]
  simp only [Except.bind, Entry.assigned]
  rw [Plain.coerce_encode (hdef e he hs)]
  rfl

end

end Access

/-! ## Decoding what is written -/

/-- A definite record is decoded back from every bag that writes it, whatever the options, in every session
that keeps no other schema for the type than the one its declaration builds. A field that is skipped, or any
other reading that no decoded field changes, is as in a fresh record. -/
theorem decodeOne_written [CustomTypes] (A : Access R) {s : Session R} {key : String} {decls : List (FieldDecl R)}
    {schema : Schema R} (hdecl : (s.types key).declaration = .fields decls)
    (hb : Schema.build (s.types key).name decls = .ok schema)
    (hcache : ∀ cached, s.schemas key = some cached → cached = schema) (hA : A.Declares decls) {r : R}
    (hdef : ∀ e ∈ schema.entries, e.skip = false → (A.type e.field).definite (A.get e.field r) = true)
    {own extra : List (String × Value)} (hown : A.Writes r schema.entries own)
    (hextra : ∀ p ∈ extra, ∀ e ∈ schema.entries, e.skip = false → caseless p.1 e.property = false) {b : Bag}
    (hperm : b.pairs.Perm (own ++ extra)) :
    ∃ r', (s.decodeOne key b.object).result.result = .ok r' ∧
      (∀ e ∈ schema.entries, e.skip = false → A.get e.field r' = A.get e.field r) ∧
      (∀ e ∈ schema.entries, e.skip = true → A.get e.field r' = A.get e.field (s.types key).fresh) ∧
      ∀ {α : Type} (view : R → α),
        (∀ e ∈ schema.entries, e.skip = false → ∀ x r, view (A.set e.field x r) = view r) →
          view r' = view (s.types key).fresh := by
  have hroute := Session.route_of_build hdecl hb hcache
  rw [Session.decodeOne_of_route hroute]
  have hout : ∀ e ∈ schema.entries, e.skip = false →
      e.outcome s.options 0 (A.type e.field).target.coerce b.object = .ok (some (A.get e.field r)) :=
    fun e he hs => Access.outcome_of_writes hb hA hdef hown hextra hperm he hs
  have hall : ∀ e ∈ schema.entries, ∃ x, e.outcome s.options 0 (A.type e.field).target.coerce b.object = .ok x := by
    intro e he
    by_cases hs : e.skip = true
    · exact ⟨none, outcome_of_skip hs _⟩
    · exact ⟨_, hout e he (by simpa using hs)⟩
  obtain ⟨r', hr', hg⟩ := decodeEntries_ok (Schema.nodup_fields hb) (Schema.slot_ne_none hb) (Access.writeOwn hb hA)
    hall (s.types key).fresh
  refine ⟨r', hr', ?_, ?_, ?_⟩
  · intro e he hs
    exact hg e he _ (hout e he hs)
  · intro e he hs
    exact hg e he none (outcome_of_skip hs _)
  · intro α view hview
    refine decodeEntries_leaves ?_ hr'
    intro p hp
    obtain ⟨hp₁, hp₂⟩ := mem_decodedOf.mp hp
    rw [(Access.slot_of_decoded hb hA hp₁ hp₂).1]
    exact Access.typed_leaves (hview p.1 hp₁ (decoded?_eq_some.mp hp₂).1)

/-! ## Tables -/

theorem FieldSpec.field_link {R : Type} (d : FieldDecl R) (l : Link) : (FieldSpec.link d l).field = d.field := by
  cases l <;> rfl

theorem FieldSpec.slot_link {R : Type} (d : FieldDecl R) (l : Link) : (FieldSpec.link d l).slot = d.slot := by
  cases l <;> rfl

theorem FieldSpec.links_keep {R : Type} (chain : List Link) (d : FieldDecl R) :
    (chain.foldl FieldSpec.link d).field = d.field ∧ (chain.foldl FieldSpec.link d).slot = d.slot := by
  induction chain generalizing d with
  | nil => exact ⟨rfl, rfl⟩
  | cons l chain ih =>
    obtain ⟨hf, hs⟩ := ih (FieldSpec.link d l)
    exact ⟨hf.trans (field_link d l), hs.trans (slot_link d l)⟩

namespace Record

def access [CustomTypes] (type : String → Plain) : Access Record where
  type := type
  get field r :=
    match r.get? field with
    | some (.typed τ x) => if h : τ = (type field).target then h ▸ x else (type field).target.default
    | _ => (type field).target.default
  set field x r := r.put field (.typed _ x)

theorem access_declares [CustomTypes] (type : String → Plain) (specs : List FieldSpec)
    (h : ∀ spec ∈ specs, ∀ τ optional preset, spec.form = .typed τ optional preset →
      τ = (type spec.field).target ∧ optional = none) : (access type).Declares (specs.map (·.decl)) where
  typed d hd slot hs := by
    obtain ⟨spec, hspec, rfl⟩ := List.mem_map.mp hd
    unfold FieldSpec.decl at hs ⊢
    rw [(FieldSpec.links_keep _ _).2] at hs
    rw [(FieldSpec.links_keep _ _).1]
    cases hf : spec.form with
    | typed τ optional preset =>
      obtain ⟨rfl, rfl⟩ := h spec hspec τ optional preset hf
      rw [hf] at hs
      cases hs
      rfl
    | skipped =>
      rw [hf] at hs
      cases hs
    | bare =>
      rw [hf] at hs
      cases hs
  get_set d _ _ x r := by
    show (match (r.put d.field (.typed _ x)).get? d.field with
      | some (.typed τ y) => if h : τ = (type d.field).target then h ▸ y else (type d.field).target.default
      | _ => (type d.field).target.default) = x
    rw [get?_put, if_pos rfl]
    exact dif_pos rfl
  get_set_of_ne d _ _ g hg x r := by
    simp only [access, get?_put, if_neg hg]

end Record

theorem decodeOne_written_manual :
    let A := Record.access fun field => if field = "pid" then .int .u32 else .option .string
    let r : Record := ⟨[("pid", .typed Catalog.u32 ⟨4, by decide⟩)]⟩
    let b := Bag.ofList [("Extra", .bool true), ("PROCESSID", .int .u32 ⟨4, by decide⟩)]
    ∃ r', ((Session.start (fun _ => Catalog.manual) .strict).decodeOne "Manual" b.object).result.result = .ok r' ∧
      A.get "pid" r' = A.get "pid" r ∧ A.get "label" r' = (none : Option String) := by
  intro A r b
  have hb : Schema.build "Manual"
      ([Catalog.renamed "ProcessId" (Catalog.field "pid" Catalog.u32),
        Catalog.renamed "Caption" (Catalog.field "label" (.option .string))].map (·.decl)) =
      .ok ⟨"Manual", [⟨"ProcessId", "pid", false, some (FieldSpec.slot "pid" Catalog.u32 none)⟩,
        ⟨"Caption", "label", false, some (FieldSpec.slot "label" (.option .string) none)⟩]⟩ := rfl
  have hA : A.Declares ([Catalog.renamed "ProcessId" (Catalog.field "pid" Catalog.u32),
      Catalog.renamed "Caption" (Catalog.field "label" (.option .string))].map (·.decl)) := by
    apply Record.access_declares
    refine List.forall_mem_cons.mpr ⟨?_, List.forall_mem_singleton.mpr ?_⟩
    · intro τ optional preset h
      cases h
      exact ⟨rfl, rfl⟩
    · intro τ optional preset h
      cases h
      exact ⟨rfl, rfl⟩
  have hown : A.Writes r
      [⟨"ProcessId", "pid", false, some (FieldSpec.slot "pid" Catalog.u32 none)⟩,
        ⟨"Caption", "label", false, some (FieldSpec.slot "label" (.option .string) none)⟩]
      [("PROCESSID", .int .u32 ⟨4, by decide⟩)] := .pair rfl rfl (.omitted rfl rfl .nil)
  have hperm : b.pairs.Perm ([("PROCESSID", .int .u32 ⟨4, by decide⟩)] ++ [("Extra", .bool true)]) :=
    List.Perm.swap ..
  obtain ⟨r', hr', hget, -⟩ := @decodeOne_written _ _ A (Session.start (fun _ => Catalog.manual) .strict) "Manual" _ _
    rfl hb nofun hA r (List.forall_mem_cons.mpr ⟨fun _ => rfl, List.forall_mem_singleton.mpr fun _ => rfl⟩)
    _ _ hown
    (List.forall_mem_singleton.mpr (List.forall_mem_cons.mpr ⟨fun _ => rfl, List.forall_mem_singleton.mpr fun _ => rfl⟩))
    b hperm
  refine ⟨r', hr', hget _ (List.mem_cons_self ..) rfl, ?_⟩
  exact hget _ (List.mem_cons_of_mem _ (List.mem_cons_self ..)) rfl

end TypedRecords
