import Mathlib.Data.List.Induction
import TypedRecords.Proofs.Folding
import TypedRecords.Schema

/-!
# Which declarations build

A list of declarations builds when every declaration is usable on its own and no two share a field, or a
property up to case. The entries are then the declarations resolved one by one. A list that does not build
fails at its first declaration that the entries before it reject.
-/

namespace TypedRecords

/-! ## One declaration -/

namespace FieldDecl

/-- The directives that the text of a declaration gives. A text that does not read gives none. -/
def given (d : FieldDecl R) : Directives :=
  match d.directive with
  | none => .none
  | some text => (Directives.read text).toOption.getD .none

def property (d : FieldDecl R) : String := d.given.rename.getD d.field

def resolved (d : FieldDecl R) : Entry R := ⟨d.property, d.field, d.given.skip, d.slot⟩

@[simp] theorem property_resolved (d : FieldDecl R) : d.resolved.property = d.property := rfl
@[simp] theorem field_resolved (d : FieldDecl R) : d.resolved.field = d.field := rfl
@[simp] theorem skip_resolved (d : FieldDecl R) : d.resolved.skip = d.given.skip := rfl
@[simp] theorem slot_resolved (d : FieldDecl R) : d.resolved.slot = d.slot := rfl

def Reads (d : FieldDecl R) : Prop := ∀ text, d.directive = some text → ∃ ds, Directives.read text = .ok ds

structure Usable (d : FieldDecl R) : Prop where
  reads : d.Reads
  slot : d.given.skip = false → d.slot ≠ none

/-- The error that a declaration is by itself. A slot is missed only once the directives read. -/
inductive Faulty (typeName : String) (d : FieldDecl R) : SchemaError → Prop
  | malformed {text reason} : d.directive = some text → Directives.read text = .error (.malformed reason) →
      Faulty typeName d (.malformed typeName d.field text reason)
  | repeatedDirective {text item} : d.directive = some text → Directives.read text = .error (.repeated item) →
      Faulty typeName d (.repeatedDirective typeName d.field item)
  | noSlot : d.Reads → d.given.skip = false → d.slot = none → Faulty typeName d (.noSlot typeName d.field)

theorem directives_eq_ok {typeName : String} {d : FieldDecl R} {ds : Directives} :
    d.directives typeName = .ok ds ↔ d.Reads ∧ ds = d.given := by
  unfold directives given Reads
  cases d.directive with
  | none => simp [eq_comm]
  | some text =>
    cases h : Directives.read text with
    | error e => simp [h]
    | ok ds' => simp [h, Except.toOption, eq_comm]

theorem directives_of_text {d : FieldDecl R} {typeName text : String} {ds : Directives}
    (h : d.directive = some text) : d.directives typeName = .ok ds ↔ Directives.read text = .ok ds := by
  unfold directives
  rw [h]
  exact mapError_eq_ok

theorem entry_eq_ok {typeName : String} {d : FieldDecl R} {e : Entry R} :
    d.entry typeName = .ok e ↔ d.Usable ∧ e = d.resolved := by
  unfold entry
  cases h : d.directives typeName with
  | error err =>
    have hn : ¬ d.Usable := fun hu => by
      rw [directives_eq_ok.mpr ⟨hu.reads, rfl⟩] at h
      cases h
    simp [hn]
  | ok ds =>
    obtain ⟨hr, rfl⟩ := directives_eq_ok.mp h
    by_cases hs : d.slot.isNone && !d.given.skip
    · have hn : ¬ d.Usable := fun hu => by
        have := hu.slot
        simp_all
      simp [hs, hn]
    · have hu : d.Usable := ⟨hr, fun hk => by simpa [hk] using hs⟩
      simp [hs, hu, resolved, property, eq_comm]

theorem faulty_of_directives {typeName : String} {d : FieldDecl R} {err : SchemaError}
    (h : d.directives typeName = .error err) : d.Faulty typeName err := by
  unfold directives at h
  split at h
  · cases h
  · rename_i text ht
    obtain ⟨fault, hf, rfl⟩ := mapError_eq_error.mp h
    cases fault with
    | malformed reason => exact .malformed ht hf
    | repeated item => exact .repeatedDirective ht hf

theorem entry_eq_error {typeName : String} {d : FieldDecl R} {err : SchemaError} :
    d.entry typeName = .error err ↔ d.Faulty typeName err := by
  refine ⟨?_, ?_⟩
  · intro h
    unfold entry at h
    cases hd : d.directives typeName with
    | error err' =>
      simp only [hd, Except.error.injEq] at h
      subst h
      exact faulty_of_directives hd
    | ok ds =>
      obtain ⟨hr, rfl⟩ := directives_eq_ok.mp hd
      rw [hd] at h
      by_cases hs : d.slot.isNone && !d.given.skip
      · simp only [hs, ite_true, Except.error.injEq] at h
        simp only [Bool.and_eq_true, Option.isNone_iff_eq_none, Bool.not_eq_true'] at hs
        exact h ▸ .noSlot hr hs.2 hs.1
      · simp [hs] at h
  · intro h
    cases h with
    | malformed ht hf => simp [entry, directives, ht, hf]
    | repeatedDirective ht hf => simp [entry, directives, ht, hf]
    | noSlot hr hk hs => simp [entry, directives_eq_ok.mpr ⟨hr, rfl⟩, hk, hs]

end FieldDecl

/-! ## One step -/

namespace Schema

def Apart (e : Entry R) (d : FieldDecl R) : Prop := e.field ≠ d.field ∧ caseless e.property d.property = false

/-- The error that a declaration is after the given entries: its own, or else the clash with the earliest
entry that has its field or its property. -/
inductive Rejects (typeName : String) (entries : List (Entry R)) (d : FieldDecl R) : SchemaError → Prop
  | faulty {err} : d.Faulty typeName err → Rejects typeName entries d err
  | repeatedField {before old after} : d.Usable → entries = before ++ old :: after →
      (∀ e ∈ before, Apart e d) → old.field = d.field →
      Rejects typeName entries d (.repeatedField typeName d.field)
  | sharedProperty {before old after} : d.Usable → entries = before ++ old :: after →
      (∀ e ∈ before, Apart e d) → old.field ≠ d.field → caseless old.property d.property = true →
      Rejects typeName entries d (.sharedProperty typeName d.property old.field d.field)

theorem clash_eq_false {e : Entry R} {d : FieldDecl R} : clash e d.resolved = false ↔ Apart e d := by
  simp [clash, Apart]

theorem add_eq_ok {typeName : String} {entries es : List (Entry R)} {d : FieldDecl R} :
    add typeName entries d.resolved = .ok es ↔ (∀ e ∈ entries, Apart e d) ∧ es = entries ++ [d.resolved] := by
  unfold add
  cases h : entries.find? (clash · d.resolved) with
  | none =>
    have ha : ∀ e ∈ entries, Apart e d := fun e he =>
      clash_eq_false.mp (by simpa using List.find?_eq_none.mp h e he)
    simpa [eq_comm] using fun _ => ha
  | some old =>
    have hn : ¬ ∀ e ∈ entries, Apart e d := fun ha => by
      have hc := clash_eq_false.mpr (ha old (List.mem_of_find?_eq_some h))
      rw [List.find?_some h] at hc
      cases hc
    simp only [hn, false_and, iff_false]
    split <;> exact nofun

theorem find?_clash {entries : List (Entry R)} {old : Entry R} {d : FieldDecl R} :
    entries.find? (clash · d.resolved) = some old ↔
      clash old d.resolved = true ∧ ∃ before after, entries = before ++ old :: after ∧ ∀ e ∈ before, Apart e d := by
  simp [List.find?_eq_some_iff_append, ← clash_eq_false]

theorem accept_eq_ok {typeName : String} {entries es : List (Entry R)} {d : FieldDecl R} :
    accept typeName entries d = .ok es ↔
      d.Usable ∧ (∀ e ∈ entries, Apart e d) ∧ es = entries ++ [d.resolved] := by
  unfold accept
  rw [bind_eq_ok]
  refine ⟨?_, ?_⟩
  · intro h
    obtain ⟨e, he, ha⟩ := h
    obtain ⟨hu, rfl⟩ := FieldDecl.entry_eq_ok.mp he
    exact ⟨hu, add_eq_ok.mp ha⟩
  · intro h
    obtain ⟨hu, ha⟩ := h
    exact ⟨_, FieldDecl.entry_eq_ok.mpr ⟨hu, rfl⟩, add_eq_ok.mpr ha⟩

theorem rejects_of_add {typeName : String} {entries : List (Entry R)} {d : FieldDecl R} {err : SchemaError}
    (hu : d.Usable) (h : add typeName entries d.resolved = .error err) : Rejects typeName entries d err := by
  unfold add at h
  split at h
  · cases h
  · rename_i old hold
    obtain ⟨hc, before, after, hb, hap⟩ := find?_clash.mp hold
    by_cases hf : old.field = d.field
    · rw [if_pos (show old.field = d.resolved.field from hf)] at h
      cases h
      exact .repeatedField hu hb hap hf
    · rw [if_neg (show ¬ old.field = d.resolved.field from hf)] at h
      cases h
      have hp : caseless old.property d.property = true := by simpa [clash, hf] using hc
      exact .sharedProperty hu hb hap hf hp

theorem accept_eq_error {typeName : String} {entries : List (Entry R)} {d : FieldDecl R} {err : SchemaError} :
    accept typeName entries d = .error err ↔ Rejects typeName entries d err := by
  unfold accept
  rw [bind_eq_error]
  refine ⟨?_, ?_⟩
  · intro h
    obtain h | ⟨e, he, ha⟩ := h
    · exact .faulty (FieldDecl.entry_eq_error.mp h)
    · obtain ⟨hu, rfl⟩ := FieldDecl.entry_eq_ok.mp he
      exact rejects_of_add hu ha
  · intro h
    cases h with
    | faulty h => exact .inl (FieldDecl.entry_eq_error.mpr h)
    | @repeatedField before old after hu hb hap hf =>
      refine .inr ⟨_, FieldDecl.entry_eq_ok.mpr ⟨hu, rfl⟩, ?_⟩
      have hc : clash old d.resolved = true := by simp [clash, hf]
      simp [add, find?_clash.mpr ⟨hc, before, after, hb, hap⟩, hf]
    | @sharedProperty before old after hu hb hap hf hp =>
      refine .inr ⟨_, FieldDecl.entry_eq_ok.mpr ⟨hu, rfl⟩, ?_⟩
      have hc : clash old d.resolved = true := by simp [clash, hp]
      simp [add, find?_clash.mpr ⟨hc, before, after, hb, hap⟩, hf]

/-! ## Whole lists -/

/-- No declaration is an error by itself, and no two want the same field or the same property. -/
structure Acceptable (decls : List (FieldDecl R)) : Prop where
  usable : ∀ d ∈ decls, d.Usable
  fields : (decls.map (·.field)).Nodup
  properties : decls.Pairwise fun d d' => caseless d.property d'.property = false

theorem acceptable_nil : Acceptable ([] : List (FieldDecl R)) := ⟨nofun, .nil, .nil⟩

theorem acceptable_snoc {decls : List (FieldDecl R)} {d : FieldDecl R} :
    Acceptable (decls ++ [d]) ↔
      Acceptable decls ∧ d.Usable ∧ ∀ e ∈ decls.map FieldDecl.resolved, Apart e d := by
  refine ⟨?_, ?_⟩
  · intro h
    obtain ⟨hu, hf, hp⟩ := h
    rw [List.map_append, List.nodup_append] at hf
    rw [List.pairwise_append] at hp
    refine ⟨⟨fun d' hd' => hu d' (List.mem_append_left _ hd'), hf.1, hp.1⟩, hu d (by simp), ?_⟩
    intro e he
    obtain ⟨d', hd', rfl⟩ := List.mem_map.mp he
    exact ⟨hf.2.2 _ (List.mem_map_of_mem hd') _ (by simp), hp.2.2 d' hd' d (by simp)⟩
  · intro h
    obtain ⟨⟨hu, hf, hp⟩, hd, ha⟩ := h
    have ha' : ∀ d' ∈ decls, Apart d'.resolved d := fun d' hd' => ha _ (List.mem_map_of_mem hd')
    refine ⟨?_, ?_, ?_⟩
    · intro d' hd'
      rcases List.mem_append.mp hd' with h | h
      · exact hu d' h
      · exact List.mem_singleton.mp h ▸ hd
    · rw [List.map_append, List.nodup_append]
      refine ⟨hf, by simp, ?_⟩
      intro f hf' g hg
      obtain ⟨d', hd', rfl⟩ := List.mem_map.mp hf'
      rw [List.map_singleton, List.mem_singleton] at hg
      exact hg ▸ (ha' d' hd').1
    · rw [List.pairwise_append]
      refine ⟨hp, List.pairwise_singleton .., ?_⟩
      intro d' hd' d'' hd''
      exact List.mem_singleton.mp hd'' ▸ (ha' d' hd').2

theorem foldlM_accept_eq_ok {typeName : String} {decls : List (FieldDecl R)} {es : List (Entry R)} :
    decls.foldlM (accept typeName) [] = .ok es ↔ Acceptable decls ∧ es = decls.map FieldDecl.resolved := by
  induction decls using List.reverseRecOn generalizing es with
  | nil =>
    show Except.ok [] = Except.ok es ↔ _
    simp [acceptable_nil, eq_comm]
  | append_singleton decls d ih =>
    rw [foldlM_snoc, bind_eq_ok, acceptable_snoc, List.map_append, List.map_singleton]
    refine ⟨?_, ?_⟩
    · intro h
      obtain ⟨entries, he, ha⟩ := h
      obtain ⟨hacc, rfl⟩ := ih.mp he
      obtain ⟨hu, hap, rfl⟩ := accept_eq_ok.mp ha
      exact ⟨⟨hacc, hu, hap⟩, rfl⟩
    · intro h
      obtain ⟨⟨hacc, hu, hap⟩, rfl⟩ := h
      exact ⟨_, ih.mpr ⟨hacc, rfl⟩, accept_eq_ok.mpr ⟨hu, hap, rfl⟩⟩

theorem build_eq_ok {typeName : String} {decls : List (FieldDecl R)} {s : Schema R} :
    build typeName decls = .ok s ↔ Acceptable decls ∧ s = ⟨typeName, decls.map FieldDecl.resolved⟩ := by
  unfold build
  rw [map_eq_ok]
  refine ⟨?_, ?_⟩
  · intro h
    obtain ⟨es, he, rfl⟩ := h
    obtain ⟨hacc, rfl⟩ := foldlM_accept_eq_ok.mp he
    exact ⟨hacc, rfl⟩
  · intro h
    obtain ⟨hacc, rfl⟩ := h
    exact ⟨_, foldlM_accept_eq_ok.mpr ⟨hacc, rfl⟩, rfl⟩

theorem build_eq_error {typeName : String} {decls : List (FieldDecl R)} {err : SchemaError} :
    build typeName decls = .error err ↔
      ∃ before d after s, decls = before ++ d :: after ∧ build typeName before = .ok s ∧
        Rejects typeName s.entries d err := by
  unfold build
  rw [map_eq_error, foldlM_eq_error]
  refine ⟨?_, ?_⟩
  · intro h
    obtain ⟨before, d, after, es, rfl, hb, he⟩ := h
    exact ⟨before, d, after, ⟨typeName, es⟩, rfl, by rw [hb]; rfl, accept_eq_error.mp he⟩
  · intro h
    obtain ⟨before, d, after, s, rfl, hb, he⟩ := h
    obtain ⟨es, hes, rfl⟩ := map_eq_ok.mp hb
    exact ⟨before, d, after, es, rfl, hes, accept_eq_error.mpr he⟩

theorem build_append_error {typeName : String} {decls : List (FieldDecl R)} {err : SchemaError}
    (h : build typeName decls = .error err) (more : List (FieldDecl R)) :
    build typeName (decls ++ more) = .error err := by
  unfold build at h ⊢
  exact map_eq_error.mpr (foldlM_append_error (map_eq_error.mp h) more)

/-! ## Built schemas -/

section
variable {typeName : String} {decls : List (FieldDecl R)} {s : Schema R}

theorem nodup_fields (hb : build typeName decls = .ok s) : (s.entries.map (·.field)).Nodup := by
  obtain ⟨hacc, rfl⟩ := build_eq_ok.mp hb
  rw [List.map_map]
  exact hacc.fields

theorem slot_ne_none (hb : build typeName decls = .ok s) :
    ∀ e ∈ s.entries, e.skip = false → e.slot ≠ none := by
  obtain ⟨hacc, rfl⟩ := build_eq_ok.mp hb
  intro e he
  obtain ⟨d, hd, rfl⟩ := List.mem_map.mp he
  exact (hacc.usable d hd).slot

theorem pairwise_properties (hb : build typeName decls = .ok s) :
    s.entries.Pairwise fun e e' => caseless e.property e'.property = false := by
  obtain ⟨hacc, rfl⟩ := build_eq_ok.mp hb
  exact List.pairwise_map.mpr hacc.properties

end

theorem lookup?_eq_some {s : Schema R}
    (hs : s.entries.Pairwise fun e e' => caseless e.property e'.property = false) {p : String} {e : Entry R} :
    s.lookup? p = some e ↔ e ∈ s.entries ∧ caseless e.property p = true := by
  unfold lookup?
  refine ⟨?_, ?_⟩
  · intro h
    exact ⟨List.mem_of_find?_eq_some h, by simpa using List.find?_some h⟩
  · intro h
    obtain ⟨he, hp⟩ := h
    obtain ⟨before, after, hb⟩ := List.append_of_mem he
    rw [List.find?_eq_some_iff_append]
    refine ⟨hp, before, after, hb, ?_⟩
    intro e' he'
    rw [hb, List.pairwise_append] at hs
    have := hs.2.2 e' he' e (by simp)
    by_cases hp' : caseless e'.property p = true
    · rw [caseless_trans hp' (caseless_comm .. ▸ hp)] at this
      cases this
    · simpa using hp'

theorem eq_of_caseless {typeName : String} {decls : List (FieldDecl R)} {s : Schema R}
    (hb : build typeName decls = .ok s) {e e' : Entry R} (he : e ∈ s.entries) (he' : e' ∈ s.entries)
    (h : caseless e.property e'.property = true) : e = e' := by
  have h₁ := (lookup?_eq_some (pairwise_properties hb)).mpr ⟨he, h⟩
  have h₂ := (lookup?_eq_some (pairwise_properties hb)).mpr ⟨he', caseless_refl e'.property⟩
  rw [h₁] at h₂
  exact Option.some.inj h₂

/-- The lists that build, what they build, and the error of every other list, whatever follows. -/
theorem build_exact (typeName : String) (decls : List (FieldDecl R)) :
    ((∃ s, build typeName decls = .ok s) ↔ Acceptable decls) ∧
    (∀ s, build typeName decls = .ok s →
      s.typeName = typeName ∧ s.entries = decls.map FieldDecl.resolved ∧
        ∀ p e, s.lookup? p = some e ↔ e ∈ s.entries ∧ caseless e.property p = true) ∧
    (∀ err, build typeName decls = .error err ↔
      ∃ before d after s, decls = before ++ d :: after ∧ build typeName before = .ok s ∧
        Rejects typeName s.entries d err) ∧
    (∀ err, build typeName decls = .error err → ∀ more, build typeName (decls ++ more) = .error err) := by
  refine ⟨⟨?_, ?_⟩, ?_, fun _ => build_eq_error, fun _ => build_append_error⟩
  · intro h
    obtain ⟨s, h⟩ := h
    exact (build_eq_ok.mp h).1
  · intro h
    exact ⟨_, build_eq_ok.mpr ⟨h, rfl⟩⟩
  · intro s h
    have hp := pairwise_properties h
    obtain ⟨hacc, rfl⟩ := build_eq_ok.mp h
    exact ⟨rfl, rfl, fun p e => lookup?_eq_some hp⟩

theorem build_exact_shadow :
    build "T" ([(FieldDecl.skipped "shadow").rename "NAME"] : List (FieldDecl Unit)) =
      .ok ⟨"T", [⟨"NAME", "shadow", true, none⟩]⟩ ∧
    lookup? (⟨"T", [⟨"NAME", "shadow", true, none⟩]⟩ : Schema Unit) "name" =
      some ⟨"NAME", "shadow", true, none⟩ ∧
    build "T" ([(FieldDecl.skipped "shadow").rename "NAME", .skipped "name"] : List (FieldDecl Unit)) =
      .error (.sharedProperty "T" "name" "shadow" "name") ∧
    build "T" ([(FieldDecl.skipped "shadow").rename "NAME", .skipped "name", .skipped "shadow"] :
      List (FieldDecl Unit)) = .error (.sharedProperty "T" "name" "shadow" "name") := by
  have hb : build "T" ([(FieldDecl.skipped "shadow").rename "NAME"] : List (FieldDecl Unit)) =
      .ok ⟨"T", [⟨"NAME", "shadow", true, none⟩]⟩ := rfl
  have he : build "T" ([(FieldDecl.skipped "shadow").rename "NAME", .skipped "name"] : List (FieldDecl Unit)) =
      .error (.sharedProperty "T" "name" "shadow" "name") := rfl
  refine ⟨hb, ?_, he, (build_exact "T" _).2.2.2 _ he [.skipped "shadow"]⟩
  exact (((build_exact "T" _).2.1 _ hb).2.2 "name" _).mpr ⟨List.mem_singleton_self _, rfl⟩

end Schema

end TypedRecords
