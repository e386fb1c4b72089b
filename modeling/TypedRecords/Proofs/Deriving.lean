import TypedRecords.Catalog
import TypedRecords.Derive
import TypedRecords.Proofs.Renaming

/-!
# What attributes derive

The items of all attributes of a type, or of a field, count together. Items of the type make it decode itself or end the
derivation; without them the fields are read one by one, each by its own items. The derived declarations build under the
conditions that the renames and the names of the fields meet, and then there is one entry for each field.
-/

namespace TypedRecords

theorem eq_map_some_iff {l : List (Option α)} {as : List α} : l = as.map some ↔ (∀ p ∈ l, p ≠ none) ∧ as = l.filterMap id := by
  refine ⟨?_, ?_⟩
  · rintro rfl
    simp
  · intro h
    obtain ⟨hl, rfl⟩ := h
    induction l with
    | nil => rfl
    | cons p l ih =>
      rw [List.forall_mem_cons] at hl
      obtain ⟨a, rfl⟩ := Option.ne_none_iff_exists'.mp hl.1
      rw [List.filterMap_cons, id, List.map_cons, ← ih hl.2]

namespace Derive

/-! ## Items -/

def unmarshalItem : Item := ⟨"unmarshal", none⟩

def skipItem : Item := ⟨"skip", none⟩

def renameItem (name : String) : Item := ⟨"rename", some (.text name)⟩

def Item.rename? (item : Item) : Option String :=
  if item.word = "rename" then
    match item.value with
    | some (.text name) => some name
    | _ => none
  else none

/-- The items of an attribute. One without a list of items, which is not foreign, holds something that is no item. -/
def Attribute.parts : Attribute → List (Option Item)
  | .foreign => []
  | .bare | .assigned => [none]
  | .items list => list.map some

def parts (attributes : List Attribute) : List (Option Item) := attributes.flatMap Attribute.parts

theorem read_eq_ok {attr : Attribute} {items : List Item} : attr.read = .ok items ↔ attr.parts = items.map some := by
  cases attr with
  | foreign => cases items <;> simp [Attribute.read, Attribute.parts]
  | bare => cases items <;> simp [Attribute.read, Attribute.parts]
  | assigned => cases items <;> simp [Attribute.read, Attribute.parts]
  | items list => rw [Attribute.read, Attribute.parts, List.map_inj_right fun _ _ => Option.some.inj, Except.ok.injEq]

theorem foldItems_eq_ok {step : α → Item → Except AttributeFault α} {a b : α} {attributes : List Attribute} :
    foldItems step a attributes = .ok b ↔
      ∃ items : List Item, parts attributes = items.map some ∧ items.foldlM step a = .ok b := by
  induction attributes generalizing a with
  | nil =>
    show Except.ok a = .ok b ↔ _
    refine ⟨fun h => ⟨[], rfl, h⟩, ?_⟩
    intro h
    obtain ⟨items, hparts, h⟩ := h
    obtain rfl : items = [] := List.map_eq_nil_iff.mp hparts.symm
    exact h
  | cons attr attributes ih =>
    have hfold : foldItems step a (attr :: attributes) =
        (attr.read.bind (List.foldlM step a)).bind (foldItems step · attributes) := rfl
    have hparts : parts (attr :: attributes) = attr.parts ++ parts attributes := List.flatMap_cons
    rw [hfold, bind_eq_ok, hparts]
    simp only [bind_eq_ok, read_eq_ok, ih]
    refine ⟨?_, ?_⟩
    · intro h
      obtain ⟨c, ⟨items, hitems, hc⟩, items', hitems', hb⟩ := h
      refine ⟨items ++ items', by rw [hitems, hitems', List.map_append], ?_⟩
      rw [List.foldlM_append, doBind_eq_ok]
      exact ⟨c, hc, hb⟩
    · intro h
      obtain ⟨all, hall, h⟩ := h
      obtain ⟨items, items', rfl, hitems, hitems'⟩ := List.map_eq_append_iff.mp hall.symm
      rw [List.foldlM_append, doBind_eq_ok] at h
      obtain ⟨c, hc, hb⟩ := h
      exact ⟨c, ⟨items, hitems.symm, hc⟩, items', hitems'.symm, hb⟩

/-! ## Items of a type -/

theorem typeItem_eq_ok {b b' : Bool} {item : Item} :
    typeItem b item = .ok b' ↔ item = unmarshalItem ∧ b' = true := by
  obtain ⟨word, value⟩ := item
  unfold typeItem
  by_cases hword : word = "unmarshal"
  · cases value with
    | none => simp [hword, unmarshalItem, eq_comm]
    | some v => simp [hword, unmarshalItem]
  · simp [hword, unmarshalItem]

theorem foldlM_typeItem {items : List Item} {b : Bool} :
    items.foldlM typeItem false = .ok b ↔ (∀ item ∈ items, item = unmarshalItem) ∧ b = !items.isEmpty := by
  induction items using List.reverseRecOn generalizing b with
  | nil =>
    show Except.ok false = .ok b ↔ _
    simp [eq_comm]
  | append_singleton items item ih =>
    rw [foldlM_snoc, bind_eq_ok]
    simp only [ih, typeItem_eq_ok, List.forall_mem_append, List.forall_mem_singleton]
    refine ⟨?_, ?_⟩
    · intro h
      obtain ⟨_, ⟨hall, rfl⟩, hitem, rfl⟩ := h
      exact ⟨⟨hall, hitem⟩, by simp⟩
    · intro h
      obtain ⟨⟨hall, hitem⟩, rfl⟩ := h
      exact ⟨_, ⟨hall, rfl⟩, hitem, by simp⟩

/-! ## Items of a field -/

theorem fieldItem_eq_ok {seen seen' : FieldItems} {item : Item} : fieldItem seen item = .ok seen' ↔
    item = skipItem ∧ seen' = { seen with skip := true } ∨
      ∃ name, item = renameItem name ∧ seen.rename = none ∧ seen' = { seen with rename := some name } := by
  obtain ⟨word, value⟩ := item
  unfold fieldItem
  by_cases hrename : word = "rename"
  · subst hrename
    cases value with
    | none => simp [skipItem, renameItem]
    | some v =>
      cases v with
      | other => simp [skipItem, renameItem]
      | text name => cases hseen : seen.rename <;> simp [skipItem, renameItem, eq_comm]
  · by_cases hskip : word = "skip"
    · subst hskip
      cases value with
      | none => simp [skipItem, renameItem, eq_comm]
      | some v => simp [skipItem, renameItem]
    · simp [hrename, hskip, skipItem, renameItem]

@[simp] theorem rename?_skipItem : skipItem.rename? = none := rfl
@[simp] theorem rename?_renameItem (name : String) : (renameItem name).rename? = some name := rfl

@[simp] theorem skipItem_ne_renameItem (name : String) : skipItem ≠ renameItem name := by
  simp [skipItem, renameItem]

def renames (items : List Item) : List String := items.filterMap Item.rename?

theorem renames_snoc (items : List Item) (item : Item) :
    renames (items ++ [item]) = renames items ++ item.rename?.toList := by
  cases h : item.rename? <;> simp [renames, List.filterMap_append, h]

theorem foldlM_fieldItem {items : List Item} {seen : FieldItems} :
    items.foldlM fieldItem ⟨none, false⟩ = .ok seen ↔
      (∀ item ∈ items, item = skipItem ∨ ∃ name, item = renameItem name) ∧ (renames items).length ≤ 1 ∧
        seen = ⟨(renames items).head?, items.contains skipItem⟩ := by
  induction items using List.reverseRecOn generalizing seen with
  | nil =>
    show Except.ok (⟨none, false⟩ : FieldItems) = .ok seen ↔ _
    simp [renames, eq_comm]
  | append_singleton items item ih =>
    rw [foldlM_snoc, bind_eq_ok, renames_snoc]
    simp only [ih, fieldItem_eq_ok, List.forall_mem_append, List.forall_mem_singleton]
    refine ⟨?_, ?_⟩
    · intro h
      obtain ⟨_, ⟨hitems, hlen, rfl⟩, ⟨rfl, rfl⟩ | ⟨name, rfl, hnone, rfl⟩⟩ := h
      · exact ⟨⟨hitems, .inl rfl⟩, by simpa using hlen, by simp⟩
      · have hnil : renames items = [] := List.head?_eq_none_iff.mp hnone
        exact ⟨⟨hitems, .inr ⟨name, rfl⟩⟩, by simp [hnil], by simp [hnil]⟩
    · intro h
      obtain ⟨⟨hitems, rfl | ⟨name, rfl⟩⟩, hlen, rfl⟩ := h
      · exact ⟨_, ⟨hitems, by simpa using hlen, rfl⟩, .inl ⟨rfl, by simp⟩⟩
      · have hnil : renames items = [] := by simpa using hlen
        exact ⟨_, ⟨hitems, by simp [hnil], rfl⟩, .inr ⟨name, rfl, by simp [hnil], by simp [hnil]⟩⟩

def items (attributes : List Attribute) : List Item := (parts attributes).filterMap id

theorem foldItems_typeItem {attributes : List Attribute} {b : Bool} : foldItems typeItem false attributes = .ok b ↔
    (∀ p ∈ parts attributes, p = some unmarshalItem) ∧ b = !(parts attributes).isEmpty := by
  simp only [foldItems_eq_ok, foldlM_typeItem]
  refine ⟨?_, ?_⟩
  · intro h
    obtain ⟨items, hparts, hall, rfl⟩ := h
    rw [hparts]
    exact ⟨by simpa using hall, by simp⟩
  · intro h
    obtain ⟨hall, rfl⟩ := h
    have hparts : parts attributes = (items attributes).map some :=
      eq_map_some_iff.mpr ⟨fun p hp => by simp [hall p hp], rfl⟩
    refine ⟨items attributes, hparts, ?_, ?_⟩
    · rw [hparts] at hall
      simpa using hall
    · rw [hparts, List.isEmpty_map]

namespace FieldDef

def renames (f : FieldDef) : List String := Derive.renames (items f.attributes)

def skips (f : FieldDef) : Bool := (items f.attributes).contains skipItem

structure Clear (f : FieldDef) : Prop where
  items : ∀ p ∈ parts f.attributes, p = some skipItem ∨ ∃ name, p = some (renameItem name)
  once : f.renames.length ≤ 1

def derived (f : FieldDef) : DerivedField :=
  ⟨plainName f.name, f.name, withoutBlanks f.type, f.skips, f.renames.head?⟩

theorem derive_eq_ok (f : FieldDef) (g : DerivedField) : f.derive = .ok g ↔ f.Clear ∧ g = f.derived := by
  unfold derive
  simp only [map_eq_ok, foldItems_eq_ok, foldlM_fieldItem]
  refine ⟨?_, ?_⟩
  · intro h
    obtain ⟨_, ⟨list, hparts, hall, honce, rfl⟩, rfl⟩ := h
    obtain rfl : list = items f.attributes := (eq_map_some_iff.mp hparts).2
    refine ⟨⟨?_, honce⟩, rfl⟩
    rw [hparts]
    simpa using hall
  · intro h
    obtain ⟨⟨hall, honce⟩, rfl⟩ := h
    have hparts : parts f.attributes = (items f.attributes).map some := by
      refine eq_map_some_iff.mpr ⟨?_, rfl⟩
      intro p hp
      rcases hall p hp with rfl | ⟨name, rfl⟩ <;> exact nofun
    refine ⟨_, ⟨_, hparts, ?_, honce, rfl⟩, rfl⟩
    rw [hparts] at hall
    simpa using hall

end FieldDef

/-! ## Derived declarations -/

namespace DerivedField

def Named (g : DerivedField) : Prop := ∀ name, g.rename = some name → IsName (trim name.toList)

def trimmed? (g : DerivedField) : Option String := g.rename.map fun name => String.ofList (trim name.toList)

def property (g : DerivedField) : String := g.trimmed?.getD g.field

variable {g : DerivedField} {slot : Slot R}

@[simp] theorem field_declare : (g.declare slot).field = g.field := by
  unfold declare
  cases g.rename <;> cases g.skipped <;> rfl

@[simp] theorem slot_declare : (g.declare slot).slot = if g.skipped then none else some slot := by
  unfold declare
  cases g.rename <;> cases g.skipped <;> rfl

theorem directives_declare (typeName : String) {ds : Directives} :
    (g.declare slot).directives typeName = .ok ds ↔ g.Named ∧ ds = ⟨g.trimmed?, g.skipped⟩ := by
  obtain ⟨field, sets, type, skipped, rename⟩ := g
  have hname : ∀ name : String,
      (∃ property : String, Trims name.toList property.toList ∧ IsName property.toList ∧ ds = ⟨some property, skipped⟩) ↔
        IsName (trim name.toList) ∧ ds = ⟨some (String.ofList (trim name.toList)), skipped⟩ := by
    intro name
    simp only [trims_iff]
    refine ⟨?_, ?_⟩
    · intro h
      obtain ⟨property, hp, hn, rfl⟩ := h
      rw [← hp, String.ofList_toList]
      exact ⟨hn, rfl⟩
    · intro h
      obtain ⟨hn, rfl⟩ := h
      exact ⟨_, String.toList_ofList, by rwa [String.toList_ofList], rfl⟩
  cases rename with
  | none =>
    cases skipped with
    | false =>
      show Except.ok Directives.none = .ok ds ↔ _
      simp [Named, trimmed?, Directives.none, eq_comm]
    | true =>
      have hread : Directives.read "skip" = .ok ⟨none, true⟩ := by decide
      rw [FieldDecl.directives_of_text (show _ = some "skip" from rfl), hread]
      simp [Named, trimmed?, eq_comm]
  | some name =>
    have hnamed : Named ⟨field, sets, type, skipped, some name⟩ ↔ IsName (trim name.toList) := by simp [Named]
    rw [hnamed]
    refine Iff.trans ?_ (hname name)
    cases skipped with
    | false => exact (FieldDecl.directives_of_text rfl).trans Directives.read_rename_iff
    | true => exact (FieldDecl.directives_of_text rfl).trans Directives.read_skip_rename_iff

theorem reads_declare : (g.declare slot).Reads ↔ g.Named := by
  refine ⟨?_, ?_⟩
  · intro h
    exact ((directives_declare "").mp (FieldDecl.directives_eq_ok.mpr ⟨h, rfl⟩)).1
  · intro h
    exact (FieldDecl.directives_eq_ok.mp ((directives_declare "").mpr ⟨h, rfl⟩)).1

theorem given_declare (h : g.Named) : (g.declare slot).given = ⟨g.trimmed?, g.skipped⟩ :=
  (FieldDecl.directives_eq_ok.mp ((directives_declare "").mpr ⟨h, rfl⟩)).2.symm

theorem usable_declare : (g.declare slot).Usable ↔ g.Named := by
  refine ⟨?_, ?_⟩
  · intro hu
    exact reads_declare.mp hu.reads
  · intro h
    refine ⟨reads_declare.mpr h, ?_⟩
    intro hs
    rw [given_declare h] at hs
    simp [show g.skipped = false from hs]

def entry (slot : Slot R) (g : DerivedField) : Entry R :=
  ⟨g.property, g.field, g.skipped, if g.skipped then none else some slot⟩

theorem resolved_declare (h : g.Named) : (g.declare slot).resolved = g.entry slot := by
  rw [FieldDecl.resolved, FieldDecl.property, given_declare h, field_declare, slot_declare]
  rfl

theorem property_declare (h : g.Named) : (g.declare slot).property = g.property :=
  congrArg Entry.property (resolved_declare h)

/-- Derived fields build exactly if every rename names a property and no two fields have one name or one property. -/
theorem build_declare {typeName : String} {slots : DerivedField → Slot R} {gs : List DerivedField} {s : Schema R} :
    Schema.build typeName (gs.map fun g => g.declare (slots g)) = .ok s ↔
      ((gs.map (·.field)).Nodup ∧ (∀ g ∈ gs, g.Named) ∧
        (gs.map (·.property)).Pairwise fun p p' => caseless p p' = false) ∧
      s = ⟨typeName, gs.map fun g => g.entry (slots g)⟩ := by
  have hfields : (gs.map fun g => g.declare (slots g)).map (·.field) = gs.map (·.field) := by
    rw [List.map_map]
    exact List.map_congr_left fun _ _ => field_declare
  have hresolved : (∀ g ∈ gs, g.Named) →
      (gs.map fun g => g.declare (slots g)).map FieldDecl.resolved = gs.map fun g => g.entry (slots g) := by
    intro h
    rw [List.map_map]
    exact List.map_congr_left fun g hg => resolved_declare (h g hg)
  have hproperties : (∀ g ∈ gs, g.Named) → (gs.map fun g => g.declare (slots g)).map (·.property) = gs.map (·.property) := by
    intro h
    rw [List.map_map]
    exact List.map_congr_left fun g hg => property_declare (h g hg)
  rw [Schema.build_eq_ok]
  refine ⟨?_, ?_⟩
  · intro h
    obtain ⟨⟨husable, hnodup, hpair⟩, rfl⟩ := h
    have hnamed : ∀ g ∈ gs, g.Named := fun g hg => usable_declare.mp (husable _ (List.mem_map_of_mem hg))
    rw [hfields] at hnodup
    rw [← hproperties hnamed, List.pairwise_map]
    exact ⟨⟨hnodup, hnamed, hpair⟩, by rw [hresolved hnamed]⟩
  · intro h
    obtain ⟨⟨hnodup, hnamed, hpair⟩, rfl⟩ := h
    rw [← hproperties hnamed, List.pairwise_map] at hpair
    refine ⟨⟨?_, hfields ▸ hnodup, hpair⟩, by rw [hresolved hnamed]⟩
    intro d hd
    obtain ⟨g, hg, rfl⟩ := List.mem_map.mp hd
    exact usable_declare.mpr (hnamed g hg)

end DerivedField

/-! ## Definitions -/

namespace FieldDef

def property (f : FieldDef) : String :=
  match f.renames with
  | [] => plainName f.name
  | name :: _ => String.ofList (trim name.toList)

theorem property_derived (f : FieldDef) : f.derived.property = f.property := by
  unfold DerivedField.property DerivedField.trimmed? derived property
  cases f.renames <;> rfl

theorem named_derived {f : FieldDef} (h : f.Clear) :
    f.derived.Named ↔ ∀ name ∈ f.renames, IsName (trim name.toList) := by
  have honce := h.once
  unfold DerivedField.Named derived
  cases hnames : f.renames with
  | nil => simp
  | cons name names =>
    obtain rfl : names = [] := by simpa [hnames] using honce
    simp

end FieldDef

namespace Definition

variable {d : Definition}

theorem derive_eq_selfDecoding (hne : parts d.attributes ≠ []) (hall : ∀ p ∈ parts d.attributes, p = some unmarshalItem) :
    d.derive = .ok .selfDecoding := by
  have hfold : foldItems typeItem false d.attributes = .ok true := foldItems_typeItem.mpr ⟨hall, by simpa using hne⟩
  unfold derive
  rw [hfold]

theorem exists_derive_eq_error (h : ∃ p ∈ parts d.attributes, p ≠ some unmarshalItem) : ∃ fault, d.derive = .error fault := by
  obtain ⟨p, hp, hne⟩ := h
  cases hfold : foldItems typeItem false d.attributes with
  | error fault =>
    refine ⟨fault, ?_⟩
    unfold derive
    rw [hfold]
  | ok b => exact absurd ((foldItems_typeItem.mp hfold).1 p hp) hne

theorem derive_eq_ok (h : parts d.attributes = []) {derived : Derived} : d.derive = .ok derived ↔
    ∃ fields, d.shape = .named fields ∧ (∀ f ∈ fields, f.Clear) ∧ derived = .fields (fields.map FieldDef.derived) := by
  have hfold : foldItems typeItem false d.attributes = .ok false := foldItems_typeItem.mpr (by simp [h])
  unfold derive
  rw [hfold]
  cases d.shape with
  | named fields =>
    show (fields.mapM FieldDef.derive).map Derived.fields = .ok derived ↔ _
    simp only [map_eq_ok, mapM_eq_ok FieldDef.derive_eq_ok, Shape.named.injEq, exists_eq_left']
    refine ⟨?_, ?_⟩
    · intro h
      obtain ⟨_, ⟨hclear, rfl⟩, rfl⟩ := h
      exact ⟨hclear, rfl⟩
    · intro h
      obtain ⟨hclear, rfl⟩ := h
      exact ⟨_, ⟨hclear, rfl⟩, rfl⟩
  | tuple => simp
  | unit => simp
  | notStruct => simp

theorem build_derived {typeName : String} {slots : String → String → Slot R} {fields : List FieldDef}
    (hclear : ∀ f ∈ fields, f.Clear) {s : Schema R} :
    Schema.build typeName ((fields.map FieldDef.derived).map fun g => g.declare (slots g.sets g.type)) = .ok s ↔
      ((fields.map fun f => plainName f.name).Nodup ∧ (∀ f ∈ fields, ∀ name ∈ f.renames, IsName (trim name.toList)) ∧
        (fields.map FieldDef.property).Pairwise fun p p' => caseless p p' = false) ∧
      s = ⟨typeName, fields.map fun f => ⟨f.property, plainName f.name, f.skips,
        if f.skips then none else some (slots f.name (withoutBlanks f.type))⟩⟩ := by
  have hnamed : (∀ g ∈ fields.map FieldDef.derived, g.Named) ↔
      ∀ f ∈ fields, ∀ name ∈ f.renames, IsName (trim name.toList) := by
    rw [List.forall_mem_map]
    exact forall₂_congr fun f hf => FieldDef.named_derived (hclear f hf)
  have hproperties : (fields.map FieldDef.derived).map (·.property) = fields.map FieldDef.property := by
    rw [List.map_map]
    exact List.map_congr_left fun f _ => f.property_derived
  have hentries : (fields.map FieldDef.derived).map (fun g => g.entry (slots g.sets g.type)) =
      fields.map fun f => ⟨f.property, plainName f.name, f.skips,
        if f.skips then none else some (slots f.name (withoutBlanks f.type))⟩ := by
    rw [List.map_map]
    refine List.map_congr_left fun f _ => ?_
    rw [← f.property_derived]
    rfl
  rw [DerivedField.build_declare, hnamed, hproperties, hentries, List.map_map]
  rfl

/-- What the attributes of a type definition come to. If the type has items of its own, it decodes itself when all of them
ask for that, whatever else it is, and nothing is derived otherwise. Without them something is derived exactly if the type
is a struct with named fields, each of which has only skips and at most one rename. The schema of the derived declarations
builds exactly if every rename names a property, white space at its ends apart, and no two properties are the same up to
case, for fields with different names, which the fields of a struct have. It has one entry for each field, in order. -/
theorem derive_resolves (d : Definition) (typeName : String) (slots : String → String → Slot R) :
    (parts d.attributes ≠ [] → (∀ p ∈ parts d.attributes, p = some unmarshalItem) → d.derive = .ok .selfDecoding) ∧
    ((∃ p ∈ parts d.attributes, p ≠ some unmarshalItem) → ∃ fault, d.derive = .error fault) ∧
    (parts d.attributes = [] →
      ((∃ derived, d.derive = .ok derived) ↔ ∃ fields, d.shape = .named fields ∧ ∀ f ∈ fields, f.Clear) ∧
      ∀ derived, d.derive = .ok derived → ∃ fields gs, d.shape = .named fields ∧ derived = .fields gs ∧
        ∀ s, Schema.build typeName (gs.map fun g => g.declare (slots g.sets g.type)) = .ok s ↔
          ((fields.map fun f => plainName f.name).Nodup ∧
            (∀ f ∈ fields, ∀ name ∈ f.renames, IsName (trim name.toList)) ∧
            (fields.map FieldDef.property).Pairwise fun p p' => caseless p p' = false) ∧
          s = ⟨typeName, fields.map fun f => ⟨f.property, plainName f.name, f.skips,
            if f.skips then none else some (slots f.name (withoutBlanks f.type))⟩⟩) := by
  refine ⟨derive_eq_selfDecoding, exists_derive_eq_error, ?_⟩
  intro h
  refine ⟨?_, ?_⟩
  · simp only [derive_eq_ok h]
    refine ⟨?_, ?_⟩
    · intro h
      obtain ⟨_, fields, hshape, hclear, -⟩ := h
      exact ⟨fields, hshape, hclear⟩
    · intro h
      obtain ⟨fields, hshape, hclear⟩ := h
      exact ⟨_, fields, hshape, hclear, rfl⟩
  · intro derived hd
    obtain ⟨fields, hshape, hclear, rfl⟩ := (derive_eq_ok h).mp hd
    exact ⟨fields, _, hshape, rfl, fun _ => build_derived hclear⟩

theorem derive_resolves_raw :
    derive ⟨"Lamp", .notStruct, [.items [unmarshalItem]], [], []⟩ = .ok .selfDecoding ∧
    (∃ fault, derive ⟨"Lamp", .notStruct, [.items [unmarshalItem], .items [skipItem]], [], []⟩ = .error fault) ∧
    ∃ gs, derive ⟨"Lamp", .named [⟨"r#type", "String", [.foreign]⟩,
        ⟨"shade", "Option < u8 >", [.items [skipItem], .items [renameItem " Shade_ ", skipItem]]⟩], [.items []], [], []⟩ =
          .ok (.fields gs) ∧
      Schema.build "Lamp" (gs.map fun g => g.declare (Slot.typed .string fun name _ => name)) =
        .ok ⟨"Lamp", [⟨"type", "type", false, some (.typed .string fun name _ => name)⟩, ⟨"Shade_", "shade", true, none⟩]⟩ := by
  refine ⟨?_, ?_, ?_⟩
  · exact (derive_resolves _ "Lamp" fun _ _ => Slot.typed .string fun name _ => name).1 (by decide) (by decide)
  · exact (derive_resolves _ "Lamp" fun _ _ => Slot.typed .string fun name _ => name).2.1 ⟨some skipItem, by decide, by decide⟩
  · obtain ⟨hok, hbuild⟩ := (derive_resolves ⟨"Lamp", .named [⟨"r#type", "String", [.foreign]⟩,
        ⟨"shade", "Option < u8 >", [.items [skipItem], .items [renameItem " Shade_ ", skipItem]]⟩], [.items []], [], []⟩
      "Lamp" fun _ _ => Slot.typed .string fun name _ => name).2.2 rfl
    have hclear : ∀ f ∈ [(⟨"r#type", "String", [.foreign]⟩ : FieldDef),
        ⟨"shade", "Option < u8 >", [.items [skipItem], .items [renameItem " Shade_ ", skipItem]]⟩], f.Clear := by
      rw [List.forall_mem_cons, List.forall_mem_singleton]
      refine ⟨⟨nofun, by decide⟩, ⟨?_, by decide⟩⟩
      simp [parts, Attribute.parts]
    obtain ⟨derived, hd⟩ := hok.mpr ⟨_, rfl, hclear⟩
    obtain ⟨fields, gs, hshape, rfl, hs⟩ := hbuild derived hd
    cases hshape
    refine ⟨gs, hd, (hs _).mpr ⟨⟨by decide, ?_, by decide⟩, ?_⟩⟩
    · simp only [isName_iff]
      decide
    · rfl

end Definition

end Derive

end TypedRecords
