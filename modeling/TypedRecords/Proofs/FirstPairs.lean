import Mathlib.Data.List.Forall2
import Mathlib.Logic.Relation
import TypedRecords.Proofs.Places

/-!
# First pairs

A request is answered by the first pair whose name is the same up to the case of ASCII letters. Bags with the same
first pairs for the entries that are not skipped are decoded alike, so names in another case, repeated names, pairs
that no such entry asks for and the order of pairs of different names make no difference.
-/

namespace TypedRecords

/-! ## Names up to case -/

def UpperLower (c d : Char) : Prop := c.isUpper ∧ d.toNat = c.toNat + 32

def SameLetter (c d : Char) : Prop := c = d ∨ UpperLower c d ∨ UpperLower d c

/-- The names differ at most in the case of ASCII letters. -/
def SameName (a b : String) : Prop := List.Forall₂ SameLetter a.toList b.toList

theorem isUpper_iff {c : Char} : c.isUpper = true ↔ 65 ≤ c.toNat ∧ c.toNat ≤ 90 := by
  show decide (c.val ≥ 'A'.val ∧ c.val ≤ 'Z'.val) = true ↔ _
  simp [UInt32.le_iff_toNat_le]

theorem toNat_toLower (c : Char) : c.toLower.toNat = if c.isUpper then c.toNat + 32 else c.toNat := by
  by_cases h : c.isUpper = true
  · have hbounds := isUpper_iff.mp h
    have hval : c.toLower.val = c.val + 32 := by
      unfold Char.toLower
      rw [dif_pos (of_decide_eq_true h)]
      rfl
    rw [if_pos h, ← Char.toNat_val, hval, UInt32.toNat_add, Char.toNat_val, show (32 : UInt32).toNat = 32 from rfl]
    omega
  · unfold Char.toLower
    rw [if_neg h, dif_neg fun hc => h (decide_eq_true hc)]

theorem toLower_eq_iff {c d : Char} : c.toLower = d.toLower ↔ SameLetter c d := by
  unfold SameLetter UpperLower
  rw [← Char.toNat_inj, ← Char.toNat_inj, toNat_toLower, toNat_toLower]
  by_cases hc : c.isUpper = true <;> by_cases hd : d.isUpper = true <;>
    simp only [hc, hd, if_true, if_false, true_and, false_and, or_false, false_or, Bool.false_eq_true] <;>
    simp only [isUpper_iff] at hc hd <;> omega

theorem caseless_iff_sameName {a b : String} : caseless a b = true ↔ SameName a b := by
  rw [caseless_iff, caseKey, caseKey, ← List.forall₂_eq_eq_eq, List.forall₂_map_left_iff, List.forall₂_map_right_iff]
  simp only [toLower_eq_iff]
  rfl

theorem caseless_eq_false_iff {a b : String} : caseless a b = false ↔ ¬ SameName a b := by
  rw [← caseless_iff_sameName, Bool.not_eq_true]

/-! ## Bags with the same first pairs -/

namespace Bag

def First (b : Bag) (name : String) (v : Value) : Prop :=
  ∃ before n after, b.pairs = before ++ (n, v) :: after ∧ SameName n name ∧ ∀ p ∈ before, ¬ SameName p.1 name

theorem get?_eq_some {b : Bag} {name : String} {v : Value} : b.get? name = some v ↔ b.First name v := by
  simp only [get?, Option.map_eq_some_iff, List.find?_eq_some_iff_append, Bool.not_eq_true', caseless_eq_false_iff,
    caseless_iff_sameName]
  refine ⟨?_, ?_⟩
  · intro h
    obtain ⟨⟨n, w⟩, ⟨hn, before, after, hb, hne⟩, rfl⟩ := h
    exact ⟨before, n, after, hb, hn, hne⟩
  · intro h
    obtain ⟨before, n, after, hb, hn, hne⟩ := h
    exact ⟨(n, v), ⟨hn, before, after, hb, hne⟩, rfl⟩

end Bag

namespace Schema

variable {s : Schema R} {b b' : Bag}

/-- For each entry that is not skipped, the first pairs of its property have one value, or there are none. -/
def Agrees (s : Schema R) (b b' : Bag) : Prop :=
  ∀ e ∈ s.entries, e.skip = false → ∀ v, b.First e.property v ↔ b'.First e.property v

theorem agrees_iff : s.Agrees b b' ↔ ∀ e ∈ s.entries, e.skip = false → b.get? e.property = b'.get? e.property := by
  simp only [Agrees, ← Bag.get?_eq_some, ← Option.ext_iff]

theorem Agrees.object (h : s.Agrees b b') : ∀ e ∈ s.entries, e.skip = false → b.object e.property = b'.object e.property := by
  intro e he hs
  exact congrArg Except.ok (agrees_iff.mp h e he hs)

theorem agrees_of_get? (h : ∀ name, b.get? name = b'.get? name) : s.Agrees b b' :=
  agrees_iff.mpr fun e _ _ => h e.property

end Schema

/-! ## Changes that keep the first pairs -/

/-- The second list is the first with further elements, all with the property, put in anywhere. -/
inductive Interspersed (P : α → Prop) : List α → List α → Prop
  | nil : Interspersed P [] []
  | keep (a : α) {l l' : List α} : Interspersed P l l' → Interspersed P (a :: l) (a :: l')
  | put {a : α} {l l' : List α} : P a → Interspersed P l l' → Interspersed P l (a :: l')

/-- A change of a bag that decoding by the schema does not notice. -/
inductive Schema.Harmless (s : Schema R) : Bag → Bag → Prop
  | recase {ps qs : List (String × Value)} : List.Forall₂ (fun p q => SameName p.1 q.1 ∧ p.2 = q.2) ps qs →
      Harmless s ⟨ps⟩ ⟨qs⟩
  | append {ps more : List (String × Value)} : (∀ q ∈ more, ∃ p ∈ ps, SameName p.1 q.1) →
      Harmless s ⟨ps⟩ ⟨ps ++ more⟩
  | insert {ps qs : List (String × Value)} :
      Interspersed (fun p => ∀ e ∈ s.entries, SameName p.1 e.property → e.skip = true) ps qs →
      Harmless s ⟨ps⟩ ⟨qs⟩
  | permute {before ps qs after : List (String × Value)} : ps.Perm qs →
      (ps.Pairwise fun p q => ¬ SameName p.1 q.1) →
      Harmless s ⟨before ++ ps ++ after⟩ ⟨before ++ qs ++ after⟩

theorem find?_perm {f : α → Bool} {l l' : List α} (hp : l.Perm l')
    (hu : l.Pairwise fun a a' => f a = true → f a' = false) : l.find? f = l'.find? f := by
  induction hp with
  | nil => rfl
  | cons a hp ih => rw [List.find?_cons, List.find?_cons, ih hu.of_cons]
  | swap a a' l =>
    simp only [List.pairwise_cons, List.mem_cons, forall_eq_or_imp] at hu
    rw [List.find?_cons, List.find?_cons, List.find?_cons, List.find?_cons]
    cases ha : f a with
    | false => rfl
    | true =>
      cases ha' : f a' with
      | false => rfl
      | true => rw [hu.1.1 ha'] at ha; cases ha
  | trans hp hq ih ih' =>
    rw [ih hu, ih' (hu.perm hp _)]
    intro a a' h ha'
    by_contra ha
    rw [h (by simpa using ha)] at ha'
    cases ha'

namespace Bag

variable {ps qs : List (String × Value)} (name : String)

theorem get?_recase (h : List.Forall₂ (fun p q => SameName p.1 q.1 ∧ p.2 = q.2) ps qs) :
    get? ⟨ps⟩ name = get? ⟨qs⟩ name := by
  unfold get?
  induction h with
  | nil => rfl
  | @cons p q ps qs hpq h ih =>
    simp only [List.find?_cons, caseless_congr (caseless_iff_sameName.mpr hpq.1)]
    cases caseless q.1 name with
    | true => exact congrArg some hpq.2
    | false => exact ih

theorem get?_append {more : List (String × Value)} (h : ∀ q ∈ more, ∃ p ∈ ps, SameName p.1 q.1) :
    get? ⟨ps⟩ name = get? ⟨ps ++ more⟩ name := by
  unfold get?
  rw [List.find?_append]
  cases hf : ps.find? fun p => caseless p.1 name with
  | some p => rfl
  | none =>
    have hmore : (more.find? fun p => caseless p.1 name) = none := by
      rw [List.find?_eq_none] at hf ⊢
      intro q hq hname
      obtain ⟨p, hp, hpq⟩ := h q hq
      exact hf p hp (caseless_trans (caseless_iff_sameName.mpr hpq) hname)
    rw [hmore]
    rfl

theorem get?_intersperse {name : String} {P : String × Value → Prop} (h : Interspersed P ps qs)
    (hP : ∀ p, P p → caseless p.1 name = false) : get? ⟨ps⟩ name = get? ⟨qs⟩ name := by
  unfold get?
  induction h with
  | nil => rfl
  | keep p h ih =>
    simp only [List.find?_cons]
    cases caseless p.1 name with
    | true => rfl
    | false => exact ih
  | put hp h ih => simpa only [List.find?_cons, hP _ hp] using ih

theorem get?_permute {before after : List (String × Value)} (hp : ps.Perm qs)
    (hu : ps.Pairwise fun p q => ¬ SameName p.1 q.1) :
    get? ⟨before ++ ps ++ after⟩ name = get? ⟨before ++ qs ++ after⟩ name := by
  have hone : ps.Pairwise fun p q => caseless p.1 name = true → caseless q.1 name = false := by
    refine hu.imp ?_
    intro p q hne hp'
    by_contra hq
    rw [Bool.not_eq_false] at hq
    exact hne (caseless_iff_sameName.mp (caseless_trans hp' (caseless_comm .. ▸ hq)))
  unfold get?
  simp only [List.find?_append, find?_perm hp hone]

end Bag

namespace Schema

variable {s : Schema R} {b b' : Bag}

theorem Harmless.agrees (h : s.Harmless b b') : s.Agrees b b' := by
  cases h with
  | recase h => exact agrees_of_get? fun name => Bag.get?_recase name h
  | append h => exact agrees_of_get? fun name => Bag.get?_append name h
  | permute hp hu => exact agrees_of_get? fun name => Bag.get?_permute name hp hu
  | insert h =>
    refine agrees_iff.mpr ?_
    intro e he hs
    refine Bag.get?_intersperse h ?_
    intro p hp
    rw [caseless_eq_false_iff]
    intro hname
    rw [hp e he hname] at hs
    cases hs

theorem agrees_of_harmless (h : Relation.ReflTransGen s.Harmless b b') : s.Agrees b b' := by
  induction h with
  | refl => exact fun _ _ _ _ => .rfl
  | tail _ h ih => exact fun e he hs v => (ih e he hs v).trans (h.agrees e he hs v)

end Schema

/-! ## Objects that decoding does not tell apart -/

def Route.Alike (route : Route R) (o o' : Object) : Prop :=
  ∀ options fresh record,
    (route.decodeRecord options fresh record).result o = (route.decodeRecord options fresh record).result o' ∧
      (route.decodeRecord options fresh record).log o = (route.decodeRecord options fresh record).log o'

theorem alike_of_answers {schema : Schema R} {o o' : Object}
    (h : ∀ e ∈ schema.entries, e.skip = false → o e.property = o' e.property) : (Route.fields schema).Alike o o' := by
  intro options fresh record
  refine decodeEntries_congr ?_ fresh
  intro p hp
  obtain ⟨he, hd⟩ := mem_decodedOf.mp hp
  exact h p.1 he (decoded?_eq_some.mp hd).1

theorem decodeFrom_alike {route : Route R} {os os' : List Object} (h : List.Forall₂ route.Alike os os')
    (options : Options) (fresh : R) (record : Nat) :
    decodeFrom options fresh route record os = decodeFrom options fresh route record os' := by
  induction h generalizing record with
  | nil => rfl
  | @cons o o' os os' ho h ih =>
    obtain ⟨hr, hl⟩ := ho options fresh record
    have hrest : (os.map fun _ => ([] : List String)) = os'.map fun _ => [] := by
      rw [List.map_const', List.map_const', h.length_eq]
    simp only [decodeFrom, hr, hl, ih, hrest]

namespace Session

section
variable {s : Session R} {key : String} {route : Route R} (hr : (s.route key).result = .ok route)
include hr

theorem decodeOne_alike {o o' : Object} (h : route.Alike o o') : s.decodeOne key o = s.decodeOne key o' := by
  obtain ⟨hres, hlog⟩ := h s.options (s.types key).fresh 0
  simp only [decodeOne, hr, hres, hlog]

theorem decode_alike {os os' : List Object} (h : List.Forall₂ route.Alike os os') :
    s.decode key os = s.decode key os' := by
  simp only [decode, hr, decodeBatch, decodeFrom_alike h]

end

/-- In a session with any options, whichever schema is in force: bags that agree on the first pair of every entry that
is not skipped are decoded alike, alone and in lists, with the same records or errors, requests and events. So are bags
that come from each other by harmless changes. -/
theorem decode_first_pairs {s : Session R} {key : String} {schema : Schema R}
    (hr : (s.route key).result = .ok (.fields schema)) :
    (∀ b b', schema.Agrees b b' → s.decodeOne key b.object = s.decodeOne key b'.object) ∧
    (∀ bs bs', List.Forall₂ schema.Agrees bs bs' →
      s.decode key (bs.map Bag.object) = s.decode key (bs'.map Bag.object)) ∧
    (∀ b b', Relation.ReflTransGen schema.Harmless b b' → s.decodeOne key b.object = s.decodeOne key b'.object) ∧
    ∀ bs bs', List.Forall₂ (Relation.ReflTransGen schema.Harmless) bs bs' →
      s.decode key (bs.map Bag.object) = s.decode key (bs'.map Bag.object) := by
  have hone : ∀ b b', schema.Agrees b b' → s.decodeOne key b.object = s.decodeOne key b'.object := by
    intro b b' h
    exact decodeOne_alike hr (alike_of_answers h.object)
  have hmany : ∀ bs bs', List.Forall₂ schema.Agrees bs bs' →
      s.decode key (bs.map Bag.object) = s.decode key (bs'.map Bag.object) := by
    intro bs bs' h
    refine decode_alike hr ?_
    rw [List.forall₂_map_left_iff, List.forall₂_map_right_iff]
    exact h.imp fun b b' hb => alike_of_answers hb.object
  refine ⟨hone, hmany, ?_, ?_⟩
  · intro b b' h
    exact hone b b' (Schema.agrees_of_harmless h)
  · intro bs bs' h
    exact hmany bs bs' (h.imp fun _ _ => Schema.agrees_of_harmless)

theorem decode_first_pairs_lamp :
    let lamp : RecordType (Int × String) := ⟨"Lamp", (0, ""), .fields
      [.typed "level" Catalog.u8 fun x r => (x.val, r.2), .skipped "shade",
        (FieldDecl.typed "name" .string fun x r => (r.1, x)).rename "Name"]⟩
    let s := start (fun _ => lamp) .strict
    let b : Bag := ⟨[("LEVEL", .int .u8 ⟨5, by decide⟩), ("name", .null)]⟩
    let b' : Bag := ⟨[("level", .int .u8 ⟨5, by decide⟩), ("Shade", .bool true), ("Name", .null), ("NAME", .string "a")]⟩
    (s.decodeOne "L" b.object).result.result = .error (.coercion 0 "Name" "name" (.mismatch ⟨"null"⟩ ⟨"string"⟩)) ∧
    s.decodeOne "L" b.object = s.decodeOne "L" b'.object ∧
    s.decode "L" [b.object, b.object] = s.decode "L" [b'.object, b.object] := by
  intro lamp s b b'
  let level : Value := .int .u8 ⟨5, by decide⟩
  let schema : Schema (Int × String) :=
    ⟨"Lamp", [⟨"level", "level", false, some (.typed Catalog.u8 fun x r => (x.val, r.2))⟩,
      ⟨"shade", "shade", true, none⟩, ⟨"Name", "name", false, some (.typed .string fun x r => (r.1, x))⟩]⟩
  have hr : (s.route "L").result = .ok (.fields schema) := rfl
  have hlevel : SameName "LEVEL" "level" := caseless_iff_sameName.mp rfl
  have hname : SameName "name" "Name" := caseless_iff_sameName.mp rfl
  have hrecase : schema.Harmless b ⟨[("level", level), ("Name", .null)]⟩ :=
    .recase (.cons ⟨hlevel, rfl⟩ (.cons ⟨hname, rfl⟩ .nil))
  have happend : schema.Harmless ⟨[("level", level), ("Name", .null)]⟩
      ⟨[("level", level), ("Name", .null)] ++ [("NAME", .string "a")]⟩ := by
    refine .append ?_
    rw [List.forall_mem_singleton]
    exact ⟨("Name", .null), by simp, caseless_iff_sameName.mp rfl⟩
  have hinsert : schema.Harmless ⟨[("level", level), ("Name", .null), ("NAME", .string "a")]⟩
      ⟨[("Shade", .bool true), ("level", level), ("Name", .null), ("NAME", .string "a")]⟩ := by
    refine .insert (.put ?_ (.keep _ (.keep _ (.keep _ .nil))))
    refine List.forall_mem_cons.mpr ⟨?_, List.forall_mem_cons.mpr ⟨fun _ => rfl, List.forall_mem_singleton.mpr ?_⟩⟩
    · exact fun h => absurd h (caseless_eq_false_iff.mp rfl)
    · exact fun h => absurd h (caseless_eq_false_iff.mp rfl)
  have hpermute : schema.Harmless
      ⟨[] ++ [("Shade", .bool true), ("level", level)] ++ [("Name", .null), ("NAME", .string "a")]⟩
      ⟨[] ++ [("level", level), ("Shade", .bool true)] ++ [("Name", .null), ("NAME", .string "a")]⟩ := by
    have hne : ¬ SameName "Shade" "level" := caseless_eq_false_iff.mp rfl
    exact .permute (.swap ..) (List.pairwise_pair.mpr hne)
  have hchanged : Relation.ReflTransGen schema.Harmless b b' :=
    (((Relation.ReflTransGen.single hrecase).tail happend).tail hinsert).tail hpermute
  obtain ⟨-, -, hone, hmany⟩ := decode_first_pairs hr
  exact ⟨rfl, hone b b' hchanged, hmany [b, b] [b', b] (.cons hchanged (.cons .refl .nil))⟩

end Session

end TypedRecords
