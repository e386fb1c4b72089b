import TypedRecords.Proofs.FirstPairs

/-!
# Laws of lookup

A bag holds the pairs that were put into it in their order, names given before included. Both lookups answer with the
first pair of a name, by case or exactly, so a further pair matters only to names that have none yet. Names are
matched letter by letter, and only the letters of ASCII have two cases.
-/

namespace TypedRecords

/-! ## Names -/

theorem SameName.symm {a b : String} (h : SameName a b) : SameName b a := by
  rw [← caseless_iff_sameName, caseless_comm, caseless_iff_sameName]
  exact h

theorem SameName.trans {a b c : String} (h : SameName a b) (h' : SameName b c) : SameName a c :=
  caseless_iff_sameName.mp (caseless_trans (caseless_iff_sameName.mpr h) (caseless_iff_sameName.mpr h'))

def AgreeBeyondAscii (a b : String) : Prop :=
  ∀ (i : Nat) (c : Char), 128 ≤ c.toNat → (a.toList[i]? = some c ↔ b.toList[i]? = some c)

theorem SameLetter.eq_iff {c d a : Char} (h : SameLetter c d) (ha : 128 ≤ a.toNat) : c = a ↔ d = a := by
  rcases h with rfl | ⟨hc, hd⟩ | ⟨hd, hc⟩
  · rfl
  · have hbounds := isUpper_iff.mp hc
    refine iff_of_false ?_ ?_ <;> rintro rfl <;> omega
  · have hbounds := isUpper_iff.mp hd
    refine iff_of_false ?_ ?_ <;> rintro rfl <;> omega

theorem SameName.agreeBeyondAscii {a b : String} (h : SameName a b) : AgreeBeyondAscii a b := by
  intro i c hc
  unfold SameName at h
  generalize a.toList = as at h ⊢
  generalize b.toList = bs at h ⊢
  induction h generalizing i with
  | nil => rfl
  | cons hd _ ih =>
    cases i with
    | zero => simpa using hd.eq_iff hc
    | succ i => simpa using ih i

namespace Bag

/-! ## First places -/

/-- The pair at place `i` is the first with such a name, and its value is `v`. -/
def FirstAt (b : Bag) (P : String → Prop) (i : Nat) (v : Value) : Prop :=
  ∃ name, b.pairs[i]? = some (name, v) ∧ P name ∧ ∀ j < i, ∀ p, b.pairs[j]? = some p → ¬ P p.1

section
variable {b : Bag} {P Q : String → Prop} {i j : Nat} {v w : Value} {n : String}

theorem find?_iff_firstAt (f : String → Bool) (hf : ∀ n, f n = true ↔ P n) :
    (b.pairs.find? fun p => f p.1).map (·.2) = some v ↔ ∃ i, b.FirstAt P i v := by
  simp only [Option.map_eq_some_iff, List.find?_eq_some_iff_getElem, hf]
  refine ⟨?_, ?_⟩
  · intro h
    obtain ⟨⟨name, _⟩, ⟨hname, i, hi, hp, hbefore⟩, rfl⟩ := h
    refine ⟨i, name, by rw [List.getElem?_eq_getElem hi, hp], hname, ?_⟩
    intro j hj p hjp hP
    have hlt : j < b.pairs.length := Nat.lt_trans hj hi
    rw [List.getElem?_eq_getElem hlt] at hjp
    cases hjp
    simpa [(hf _).mpr hP] using hbefore j hj
  · intro h
    obtain ⟨i, name, hi, hname, hbefore⟩ := h
    obtain ⟨hlt, hp⟩ := List.getElem?_eq_some_iff.mp hi
    refine ⟨(name, v), ⟨hname, i, hlt, hp, ?_⟩, rfl⟩
    intro j hj
    have hne := hbefore j hj _ (List.getElem?_eq_getElem (Nat.lt_trans hj hlt))
    rw [← hf] at hne
    simpa using hne

theorem exists_firstAt {p : String × Value} (h : b.pairs[j]? = some p) (hp : P p.1) :
    ∃ i ≤ j, ∃ v, b.FirstAt P i v := by
  induction j using Nat.strongRecOn generalizing p with
  | ind j ih =>
    by_cases hearlier : ∃ k < j, ∃ q, b.pairs[k]? = some q ∧ P q.1
    · obtain ⟨k, hk, q, hq, hP⟩ := hearlier
      obtain ⟨i, hi, hfirst⟩ := ih k hk hq hP
      exact ⟨i, Nat.le_trans hi (Nat.le_of_lt hk), hfirst⟩
    · refine ⟨j, Nat.le_refl j, p.2, p.1, h, hp, ?_⟩
      intro k hk q hq hP
      exact hearlier ⟨k, hk, q, hq, hP⟩

theorem FirstAt.mono (h : b.FirstAt Q i v) (hQ : ∀ n, Q n → P n) : ∃ j ≤ i, ∃ w, b.FirstAt P j w := by
  obtain ⟨name, hi, hname, -⟩ := h
  exact exists_firstAt hi (hQ _ hname)

theorem FirstAt.insert (h : b.FirstAt P i v) (name : String) (w : Value) : (b.insert name w).FirstAt P i v := by
  obtain ⟨name', hi, hname, hbefore⟩ := h
  have hlt : i < b.pairs.length := (List.getElem?_eq_some_iff.mp hi).1
  refine ⟨name', by rw [pairs_insert, List.getElem?_append_left hlt, hi], hname, ?_⟩
  intro j hj p hp
  rw [pairs_insert, List.getElem?_append_left (Nat.lt_trans hj hlt)] at hp
  exact hbefore j hj p hp

theorem firstAt_insert_size {name : String} :
    (b.insert name v).FirstAt P b.size v ↔ (∀ p ∈ b.pairs, ¬ P p.1) ∧ P name := by
  have hlast : (b.insert name v).pairs[b.size]? = some (name, v) := by simp [size]
  refine ⟨?_, ?_⟩
  · intro h
    obtain ⟨name', hi, hname, hbefore⟩ := h
    rw [hlast] at hi
    cases hi
    refine ⟨?_, hname⟩
    intro p hp
    obtain ⟨j, hj, rfl⟩ := List.mem_iff_getElem.mp hp
    exact hbefore j hj _ (by rw [pairs_insert, List.getElem?_append_left hj, List.getElem?_eq_getElem hj])
  · intro h
    obtain ⟨hno, hname⟩ := h
    refine ⟨name, hlast, hname, ?_⟩
    intro j hj p hp
    rw [pairs_insert, List.getElem?_append_left hj] at hp
    exact hno p (List.mem_of_getElem? hp)

end

/-! ## The two lookups -/

section
variable {b : Bag} {n : String} {v : Value}

theorem get?_iff_firstAt : b.get? n = some v ↔ ∃ i, b.FirstAt (SameName · n) i v :=
  find?_iff_firstAt (caseless · n) fun _ => caseless_iff_sameName

theorem getExact?_iff_firstAt : b.getExact? n = some v ↔ ∃ i, b.FirstAt (· = n) i v :=
  find?_iff_firstAt (· == n) fun _ => beq_iff_eq

theorem get?_eq_none : b.get? n = none ↔ ∀ p ∈ b.pairs, ¬ SameName p.1 n := by
  simp [get?, caseless_iff_sameName]

theorem get?_insert_of_some (h : b.get? n = some v) (name : String) (w : Value) : (b.insert name w).get? n = some v := by
  rw [get?_iff_firstAt] at h ⊢
  exact h.imp fun i hi => hi.insert name w

theorem getExact?_insert_of_some (h : b.getExact? n = some v) (name : String) (w : Value) :
    (b.insert name w).getExact? n = some v := by
  rw [getExact?_iff_firstAt] at h ⊢
  exact h.imp fun i hi => hi.insert name w

theorem get?_insert_of_none (h : b.get? n = none) (name : String) (w : Value) :
    (SameName name n → (b.insert name w).get? n = some w) ∧ (¬ SameName name n → (b.insert name w).get? n = none) := by
  rw [get?_eq_none] at h
  refine ⟨?_, ?_⟩
  · intro hname
    exact get?_iff_firstAt.mpr ⟨b.size, firstAt_insert_size.mpr ⟨h, hname⟩⟩
  · intro hname
    rw [get?_eq_none, pairs_insert, List.forall_mem_append, List.forall_mem_singleton]
    exact ⟨h, hname⟩

theorem get?_congr {m : String} (h : SameName m n) : b.get? m = b.get? n := by
  have hiff : ∀ name, SameName name m ↔ SameName name n := fun name => ⟨fun hm => hm.trans h, fun hn => hn.trans h.symm⟩
  apply Option.ext
  intro v
  simp only [get?_iff_firstAt, FirstAt, hiff]

end

/-! ## Building -/

/-- A step in the building of a bag: a pair is put at the end, in place or in an expression, or the bag is made of a
list of pairs. -/
inductive Step
  | insert (name : String) (v : Value)
  | append (name : String) (v : Value)
  | collect (pairs : List (String × Value))

def Step.pairs : Step → List (String × Value)
  | .insert name v | .append name v => [(name, v)]
  | .collect pairs => pairs

def Step.collects : Step → Bool
  | .collect _ => true
  | _ => false

def apply (b : Bag) : Step → Bag
  | .insert name v | .append name v => b.insert name v
  | .collect pairs => ofList pairs

def build (steps : List Step) : Bag := steps.foldl apply empty

/-- The pairs given to a bag, in order. A bag that is made of a list has no pair from before. -/
def given : List Step → List (String × Value)
  | [] => []
  | step :: steps => if steps.any Step.collects then given steps else step.pairs ++ given steps

theorem pairs_apply (b : Bag) (step : Step) :
    (b.apply step).pairs = if step.collects then step.pairs else b.pairs ++ step.pairs := by
  cases step with
  | insert name v | append name v => rfl
  | collect pairs => exact pairs_ofList pairs

theorem pairs_foldl_apply (steps : List Step) (b : Bag) :
    (steps.foldl apply b).pairs = if steps.any Step.collects then given steps else b.pairs ++ given steps := by
  induction steps generalizing b with
  | nil => simp [given]
  | cons step steps ih =>
    rw [List.foldl_cons, ih, pairs_apply, List.any_cons, given]
    cases step.collects <;> cases steps.any Step.collects <;> simp

theorem pairs_build (steps : List Step) : (build steps).pairs = given steps := by
  rw [build, pairs_foldl_apply]
  split
  · rfl
  · exact List.nil_append _

end Bag

/-! ## References -/

def Handle.base : Handle → Object
  | .direct o => o
  | .borrowed h | .owned h | .shared h => h.base

theorem Handle.object_eq_base (h : Handle) : h.object = h.base := by
  induction h with
  | direct o => rfl
  | borrowed h ih | owned h ih | shared h ih => exact ih

namespace Bag

/-- What lookups find in a bag, however it was built. All pairs given to it are kept in order. Each lookup answers with
the first pair of its name; a further pair is found only for a name that had none, and the names that it is found for
are the same up to the case of ASCII letters. An exact name is found by case at the same place or before, and references
to the bag answer as the bag does. -/
theorem lookup_laws (steps : List Step) (n : String) :
    let b := build steps
    b.pairs = given steps ∧ b.size = (given steps).length ∧
    (∀ v, b.get? n = some v ↔ ∃ i, b.FirstAt (SameName · n) i v) ∧
    (∀ v, b.getExact? n = some v ↔ ∃ i, b.FirstAt (· = n) i v) ∧
    (∀ name v,
      (∀ w, b.get? n = some w → (b.insert name v).get? n = some w) ∧
      (∀ w, b.getExact? n = some w → (b.insert name v).getExact? n = some w) ∧
      ((b.insert name v).FirstAt (SameName · n) b.size v ↔ b.get? n = none ∧ SameName name n) ∧
      (b.get? n = none → (SameName name n → (b.insert name v).get? n = some v) ∧
        (¬ SameName name n → (b.insert name v).get? n = none))) ∧
    (∀ i v, b.FirstAt (· = n) i v → ∃ j ≤ i, ∃ w, b.FirstAt (SameName · n) j w) ∧
    (∀ m, SameName m n → b.get? m = b.get? n) ∧
    (∀ m, ¬ AgreeBeyondAscii m n → ¬ SameName m n) ∧
    ∀ h : Handle, h.base = b.object → h.object n = .ok (b.get? n) := by
  intro b
  have hpairs : b.pairs = given steps := pairs_build steps
  refine ⟨hpairs, congrArg List.length hpairs, fun v => get?_iff_firstAt, fun v => getExact?_iff_firstAt, ?_, ?_,
    fun m => get?_congr, fun m hm h => hm h.agreeBeyondAscii, ?_⟩
  · intro name v
    refine ⟨fun w h => get?_insert_of_some h name v, fun w h => getExact?_insert_of_some h name v, ?_,
      fun h => get?_insert_of_none h name v⟩
    rw [firstAt_insert_size, get?_eq_none]
  · intro i v h
    refine h.mono ?_
    rintro _ rfl
    exact caseless_iff_sameName.mp (caseless_refl _)
  · intro h hb
    rw [h.object_eq_base, hb, object]

theorem lookup_laws_shadowed :
    let b := build [.insert "Old" .null, .collect [("Name", .bool true), ("name", .null)], .append "NAME" (.bool false)]
    b.pairs = [("Name", .bool true), ("name", .null), ("NAME", .bool false)] ∧ b.size = 3 ∧
    b.get? "name" = some (.bool true) ∧ b.getExact? "name" = some .null ∧
    (b.insert "naMe" .null).get? "name" = some (.bool true) ∧
    (Handle.borrowed (.shared (.direct b.object))).object "name" = .ok (some (.bool true)) ∧
    b.get? "Größe" = none ∧ (b.insert "GRöße" .null).get? "Größe" = some .null ∧ ¬ SameName "GRÖßE" "Größe" := by
  let steps : List Step :=
    [.insert "Old" .null, .collect [("Name", .bool true), ("name", .null)], .append "NAME" (.bool false)]
  obtain ⟨hpairs, hsize, hget, hexact, hinsert, -, -, -, hrefs⟩ := lookup_laws steps "name"
  obtain ⟨-, -, -, -, hnew, -, -, hbeyond, -⟩ := lookup_laws steps "Größe"
  have hfirst : (build steps).get? "name" = some (.bool true) := (hget _).mpr
    ⟨0, "Name", rfl, caseless_iff_sameName.mp rfl, nofun⟩
  have hsecond : (build steps).getExact? "name" = some .null := by
    refine (hexact _).mpr ⟨1, "name", rfl, rfl, ?_⟩
    intro j hj p hp
    obtain rfl : j = 0 := by omega
    cases hp
    decide
  have hnone : (build steps).get? "Größe" = none := rfl
  refine ⟨hpairs, hsize, hfirst, hsecond, (hinsert "naMe" .null).1 _ hfirst, ?_, hnone,
    ((hnew "GRöße" .null).2.2.2 hnone).1 (caseless_iff_sameName.mp rfl), hbeyond _ ?_⟩
  · rw [hrefs (.borrowed (.shared (.direct (build steps).object))) rfl, hfirst]
  · intro h
    exact absurd ((h 2 'Ö' (by decide)).mp rfl) (by decide)

end Bag

end TypedRecords
