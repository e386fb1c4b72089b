/-!
# Results and folds that may fail

When a mapped, chained or folded result succeeds, and with which error it fails. A fold fails with the error
of its first failing step, reached by a prefix of the list on which it succeeds; the results of a list are
all successes or have a first error.
-/

namespace TypedRecords

theorem map_eq_ok {x : Except ε α} {f : α → β} {b : β} : x.map f = .ok b ↔ ∃ a, x = .ok a ∧ f a = b := by
  cases x <;> simp [Except.map]

theorem map_eq_error {x : Except ε α} {f : α → β} {e : ε} : x.map f = .error e ↔ x = .error e := by
  cases x <;> simp [Except.map]

@[simp] theorem mapError_ok (f : ε → ε') (a : α) : (Except.ok a : Except ε α).mapError f = .ok a := rfl
@[simp] theorem mapError_error (f : ε → ε') (e : ε) : (Except.error e : Except ε α).mapError f = .error (f e) := rfl

theorem mapError_eq_ok {x : Except ε α} {f : ε → ε'} {a : α} : x.mapError f = .ok a ↔ x = .ok a := by
  cases x <;> simp

theorem mapError_eq_error {x : Except ε α} {f : ε → ε'} {e : ε'} :
    x.mapError f = .error e ↔ ∃ e', x = .error e' ∧ f e' = e := by
  cases x <;> simp

theorem map_mapError (x : Except ε α) (f : ε → ε') (g : α → β) : (x.mapError f).map g = (x.map g).mapError f := by
  cases x <;> rfl

theorem bind_eq_ok {x : Except ε α} {f : α → Except ε β} {b : β} :
    x.bind f = .ok b ↔ ∃ a, x = .ok a ∧ f a = .ok b := by
  cases x <;> simp [Except.bind]

theorem doBind_eq_ok {x : Except ε α} {f : α → Except ε β} {b : β} :
    (x >>= f) = .ok b ↔ ∃ a, x = .ok a ∧ f a = .ok b := bind_eq_ok

theorem bind_eq_error {x : Except ε α} {f : α → Except ε β} {e : ε} :
    x.bind f = .error e ↔ x = .error e ∨ ∃ a, x = .ok a ∧ f a = .error e := by
  cases x <;> simp [Except.bind]

section
variable {f : β → α → Except ε β}

theorem foldlM_snoc (l : List α) (a : α) (b : β) :
    (l ++ [a]).foldlM f b = (l.foldlM f b).bind (f · a) := by
  rw [List.foldlM_append]
  cases l.foldlM f b with
  | error e => rfl
  | ok b' =>
    show [a].foldlM f b' = f b' a
    rw [List.foldlM_cons]
    cases f b' a <;> rfl

theorem foldlM_append_error {l : List α} {b : β} {e : ε} (h : l.foldlM f b = .error e) (l' : List α) :
    (l ++ l').foldlM f b = .error e := by
  rw [List.foldlM_append, h]
  rfl

theorem foldlM_eq_error {l : List α} {b : β} {e : ε} :
    l.foldlM f b = .error e ↔
      ∃ before a after b', l = before ++ a :: after ∧ before.foldlM f b = .ok b' ∧ f b' a = .error e := by
  refine ⟨?_, ?_⟩
  · intro h
    induction l generalizing b with
    | nil => cases h
    | cons a l ih =>
      rw [List.foldlM_cons] at h
      cases ha : f b a with
      | error e' =>
        rw [ha] at h
        have : e' = e := by injection h
        exact ⟨[], a, l, b, rfl, rfl, by rw [ha, this]⟩
      | ok b₁ =>
        rw [ha] at h
        obtain ⟨before, a', after, b', rfl, hb, he⟩ := ih (b := b₁) h
        refine ⟨a :: before, a', after, b', rfl, ?_, he⟩
        rw [List.foldlM_cons, ha]
        exact hb
  · intro h
    obtain ⟨before, a, after, b', rfl, hb, he⟩ := h
    rw [show before ++ a :: after = (before ++ [a]) ++ after by simp]
    apply foldlM_append_error
    rw [foldlM_snoc, hb]
    exact he

end

section
variable (f : α → Except ε β)

theorem exists_map_ok {l : List α} : (∃ bs : List β, l.map f = bs.map .ok) ↔ ∀ a ∈ l, ∃ b, f a = .ok b := by
  induction l with
  | nil => simp
  | cons a l ih =>
    rw [List.forall_mem_cons, ← ih]
    refine ⟨?_, ?_⟩
    · intro h
      obtain ⟨bs, h⟩ := h
      cases bs with
      | nil => cases h
      | cons b bs =>
        rw [List.map_cons, List.map_cons, List.cons.injEq] at h
        exact ⟨⟨b, h.1⟩, bs, h.2⟩
    · intro h
      obtain ⟨⟨b, hb⟩, bs, h⟩ := h
      exact ⟨b :: bs, by rw [List.map_cons, List.map_cons, hb, h]⟩

end

/-- The results of a list, where it is known which elements have one and what it is. -/
theorem mapM_eq_ok {f : α → Except ε β} {P : α → Prop} {g : α → β} (hf : ∀ a b, f a = .ok b ↔ P a ∧ b = g a)
    {l : List α} {bs : List β} : l.mapM f = .ok bs ↔ (∀ a ∈ l, P a) ∧ bs = l.map g := by
  induction l generalizing bs with
  | nil =>
    show Except.ok [] = .ok bs ↔ _
    simp [eq_comm]
  | cons a l ih =>
    rw [List.mapM_cons, doBind_eq_ok, List.forall_mem_cons, List.map_cons]
    simp only [hf, doBind_eq_ok, ih]
    refine ⟨?_, ?_⟩
    · intro h
      obtain ⟨_, ⟨ha, rfl⟩, _, ⟨hl, rfl⟩, hbs⟩ := h
      cases hbs
      exact ⟨⟨ha, hl⟩, rfl⟩
    · intro h
      obtain ⟨⟨ha, hl⟩, rfl⟩ := h
      exact ⟨_, ⟨ha, rfl⟩, _, ⟨hl, rfl⟩, rfl⟩

/-- Of two properties one of which every element has, either all have the one, or there is a first with the other. -/
theorem all_or_first {P Q : α → Prop} (h : ∀ a, P a ∨ Q a) (l : List α) :
    (∀ a ∈ l, P a) ∨ ∃ before a after, l = before ++ a :: after ∧ (∀ a' ∈ before, P a') ∧ Q a := by
  induction l with
  | nil => exact .inl nofun
  | cons a l ih =>
    rcases h a with hp | hq
    · rcases ih with hall | ⟨before, a', after, rfl, hbefore, hq⟩
      · exact .inl (List.forall_mem_cons.mpr ⟨hp, hall⟩)
      · exact .inr ⟨a :: before, a', after, rfl, List.forall_mem_cons.mpr ⟨hp, hbefore⟩, hq⟩
    · exact .inr ⟨[], a, l, rfl, nofun, hq⟩

theorem all_ok_or_first_error {β : α → Type v} (f : (a : α) → Except ε (β a)) (l : List α) :
    (∀ a ∈ l, ∃ b, f a = .ok b) ∨
      ∃ before a after e, l = before ++ a :: after ∧ (∀ a' ∈ before, ∃ b, f a' = .ok b) ∧ f a = .error e := by
  have h : ∀ a, (∃ b, f a = .ok b) ∨ ∃ e, f a = .error e := by
    intro a
    cases f a with
    | error e => exact .inr ⟨e, rfl⟩
    | ok b => exact .inl ⟨b, rfl⟩
  rcases all_or_first h l with hall | ⟨before, a, after, hl, hbefore, e, he⟩
  · exact .inl hall
  · exact .inr ⟨before, a, after, e, hl, hbefore, he⟩

end TypedRecords
