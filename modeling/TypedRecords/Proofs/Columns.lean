import Mathlib.Data.List.Induction
import TypedRecords.Proofs.Folding
import TypedRecords.Time.Text

/-!
# Groups of digits in fixed columns

A group of digits is written back from its value and its width, leading zeros included. In a text of fixed columns a
group reads as its value exactly if digits fill its places, and a clock is four groups with a point before the last.
-/

namespace TypedRecords

/-! ## One group -/

structure IsGroup (w : Nat) (cs : List Char) : Prop where
  length : cs.length = w
  digits : cs.all Char.isDigit = true

theorem toNat_of_isDigit {c : Char} (h : c.isDigit = true) : 48 ≤ c.toNat ∧ c.toNat ≤ 57 := by
  simpa [Char.isDigit, UInt32.le_iff_toNat_le] using h

theorem digit_of_isDigit {c : Char} (h : c.isDigit = true) (n : Nat) : digit (10 * n + (c.toNat - 48)) = c := by
  have hc := toNat_of_isDigit h
  have hsum : 48 + (10 * n + (c.toNat - 48)) % 10 = c.toNat := by omega
  rw [digit, hsum, Char.ofNat_toNat]

theorem padded_groupValue {cs : List Char} (h : cs.all Char.isDigit = true) :
    padded cs.length (groupValue cs) = cs := by
  induction cs using List.reverseRecOn with
  | nil => rfl
  | append_singleton cs c ih =>
    rw [List.all_append, Bool.and_eq_true, List.all_cons, Bool.and_eq_true] at h
    have hc := toNat_of_isDigit h.2.1
    have hdiv : (10 * groupValue cs + (c.toNat - 48)) / 10 = groupValue cs := by omega
    rw [groupValue_concat, List.length_append, List.length_singleton, padded, hdiv, ih h.1, digit_of_isDigit h.2.1]

theorem groupValue_padded_of_lt {w n : Nat} (h : n < Nat.pow 10 w) : groupValue (padded w n) = n := by
  rw [groupValue_padded, Nat.mod_eq_of_lt h]

theorem isGroup_padded (w n : Nat) : IsGroup w (padded w n) := by
  refine ⟨length_padded w n, ?_⟩
  induction w generalizing n with
  | zero => rfl
  | succ w ih => simp [padded, ih, isDigit_digit]

namespace IsGroup

variable {w : Nat} {cs : List Char} (h : IsGroup w cs)
include h

theorem padded_groupValue : padded w (groupValue cs) = cs :=
  h.length ▸ TypedRecords.padded_groupValue h.digits

theorem groupValue_lt : groupValue cs < Nat.pow 10 w :=
  h.length ▸ TypedRecords.groupValue_lt h.digits

theorem ascii : ∀ c ∈ cs, c.val < 128 := by
  intro c hc
  have := toNat_of_isDigit (List.all_eq_true.mp h.digits c hc)
  exact UInt32.lt_iff_toNat_lt.mpr (show c.toNat < 128 by omega)

theorem not_mem_star : '*' ∉ cs := fun hc => absurd (List.all_eq_true.mp h.digits _ hc) (by decide)

theorem ext {cs' : List Char} (h' : IsGroup w cs') (hv : groupValue cs = groupValue cs') : cs = cs' := by
  rw [← h.padded_groupValue, ← h'.padded_groupValue, hv]

end IsGroup

/-! ## A group in a text -/

def places (cs : List Char) (start width : Nat) : List Char := (cs.drop start).take width

theorem readGroup_eq_ok {cs : List Char} {start width : Nat} (hlen : start + width ≤ cs.length)
    {n : Fin (Nat.pow 10 width)} :
    readGroup cs start width = .ok n ↔
      IsGroup width (places cs start width) ∧ n.val = groupValue (places cs start width) := by
  have hwidth : ((cs.drop start).take width).length = width := by
    simp only [List.length_take, List.length_drop]
    omega
  unfold readGroup places
  by_cases hd : ((cs.drop start).take width).all Char.isDigit = true
  · have hg : IsGroup width ((cs.drop start).take width) := ⟨hwidth, hd⟩
    simp only [if_neg hg.not_mem_star, dif_pos hd, Except.ok.injEq, Fin.ext_iff, hg, true_and]
    exact eq_comm
  · have hg : ¬ IsGroup width ((cs.drop start).take width) := fun h => hd h.digits
    simp only [hg, false_and, iff_false, dif_neg hd]
    split <;> exact nofun

theorem readGroup_of_places {cs g : List Char} {start width : Nat} (hlen : start + width ≤ cs.length)
    (hg : IsGroup width g) (h : places cs start width = g) :
    readGroup cs start width = .ok ⟨groupValue g, hg.groupValue_lt⟩ := by
  rw [readGroup_eq_ok hlen, h]
  exact ⟨hg, rfl⟩

theorem checkLayout_eq_ok {cs : List Char} {u : Unit} :
    checkLayout cs = .ok u ↔ (∀ c ∈ cs, c.val < 128) ∧ cs.length = 25 ∧ cs[14]? = some '.' := by
  have hall : cs.all (·.val < 128) = true ↔ ∀ c ∈ cs, c.val < 128 := by simp
  unfold checkLayout
  rw [← hall]
  cases cs.all (·.val < 128) with
  | false => exact iff_of_false nofun fun h => nomatch h.1
  | true =>
    by_cases hlen : cs.length = 25
    · by_cases hpoint : cs[14]? = some '.'
      · rw [if_neg (by decide), if_neg (not_not_intro hlen), if_neg (not_not_intro hpoint)]
        exact iff_of_true rfl ⟨rfl, hlen, hpoint⟩
      · rw [if_neg (by decide), if_neg (not_not_intro hlen), if_pos hpoint]
        exact iff_of_false nofun fun h => hpoint h.2.2
    · rw [if_neg (by decide), if_pos hlen]
      exact iff_of_false nofun fun h => hlen h.2.1

/-! ## Cutting a text -/

section
variable {cs front rest g : List Char} {a : Char} {s w k : Nat}

theorem places_left (hg : g.length = w) : places (g ++ rest) 0 w = g := List.take_left' hg

theorem places_self (hg : g.length = w) : places g 0 w = g := List.take_of_length_le (Nat.le_of_eq hg)

theorem places_append (hf : front.length = s) : places (front ++ rest) (s + k) w = places rest k w := by
  rw [places, ← hf, List.drop_length_add_append, places]

theorem places_cons : places (a :: rest) (1 + k) w = places rest k w :=
  places_append (show [a].length = 1 from rfl)

theorem getElem?_after (hf : front.length = s) : (front ++ a :: rest)[s]? = some a := by
  subst hf
  simp

theorem drop_eq_places (cs : List Char) (s w : Nat) : cs.drop s = places cs s w ++ cs.drop (s + w) := by
  rw [places, ← List.drop_drop, List.take_append_drop]

theorem drop_eq_cons (h : cs[s]? = some a) : cs.drop s = a :: cs.drop (s + 1) := by
  obtain ⟨hlt, rfl⟩ := List.getElem?_eq_some_iff.mp h
  exact List.drop_eq_getElem_cons hlt

end

/-! ## Times of day -/

theorem TimeOfDay.of?_eq_some {hour minute second micro : Nat} {t : TimeOfDay} :
    of? hour minute second micro = some t ↔
      t.hour = hour ∧ t.minute = minute ∧ t.second = second ∧ t.micro = micro := by
  unfold of?
  split
  · obtain ⟨hour', minute', second', micro', ht⟩ := t
    simp [eq_comm]
  · rename_i hn
    refine ⟨?_, ?_⟩
    · intro h
      cases h
    · rintro ⟨rfl, rfl, rfl, rfl⟩
      exact absurd t.isTime hn

/-- The characters of a time of day in their columns, `HHMMSS.ffffff`. -/
structure ClockText where
  hour : List Char
  minute : List Char
  second : List Char
  micro : List Char

namespace ClockText

def chars (c : ClockText) : List Char := c.hour ++ (c.minute ++ (c.second ++ '.' :: c.micro))

structure Digits (c : ClockText) : Prop where
  hour : IsGroup 2 c.hour
  minute : IsGroup 2 c.minute
  second : IsGroup 2 c.second
  micro : IsGroup 6 c.micro

/-- The groups are the fields of `t`, which stay within a day. -/
structure Spells (c : ClockText) (t : TimeOfDay) : Prop where
  hour : t.hour = groupValue c.hour
  minute : t.minute = groupValue c.minute
  second : t.second = groupValue c.second
  micro : t.micro = groupValue c.micro

def ofText (cs : List Char) : ClockText := ⟨places cs 8 2, places cs 10 2, places cs 12 2, places cs 15 6⟩

def ofTime (t : TimeOfDay) : ClockText := ⟨padded 2 t.hour, padded 2 t.minute, padded 2 t.second, padded 6 t.micro⟩

variable {c : ClockText} {t : TimeOfDay} {cs : List Char}

theorem exists_spells : (∃ t, c.Spells t) ↔
    IsTime (groupValue c.hour) (groupValue c.minute) (groupValue c.second) (groupValue c.micro) := by
  refine ⟨?_, ?_⟩
  · intro h
    obtain ⟨t, hh, hm, hs, hu⟩ := h
    rw [← hh, ← hm, ← hs, ← hu]
    exact t.isTime
  · intro h
    exact ⟨⟨_, _, _, _, h⟩, rfl, rfl, rfl, rfl⟩

theorem Spells.unique {t' : TimeOfDay} (h : c.Spells t) (h' : c.Spells t') : t = t' := by
  obtain ⟨hour, minute, second, micro, ht⟩ := t
  obtain ⟨hour', minute', second', micro', ht'⟩ := t'
  obtain ⟨rfl, rfl, rfl, rfl⟩ := h
  obtain ⟨rfl, rfl, rfl, rfl⟩ := h'
  rfl

theorem digits_ofTime (t : TimeOfDay) : (ofTime t).Digits :=
  ⟨isGroup_padded 2 _, isGroup_padded 2 _, isGroup_padded 2 _, isGroup_padded 6 _⟩

theorem spells_ofTime (t : TimeOfDay) : (ofTime t).Spells t := by
  have ht := t.isTime
  exact ⟨(groupValue_padded_of_lt (Nat.lt_trans ht.1 (by decide))).symm,
    (groupValue_padded_of_lt (Nat.lt_trans ht.2.1 (by decide))).symm,
    (groupValue_padded_of_lt (Nat.lt_trans ht.2.2.1 (by decide))).symm, (groupValue_padded_of_lt ht.2.2.2).symm⟩

theorem Spells.chars_ofTime (h : c.Spells t) (hd : c.Digits) : ofTime t = c := by
  unfold ofTime
  rw [h.hour, h.minute, h.second, h.micro, hd.hour.padded_groupValue, hd.minute.padded_groupValue,
    hd.second.padded_groupValue, hd.micro.padded_groupValue]

theorem writeClock_eq (t : TimeOfDay) : writeClock t.hour t.minute t.second t.micro = (ofTime t).chars := by
  simp [writeClock, chars, ofTime]

theorem Digits.length (h : c.Digits) : c.chars.length = 13 := by
  simp [chars, h.hour.length, h.minute.length, h.second.length, h.micro.length]

theorem Digits.ascii (h : c.Digits) : ∀ a ∈ c.chars, a.val < 128 := by
  simp only [chars, List.forall_mem_append, List.forall_mem_cons]
  exact ⟨h.hour.ascii, h.minute.ascii, h.second.ascii, by decide, h.micro.ascii⟩

theorem Digits.point (h : c.Digits) {front rest : List Char} (hf : front.length = 8) :
    (front ++ (c.chars ++ rest))[14]? = some '.' := by
  have hfront : (front ++ (c.hour ++ (c.minute ++ c.second))).length = 14 := by
    simp [hf, h.hour.length, h.minute.length, h.second.length]
  rw [show front ++ (c.chars ++ rest) = (front ++ (c.hour ++ (c.minute ++ c.second))) ++ '.' :: (c.micro ++ rest) by
    simp [chars]]
  exact getElem?_after hfront

theorem ofText_append (h : c.Digits) {front rest : List Char} (hf : front.length = 8) :
    ofText (front ++ (c.chars ++ rest)) = c := by
  have hc : front ++ (c.chars ++ rest) = front ++ (c.hour ++ (c.minute ++ (c.second ++ '.' :: (c.micro ++ rest)))) := by
    simp [chars]
  have hhour : places (front ++ (c.chars ++ rest)) (8 + 0) 2 = c.hour := by
    rw [hc, places_append hf, places_left h.hour.length]
  have hminute : places (front ++ (c.chars ++ rest)) (8 + (2 + 0)) 2 = c.minute := by
    rw [hc, places_append hf, places_append h.hour.length, places_left h.minute.length]
  have hsecond : places (front ++ (c.chars ++ rest)) (8 + (2 + (2 + 0))) 2 = c.second := by
    rw [hc, places_append hf, places_append h.hour.length, places_append h.minute.length, places_left h.second.length]
  have hmicro : places (front ++ (c.chars ++ rest)) (8 + (2 + (2 + (2 + (1 + 0))))) 6 = c.micro := by
    rw [hc, places_append hf, places_append h.hour.length, places_append h.minute.length, places_append h.second.length,
      places_cons, places_left h.micro.length]
  show (⟨_, _, _, _⟩ : ClockText) = c
  rw [show places _ 8 2 = _ from hhour, show places _ 10 2 = _ from hminute, show places _ 12 2 = _ from hsecond,
    show places _ 15 6 = _ from hmicro]

theorem drop_eq_chars (h : cs[14]? = some '.') : cs.drop 8 = (ofText cs).chars ++ cs.drop 21 := by
  rw [drop_eq_places cs 8 2, drop_eq_places cs 10 2, drop_eq_places cs 12 2, drop_eq_cons h, drop_eq_places cs 15 6]
  simp [chars, ofText]

theorem readClock_eq_ok (hlen : cs.length = 25) {clock : Clock} :
    readClock cs = .ok clock ↔ (ofText cs).Digits ∧ clock.hour.val = groupValue (ofText cs).hour ∧
      clock.minute.val = groupValue (ofText cs).minute ∧ clock.second.val = groupValue (ofText cs).second ∧
      clock.micro.val = groupValue (ofText cs).micro := by
  unfold readClock
  simp only [doBind_eq_ok]
  refine ⟨?_, ?_⟩
  · intro h
    obtain ⟨hour, hh, minute, hm, second, hs, micro, hu, hc⟩ := h
    cases hc
    obtain ⟨hh, hh'⟩ := (readGroup_eq_ok (by omega)).mp hh
    obtain ⟨hm, hm'⟩ := (readGroup_eq_ok (by omega)).mp hm
    obtain ⟨hs, hs'⟩ := (readGroup_eq_ok (by omega)).mp hs
    obtain ⟨hu, hu'⟩ := (readGroup_eq_ok (by omega)).mp hu
    exact ⟨⟨hh, hm, hs, hu⟩, hh', hm', hs', hu'⟩
  · intro h
    obtain ⟨⟨hh, hm, hs, hu⟩, hh', hm', hs', hu'⟩ := h
    exact ⟨_, (readGroup_eq_ok (by omega)).mpr ⟨hh, hh'⟩, _, (readGroup_eq_ok (by omega)).mpr ⟨hm, hm'⟩,
      _, (readGroup_eq_ok (by omega)).mpr ⟨hs, hs'⟩, _, (readGroup_eq_ok (by omega)).mpr ⟨hu, hu'⟩, rfl⟩

def Digits.clock (h : c.Digits) : Clock where
  hour := ⟨groupValue c.hour, h.hour.groupValue_lt⟩
  minute := ⟨groupValue c.minute, h.minute.groupValue_lt⟩
  second := ⟨groupValue c.second, h.second.groupValue_lt⟩
  micro := ⟨groupValue c.micro, h.micro.groupValue_lt⟩

theorem readClock_of_ofText (hlen : cs.length = 25) (hd : c.Digits) (h : ofText cs = c) :
    readClock cs = .ok hd.clock := by
  rw [readClock_eq_ok hlen, h]
  exact ⟨hd, rfl, rfl, rfl, rfl⟩

end ClockText

end TypedRecords
