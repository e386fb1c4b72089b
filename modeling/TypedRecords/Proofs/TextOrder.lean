import TypedRecords.Proofs.Columns

/-!
# The order of texts in columns

Texts with columns of the same widths compare column by column from the left, and groups of digits of one width compare
as their values. So two clocks are in the order of the times of day that they spell, which is that of their seconds.
-/

namespace TypedRecords

/-! ## Groups of digits -/

theorem append_lt_append_iff {as bs cs ds : List Char} (h : as.length = bs.length) :
    as ++ cs < bs ++ ds ↔ as < bs ∨ as = bs ∧ cs < ds := by
  induction as generalizing bs with
  | nil =>
    obtain rfl := List.length_eq_zero_iff.mp h.symm
    simp
  | cons a as ih =>
    cases bs with
    | nil => cases h
    | cons b bs =>
      rw [List.cons_append, List.cons_append, List.cons_lt_cons_iff, List.cons_lt_cons_iff, ih (Nat.succ.inj h),
        List.cons.injEq]
      by_cases hab : a = b
      · subst hab
        simp only [Char.lt_irrefl, false_or, true_and]
      · simp [hab]

theorem char_lt_iff {a b : Char} : a < b ↔ a.toNat < b.toNat := UInt32.lt_iff_toNat_lt

theorem groupValue_lt_iff {as bs : List Char} (h : as.length = bs.length) (ha : as.all Char.isDigit = true)
    (hb : bs.all Char.isDigit = true) : groupValue as < groupValue bs ↔ as < bs := by
  induction as using List.reverseRecOn generalizing bs with
  | nil =>
    obtain rfl := List.length_eq_zero_iff.mp h.symm
    simp
  | append_singleton as a ih =>
    rcases List.eq_nil_or_concat bs with rfl | ⟨bs, b, rfl⟩
    · simp at h
    · have hlen : as.length = bs.length := by simpa using h
      rw [List.concat_eq_append] at hb ⊢
      rw [List.all_append, Bool.and_eq_true, List.all_cons, Bool.and_eq_true] at ha hb
      have hd := toNat_of_isDigit ha.2.1
      have hd' := toNat_of_isDigit hb.2.1
      have hlt := ih hlen ha.1 hb.1
      have heq : groupValue as = groupValue bs ↔ as = bs := by
        refine ⟨fun hv => ?_, fun hv => hv ▸ rfl⟩
        exact IsGroup.ext ⟨hlen, ha.1⟩ ⟨rfl, hb.1⟩ hv
      rw [append_lt_append_iff hlen, List.cons_lt_cons_iff, ← hlt, ← heq, groupValue_concat, groupValue_concat, char_lt_iff]
      simp only [List.lt_irrefl, and_false, or_false]
      omega

/-- A group of digits decides the order by its value, and what follows decides between equal groups. -/
theorem IsGroup.append_lt_iff {w : Nat} {as bs cs ds : List Char} (ha : IsGroup w as) (hb : IsGroup w bs) :
    as ++ cs < bs ++ ds ↔ groupValue as < groupValue bs ∨ groupValue as = groupValue bs ∧ cs < ds := by
  have hlen : as.length = bs.length := ha.length.trans hb.length.symm
  have heq : groupValue as = groupValue bs ↔ as = bs := ⟨ha.ext hb, fun h => h ▸ rfl⟩
  rw [append_lt_append_iff hlen, groupValue_lt_iff hlen ha.digits hb.digits, heq]

/-! ## Times of day -/

namespace TimeOfDay

def Before (t u : TimeOfDay) : Prop :=
  t.hour < u.hour ∨ t.hour = u.hour ∧ (t.minute < u.minute ∨ t.minute = u.minute ∧
    (t.second < u.second ∨ t.second = u.second ∧ t.micro < u.micro))

theorem before_iff {t u : TimeOfDay} :
    t.Before u ↔ t.seconds < u.seconds ∨ t.seconds = u.seconds ∧ t.nanos < u.nanos := by
  have ht := t.isTime
  have hu := u.isTime
  simp only [Before, seconds, nanos]
  omega

theorem ext_iff {t u : TimeOfDay} :
    t = u ↔ t.hour = u.hour ∧ t.minute = u.minute ∧ t.second = u.second ∧ t.micro = u.micro := by
  obtain ⟨hour, minute, second, micro, _⟩ := t
  obtain ⟨hour', minute', second', micro', _⟩ := u
  simp only [mk.injEq]

end TimeOfDay

theorem ClockText.Spells.append_lt_iff {c c' : ClockText} {t t' : TimeOfDay} {cs ds : List Char} (hs : c.Spells t)
    (hs' : c'.Spells t') (hd : c.Digits) (hd' : c'.Digits) :
    c.chars ++ cs < c'.chars ++ ds ↔ t.Before t' ∨ t = t' ∧ cs < ds := by
  simp only [ClockText.chars, List.append_assoc, List.cons_append, hd.hour.append_lt_iff hd'.hour,
    hd.minute.append_lt_iff hd'.minute, hd.second.append_lt_iff hd'.second, List.cons_lt_cons_iff, Char.lt_irrefl,
    false_or, true_and, hd.micro.append_lt_iff hd'.micro, TimeOfDay.Before, TimeOfDay.ext_iff, hs.hour, hs.minute,
    hs.second, hs.micro, hs'.hour, hs'.minute, hs'.second, hs'.micro]
  grind

end TypedRecords
