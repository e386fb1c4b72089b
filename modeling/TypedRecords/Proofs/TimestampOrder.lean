import TypedRecords.Proofs.Instants
import TypedRecords.Proofs.TextOrder

/-!
# The order of timestamps

Two timestamps at one distance from UTC are in the order of their local dates and times, field by field, and so are
their texts, which give the fields from the left. Timestamps at any distances are compared after both have moved to UTC,
which keeps their instants.
-/

namespace TypedRecords

theorem Date.ext_iff {d e : Date} : d = e ↔ d.year = e.year ∧ d.month = e.month ∧ d.day = e.day := by
  obtain ⟨year, month, day, _⟩ := d
  obtain ⟨year', month', day', _⟩ := e
  simp only [mk.injEq]

namespace Timestamp

def instant (t : Timestamp) : List Int := [t.seconds, t.nanos]

def fields (t : Timestamp) : List Int :=
  [t.date.year, t.date.month, t.date.day, t.time.hour, t.time.minute, t.time.second, t.nanos]

def LocallyBefore (t u : Timestamp) : Prop := t.date.Before u.date ∨ t.date = u.date ∧ t.time.Before u.time

variable {t u : Timestamp}

/-! ## Fields -/

theorem fields_lt_iff : t.fields < u.fields ↔ t.LocallyBefore u := by
  simp only [fields, nanos, TimeOfDay.nanos, List.cons_lt_cons_iff, List.not_lt_nil, and_false, or_false, LocallyBefore, Date.Before,
    TimeOfDay.Before, Date.ext_iff]
  omega

theorem fields_inj : t.fields = u.fields ↔ t.date = u.date ∧ t.time = u.time := by
  simp only [fields, nanos, TimeOfDay.nanos, List.cons.injEq, and_true, Date.ext_iff, TimeOfDay.ext_iff]
  omega

/-! ## Instants -/

/-- The days decide before the seconds of the day, which make up less than one. -/
theorem instant_lt_iff (h : t.offset = u.offset) : t.instant < u.instant ↔ t.LocallyBefore u := by
  have ht := t.time.seconds_lt
  have hu := u.time.seconds_lt
  have hdate : t.date = u.date ↔ t.date.dayNumber = u.date.dayNumber := ⟨fun he => he ▸ rfl, Date.dayNumber_inj⟩
  simp only [instant, List.cons_lt_cons_iff, List.not_lt_nil, and_false, or_false, LocallyBefore, ← Date.dayNumber_lt_iff, hdate,
    TimeOfDay.before_iff, seconds, nanos, h]
  omega

theorem instant_inj (h : t.offset = u.offset) : t.instant = u.instant ↔ t.fields = u.fields := by
  have ht := t.time.seconds_lt
  have hu := u.time.seconds_lt
  rw [fields_inj]
  simp only [instant, List.cons.injEq, and_true, seconds, h]
  refine ⟨?_, ?_⟩
  · intro hi
    have hdate : t.date = u.date := Date.dayNumber_inj (by omega)
    refine ⟨hdate, ?_⟩
    rw [hdate] at hi
    apply TimeOfDay.eq_of_seconds
    · omega
    · exact Int.ofNat.inj hi.2
  · intro he
    rw [he.1, he.2, nanos, nanos, he.2]
    exact ⟨rfl, rfl⟩

theorem instant_toUtc (t : Timestamp) : t.toUtc.instant = t.instant := by
  rw [instant, seconds_toUtc, nanos_toUtc, instant]

end Timestamp

/-! ## Texts -/

namespace TimestampText

variable {c c' : TimestampText} {t t' : Timestamp}

theorem Digits.tail (h : c.Digits) : c.chars.drop 21 = c.sign :: c.offset := by
  rw [show c.chars = (c.year ++ (c.month ++ (c.day ++ c.clock.chars))) ++ c.sign :: c.offset by simp [chars]]
  apply List.drop_left'
  simp [h.year.length, h.month.length, h.day.length, h.clock.length]

theorem minutes_of_tail (h : c.sign :: c.offset = c'.sign :: c'.offset) : c.minutes = c'.minutes := by
  obtain ⟨hsign, hoffset⟩ := List.cons.inj h
  have hwest : c.west = c'.west := by
    unfold sign at hsign
    cases hc : c.west <;> cases hc' : c'.west <;> simp [hc, hc'] at hsign ⊢
  rw [minutes, minutes, hwest, hoffset]

theorem Spells.chars_lt_iff (hs : c.Spells t) (hs' : c'.Spells t') (hd : c.Digits) (hd' : c'.Digits)
    (htail : c.sign :: c.offset = c'.sign :: c'.offset) : c.chars < c'.chars ↔ t.LocallyBefore t' := by
  rw [chars, chars, hd.year.append_lt_iff hd'.year, hd.month.append_lt_iff hd'.month, hd.day.append_lt_iff hd'.day,
    hs.time.append_lt_iff hs'.time hd.clock hd'.clock, htail]
  simp only [List.lt_irrefl, and_false, or_false, Timestamp.LocallyBefore, Date.Before, Date.ext_iff, hs.year, hs.month,
    hs.day, hs'.year, hs'.month, hs'.day, Int.ofNat_lt, Int.natCast_inj]
  grind

end TimestampText

theorem Target.coerce_utc_of_read [CustomTypes] {text : String} {t : Timestamp} (h : Timestamp.read text = .ok t) :
    utc.coerce (.datetime text) = .ok t.toUtc :=
  map_eq_ok.mpr ⟨t, coerce_datetime_eq_ok.mpr h, rfl⟩

namespace Timestamp

/-- Two texts with the same sign and offset are in the order of the instants that are read from them. Two instants, at
whatever offsets they are written, are in the order of their fields at UTC. -/
theorem text_order [CustomTypes] {text text' : String} {t t' : Timestamp} (ht : read text = .ok t)
    (ht' : read text' = .ok t') :
    (text.toList.drop 21 = text'.toList.drop 21 → (text < text' ↔ t.instant < t'.instant)) ∧
    ∃ u u' : Timestamp, Target.utc.coerce (.datetime text) = .ok u ∧ Target.utc.coerce (.datetime text') = .ok u' ∧
      (t.instant < t'.instant ↔ u.fields < u'.fields) ∧ (t.instant = t'.instant ↔ u.fields = u'.fields) := by
  have hoffset : t.toUtc.offset = t'.toUtc.offset := rfl
  refine ⟨?_, t.toUtc, t'.toUtc, Target.coerce_utc_of_read ht, Target.coerce_utc_of_read ht', ?_, ?_⟩
  · intro htail
    obtain ⟨c, hd, hc, hs⟩ := TimestampText.spells_of_read ht
    obtain ⟨c', hd', hc', hs'⟩ := TimestampText.spells_of_read ht'
    rw [hc, hc', hd.tail, hd'.tail] at htail
    have hlocal : t.offset = t'.offset := by rw [hs.offset, hs'.offset, TimestampText.minutes_of_tail htail]
    rw [String.lt_iff, hc, hc', hs.chars_lt_iff hs' hd hd' htail, instant_lt_iff hlocal]
  · rw [← instant_toUtc t, ← instant_toUtc t', instant_lt_iff hoffset, fields_lt_iff]
  · rw [← instant_toUtc t, ← instant_toUtc t', instant_inj hoffset]

theorem text_order_leap : ∃ t t' u u' : Timestamp, read "20240229235959.999999-060" = .ok t ∧
    read "20240301000000.000000-060" = .ok t' ∧ t.instant < t'.instant ∧
    read "20240301010000.000000+060" = .ok u ∧ Target.utc.coerce (.datetime "20240301010000.000000+060") = .ok u' ∧
    u'.fields = [2024, 3, 1, 0, 0, 0, 0] ∧ u.instant < t.instant := by
  have ht : read "20240229235959.999999-060" = .ok ⟨⟨2024, 2, 29, by decide⟩, ⟨23, 59, 59, 999999, by decide⟩, -60,
    by decide⟩ := rfl
  have ht' : read "20240301000000.000000-060" = .ok ⟨⟨2024, 3, 1, by decide⟩, ⟨0, 0, 0, 0, by decide⟩, -60,
    by decide⟩ := rfl
  have hu : read "20240301010000.000000+060" = .ok ⟨⟨2024, 3, 1, by decide⟩, ⟨1, 0, 0, 0, by decide⟩, 60,
    by decide⟩ := rfl
  obtain ⟨hlt, -⟩ := text_order ht ht'
  obtain ⟨-, u', v, hu', hv, hfields, -⟩ := text_order hu ht
  obtain rfl := Except.ok.inj ((Target.coerce_utc_of_read hu).symm.trans hu')
  obtain rfl := Except.ok.inj ((Target.coerce_utc_of_read ht).symm.trans hv)
  exact ⟨_, _, _, _, ht, ht', (hlt (by decide)).mp (by decide), hu, hu', by decide, hfields.mpr (by decide)⟩

end Timestamp

end TypedRecords
