import TypedRecords.Catalog
import TypedRecords.Proofs.TimestampText

/-!
# Instants

The instant of a timestamp is counted from its fields and its day number. At UTC there is one timestamp of each
instant: the date moves by at most a day, so one that was read from a text stays between the years -1 and 10000.
-/

namespace TypedRecords

theorem TimeOfDay.eq_of_seconds {t u : TimeOfDay} (hs : t.seconds = u.seconds) (hn : t.nanos = u.nanos) : t = u := by
  obtain ⟨hour, minute, second, micro, ht⟩ := t
  obtain ⟨hour', minute', second', micro', hu⟩ := u
  simp only [seconds, nanos] at hs hn
  simp only [mk.injEq]
  omega

namespace Timestamp

variable {t u : Timestamp}

def carry (t : Timestamp) : Int := (t.time.seconds - 60 * t.offset) / 86400

theorem carry_bounds (t : Timestamp) : -1 ≤ t.carry ∧ t.carry ≤ 1 := by
  have hs := t.time.seconds_lt
  have ho := t.inRange
  simp only [carry]
  omega

theorem date_toUtc (t : Timestamp) : t.toUtc.date = t.date.shift t.carry := rfl

theorem nanos_toUtc (t : Timestamp) : t.toUtc.nanos = t.nanos := rfl

theorem offset_toUtc (t : Timestamp) : t.toUtc.offset = 0 := rfl

theorem seconds_of_offset (h : t.offset = 0) : t.seconds = 86400 * t.date.dayNumber + t.time.seconds := by
  rw [seconds, h, Int.mul_zero, Int.sub_zero]

theorem seconds_toUtc (t : Timestamp) : t.toUtc.seconds = t.seconds := by
  have htime : t.toUtc.time.seconds = ((t.time.seconds - 60 * t.offset) % 86400).toNat := by
    rw [toUtc, TimeOfDay.seconds_withSeconds]
    omega
  rw [seconds_of_offset t.offset_toUtc, date_toUtc, Date.dayNumber_shift, htime, seconds, carry]
  omega

theorem year_toUtc (t : Timestamp) : t.date.year - 1 ≤ t.toUtc.date.year ∧ t.toUtc.date.year ≤ t.date.year + 1 :=
  Date.year_shift t.carry_bounds.1 t.carry_bounds.2

theorem eq_of_instant (ht : t.offset = 0) (hu : u.offset = 0) (hs : t.seconds = u.seconds)
    (hn : t.nanos = u.nanos) : t = u := by
  have htime := t.time.seconds_lt
  have hutime := u.time.seconds_lt
  rw [seconds_of_offset ht, seconds_of_offset hu] at hs
  have hdate : t.date = u.date := Date.dayNumber_inj (by omega)
  have htime : t.time = u.time := TimeOfDay.eq_of_seconds (by omega) hn
  obtain ⟨date, time, offset, _⟩ := t
  obtain ⟨date', time', offset', _⟩ := u
  obtain rfl : date = date' := hdate
  obtain rfl : time = time' := htime
  obtain rfl : offset = offset' := ht.trans hu.symm
  rfl

theorem toUtc_eq_iff : t.toUtc = u ↔ u.offset = 0 ∧ u.seconds = t.seconds ∧ u.nanos = t.nanos := by
  refine ⟨?_, ?_⟩
  · rintro rfl
    exact ⟨t.offset_toUtc, t.seconds_toUtc, t.nanos_toUtc⟩
  · intro h
    obtain ⟨ho, hs, hn⟩ := h
    exact eq_of_instant t.offset_toUtc ho (t.seconds_toUtc.trans hs.symm) (t.nanos_toUtc.trans hn.symm)

end Timestamp

theorem TimestampText.Spells.year_bounds {c : TimestampText} {t : Timestamp} (hs : c.Spells t) (hd : c.Digits) :
    0 ≤ t.date.year ∧ t.date.year ≤ 9999 := by
  have hlt : groupValue c.year < 10000 := hd.year.groupValue_lt
  rw [hs.year]
  omega

theorem TimestampText.Spells.seconds_eq {c : TimestampText} {t : Timestamp} (hs : c.Spells t) :
    t.seconds = 86400 * t.date.dayNumber + 3600 * groupValue c.clock.hour + 60 * groupValue c.clock.minute +
      groupValue c.clock.second - 60 * c.minutes := by
  rw [Timestamp.seconds, TimeOfDay.seconds, hs.time.hour, hs.time.minute, hs.time.second, hs.offset]
  omega

namespace Target

theorem coerce_datetime_eq_ok [CustomTypes] {text : String} {t : Timestamp} :
    datetime.coerce (.datetime text) = .ok t ↔ Timestamp.read text = .ok t := mapError_eq_ok

/-- The instant of a timestamp text is counted from what is written in its columns, and a value with that text is
coerced to the one timestamp at UTC of that instant, or fails as it does when its offset is kept. -/
theorem coerce_utc_exact [CustomTypes] (text : String) :
    (∀ t, Timestamp.read text = .ok t → ∀ c : TimestampText, c.Digits → text.toList = c.chars →
      ∃ date : Date, date.year = groupValue c.year ∧ date.month = groupValue c.month ∧ date.day = groupValue c.day ∧
        ∃ n, (∀ m, Date.epoch.shift m = date ↔ m = n) ∧
          t.seconds = 86400 * n + 3600 * groupValue c.clock.hour + 60 * groupValue c.clock.minute +
            groupValue c.clock.second - 60 * (if c.west then -groupValue c.offset else groupValue c.offset : Int)) ∧
    (∀ t, datetime.coerce (.datetime text) = .ok t ↔ Timestamp.read text = .ok t) ∧
    (∀ e, utc.coerce (.datetime text) = .error e ↔ datetime.coerce (.datetime text) = .error e) ∧
    ∀ t : Timestamp, datetime.coerce (.datetime text) = .ok t →
      ∃ u : Timestamp, utc.coerce (.datetime text) = .ok u ∧
        u.seconds = t.seconds ∧ u.nanos = t.nanos ∧ u.offset = 0 ∧
        IsDate u.date.year u.date.month u.date.day ∧
        IsTime u.time.hour u.time.minute u.time.second u.time.micro ∧
        (∃ n, (∀ m, Date.epoch.shift m = u.date ↔ m = n) ∧
          t.seconds = 86400 * n + 3600 * u.time.hour + 60 * u.time.minute + u.time.second) ∧
        -1 ≤ u.date.year ∧ u.date.year ≤ 10000 ∧
        ∀ u' : Timestamp, u'.offset = 0 → u'.seconds = t.seconds → u'.nanos = t.nanos → u' = u := by
  refine ⟨?_, fun t => coerce_datetime_eq_ok, fun e => map_eq_error, ?_⟩
  · intro t ht c hd hc
    have hs := TimestampText.spells_of_chars ht hd hc
    exact ⟨t.date, hs.year, hs.month, hs.day, t.date.dayNumber, fun _ => Date.epoch_shift_eq_iff, hs.seconds_eq⟩
  · intro t ht
    obtain ⟨c, hd, -, hs⟩ := TimestampText.read_eq_ok.mp (coerce_datetime_eq_ok.mp ht)
    have hyear := hs.year_bounds hd
    have hcarry := t.year_toUtc
    have hseconds := t.seconds_toUtc
    rw [Timestamp.seconds_of_offset t.offset_toUtc, TimeOfDay.seconds] at hseconds
    refine ⟨t.toUtc, map_eq_ok.mpr ⟨t, ht, rfl⟩, t.seconds_toUtc, t.nanos_toUtc, t.offset_toUtc, t.toUtc.date.isDate,
      t.toUtc.time.isTime, ⟨t.toUtc.date.dayNumber, fun _ => Date.epoch_shift_eq_iff, ?_⟩, ?_, ?_, ?_⟩
    · omega
    · omega
    · omega
    · intro u ho hs hn
      exact (Timestamp.toUtc_eq_iff.mpr ⟨ho, hs, hn⟩).symm

theorem coerce_utc_exact_ends :
    utc.coerce (.datetime "00000101000000.000000+001") = .ok ⟨⟨-1, 12, 31, by decide⟩, ⟨23, 59, 0, 0, by decide⟩, 0,
      by decide⟩ ∧
    utc.coerce (.datetime "99991231235959.999999-001") = .ok ⟨⟨10000, 1, 1, by decide⟩,
      ⟨0, 0, 59, 999999, by decide⟩, 0, by decide⟩ := by
  refine ⟨?_, ?_⟩
  · have hread : Timestamp.read "00000101000000.000000+001" = .ok ⟨⟨0, 1, 1, by decide⟩, .midnight, 1, by decide⟩ := rfl
    obtain ⟨-, hkept, -, hutc⟩ := coerce_utc_exact "00000101000000.000000+001"
    obtain ⟨u, hu, -, -, -, -, -, -, -, -, hunique⟩ := hutc _ ((hkept _).mpr hread)
    rw [hu, hunique ⟨⟨-1, 12, 31, by decide⟩, ⟨23, 59, 0, 0, by decide⟩, 0, by decide⟩ rfl (by decide) rfl]
  · have hread : Timestamp.read "99991231235959.999999-001" = .ok ⟨⟨9999, 12, 31, by decide⟩,
      ⟨23, 59, 59, 999999, by decide⟩, -1, by decide⟩ := rfl
    obtain ⟨-, hkept, -, hutc⟩ := coerce_utc_exact "99991231235959.999999-001"
    obtain ⟨u, hu, -, -, -, -, -, -, -, -, hunique⟩ := hutc _ ((hkept _).mpr hread)
    rw [hu, hunique ⟨⟨10000, 1, 1, by decide⟩, ⟨0, 0, 59, 999999, by decide⟩, 0, by decide⟩ rfl (by decide) rfl]

end Target

end TypedRecords
