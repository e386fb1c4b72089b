import TypedRecords.Proofs.Instants
import TypedRecords.Proofs.TextOrder

/-!
# Durations and their texts

A duration is a number of days and a time of day, and its text is written from the two. A text is read as a duration
exactly if digits fill its columns and its clock is a time of day; what is read is written back as it stood, what is
written is read back, and the texts are in the order of the durations.
-/

namespace TypedRecords

def Duration.time (d : Duration) : TimeOfDay :=
  TimeOfDay.withSeconds ⟨0, 0, 0, d.micro, by decide, by decide, by decide, d.micro_lt⟩ d.seconds

namespace Duration

variable {d : Duration}

theorem seconds_time (d : Duration) : d.time.seconds = d.seconds % 86400 := TimeOfDay.seconds_withSeconds ..

theorem nanos_time (d : Duration) : d.time.nanos = d.nanos := rfl

theorem seconds_eq (d : Duration) : d.seconds = 86400 * (d.seconds / 86400) + d.time.seconds := by
  rw [seconds_time, Nat.div_add_mod]

theorem eq_of_seconds {d' : Duration} (hs : d.seconds = d'.seconds) (hn : d.nanos = d'.nanos) : d = d' := by
  obtain ⟨seconds, micro, hd⟩ := d
  obtain ⟨seconds', micro', hd'⟩ := d'
  simp only [nanos] at hs hn
  simp only [mk.injEq]
  omega

theorem time_eq {days : Nat} {t : TimeOfDay} (hs : d.seconds = 86400 * days + t.seconds) (hn : d.nanos = t.nanos) :
    d.time = t := by
  have ht := t.seconds_lt
  apply TimeOfDay.eq_of_seconds
  · rw [seconds_time]
    omega
  · exact hn

end Duration

/-- The characters of a duration in their columns, `ddddddddHHMMSS.ffffff:000`. -/
structure DurationText where
  days : List Char
  clock : ClockText

namespace DurationText

def chars (c : DurationText) : List Char := c.days ++ (c.clock.chars ++ [':', '0', '0', '0'])

structure Digits (c : DurationText) : Prop where
  days : IsGroup 8 c.days
  clock : c.clock.Digits

/-- The groups are the days of `d` and the time of day that is left. -/
structure Spells (c : DurationText) (d : Duration) : Prop where
  days : d.seconds = 86400 * groupValue c.days + d.time.seconds
  time : c.clock.Spells d.time

def ofText (cs : List Char) : DurationText := ⟨places cs 0 8, .ofText cs⟩

def ofDuration (d : Duration) : DurationText := ⟨padded 8 (d.seconds / 86400), .ofTime d.time⟩

variable {c c' : DurationText} {d d' : Duration} {cs : List Char} {text text' : String}

/-! ## Columns -/

theorem Digits.length (h : c.Digits) : c.chars.length = 25 := by
  simp [chars, h.days.length, h.clock.length]

theorem Digits.ascii (h : c.Digits) : ∀ a ∈ c.chars, a.val < 128 := by
  simp only [chars, List.forall_mem_append]
  exact ⟨h.days.ascii, h.clock.ascii, by simp⟩

theorem Digits.point (h : c.Digits) : c.chars[14]? = some '.' := h.clock.point h.days.length

theorem Digits.suffix (h : c.Digits) : c.chars.drop 21 = [':', '0', '0', '0'] := by
  rw [chars, ← List.append_assoc]
  apply List.drop_left'
  simp [h.days.length, h.clock.length]

theorem ofText_chars (h : c.Digits) : ofText c.chars = c := by
  have hdays : places c.chars 0 8 = c.days := places_left h.days.length
  have hclock : ClockText.ofText c.chars = c.clock := ClockText.ofText_append h.clock h.days.length
  rw [ofText, hdays, hclock]

theorem chars_ofText (hpoint : cs[14]? = some '.') (hsuffix : cs.drop 21 = [':', '0', '0', '0']) :
    (ofText cs).chars = cs := by
  have hcut : cs.drop 0 = (ofText cs).chars := by
    rw [drop_eq_places cs 0 8, ClockText.drop_eq_chars hpoint, hsuffix]
    rfl
  exact hcut.symm

/-! ## Reading -/

theorem exists_spells : (∃ d, c.Spells d) ↔ IsTime (groupValue c.clock.hour) (groupValue c.clock.minute)
    (groupValue c.clock.second) (groupValue c.clock.micro) := by
  rw [← ClockText.exists_spells]
  refine ⟨fun ⟨d, hs⟩ => ⟨d.time, hs.time⟩, ?_⟩
  intro h
  obtain ⟨t, ht⟩ := h
  have hd : Duration.time ⟨86400 * groupValue c.days + t.seconds, t.micro, t.isTime.2.2.2⟩ = t :=
    Duration.time_eq rfl rfl
  exact ⟨⟨86400 * groupValue c.days + t.seconds, t.micro, t.isTime.2.2.2⟩, by rw [hd], by rwa [hd]⟩

theorem spells_of_read (h : Duration.read text = .ok d) :
    ∃ c : DurationText, c.Digits ∧ text.toList = c.chars ∧ c.Spells d := by
  have hsuffix := Duration.suffix_of_read h
  unfold Duration.read at h
  simp only [doBind_eq_ok, checkLayout_eq_ok] at h
  obtain ⟨-, ⟨-, hlen, hpoint⟩, h⟩ := h
  rw [if_pos hsuffix] at h
  simp only [doBind_eq_ok] at h
  obtain ⟨days, hdays, clock, hclock, hrest⟩ := h
  obtain ⟨hdays, hdays'⟩ := (readGroup_eq_ok (by omega)).mp hdays
  obtain ⟨hclock, hhour, hminute, hsecond, hmicro⟩ := (ClockText.readClock_eq_ok hlen).mp hclock
  refine ⟨ofText text.toList, ⟨hdays, hclock⟩, (chars_ofText hpoint hsuffix).symm, ?_⟩
  split at hrest
  · rename_i t ht
    obtain ⟨hh, hmin, hs, hu⟩ := TimeOfDay.of?_eq_some.mp ht
    cases hrest
    have htime := Duration.time_eq (d := ⟨86400 * days + t.seconds, t.micro, t.isTime.2.2.2⟩) rfl rfl
    refine ⟨?_, ?_⟩
    · rw [htime, ← show days.val = groupValue (ofText text.toList).days from hdays']
    · rw [htime]
      exact ⟨hh.trans hhour, hmin.trans hminute, hs.trans hsecond, hu.trans hmicro⟩
  · cases hrest

theorem read_of_spells (hd : c.Digits) (hs : c.Spells d) (htext : text.toList = c.chars) :
    Duration.read text = .ok d := by
  have hlen := hd.length
  have hof := ofText_chars hd
  have htime := TimeOfDay.of?_eq_some.mpr ⟨hs.time.hour, hs.time.minute, hs.time.second, hs.time.micro⟩
  unfold Duration.read
  simp only [doBind_eq_ok, htext]
  refine ⟨(), checkLayout_eq_ok.mpr ⟨hd.ascii, hlen, hd.point⟩, ?_⟩
  rw [if_pos hd.suffix]
  simp only [doBind_eq_ok]
  refine ⟨_, readGroup_of_places (by omega) hd.days (congrArg days hof),
    _, ClockText.readClock_of_ofText hlen hd.clock (congrArg clock hof), ?_⟩
  simp only [ClockText.Digits.clock, htime]
  exact congrArg Except.ok (Duration.eq_of_seconds hs.days.symm rfl)

theorem spells_of_chars (h : Duration.read text = .ok d) (hd : c.Digits) (hc : text.toList = c.chars) :
    c.Spells d := by
  obtain ⟨c', hd', hc', hs⟩ := spells_of_read h
  have hcols : c' = c := by rw [← ofText_chars hd', ← ofText_chars hd, ← hc', ← hc]
  exact hcols ▸ hs

/-! ## Writing -/

theorem toList_write (d : Duration) : d.write.toList = (ofDuration d).chars := by
  rw [Duration.write, String.toList_ofList, List.append_assoc]
  exact congrArg (padded 8 (d.seconds / 86400) ++ ·) (congrArg (· ++ _) (ClockText.writeClock_eq d.time))

theorem digits_ofDuration (d : Duration) : (ofDuration d).Digits :=
  ⟨isGroup_padded 8 _, ClockText.digits_ofTime d.time⟩

theorem spells_ofDuration (h : d.seconds < 86400 * 100000000) : (ofDuration d).Spells d := by
  refine ⟨?_, ClockText.spells_ofTime d.time⟩
  rw [ofDuration, groupValue_padded_of_lt (show _ < 100000000 by omega)]
  exact d.seconds_eq

theorem Spells.days_eq (hs : c.Spells d) : d.seconds / 86400 = groupValue c.days := by
  have htime := d.time.seconds_lt
  have hdays := hs.days
  omega

theorem Spells.write_eq (hs : c.Spells d) (hd : c.Digits) (hc : text.toList = c.chars) : d.write = text := by
  apply String.toList_inj.mp
  rw [toList_write, hc, ofDuration, hs.days_eq, hd.days.padded_groupValue, hs.time.chars_ofTime hd.clock]

theorem Spells.seconds_lt (hs : c.Spells d) (hd : c.Digits) : d.seconds < 86400 * 100000000 := by
  have htime := d.time.seconds_lt
  have hdays : groupValue c.days < 100000000 := hd.days.groupValue_lt
  rw [hs.days]
  omega

theorem read_write (h : d.seconds < 86400 * 100000000) : Duration.read d.write = .ok d :=
  read_of_spells (digits_ofDuration d) (spells_ofDuration h) (toList_write d)

/-! ## Order -/

theorem Spells.chars_lt_iff (hs : c.Spells d) (hs' : c'.Spells d') (hd : c.Digits) (hd' : c'.Digits) :
    c.chars < c'.chars ↔ d.seconds < d'.seconds ∨ d.seconds = d'.seconds ∧ d.nanos < d'.nanos := by
  have htime := d.time.seconds_lt
  have htime' := d'.time.seconds_lt
  rw [chars, chars, hd.days.append_lt_iff hd'.days, hs.time.append_lt_iff hs'.time hd.clock hd'.clock,
    TimeOfDay.before_iff, Duration.nanos_time, Duration.nanos_time, hs.days, hs'.days]
  simp only [List.lt_irrefl, and_false, or_false]
  omega

end DurationText

namespace Duration

/-- The texts that are read as durations, what is read from them, and what is written back, for every text. The texts
are in the order of the durations. -/
theorem read_write_ordered (text : String) :
    ((∃ d, read text = .ok d) ↔ ∃ c : DurationText, c.Digits ∧ text.toList = c.chars ∧
      groupValue c.clock.hour ≤ 23 ∧ groupValue c.clock.minute ≤ 59 ∧ groupValue c.clock.second ≤ 59) ∧
    (∀ d, read text = .ok d →
      (∀ c : DurationText, c.Digits → text.toList = c.chars →
        d.seconds = 86400 * groupValue c.days + 3600 * groupValue c.clock.hour + 60 * groupValue c.clock.minute +
          groupValue c.clock.second ∧
        d.nanos = 1000 * groupValue c.clock.micro) ∧
      d.seconds < 86400 * 100000000 ∧ d.nanos < 1000000000 ∧ d.write = text) ∧
    (∀ d : Duration, d.seconds < 86400 * 100000000 → read d.write = .ok d) ∧
    ∀ text' d d', read text = .ok d → read text' = .ok d' →
      (text < text' ↔ [d.seconds, d.nanos] < [d'.seconds, d'.nanos]) := by
  refine ⟨⟨?_, ?_⟩, ?_, fun d => DurationText.read_write, ?_⟩
  · intro h
    obtain ⟨d, h⟩ := h
    obtain ⟨c, hd, hc, hs⟩ := DurationText.spells_of_read h
    have htime := DurationText.exists_spells.mp ⟨d, hs⟩
    exact ⟨c, hd, hc, by omega, by omega, by omega⟩
  · intro h
    obtain ⟨c, hd, hc, hhour, hminute, hsecond⟩ := h
    have hmicro : groupValue c.clock.micro < 1000000 := hd.clock.micro.groupValue_lt
    obtain ⟨d, hs⟩ := DurationText.exists_spells.mpr ⟨by omega, by omega, by omega, hmicro⟩
    exact ⟨d, DurationText.read_of_spells hd hs hc⟩
  · intro d h
    obtain ⟨c, hd, hc, hs⟩ := DurationText.spells_of_read h
    have hmicro := d.micro_lt
    refine ⟨?_, hs.seconds_lt hd, by simp only [nanos]; omega, hs.write_eq hd hc⟩
    intro c' hd' hc'
    have hs' := DurationText.spells_of_chars h hd' hc'
    refine ⟨?_, ?_⟩
    · rw [hs'.days, TimeOfDay.seconds, hs'.time.hour, hs'.time.minute, hs'.time.second]
      omega
    · rw [← nanos_time, TimeOfDay.nanos, hs'.time.micro]
  · intro text' d d' h h'
    obtain ⟨c, hd, hc, hs⟩ := DurationText.spells_of_read h
    obtain ⟨c', hd', hc', hs'⟩ := DurationText.spells_of_read h'
    rw [String.lt_iff, hc, hc', hs.chars_lt_iff hs' hd hd']
    simp [List.cons_lt_cons_iff]

theorem read_write_ordered_longest : ∃ d : Duration, read "99999999235959.999999:000" = .ok d ∧
    d.seconds = 8639999999999 ∧ d.nanos = 999999000 ∧ d.write = "99999999235959.999999:000" ∧
    read "00000001000000.000000:000" = .ok ⟨86400, 0, by decide⟩ ∧
    "00000001000000.000000:000" < "99999999235959.999999:000" := by
  have hd : (DurationText.ofText "99999999235959.999999:000".toList).Digits :=
    ⟨⟨rfl, rfl⟩, ⟨⟨rfl, rfl⟩, ⟨rfl, rfl⟩, ⟨rfl, rfl⟩, ⟨rfl, rfl⟩⟩⟩
  obtain ⟨hread, hfields, -⟩ := read_write_ordered "99999999235959.999999:000"
  obtain ⟨d, h⟩ := hread.mpr ⟨_, hd, rfl, by decide, by decide, by decide⟩
  obtain ⟨hvalues, -, -, hwrite⟩ := hfields d h
  obtain ⟨hseconds, hnanos⟩ := hvalues _ hd rfl
  obtain ⟨-, -, hback, horder⟩ := read_write_ordered "00000001000000.000000:000"
  have hday : (⟨86400, 0, by decide⟩ : Duration).write = "00000001000000.000000:000" := rfl
  have hback := hday ▸ hback ⟨86400, 0, by decide⟩ (by decide)
  have hseconds : d.seconds = 8639999999999 := hseconds.trans (by decide)
  have hnanos : d.nanos = 999999000 := hnanos.trans (by decide)
  refine ⟨d, h, hseconds, hnanos, hwrite, hback, ?_⟩
  apply (horder _ _ _ hback h).mpr
  rw [hseconds, hnanos]
  decide

end Duration

end TypedRecords
