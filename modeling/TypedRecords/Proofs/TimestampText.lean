import TypedRecords.Proofs.Columns
import TypedRecords.Proofs.DayNumber

/-!
# Timestamps and their texts

A text is read as a timestamp exactly if its columns hold digits and a sign and its groups are the fields of that
timestamp. The columns of a text are determined, so what is read is written back as it stood, up to the sign of no
offset, and what is written is read back. No text is both a timestamp and a duration.
-/

namespace TypedRecords

theorem Date.of?_eq_some {year : Int} {month day : Nat} {d : Date} :
    of? year month day = some d ↔ d.year = year ∧ d.month = month ∧ d.day = day := by
  unfold of?
  split
  · obtain ⟨year', month', day', hd⟩ := d
    simp [eq_comm]
  · rename_i hn
    refine ⟨?_, ?_⟩
    · intro h
      cases h
    · rintro ⟨rfl, rfl, rfl⟩
      exact absurd d.isDate hn

theorem readSign_eq_ok {cs : List Char} {west : Bool} :
    readSign cs = .ok west ↔ cs[21]? = some (if west then '-' else '+') := by
  unfold readSign
  split
  · rename_i h
    cases west <;> simp [h]
  · rename_i h
    cases west <;> simp [h]
  · rename_i h
    cases west <;> simp [h]
  · rename_i hplus hminus _
    refine iff_of_false nofun ?_
    cases west with
    | false => exact hplus
    | true => exact hminus

/-- The characters of a timestamp in their columns, `yyyymmddHHMMSS.ffffff`, a sign and `UUU`. -/
structure TimestampText where
  year : List Char
  month : List Char
  day : List Char
  clock : ClockText
  west : Bool
  offset : List Char

namespace TimestampText

def sign (c : TimestampText) : Char := if c.west then '-' else '+'

def chars (c : TimestampText) : List Char :=
  c.year ++ (c.month ++ (c.day ++ (c.clock.chars ++ c.sign :: c.offset)))

structure Digits (c : TimestampText) : Prop where
  year : IsGroup 4 c.year
  month : IsGroup 2 c.month
  day : IsGroup 2 c.day
  clock : c.clock.Digits
  offset : IsGroup 3 c.offset

def minutes (c : TimestampText) : Int := if c.west then -groupValue c.offset else groupValue c.offset

/-- The groups are the fields of `t`, which are those of a date and a time of day. -/
structure Spells (c : TimestampText) (t : Timestamp) : Prop where
  year : t.date.year = groupValue c.year
  month : t.date.month = groupValue c.month
  day : t.date.day = groupValue c.day
  time : c.clock.Spells t.time
  offset : t.offset = c.minutes

def ofText (cs : List Char) : TimestampText :=
  ⟨places cs 0 4, places cs 4 2, places cs 6 2, .ofText cs, cs[21]? = some '-', places cs 22 3⟩

def ofTimestamp (t : Timestamp) : TimestampText :=
  ⟨padded 4 t.date.year.toNat, padded 2 t.date.month, padded 2 t.date.day, .ofTime t.time, t.offset < 0,
    padded 3 t.offset.natAbs⟩

variable {c : TimestampText} {t : Timestamp} {cs : List Char}

/-! ## Columns -/

theorem Digits.length (h : c.Digits) : c.chars.length = 25 := by
  simp [chars, h.year.length, h.month.length, h.day.length, h.clock.length, h.offset.length]

theorem Digits.ascii (h : c.Digits) : ∀ a ∈ c.chars, a.val < 128 := by
  have hsign : c.sign.val < 128 := by
    unfold sign
    split <;> decide
  simp only [chars, List.forall_mem_append, List.forall_mem_cons]
  exact ⟨h.year.ascii, h.month.ascii, h.day.ascii, h.clock.ascii, hsign, h.offset.ascii⟩

theorem Digits.sign (h : c.Digits) : c.chars[21]? = some c.sign := by
  have hfront : (c.year ++ (c.month ++ (c.day ++ c.clock.chars))).length = 21 := by
    simp [h.year.length, h.month.length, h.day.length, h.clock.length]
  rw [show c.chars = (c.year ++ (c.month ++ (c.day ++ c.clock.chars))) ++ c.sign :: c.offset by simp [chars]]
  exact getElem?_after hfront

theorem Digits.point (h : c.Digits) : c.chars[14]? = some '.' := by
  rw [show c.chars = (c.year ++ (c.month ++ c.day)) ++ (c.clock.chars ++ c.sign :: c.offset) by simp [chars]]
  apply h.clock.point
  simp [h.year.length, h.month.length, h.day.length]

theorem ofText_chars (h : c.Digits) : ofText c.chars = c := by
  have hyear : places c.chars 0 4 = c.year := places_left h.year.length
  have hmonth : places c.chars (4 + 0) 2 = c.month := by
    rw [chars, places_append h.year.length, places_left h.month.length]
  have hday : places c.chars (4 + (2 + 0)) 2 = c.day := by
    rw [chars, places_append h.year.length, places_append h.month.length, places_left h.day.length]
  have hclock : ClockText.ofText c.chars = c.clock := by
    rw [show c.chars = (c.year ++ (c.month ++ c.day)) ++ (c.clock.chars ++ c.sign :: c.offset) by simp [chars]]
    exact ClockText.ofText_append h.clock (by simp [h.year.length, h.month.length, h.day.length])
  have hoffset : places c.chars (4 + (2 + (2 + (13 + (1 + 0))))) 3 = c.offset := by
    rw [chars, places_append h.year.length, places_append h.month.length, places_append h.day.length,
      places_append h.clock.length, places_cons, places_self h.offset.length]
  have hwest : decide (c.chars[21]? = some '-') = c.west := by
    rw [h.sign, TimestampText.sign]
    cases c.west <;> rfl
  show (⟨_, _, _, _, _, _⟩ : TimestampText) = c
  rw [hyear, show places _ 4 2 = _ from hmonth, show places _ 6 2 = _ from hday, hclock, hwest,
    show places _ 22 3 = _ from hoffset]

theorem chars_ofText (hlen : cs.length = 25) (hpoint : cs[14]? = some '.')
    (hsign : cs[21]? = some (ofText cs).sign) : (ofText cs).chars = cs := by
  have htail : places cs 22 3 = cs.drop 22 := List.take_of_length_le (by simp [hlen])
  have hcut : cs.drop 0 = (ofText cs).chars := by
    rw [drop_eq_places cs 0 4, drop_eq_places cs 4 2, drop_eq_places cs 6 2, ClockText.drop_eq_chars hpoint,
      drop_eq_cons hsign, ← htail]
    rfl
  exact hcut.symm

/-! ## Reading -/

theorem chars_inj {c' : TimestampText} (h : c.Digits) (h' : c'.Digits) (hc : c.chars = c'.chars) : c = c' := by
  rw [← ofText_chars h, ← ofText_chars h', hc]

theorem exists_spells (h : c.Digits) : (∃ t, c.Spells t) ↔
    IsDate (groupValue c.year) (groupValue c.month) (groupValue c.day) ∧
      IsTime (groupValue c.clock.hour) (groupValue c.clock.minute) (groupValue c.clock.second)
        (groupValue c.clock.micro) := by
  refine ⟨?_, ?_⟩
  · intro hs
    obtain ⟨t, hs⟩ := hs
    have hdate := t.date.isDate
    rw [hs.year, hs.month, hs.day] at hdate
    exact ⟨hdate, ClockText.exists_spells.mp ⟨t.time, hs.time⟩⟩
  · intro hvalid
    obtain ⟨hdate, htime⟩ := hvalid
    obtain ⟨time, ht⟩ := ClockText.exists_spells.mpr htime
    have hlt : groupValue c.offset < 1000 := h.offset.groupValue_lt
    have hrange : -999 ≤ c.minutes ∧ c.minutes ≤ 999 := by
      unfold minutes
      split <;> omega
    exact ⟨⟨⟨_, _, _, hdate⟩, time, c.minutes, hrange⟩, rfl, rfl, rfl, ht, rfl⟩

theorem spells_of_read {text : String} (h : Timestamp.read text = .ok t) :
    ∃ c : TimestampText, c.Digits ∧ text.toList = c.chars ∧ c.Spells t := by
  unfold Timestamp.read at h
  simp only [doBind_eq_ok, checkLayout_eq_ok] at h
  obtain ⟨-, ⟨-, hlen, hpoint⟩, west, hwest, year, hyear, month, hmonth, day, hday, clock, hclock, offset, hoffset,
    hrest⟩ := h
  obtain ⟨hyear, hyear'⟩ := (readGroup_eq_ok (by omega)).mp hyear
  obtain ⟨hmonth, hmonth'⟩ := (readGroup_eq_ok (by omega)).mp hmonth
  obtain ⟨hday, hday'⟩ := (readGroup_eq_ok (by omega)).mp hday
  obtain ⟨hclock, hhour, hminute, hsecond, hmicro⟩ := (ClockText.readClock_eq_ok hlen).mp hclock
  obtain ⟨hoffset, hoffset'⟩ := (readGroup_eq_ok (by omega)).mp hoffset
  have hsign := readSign_eq_ok.mp hwest
  -- the sign that was read is the one in column 21, so the columns put together are the whole text
  have hside : (ofText text.toList).west = west := by
    cases west <;> simp [ofText, hsign]
  have hchars : (ofText text.toList).chars = text.toList := by
    refine chars_ofText hlen hpoint ?_
    rw [hsign, sign, hside]
  refine ⟨ofText text.toList, ⟨hyear, hmonth, hday, hclock, hoffset⟩, hchars.symm, ?_⟩
  split at hrest
  · rename_i date hdate
    obtain ⟨hy, hm, hd⟩ := Date.of?_eq_some.mp hdate
    split at hrest
    · rename_i time htime
      obtain ⟨hh, hmin, hs, hu⟩ := TimeOfDay.of?_eq_some.mp htime
      cases hrest
      refine ⟨hy.trans (congrArg _ hyear'), hm.trans hmonth', hd.trans hday',
        ⟨hh.trans hhour, hmin.trans hminute, hs.trans hsecond, hu.trans hmicro⟩, ?_⟩
      simp only [minutes, hside, hoffset']
      rfl
    · cases hrest
  · cases hrest

theorem read_of_spells (hd : c.Digits) (hs : c.Spells t) {text : String} (htext : text.toList = c.chars) :
    Timestamp.read text = .ok t := by
  have hlen := hd.length
  have hof := ofText_chars hd
  have hdate := Date.of?_eq_some.mpr ⟨hs.year, hs.month, hs.day⟩
  have htime := TimeOfDay.of?_eq_some.mpr ⟨hs.time.hour, hs.time.minute, hs.time.second, hs.time.micro⟩
  obtain ⟨date, time, off, hr⟩ := t
  obtain rfl : off = c.minutes := hs.offset
  unfold Timestamp.read
  simp only [doBind_eq_ok, htext]
  refine ⟨(), checkLayout_eq_ok.mpr ⟨hd.ascii, hlen, hd.point⟩, _, readSign_eq_ok.mpr hd.sign,
    _, readGroup_of_places (by omega) hd.year (congrArg year hof),
    _, readGroup_of_places (by omega) hd.month (congrArg month hof),
    _, readGroup_of_places (by omega) hd.day (congrArg day hof),
    _, ClockText.readClock_of_ofText hlen hd.clock (congrArg clock hof),
    _, readGroup_of_places (by omega) hd.offset (congrArg offset hof), ?_⟩
  simp only [ClockText.Digits.clock, hdate, htime]
  rfl

theorem read_eq_ok {text : String} :
    Timestamp.read text = .ok t ↔ ∃ c : TimestampText, c.Digits ∧ text.toList = c.chars ∧ c.Spells t := by
  refine ⟨spells_of_read, ?_⟩
  intro h
  obtain ⟨c, hd, hc, hs⟩ := h
  exact read_of_spells hd hs hc

theorem exists_read_iff {text : String} : (∃ t, Timestamp.read text = .ok t) ↔
    ∃ c : TimestampText, c.Digits ∧ text.toList = c.chars ∧ ∃ t, c.Spells t := by
  simp only [read_eq_ok]
  exact ⟨fun ⟨t, c, hd, hc, hs⟩ => ⟨c, hd, hc, t, hs⟩, fun ⟨c, hd, hc, t, hs⟩ => ⟨t, c, hd, hc, hs⟩⟩

theorem spells_of_chars {text : String} (ht : Timestamp.read text = .ok t) (hd : c.Digits)
    (hc : text.toList = c.chars) : c.Spells t := by
  obtain ⟨c', hd', hc', hs⟩ := spells_of_read ht
  obtain rfl : c' = c := chars_inj hd' hd (hc' ▸ hc)
  exact hs

/-! ## Writing -/

theorem toList_write (t : Timestamp) : t.write.toList = (ofTimestamp t).chars := by
  simp [Timestamp.write, chars, ofTimestamp, ClockText.writeClock_eq, sign]

theorem digits_ofTimestamp (t : Timestamp) : (ofTimestamp t).Digits :=
  ⟨isGroup_padded 4 _, isGroup_padded 2 _, isGroup_padded 2 _, ClockText.digits_ofTime t.time, isGroup_padded 3 _⟩

theorem spells_ofTimestamp (h₀ : 0 ≤ t.date.year) (h₁ : t.date.year ≤ 9999) : (ofTimestamp t).Spells t := by
  have hdate := t.date.isDate
  have hday := monthLength_le t.date.year t.date.month
  have hoffset := t.inRange
  have hyear : groupValue (padded 4 t.date.year.toNat) = t.date.year.toNat :=
    groupValue_padded_of_lt (show _ < 10000 by omega)
  have hminutes : groupValue (padded 3 t.offset.natAbs) = t.offset.natAbs :=
    groupValue_padded_of_lt (show _ < 1000 by omega)
  refine ⟨?_, (groupValue_padded_of_lt (show _ < 100 by omega)).symm,
    (groupValue_padded_of_lt (show _ < 100 by omega)).symm, ClockText.spells_ofTime t.time, ?_⟩
  · show t.date.year = (groupValue (padded 4 t.date.year.toNat) : Int)
    rw [hyear]
    omega
  · simp only [minutes, ofTimestamp, hminutes, decide_eq_true_eq]
    split <;> omega

theorem Spells.ofTimestamp_eq (hs : c.Spells t) (hd : c.Digits) :
    ofTimestamp t = { c with west := t.offset < 0 } := by
  have habs : t.offset.natAbs = groupValue c.offset := by
    rw [hs.offset, minutes]
    split <;> omega
  unfold ofTimestamp
  rw [hs.year, hs.month, hs.day, hs.time.chars_ofTime hd.clock, habs, Int.toNat_natCast,
    hd.year.padded_groupValue, hd.month.padded_groupValue, hd.day.padded_groupValue, hd.offset.padded_groupValue]

theorem isGroup_zeros : IsGroup 3 ['0', '0', '0'] := ⟨rfl, by decide⟩

/-- The sign is that of the offset, unless there is none. -/
theorem Spells.west_eq (hs : c.Spells t) (hd : c.Digits) (h : ¬ (c.west = true ∧ c.offset = ['0', '0', '0'])) :
    decide (t.offset < 0) = c.west := by
  rw [hs.offset, minutes]
  cases hw : c.west with
  | false => simp
  | true =>
    have hne : groupValue c.offset ≠ 0 := fun hz => h ⟨hw, hd.offset.ext isGroup_zeros hz⟩
    simp only [ite_true, decide_eq_true_eq]
    omega

theorem Spells.offset_of_zeros (hs : c.Spells t) (h : c.offset = ['0', '0', '0']) : t.offset = 0 := by
  rw [hs.offset, minutes, h]
  split <;> rfl

theorem Spells.toList_write (hs : c.Spells t) (hd : c.Digits) :
    t.write.toList = { c with west := t.offset < 0 }.chars := by
  rw [TimestampText.toList_write, hs.ofTimestamp_eq hd]

theorem read_write (h₀ : 0 ≤ t.date.year) (h₁ : t.date.year ≤ 9999) : Timestamp.read t.write = .ok t :=
  read_of_spells (digits_ofTimestamp t) (spells_ofTimestamp h₀ h₁) (toList_write t)

/-! ## Durations -/

theorem sign_of_read {text : String} (h : Timestamp.read text = .ok t) :
    text.toList[21]? = some '+' ∨ text.toList[21]? = some '-' := by
  obtain ⟨c, hd, hc, -⟩ := spells_of_read h
  rw [hc, hd.sign, sign]
  cases c.west with
  | false => exact .inl rfl
  | true => exact .inr rfl

end TimestampText

theorem Duration.suffix_of_read {text : String} {d : Duration} (h : Duration.read text = .ok d) :
    text.toList.drop 21 = [':', '0', '0', '0'] := by
  unfold Duration.read at h
  simp only [doBind_eq_ok] at h
  obtain ⟨-, -, hrest⟩ := h
  by_contra hne
  rw [if_neg hne] at hrest
  cases hrest

theorem Duration.colon_of_read {text : String} {d : Duration} (h : Duration.read text = .ok d) :
    text.toList[21]? = some ':' := by
  rw [← List.getElem?_drop (i := 21) (j := 0), suffix_of_read h]
  rfl

namespace Timestamp

/-- The texts that are read as timestamps, what is read from them, and what is written back, for every text. A text in
columns has only one division into columns; `-000` is written as `+000`. -/
theorem read_write_exact (text : String) :
    ((∃ t, read text = .ok t) ↔ ∃ c : TimestampText, c.Digits ∧ text.toList = c.chars ∧
      IsDate (groupValue c.year) (groupValue c.month) (groupValue c.day) ∧
      IsTime (groupValue c.clock.hour) (groupValue c.clock.minute) (groupValue c.clock.second)
        (groupValue c.clock.micro)) ∧
    (∀ t, read text = .ok t → ∀ c : TimestampText, c.Digits → text.toList = c.chars →
      c.Spells t ∧ t.nanos = 1000 * groupValue c.clock.micro ∧
      60 * t.offset = (if c.west then -60 * groupValue c.offset else 60 * groupValue c.offset : Int) ∧
      (¬ (c.west = true ∧ c.offset = ['0', '0', '0']) → t.write = text) ∧
      (c.west = true → c.offset = ['0', '0', '0'] → t.write.toList = { c with west := false }.chars)) ∧
    (∀ t : Timestamp, 0 ≤ t.date.year → t.date.year ≤ 9999 → read t.write = .ok t) ∧
    ¬ ((∃ t, read text = .ok t) ∧ ∃ d, Duration.read text = .ok d) := by
  refine ⟨?_, ?_, fun t => TimestampText.read_write, ?_⟩
  · rw [TimestampText.exists_read_iff]
    refine exists_congr fun c => and_congr_right fun hd => and_congr_right fun _ => ?_
    exact TimestampText.exists_spells hd
  · intro t ht c hd hc
    have hs := TimestampText.spells_of_chars ht hd hc
    have hwrite := hs.toList_write hd
    refine ⟨hs, ?_, ?_, ?_, ?_⟩
    · rw [nanos, TimeOfDay.nanos, hs.time.micro]
    · rw [hs.offset, TimestampText.minutes]
      split <;> omega
    · intro hz
      rw [hs.west_eq hd hz] at hwrite
      exact String.toList_inj.mp (hwrite.trans hc.symm)
    · intro _ hz
      rw [hwrite, hs.offset_of_zeros hz]
      rfl
  · intro h
    obtain ⟨⟨t, ht⟩, d, hdur⟩ := h
    have hsign := TimestampText.sign_of_read ht
    rw [Duration.colon_of_read hdur] at hsign
    rcases hsign with hsign | hsign
    · cases hsign
    · cases hsign

theorem read_write_exact_leap : ∃ t, read "20240229235959.000001-000" = .ok t ∧ t.seconds = 1709251199 ∧
    t.nanos = 1000 ∧ t.write = "20240229235959.000001+000" ∧ read t.write = .ok t := by
  have hd : (TimestampText.ofText "20240229235959.000001-000".toList).Digits :=
    ⟨⟨rfl, rfl⟩, ⟨rfl, rfl⟩, ⟨rfl, rfl⟩, ⟨⟨rfl, rfl⟩, ⟨rfl, rfl⟩, ⟨rfl, rfl⟩, ⟨rfl, rfl⟩⟩, ⟨rfl, rfl⟩⟩
  obtain ⟨hread, hfields, hback, -⟩ := read_write_exact "20240229235959.000001-000"
  obtain ⟨t, ht⟩ := hread.mpr ⟨_, hd, rfl, by decide, by decide⟩
  obtain ⟨hs, hnanos, -, -, hwrite⟩ := hfields t ht _ hd rfl
  have hdate : t.date = ⟨2024, 2, 29, by decide⟩ := by
    obtain ⟨⟨year, month, day, _⟩, _⟩ := t
    obtain ⟨rfl, rfl, rfl, -⟩ := hs
    rfl
  have htime : t.time = ⟨23, 59, 59, 1, by decide⟩ := hs.time.unique ⟨rfl, rfl, rfl, rfl⟩
  refine ⟨t, ht, ?_, hnanos, String.toList_inj.mp (hwrite rfl rfl), hback t ?_ ?_⟩
  · rw [seconds, hdate, htime, hs.offset_of_zeros rfl]
    decide
  · rw [hdate]
    decide
  · rw [hdate]
    decide

end Timestamp

end TypedRecords
