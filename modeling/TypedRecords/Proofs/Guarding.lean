import TypedRecords.Proofs.TimestampText
import TypedRecords.Time.Guarded

/-!
# Readings that no check ends

What is read from the bytes of a text, with a check at every access, slice and sum, is what is read from its characters.
So no check ever fails, and the reasons that reading from characters does not know are never given.
-/

namespace TypedRecords

namespace Guarded

/-! ## Parts of a text -/

theorem slice_eq_ok {text front part rest : String} (htext : text = front ++ part ++ rest) {i j : Nat}
    (hi : i = front.utf8ByteSize) (hj : j = i + part.utf8ByteSize) : slice text i j = .ok part := by
  have hstart : (String.Pos.Raw.mk i).IsValid text :=
    String.Pos.Raw.isValid_iff_exists_append.mpr ⟨front, part ++ rest, htext.trans String.append_assoc, hi ▸ rfl⟩
  have hstop : (String.Pos.Raw.mk j).IsValid text := by
    refine String.Pos.Raw.isValid_iff_exists_append.mpr ⟨front ++ part, rest, htext, ?_⟩
    rw [hj, hi, ← String.utf8ByteSize_append]
    rfl
  have hcut : text.toByteArray.extract i j = part.toByteArray := by
    have h := ByteArray.extract_append_size_add (a := front.toByteArray) (b := part.toByteArray ++ rest.toByteArray)
      (i := 0) (j := part.toByteArray.size)
    rw [Nat.add_zero, ByteArray.extract_append_size_left, ByteArray.extract_zero_size, String.size_toByteArray,
      String.size_toByteArray] at h
    rw [htext, hj, hi, String.append_assoc, String.toByteArray_append, String.toByteArray_append, h]
  rw [slice, dif_pos ⟨hstart, hstop, by omega⟩]
  exact congrArg _ (String.toByteArray_inj.mp hcut)

theorem encode_of_ascii {cs : List Char} (h : ∀ c ∈ cs, c.val < 128) :
    cs.flatMap String.utf8EncodeChar = cs.map (·.toUInt8) := by
  induction cs with
  | nil => rfl
  | cons c cs ih =>
    rw [List.forall_mem_cons] at h
    have hsize : c.utf8Size = 1 := Char.utf8Size_eq_one_iff.mpr
      (UInt32.le_iff_toNat_le.mpr (Nat.le_of_lt_succ (UInt32.lt_iff_toNat_lt.mp h.1)))
    rw [List.flatMap_cons, ih h.2, String.utf8EncodeChar_eq_singleton hsize]
    rfl

theorem byteSize_ofList {cs : List Char} (h : ∀ c ∈ cs, c.val < 128) : (String.ofList cs).utf8ByteSize = cs.length := by
  rw [← String.size_toByteArray, String.toByteArray_ofList, List.utf8Encode, encode_of_ascii h, List.size_toByteArray,
    List.length_map]

section
variable {text : String} (h : ∀ c ∈ text.toList, c.val < 128)
include h

theorem byteSize_of_ascii : text.utf8ByteSize = text.toList.length := by
  rw [← byteSize_ofList h, String.ofList_toList]

theorem exists_byte {i : Nat} (hi : i < text.toList.length) :
    ∃ c, text.toList[i]? = some c ∧ c.val < 128 ∧ byte text i = .ok c.toUInt8 := by
  have hbytes : text.toByteArray = (text.toList.map (·.toUInt8)).toByteArray := by
    rw [← String.utf8Encode_toList, List.utf8Encode, encode_of_ascii h]
  refine ⟨_, List.getElem?_eq_getElem hi, h _ (List.getElem_mem hi), ?_⟩
  rw [byte, dif_pos (byteSize_of_ascii h ▸ hi)]
  simp [String.getUTF8Byte, hbytes]

theorem slice_of_ascii {s w : Nat} (hw : s + w ≤ text.toList.length) :
    slice text s (s + w) = .ok (String.ofList (places text.toList s w)) := by
  have htext : text = String.ofList (text.toList.take s) ++ String.ofList (places text.toList s w) ++
      String.ofList (text.toList.drop (s + w)) := by
    rw [← String.ofList_append, ← String.ofList_append, List.append_assoc, ← drop_eq_places, List.take_append_drop,
      String.ofList_toList]
  refine slice_eq_ok htext ?_ ?_
  · rw [byteSize_ofList fun c hc => h c (List.mem_of_mem_take hc), List.length_take]
    omega
  · have hplaces : ∀ c ∈ places text.toList s w, c.val < 128 :=
      fun c hc => h c (List.mem_of_mem_drop (List.mem_of_mem_take hc))
    rw [byteSize_ofList hplaces, places, List.length_take, List.length_drop]
    omega

end

theorem within_eq_ok {k : IntKind} {n : Int} (h : k.lo ≤ n ∧ n ≤ k.hi) : within k n = .ok () := if_pos h

/-! ## Guarded steps -/

/-- The guarded step fails with the text of the fault of the step that it guards, and else their results are related. -/
inductive Guards (r : α → β → Prop) : Except TimeFault α → Guarded β → Prop
  | ok {a : α} {b : β} : r a b → Guards r (.ok a) (.ok b)
  | fault (f : TimeFault) : Guards r (.error f) (fault f)

namespace Guards

theorem bind {r : α → β → Prop} {r' : γ → δ → Prop} {x : Except TimeFault α} {y : Guarded β}
    {f : α → Except TimeFault γ} {g : β → Guarded δ} (h : Guards r x y) (hfg : ∀ a b, r a b → Guards r' (f a) (g b)) :
    Guards r' (x >>= f) (y >>= g) := by
  cases h with
  | ok h => exact hfg _ _ h
  | fault f => exact .fault f

theorem within {r : α → β → Prop} {x : Except TimeFault α} {y : Unit → Guarded β} {k : IntKind} {n : Int}
    (hn : k.lo ≤ n ∧ n ≤ k.hi) (h : Guards r x (y ())) : Guards r x (Guarded.within k n >>= y) := by
  rw [within_eq_ok hn]
  exact h

section
variable {r : α → β → Prop} {x : Except TimeFault α} {y : Guarded β} (h : Guards r x y)
include h

theorem of_ok {a : α} (hx : x = .ok a) : ∃ b, r a b ∧ y = .ok b := by
  cases h with
  | ok h =>
    cases hx
    exact ⟨_, h, rfl⟩
  | fault f => cases hx

theorem of_error {f : TimeFault} (hx : x = .error f) : y = .error (.reason f.text) := by
  cases h with
  | ok h => cases hx
  | fault f =>
    cases hx
    rfl

theorem exists_fault {e : Halt} (hy : y = .error e) : ∃ f : TimeFault, e = .reason f.text := by
  cases h with
  | ok h => cases hy
  | fault f =>
    cases hy
    exact ⟨f, rfl⟩

end

end Guards

structure Laid (text : String) : Prop where
  ascii : ∀ c ∈ text.toList, c.val < 128
  length : text.toList.length = 25

theorem toUInt8_inj {c d : Char} (hc : c.val < 128) (hd : d.val < 128) : c.toUInt8 = d.toUInt8 ↔ c = d := by
  refine ⟨?_, fun h => h ▸ rfl⟩
  intro h
  have hnat : c.val.toNat % 256 = d.val.toNat % 256 := congrArg UInt8.toNat h
  have hc' : c.val.toNat < 128 := UInt32.lt_iff_toNat_lt.mp hc
  have hd' : d.val.toNat < 128 := UInt32.lt_iff_toNat_lt.mp hd
  exact Char.ext (UInt32.toNat_inj.mp (by omega))

theorem guards_layout (text : String) : Guards (fun _ _ => Laid text) (checkLayout text.toList) (layout text) := by
  unfold checkLayout layout
  by_cases hall : text.toList.all (·.val < 128) = true
  · have h : ∀ c ∈ text.toList, c.val < 128 := by simpa using hall
    rw [hall, byteSize_of_ascii h]
    by_cases hlen : text.toList.length = 25
    · obtain ⟨c, hc, hlt, hb⟩ := exists_byte h (show 14 < text.toList.length by omega)
      have hpoint := toUInt8_inj hlt (show '.'.val < 128 by decide)
      rw [hc, hb, hlen]
      by_cases hp : c = '.'
      · subst hp
        exact .ok ⟨h, hlen⟩
      · have hp' : c.toUInt8 ≠ '.'.toUInt8 := fun h => hp (hpoint.mp h)
        simp only [ne_eq, Option.some.injEq, hp, not_false_eq_true]
        show Guards _ (.error .noPoint) (if c.toUInt8 ≠ '.'.toUInt8 then fault .noPoint else pure ())
        rw [if_pos hp']
        exact .fault _
    · rw [if_pos hlen, if_pos hlen]
      exact .fault _
  · rw [Bool.not_eq_true] at hall
    rw [hall]
    exact .fault _

theorem readSign_eq {cs : List Char} {c : Char} (hc : cs[21]? = some c) :
    readSign cs = if c = '+' then .ok false else if c = '-' then .ok true
      else if c = ':' then .error .duration else .error .noSign := by
  unfold readSign
  rw [hc]
  split <;> simp_all

theorem guards_sign {text : String} (h : Laid text) :
    Guards (fun west s => s = if west then -1 else 1) (readSign text.toList) (sign text) := by
  obtain ⟨c, hc, hlt, hb⟩ := exists_byte h.ascii (show 21 < text.toList.length by rw [h.length]; decide)
  rw [readSign_eq hc, sign, hb]
  show Guards _ _ (if c.toUInt8 = '+'.toUInt8 then .ok 1 else if c.toUInt8 = '-'.toUInt8 then .ok (-1)
    else if c.toUInt8 = ':'.toUInt8 then fault .duration else fault .noSign)
  simp only [toUInt8_inj hlt (show '+'.val < 128 by decide), toUInt8_inj hlt (show '-'.val < 128 by decide),
    toUInt8_inj hlt (show ':'.val < 128 by decide)]
  split
  · exact .ok rfl
  · split
    · exact .ok rfl
    · split
      · exact .fault _
      · exact .fault _

theorem withoutPlus_of_digits {g : List Char} (h : g.all Char.isDigit = true) : withoutPlus g = g := by
  unfold withoutPlus
  split
  · exact absurd (List.all_eq_true.mp h '+' (List.mem_cons_self ..)) (by decide)
  · rfl

theorem parse_of_isGroup {g : List Char} {w : Nat} (hg : IsGroup w g) (hpos : 0 < w) (hw : w ≤ 9) :
    parse (String.ofList g) = some (groupValue g) := by
  have hlt : groupValue g < 1000000000 :=
    Nat.lt_of_lt_of_le hg.groupValue_lt (Nat.pow_le_pow_right (by decide) hw)
  have hne : g ≠ [] := by
    rintro rfl
    exact absurd hg.length (Nat.ne_of_lt hpos)
  rw [parse, String.toList_ofList, withoutPlus_of_digits hg.digits]
  exact if_pos ⟨hne, hg.digits, by omega⟩

theorem guards_digits {text : String} (h : Laid text) {s w j : Nat}
    (hcolumn : j = s + w ∧ j ≤ 25 ∧ 0 < w ∧ w ≤ 9) :
    Guards (fun n m => m = n.val) (readGroup text.toList s w) (digits text s j) := by
  obtain ⟨rfl, hlen, hpos, hw⟩ := hcolumn
  have hlen' : s + w ≤ text.toList.length := h.length ▸ hlen
  have hslice := slice_of_ascii h.ascii hlen'
  unfold digits
  rw [hslice]
  show Guards _ _ (if '*' ∈ (String.ofList (places text.toList s w)).toList then fault .wildcard else _)
  by_cases hstar : '*' ∈ places text.toList s w
  · rw [if_pos (by rwa [String.toList_ofList])]
    have hread : readGroup text.toList s w = .error .wildcard := if_pos hstar
    rw [hread]
    exact .fault _
  · rw [if_neg (by rwa [String.toList_ofList]), String.toList_ofList]
    by_cases hd : (places text.toList s w).all Char.isDigit = true
    · have hg : IsGroup w (places text.toList s w) := by
        refine ⟨?_, hd⟩
        rw [places, List.length_take, List.length_drop]
        omega
      -- nine digits at most: 32 bits are enough
      rw [if_pos hd, parse_of_isGroup hg hpos hw, readGroup_of_places hlen' hg rfl]
      exact .ok rfl
    · have hread : readGroup text.toList s w = .error (.noDigits s) := (if_neg hstar).trans (dif_neg hd)
      rw [if_neg hd, hread]
      exact .fault _

theorem guards_clock {text : String} (h : Laid text) :
    Guards (fun c q => q = (c.hour.val, c.minute.val, c.second.val, c.micro.val)) (readClock text.toList)
      (clock text) := by
  refine (guards_digits h (by omega)).bind fun hour _ hh => ?_
  refine (guards_digits h (by omega)).bind fun minute _ hm => ?_
  refine (guards_digits h (by omega)).bind fun second _ hs => ?_
  refine (guards_digits h (by omega)).bind fun micro _ hu => ?_
  subst hh hm hs hu
  exact .ok rfl

/-! ## Arithmetic -/

theorem mem_i32 {n : Int} (h : -60000 < n ∧ n < 60000) : IntKind.i32.lo ≤ n ∧ n ≤ IntKind.i32.hi := by
  show (-2147483648 : Int) ≤ n ∧ n ≤ 2147483647
  omega

theorem mem_u64 {n : Int} (h : 0 ≤ n ∧ n < 8640001000000) : IntKind.u64.lo ≤ n ∧ n ≤ IntKind.u64.hi := by
  show (0 : Int) ≤ n ∧ n ≤ 18446744073709551615
  omega

theorem zoned_eq_ok {zones : Zones Z T} (hz : zones.Lawful) {sign : Int} (hsign : sign = 1 ∨ sign = -1) {minutes : Nat}
    (hm : minutes < 1000) (date : Date) (hy : 0 ≤ date.year ∧ date.year < 10000) (time : TimeOfDay) :
    ∃ z t, zones.east? (sign * minutes * 60) = some z ∧ zones.resolve? z date time = some t ∧
      zoned zones sign minutes date time = .ok t := by
  have hoffset : -1000 < sign * minutes ∧ sign * minutes < 1000 := by
    rcases hsign with rfl | rfl <;> omega
  obtain ⟨z, hzone⟩ := hz.east (sign * minutes * 60) (by omega) (by omega)
  obtain ⟨t, ht⟩ := hz.resolve z date time (by omega) (by omega)
  refine ⟨z, t, hzone, ht, ?_⟩
  rw [zoned, within_eq_ok (mem_i32 (by omega)), within_eq_ok (mem_i32 (by omega)), hzone]
  simp only [ht]
  rfl

theorem sum_eq_ok {days hour minute second micro : Nat} (hdays : days < 100000000)
    (ht : IsTime hour minute second micro) :
    sum days hour minute second micro = .ok (86400 * days + (3600 * hour + 60 * minute + second), 1000 * micro) := by
  obtain ⟨hh, hm, hs, hu⟩ := ht
  rw [sum]
  iterate 7 rw [within_eq_ok (mem_u64 (by omega))]
  have hseconds : days * 86400 + hour * 3600 + minute * 60 + second + micro / 1000000 =
      86400 * days + (3600 * hour + 60 * minute + second) := by omega
  rw [hseconds, Nat.mod_eq_of_lt hu, Nat.mul_comm micro]
  rfl

/-! ## Readings -/

theorem guards_timestamp {zones : Zones Z T} (hz : zones.Lawful) (text : String) :
    Guards (fun t p => ∃ z, zones.east? (60 * t.offset) = some z ∧ zones.resolve? z t.date t.time = some p)
      (Timestamp.read text) (timestamp zones text) := by
  refine (guards_layout text).bind fun _ _ h => ?_
  refine (guards_sign h).bind fun west sign hsign => ?_
  refine (guards_digits h (by omega)).bind fun year _ hyear => ?_
  refine (guards_digits h (by omega)).bind fun month _ hmonth => ?_
  refine (guards_digits h (by omega)).bind fun day _ hday => ?_
  refine (guards_clock h).bind fun clock _ hclock => ?_
  refine (guards_digits h (by omega)).bind fun minutes _ hminutes => ?_
  subst hyear hmonth hday hclock hminutes
  have hy : year.val < 10000 := year.isLt
  have hm : minutes.val < 1000 := minutes.isLt
  -- the widths of the groups bound all that is checked from here on
  refine .within (mem_i32 (by omega)) ?_
  refine .within (mem_i32 (by omega)) ?_
  cases hdate : Date.of? year month day with
  | none => exact .fault _
  | some date =>
    cases TimeOfDay.of? clock.hour clock.minute clock.second clock.micro with
    | none => exact .fault _
    | some time =>
      have hdateyear : date.year = year.val := (Date.of?_eq_some.mp hdate).1
      have hsigns : sign = 1 ∨ sign = -1 := by
        rw [hsign]
        cases west with
        | false => exact .inl rfl
        | true => exact .inr rfl
      have hoffset : 60 * (if west = true then -(minutes.val : Int) else minutes.val) = sign * minutes.val * 60 := by
        rw [hsign]
        split <;> omega
      obtain ⟨z, p, hzone, hp, hzoned⟩ := zoned_eq_ok hz hsigns hm date (by omega) time
      simp only [hzoned]
      exact .ok ⟨z, by rw [hoffset, hzone], hp⟩

theorem suffix_eq {text : String} (h : Laid text) :
    suffix text = if text.toList.drop 21 = [':', '0', '0', '0'] then .ok () else fault .noSuffix := by
  obtain ⟨c, hc, hlt, hb⟩ := exists_byte h.ascii (show 21 < text.toList.length by rw [h.length]; decide)
  have hend : text.utf8ByteSize = 22 + 3 := (byteSize_of_ascii h.ascii).trans h.length
  have hslice := slice_of_ascii h.ascii (show 22 + 3 ≤ text.toList.length from Nat.le_of_eq h.length.symm)
  have hcolon := toUInt8_inj hlt (show ':'.val < 128 by decide)
  have hplaces : places text.toList 22 3 = text.toList.drop 22 :=
    List.take_of_length_le (by simp [h.length])
  have hzeros : String.ofList (text.toList.drop 22) = "000" ↔ text.toList.drop 22 = ['0', '0', '0'] := by
    rw [← String.toList_inj, String.toList_ofList]
    rfl
  rw [drop_eq_cons hc, suffix, hb, hend, hslice, hplaces]
  show (if c.toUInt8 ≠ ':'.toUInt8 then fault .noSuffix
    else if String.ofList (text.toList.drop 22) ≠ "000" then fault .noSuffix else .ok ()) = _
  by_cases hp : c = ':'
  · subst hp
    rw [if_neg (not_not_intro rfl)]
    by_cases hz : text.toList.drop 22 = ['0', '0', '0']
    · rw [if_neg (not_not_intro (hzeros.mpr hz)), hz]
      rfl
    · rw [if_pos fun h => hz (hzeros.mp h), if_neg]
      simpa using hz
  · rw [if_pos fun h => hp (hcolon.mp h), if_neg]
    simp [hp]

theorem guards_duration (text : String) :
    Guards (fun d p => p = (d.seconds, d.nanos)) (Duration.read text) (duration text) := by
  refine (guards_layout text).bind fun _ _ h => ?_
  rw [suffix_eq h]
  by_cases hs : text.toList.drop 21 = [':', '0', '0', '0']
  · simp only [if_pos hs]
    refine (guards_digits h (by omega)).bind fun days _ hdays => ?_
    refine (guards_clock h).bind fun clock _ hclock => ?_
    subst hdays hclock
    by_cases ht : IsTime clock.hour clock.minute clock.second clock.micro
    · have htime : TimeOfDay.of? clock.hour clock.minute clock.second clock.micro = some ⟨_, _, _, _, ht⟩ := dif_pos ht
      have hok : ¬ (clock.hour.val > 23 ∨ clock.minute.val > 59 ∨ clock.second.val > 59) := by omega
      simp only [htime, if_neg hok, sum_eq_ok days.isLt ht]
      exact .ok rfl
    · have htime : TimeOfDay.of? clock.hour clock.minute clock.second clock.micro = none := dif_neg ht
      have hmicro : clock.micro.val < 1000000 := clock.micro.isLt
      have hno : clock.hour.val > 23 ∨ clock.minute.val > 59 ∨ clock.second.val > 59 := by omega
      simp only [htime, if_pos hno]
      exact .fault _
  · simp only [if_neg hs]
    exact .fault _

theorem text_ne (f : TimeFault) : f.text ≠ "UTC offset out of range" ∧ f.text ≠ "ambiguous local time" ∧
    ∀ i : Nat, f.text ≠ "bad number at offset " ++ toString i := by
  have hstart : ∃ c cs, f.text.toList = c :: cs ∧ c ≠ 'U' ∧ c ≠ 'a' ∧ c ≠ 'b' := by
    cases f with
    | length n => exact ⟨'e', _, String.toList_append, by decide⟩
    | noDigits start => exact ⟨'n', _, String.toList_append, by decide⟩
    | notAscii | noPoint | duration | noSign | noSuffix | wildcard | noDate | noTime | noClock =>
      exact ⟨_, _, rfl, by decide⟩
  obtain ⟨c, cs, hc, hU, ha, hb⟩ := hstart
  refine ⟨?_, ?_, ?_⟩
  · intro h
    rw [h] at hc
    injection hc with hc
    exact hU hc.symm
  · intro h
    rw [h] at hc
    injection hc with hc
    exact ha hc.symm
  · intro i h
    rw [h, String.toList_append] at hc
    injection hc with hc
    exact hb hc.symm

end Guarded

/-- Every text is read guardedly as it is read without guards. What is a timestamp or a duration is read as that one, where
the calendar knows its offset and the local time, and where it is neither the same fault is reported: no check ends a
reading, and no reason stands for a number of more than 32 bits, an offset of a day or an uncertain local time. -/
theorem guarded_reading {Z T : Type} {zones : Zones Z T} (hz : zones.Lawful) (text : String) :
    (∀ t, Timestamp.read text = .ok t → ∃ z p, zones.east? (60 * t.offset) = some z ∧
      zones.resolve? z t.date t.time = some p ∧ Guarded.timestamp zones text = .ok p) ∧
    (∀ f, Timestamp.read text = .error f → Guarded.timestamp zones text = .error (.reason f.text)) ∧
    (∀ d, Duration.read text = .ok d → Guarded.duration text = .ok (d.seconds, d.nanos)) ∧
    (∀ f, Duration.read text = .error f → Guarded.duration text = .error (.reason f.text)) ∧
    ∀ e, Guarded.timestamp zones text = .error e ∨ Guarded.duration text = .error e →
      ∃ reason, e = .reason reason ∧ reason ≠ "UTC offset out of range" ∧ reason ≠ "ambiguous local time" ∧
        ∀ i : Nat, reason ≠ "bad number at offset " ++ toString i := by
  have htimestamp := Guarded.guards_timestamp hz text
  have hduration := Guarded.guards_duration text
  refine ⟨?_, fun f hf => htimestamp.of_error hf, ?_, fun f hf => hduration.of_error hf, ?_⟩
  · intro t ht
    obtain ⟨p, ⟨z, hzone, hp⟩, hread⟩ := htimestamp.of_ok ht
    exact ⟨z, p, hzone, hp, hread⟩
  · intro d hd
    obtain ⟨_, rfl, hread⟩ := hduration.of_ok hd
    exact hread
  · intro e he
    have hfault : ∃ f : TimeFault, e = .reason f.text := by
      rcases he with he | he
      · exact htimestamp.exists_fault he
      · exact hduration.exists_fault he
    obtain ⟨f, rfl⟩ := hfault
    exact ⟨f.text, rfl, Guarded.text_ne f⟩

theorem Zones.lawful_fixed : Zones.fixed.Lawful where
  east s h₀ h₁ := ⟨⟨s, h₀, h₁⟩, dif_pos ⟨h₀, h₁⟩⟩
  resolve z date time h₀ h₁ := ⟨(date, time, z.val), if_pos (by omega)⟩

theorem guarded_reading_fixed :
    Zones.fixed.Lawful ∧
    Guarded.timestamp .fixed "20240229235959.000001-720" =
      .ok (⟨2024, 2, 29, by decide⟩, ⟨23, 59, 59, 1, by decide⟩, -43200) ∧
    Guarded.timestamp .fixed "20240229235959.000001-72é" = .error (.reason "non-ASCII characters") ∧
    Guarded.duration "99999999235959.999999:000" = .ok (8639999999999, 999999000) ∧
    Guarded.duration "99999999240000.000000:000" = .error (.reason "invalid interval clock fields") := by
  obtain ⟨hwest, -⟩ := guarded_reading Zones.lawful_fixed "20240229235959.000001-720"
  obtain ⟨-, hlong, -⟩ := guarded_reading Zones.lawful_fixed "20240229235959.000001-72é"
  obtain ⟨-, -, hlast, -⟩ := guarded_reading Zones.lawful_fixed "99999999235959.999999:000"
  obtain ⟨-, -, -, hover, -⟩ := guarded_reading Zones.lawful_fixed "99999999240000.000000:000"
  refine ⟨Zones.lawful_fixed, ?_, hlong .notAscii rfl, hlast ⟨8639999999999, 999999, by decide⟩ rfl, hover .noClock rfl⟩
  obtain ⟨z, p, hz, hp, hread⟩ :=
    hwest ⟨⟨2024, 2, 29, by decide⟩, ⟨23, 59, 59, 1, by decide⟩, -720, by decide⟩ rfl
  cases hz
  cases hp
  exact hread

end TypedRecords
