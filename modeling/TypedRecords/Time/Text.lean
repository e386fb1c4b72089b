import TypedRecords.Text.Digits
import TypedRecords.Time.Timestamp

/-!
# Timestamp and duration texts

Both texts have 25 ASCII characters. A timestamp is `yyyymmddHHMMSS.ffffff+UUU`, with the offset in minutes
and its sign; a duration is `ddddddddHHMMSS.ffffff:000`, with a count of days. They are read from the left,
and the first fault found is reported.
-/

namespace TypedRecords

/-- Why a text is not a timestamp or not a duration. Offsets are counted from the start of the text. -/
inductive TimeFault
  | notAscii
  | length (n : Nat)
  | noPoint
  | duration
  | noSign
  | noSuffix
  | wildcard
  | noDigits (start : Nat)
  | noDate
  | noTime
  | noClock
  deriving DecidableEq, Repr

def TimeFault.text : TimeFault → String
  | .notAscii => "non-ASCII characters"
  | .length n => "expected 25 characters, got " ++ toString n
  | .noPoint => "expected '.' at offset 14"
  | .duration => "interval where timestamp expected"
  | .noSign => "expected '+' or '-' at offset 21"
  | .noSuffix => "expected ':000' interval suffix"
  | .wildcard => "wildcard fields are not supported"
  | .noDigits start => "non-digit characters at offset " ++ toString start
  | .noDate => "invalid calendar date"
  | .noTime => "invalid time of day"
  | .noClock => "invalid interval clock fields"

def checkLayout (cs : List Char) : Except TimeFault Unit :=
  if !cs.all (·.val < 128) then .error .notAscii
  else if cs.length ≠ 25 then .error (.length cs.length)
  else if cs[14]? ≠ some '.' then .error .noPoint
  else .ok ()

def readGroup (cs : List Char) (start width : Nat) : Except TimeFault (Fin (Nat.pow 10 width)) :=
  let group := (cs.drop start).take width
  if '*' ∈ group then .error .wildcard
  else if h : group.all Char.isDigit then
    .ok ⟨groupValue group, Nat.lt_of_lt_of_le (groupValue_lt h)
      (Nat.pow_le_pow_right (by decide) (List.length_take_le ..))⟩
  else .error (.noDigits start)

/-- The digits of a time of day, which need not be one. -/
structure Clock where
  hour : Fin 100
  minute : Fin 100
  second : Fin 100
  micro : Fin 1000000

def readClock (cs : List Char) : Except TimeFault Clock := do
  let hour ← readGroup cs 8 2
  let minute ← readGroup cs 10 2
  let second ← readGroup cs 12 2
  let micro ← readGroup cs 15 6
  return { hour, minute, second, micro }

def readSign (cs : List Char) : Except TimeFault Bool :=
  match cs[21]? with
  | some '+' => .ok false
  | some '-' => .ok true
  | some ':' => .error .duration
  | _ => .error .noSign

def writeClock (hour minute second micro : Nat) : List Char :=
  padded 2 hour ++ padded 2 minute ++ padded 2 second ++ '.' :: padded 6 micro

namespace Timestamp

def read (text : String) : Except TimeFault Timestamp := do
  let cs := text.toList
  checkLayout cs
  let west ← readSign cs
  let year ← readGroup cs 0 4
  let month ← readGroup cs 4 2
  let day ← readGroup cs 6 2
  let clock ← readClock cs
  let minutes ← readGroup cs 22 3
  let some date := Date.of? year month day | .error .noDate
  let some time := TimeOfDay.of? clock.hour clock.minute clock.second clock.micro | .error .noTime
  return {
    date, time
    offset := if west then -minutes.val else minutes.val
    inRange := by have : minutes.val < 1000 := minutes.isLt; split <;> omega }

def write (t : Timestamp) : String :=
  String.ofList <|
    padded 4 t.date.year.toNat ++ padded 2 t.date.month ++ padded 2 t.date.day ++
    writeClock t.time.hour t.time.minute t.time.second t.time.micro ++
    (if t.offset < 0 then '-' else '+') :: padded 3 t.offset.natAbs

end Timestamp

namespace Duration

def read (text : String) : Except TimeFault Duration := do
  let cs := text.toList
  checkLayout cs
  unless cs.drop 21 = [':', '0', '0', '0'] do throw .noSuffix
  let days ← readGroup cs 0 8
  let clock ← readClock cs
  let some time := TimeOfDay.of? clock.hour clock.minute clock.second clock.micro | .error .noClock
  return { seconds := 86400 * days + time.seconds, micro := time.micro, micro_lt := time.isTime.2.2.2 }

def write (d : Duration) : String :=
  String.ofList <|
    padded 8 (d.seconds / 86400) ++
    writeClock (d.seconds % 86400 / 3600) (d.seconds % 3600 / 60) (d.seconds % 60) d.micro ++
    [':', '0', '0', '0']

end Duration

end TypedRecords
