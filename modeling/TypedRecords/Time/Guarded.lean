import TypedRecords.Number.Integer
import TypedRecords.Time.Text

/-!
# Guarded reading

Timestamps and durations read from the bytes of their text, with a check at every access, slice and sum and with a
reason wherever one could be called for. The calendar says which offsets there are and what a local time denotes.
-/

namespace TypedRecords

/-- How a guarded reading ends without a result: with a reason, or at a check. -/
inductive Halt
  | reason (text : String)
  | outside
  | overflow (k : IntKind)
  deriving DecidableEq

abbrev Guarded := Except Halt

/-- Offsets from UTC in seconds, and the points in time that local times at an offset denote. -/
structure Zones (Z T : Type) where
  east? : Int → Option Z
  resolve? : Z → Date → TimeOfDay → Option T

structure Zones.Lawful (zones : Zones Z T) : Prop where
  east : ∀ s, -86400 < s → s < 86400 → ∃ z, zones.east? s = some z
  resolve : ∀ z (d : Date) time, -1 ≤ d.year → d.year ≤ 10000 → ∃ t, zones.resolve? z d time = some t

def Zones.fixed : Zones {s : Int // -86400 < s ∧ s < 86400} (Date × TimeOfDay × Int) where
  east? s := if h : -86400 < s ∧ s < 86400 then some ⟨s, h⟩ else none
  resolve? z date time := if -262143 < date.year ∧ date.year < 262142 then some (date, time, z.val) else none

/-! ## Steps -/

namespace Guarded

def fault (f : TimeFault) : Guarded α := .error (.reason f.text)

def byte (text : String) (i : Nat) : Guarded UInt8 :=
  if h : i < text.utf8ByteSize then .ok (text.getUTF8Byte ⟨i⟩ h) else .error .outside

/-- The part from byte `i` to byte `j`, which has to consist of whole characters. -/
def slice (text : String) (i j : Nat) : Guarded String :=
  if h : (String.Pos.Raw.mk i).IsValid text ∧ (String.Pos.Raw.mk j).IsValid text ∧ i ≤ j then
    .ok (text.extract ⟨⟨i⟩, h.1⟩ ⟨⟨j⟩, h.2.1⟩)
  else .error .outside

def within (k : IntKind) (n : Int) : Guarded Unit :=
  if k.lo ≤ n ∧ n ≤ k.hi then .ok () else .error (.overflow k)

def withoutPlus : List Char → List Char
  | '+' :: c :: cs => c :: cs
  | cs => cs

-- a plus sign is part of a number, so that the digits are looked for after it
def parse (part : String) : Option Nat :=
  let ds := withoutPlus part.toList
  if ds ≠ [] ∧ ds.all Char.isDigit ∧ groupValue ds ≤ 4294967295 then some (groupValue ds) else none

def digits (text : String) (i j : Nat) : Guarded Nat := do
  let part ← slice text i j
  if '*' ∈ part.toList then fault .wildcard
  else if part.toList.all Char.isDigit then
    let some n := parse part | .error (.reason ("bad number at offset " ++ toString i))
    return n
  else fault (.noDigits i)

def layout (text : String) : Guarded Unit := do
  if !text.toList.all (·.val < 128) then fault .notAscii
  else if text.utf8ByteSize ≠ 25 then fault (.length text.utf8ByteSize)
  else
    let b ← byte text 14
    if b ≠ '.'.toUInt8 then fault .noPoint else return

def sign (text : String) : Guarded Int := do
  let b ← byte text 21
  if b = '+'.toUInt8 then return 1
  else if b = '-'.toUInt8 then return -1
  else if b = ':'.toUInt8 then fault .duration
  else fault .noSign

def clock (text : String) : Guarded (Nat × Nat × Nat × Nat) := do
  let hour ← digits text 8 10
  let minute ← digits text 10 12
  let second ← digits text 12 14
  let micro ← digits text 15 21
  return (hour, minute, second, micro)

def zoned (zones : Zones Z T) (sign : Int) (minutes : Nat) (date : Date) (time : TimeOfDay) : Guarded T := do
  within .i32 (sign * minutes)
  within .i32 (sign * minutes * 60)
  let some zone := zones.east? (sign * minutes * 60) | .error (.reason "UTC offset out of range")
  let some t := zones.resolve? zone date time | .error (.reason "ambiguous local time")
  return t

def timestamp (zones : Zones Z T) (text : String) : Guarded T := do
  layout text
  let sign ← sign text
  let year ← digits text 0 4
  let month ← digits text 4 6
  let day ← digits text 6 8
  let (hour, minute, second, micro) ← clock text
  let minutes ← digits text 22 25
  within .i32 minutes
  within .i32 year
  let some date := Date.of? year month day | fault .noDate
  let some time := TimeOfDay.of? hour minute second micro | fault .noTime
  zoned zones sign minutes date time

def sum (days hour minute second micro : Nat) : Guarded (Nat × Nat) := do
  within .u64 (days * 86400)
  within .u64 (hour * 3600)
  within .u64 (days * 86400 + hour * 3600)
  within .u64 (minute * 60)
  within .u64 (days * 86400 + hour * 3600 + minute * 60)
  within .u64 (days * 86400 + hour * 3600 + minute * 60 + second)
  within .u64 (days * 86400 + hour * 3600 + minute * 60 + second + micro / 1000000)
  return (days * 86400 + hour * 3600 + minute * 60 + second + micro / 1000000, micro % 1000000 * 1000)

def suffix (text : String) : Guarded Unit := do
  let b ← byte text 21
  if b ≠ ':'.toUInt8 then fault .noSuffix
  else
    let zeros ← slice text 22 text.utf8ByteSize
    if zeros ≠ "000" then fault .noSuffix else return

def duration (text : String) : Guarded (Nat × Nat) := do
  layout text
  suffix text
  let days ← digits text 0 8
  let (hour, minute, second, micro) ← clock text
  if hour > 23 ∨ minute > 59 ∨ second > 59 then fault .noClock
  else sum days hour minute second micro

end Guarded

end TypedRecords
