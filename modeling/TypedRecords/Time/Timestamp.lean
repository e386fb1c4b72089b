import TypedRecords.Time.Calendar

/-!
# Timestamps and durations

A timestamp is a local date and time of day with its distance from UTC in whole minutes. Its instant is a
number of seconds from 1970-01-01T00:00:00Z, and moving it to UTC keeps the instant.
-/

namespace TypedRecords

abbrev IsTime (hour minute second micro : Nat) : Prop :=
  hour < 24 ∧ minute < 60 ∧ second < 60 ∧ micro < 1000000

structure TimeOfDay where
  hour : Nat
  minute : Nat
  second : Nat
  micro : Nat
  isTime : IsTime hour minute second micro := by decide
  deriving DecidableEq

namespace TimeOfDay

def of? (hour minute second micro : Nat) : Option TimeOfDay :=
  if h : IsTime hour minute second micro then some ⟨hour, minute, second, micro, h⟩ else none

def midnight : TimeOfDay where
  hour := 0
  minute := 0
  second := 0
  micro := 0

def seconds (t : TimeOfDay) : Nat := 3600 * t.hour + 60 * t.minute + t.second

def nanos (t : TimeOfDay) : Nat := 1000 * t.micro

theorem seconds_lt (t : TimeOfDay) : t.seconds < 86400 := by
  have := t.isTime
  simp only [seconds]
  omega

def withSeconds (t : TimeOfDay) (n : Nat) : TimeOfDay where
  hour := n % 86400 / 3600
  minute := n % 3600 / 60
  second := n % 60
  micro := t.micro
  isTime := by have := t.isTime; omega

@[simp] theorem nanos_withSeconds (t : TimeOfDay) (n : Nat) : (t.withSeconds n).nanos = t.nanos := rfl

theorem seconds_withSeconds (t : TimeOfDay) (n : Nat) : (t.withSeconds n).seconds = n % 86400 := by
  simp only [seconds, withSeconds]
  omega

end TimeOfDay

/-- A local date and time, `offset` minutes east of UTC. -/
structure Timestamp where
  date : Date
  time : TimeOfDay
  offset : Int
  inRange : -999 ≤ offset ∧ offset ≤ 999 := by decide
  deriving DecidableEq

namespace Timestamp

def epoch : Timestamp where
  date := .epoch
  time := .midnight
  offset := 0

/-- Seconds from 1970-01-01T00:00:00Z. -/
def seconds (t : Timestamp) : Int := 86400 * t.date.dayNumber + t.time.seconds - 60 * t.offset

def nanos (t : Timestamp) : Nat := t.time.nanos

/-- The same instant at offset 0, with a carry of at most one day. -/
def toUtc (t : Timestamp) : Timestamp where
  date := t.date.shift ((t.time.seconds - 60 * t.offset) / 86400)
  time := t.time.withSeconds ((t.time.seconds - 60 * t.offset) % 86400).toNat
  offset := 0

end Timestamp

structure Duration where
  seconds : Nat
  micro : Nat
  micro_lt : micro < 1000000 := by decide
  deriving DecidableEq

namespace Duration

def zero : Duration where
  seconds := 0
  micro := 0

def nanos (d : Duration) : Nat := 1000 * d.micro

end Duration

end TypedRecords
