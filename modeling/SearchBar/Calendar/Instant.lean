import SearchBar.Calendar.Date

/-! # Instants

An instant of universal time is a day, a second of the day and a count of
nanoseconds. A second full of nanoseconds on top marks the inside of a leap
second, which follows the last second of a minute.
-/

namespace SearchBar.Calendar

structure Instant where
  day : Int
  second : Fin 86400
  nano : Fin 2000000000
deriving DecidableEq, Repr

namespace Instant

def midnight (day : Int) : Instant := ⟨day, ⟨0, by decide⟩, ⟨0, by decide⟩⟩

def Before (a b : Instant) : Prop :=
  a.day < b.day ∨ a.day = b.day ∧
    (a.second.val < b.second.val ∨ a.second.val = b.second.val ∧ a.nano.val < b.nano.val)

instance (a b : Instant) : Decidable (a.Before b) :=
  inferInstanceAs (Decidable (_ ∨ _ ∧ (_ ∨ _ ∧ _)))

instance : LT Instant := ⟨Before⟩

instance : LE Instant := ⟨fun a b => ¬ b.Before a⟩

instance (a b : Instant) : Decidable (a < b) := inferInstanceAs (Decidable (a.Before b))

instance (a b : Instant) : Decidable (a ≤ b) := inferInstanceAs (Decidable (¬ b.Before a))

theorem lt_def {a b : Instant} : a < b ↔ a.Before b := Iff.rfl

theorem le_def {a b : Instant} : a ≤ b ↔ ¬ b < a := Iff.rfl

theorem midnight_le_iff {day : Int} {t : Instant} : midnight day ≤ t ↔ day ≤ t.day := by
  rw [le_def, lt_def]
  unfold Before midnight
  simp only [Nat.not_lt_zero, and_false, or_false]
  omega

theorem lt_midnight_iff {day : Int} {t : Instant} : t < midnight day ↔ t.day < day := by
  rw [lt_def]
  unfold Before midnight
  simp only [Nat.not_lt_zero, and_false, or_false]

def inLeap (t : Instant) : Bool := decide (1000000000 ≤ t.nano.val)

def dropLeap (n : Fin 2000000000) : Fin 2000000000 := ⟨n.val % 1000000000, by omega⟩

/-- The instant `n` days later. A leap second has no counterpart on another day:
going forward it becomes the second before it, going back the one after it. -/
def addDays (t : Instant) (n : Int) : Instant :=
  if !t.inLeap || n == 0 then { t with day := t.day + n }
  else if 0 < n then ⟨t.day + n, t.second, dropLeap t.nano⟩
  else if h : t.second.val + 1 < 86400 then ⟨t.day + n, ⟨t.second.val + 1, h⟩, dropLeap t.nano⟩
  else ⟨t.day + n + 1, ⟨0, by decide⟩, dropLeap t.nano⟩

@[simp] theorem addDays_midnight (day n : Int) :
    (midnight day).addDays n = midnight (day + n) := by
  simp [addDays, inLeap, midnight]

/-- The universal time of a clock that is `n` seconds ahead. -/
def behind (t : Instant) (n : Int) : Instant :=
  let s := (t.second.val : Int) - n
  ⟨t.day + s / 86400, ⟨(s % 86400).toNat, by omega⟩, t.nano⟩

/-- The day that the epoch of numbered timestamps begins with. -/
def epochDay : Int := 719528

def ofMillis (n : Int) : Instant :=
  let s := n / 1000
  ⟨epochDay + s / 86400, ⟨(s % 86400).toNat, by omega⟩, ⟨(n % 1000).toNat * 1000000, by omega⟩⟩

def hour (t : Instant) : Nat := t.second.val / 3600

def minute (t : Instant) : Nat := t.second.val / 60 % 60

/-- The second of the minute, sixty inside a leap second. -/
def secondOfMinute (t : Instant) : Nat := t.second.val % 60 + if t.inLeap then 1 else 0

def fraction (t : Instant) : Nat := t.nano.val % 1000000000

end Instant

/-- The calendar is kept for these years. -/
def yearKept (y : Int) : Bool := decide (-262143 ≤ y) && decide (y ≤ 262142)

/-- The date falls into a kept year and exists. -/
def Date.kept (d : Date) : Bool := yearKept d.year && decide d.Exists

/-- The instant lies in a kept year. -/
def Instant.IsKept (t : Instant) : Prop := yearKept (yearOf t.day) = true

instance (t : Instant) : Decidable t.IsKept := inferInstanceAs (Decidable (_ = _))

/-- The year of an instant has four digits and no sign. -/
def Instant.HasPlainYear (t : Instant) : Prop :=
  0 ≤ (Date.ofDay t.day).year ∧ (Date.ofDay t.day).year ≤ 9999

instance (t : Instant) : Decidable t.HasPlainYear := inferInstanceAs (Decidable (_ ∧ _))

end SearchBar.Calendar
