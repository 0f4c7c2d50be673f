import SearchBar.Calendar.Instant

/-! # Calendar periods

Days, weeks from Sunday to Saturday, months and years. Every period begins at a
midnight and ends where the next one begins.
-/

namespace SearchBar.Calendar

inductive Granularity
  | day
  | week
  | month
  | year
deriving DecidableEq, Repr

namespace Granularity

def all : List Granularity := [day, week, month, year]

/-- The letter of the unit in date arithmetic of search engines. -/
def code : Granularity → Char
  | day => 'd'
  | week => 'w'
  | month => 'M'
  | year => 'y'

def ofCode? (c : Char) : Option Granularity := all.find? (·.code == c)

def name : Granularity → String
  | day => "day"
  | week => "week"
  | month => "month"
  | year => "year"

def ofName? (s : String) : Option Granularity := all.find? (·.name == s)

def startDay : Granularity → Int → Int
  | day, d => d
  | week, d => d - weekday d
  | month, d => { Date.ofDay d with day := 1 }.toDay
  | year, d => yearStart (yearOf d)

/-- The first instant of the period that holds an instant. -/
def start (g : Granularity) (t : Instant) : Instant := .midnight (g.startDay t.day)

/-- The same day of the month and time of day `n` months later; the last day of a
month that is too short. Years that are not kept leave the instant unchanged. -/
def shiftMonths (t : Instant) (n : Int) : Instant :=
  let d := Date.ofDay t.day
  let months := d.year * 12 + d.month - 1 + n
  let y := months / 12
  let m := (months % 12).toNat + 1
  if yearKept y then { t with day := Date.toDay ⟨y, m, min d.day (monthLength y m)⟩ } else t

def shift (g : Granularity) (t : Instant) (n : Int) : Instant :=
  match g with
  | day => t.addDays n
  | week => t.addDays (7 * n)
  | month => shiftMonths t n
  | year => shiftMonths t (12 * n)

/-- The first instant of the period after the one that holds an instant. -/
def next (g : Granularity) (t : Instant) : Instant :=
  let first := g.start t
  match g with
  | day => first.addDays 1
  | week => first.addDays 7
  | month => shiftMonths first 1
  | year => shiftMonths first 12

/-- The next period is one period away from the start of this one. -/
theorem next_eq_shift (g : Granularity) (t : Instant) : g.next t = g.shift (g.start t) 1 := by
  cases g <;> rfl

def isSame (g : Granularity) (a b : Instant) : Bool := g.start a == g.start b

end Granularity

end SearchBar.Calendar
