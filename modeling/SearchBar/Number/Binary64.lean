/-! # Binary64 numbers

The finite magnitudes of the format are numbered in increasing order: rank `k`
stands for the magnitude `units k · 2⁻¹⁰⁷⁴`. Magnitudes compare as their ranks,
and a quotient is rounded by comparing it with the middle between two
neighbouring ranks.
-/

namespace SearchBar

-- powers are those of the core library, also where another one declares its own
attribute [instance (high), default_instance 20000] instPowNat

/-- A number of the binary64 format, without the payload of its NaNs. -/
inductive Binary64
  | finite (negative : Bool) (rank : Fin (2047 * 2 ^ 52))
  | infinite (negative : Bool)
  | nan
deriving DecidableEq, Repr

namespace Binary64

/-- The number of finite magnitudes; the rank of infinity. -/
def ranks : Nat := 2047 * 2 ^ 52

/-- The magnitude of a rank, counted in the least positive magnitude. -/
def units (k : Nat) : Nat :=
  if k < 2 ^ 52 then k else (2 ^ 52 + k % 2 ^ 52) * 2 ^ (k / 2 ^ 52 - 1)

/-- The greatest rank whose magnitude does not exceed `u` units. -/
def rankBelow (u : Nat) : Nat :=
  let e := u.log2 - 52
  e * 2 ^ 52 + u / 2 ^ e

/-- The least positive magnitude is two to this power, negated. -/
def leastPower : Nat := 1074

/-- How many of the least positive magnitudes make up one. -/
def unitsPerOne : Nat := 2 ^ leastPower

/-- The one of the ranks `k` and `k + 1` that is nearer to `u / den` units; of two equally
near ranks the even one. -/
def nearerRank (u den k : Nat) : Nat :=
  match compare (2 * u) ((units k + units (k + 1)) * den) with
  | .lt => k
  | .gt => k + 1
  | .eq => if k % 2 = 0 then k else k + 1

def nearestRank (num den : Nat) : Nat :=
  nearerRank (num * unitsPerOne) den (rankBelow (num * unitsPerOne / den))

/-- The number of a sign and a rank; ranks past the finite ones are infinite. -/
def ofRank (negative : Bool) (k : Nat) : Binary64 :=
  if h : k < 2047 * 2 ^ 52 then .finite negative ⟨k, h⟩ else .infinite negative

/-- `±num / den`, correctly rounded. -/
def ofQuotient (negative : Bool) (num den : Nat) : Binary64 :=
  ofRank negative (nearestRank num den)

def ofInt (n : Int) : Binary64 := ofQuotient (decide (n < 0)) n.natAbs 1

def zero : Binary64 := ofRank false 0

/-- The place of a number in the order of the format; both zeros share theirs. -/
def key : Binary64 → Option Int
  | finite false k => some (k.val : Int)
  | finite true k => some (-(k.val : Int))
  | infinite false => some (ranks : Int)
  | infinite true => some (-(ranks : Int))
  | nan => none

/-- Comparison of numbers; a NaN is not comparable. -/
def compare? (x y : Binary64) : Option Ordering :=
  match x.key, y.key with
  | some a, some b => some (compare a b)
  | _, _ => none

/-- Equality of numbers: a NaN differs from itself, and the zeros are equal. -/
instance : BEq Binary64 := ⟨fun x y => x.compare? y == some .eq⟩

def isFinite : Binary64 → Bool
  | finite _ _ => true
  | _ => false

theorem beq_iff {x y : Binary64} :
    (x == y) = true ↔ ∃ a, x.key = some a ∧ y.key = some a := by
  show (x.compare? y == some .eq) = true ↔ _
  unfold compare?
  generalize x.key = a
  generalize y.key = b
  cases a with
  | none => simp
  | some a =>
    cases b with
    | none => simp
    | some b =>
      simp only [beq_iff_eq, Option.some.injEq, Int.compare_eq_eq]
      exact ⟨fun h => ⟨a, rfl, h.symm⟩, fun ⟨c, hc, hb⟩ => hc.trans hb.symm⟩

theorem isFinite_iff {x : Binary64} : x.isFinite = true ↔ ∃ s k, x = finite s k := by
  cases x <;> simp [isFinite]

end Binary64

end SearchBar
