import SearchBar.Text.LowerCase

/-! # Operators

The five comparisons of a field with a value.
-/

namespace SearchBar

inductive Operator
  | eq
  | gt
  | gte
  | lt
  | lte
deriving DecidableEq, Repr

namespace Operator

/-- The operators in the order in which their signs are tried: a sign that begins
another one comes after it. -/
def all : List Operator := [gte, lte, gt, lt, eq]

def sign : Operator → String
  | eq => ":"
  | gt => ">"
  | gte => ">="
  | lt => "<"
  | lte => "<="

def name : Operator → String
  | eq => "eq"
  | gt => "gt"
  | gte => "gte"
  | lt => "lt"
  | lte => "lte"

def ofSign? (s : String) : Option Operator := all.find? (·.sign == s)

def ofName? (s : String) : Option Operator :=
  all.find? fun op => op.name.toList == Text.lower s.toList

def take? : List Char → Option (Operator × List Char)
  | '>' :: '=' :: cs => some (gte, cs)
  | '<' :: '=' :: cs => some (lte, cs)
  | '>' :: cs => some (gt, cs)
  | '<' :: cs => some (lt, cs)
  | ':' :: cs => some (eq, cs)
  | _ => none

theorem eq_sign_append_of_take? {cs rest : List Char} {op : Operator}
    (h : take? cs = some (op, rest)) : cs = op.sign.toList ++ rest := by
  unfold take? at h
  split at h
  all_goals
    simp only [Option.some.injEq, Prod.mk.injEq, reduceCtorEq] at h
  all_goals
    obtain ⟨rfl, rfl⟩ := h
    rfl

theorem length_lt_of_take? {cs rest : List Char} {op : Operator}
    (h : take? cs = some (op, rest)) : rest.length < cs.length := by
  rw [eq_sign_append_of_take? h, List.length_append]
  have : 0 < op.sign.toList.length := by cases op <;> decide
  omega

end Operator

end SearchBar
