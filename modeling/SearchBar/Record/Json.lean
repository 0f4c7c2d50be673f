import SearchBar.Number.Shortest

/-! # Records

Records and compiled queries are JSON values. Integers are kept apart from other
numbers, and the members of an object are kept in the order of their keys, one
for each key.
-/

namespace SearchBar

inductive Json
  | null
  | bool (b : Bool)
  | int (n : Int)
  | float (x : Binary64)
  | str (s : String)
  | arr (items : List Json)
  | obj (members : List (String × Json))
deriving Repr, Inhabited

namespace Json

/-- Puts a member into its place in the order of keys; it replaces the member with
the same key. -/
def insert (key : String) (value : Json) : List (String × Json) → List (String × Json)
  | [] => [(key, value)]
  | (k, v) :: rest =>
    if key = k then (key, value) :: rest
    else if key < k then (key, value) :: (k, v) :: rest
    else (k, v) :: insert key value rest

/-- The object with the given members; of members with the same key the last one
counts. -/
def ofMembers (members : List (String × Json)) : Json :=
  .obj (members.foldl (fun done m => insert m.1 m.2 done) [])

def find? (key : String) (members : List (String × Json)) : Option Json :=
  (members.find? fun m => m.1 == key).map (·.2)

def member? (key : String) : Json → Option Json
  | .obj members => find? key members
  | _ => none

/-- A number as binary64; an integer is rounded. -/
def number? : Json → Option Binary64
  | .int n => some (.ofInt n)
  | .float x => some x
  | _ => none

/-- A number that is not finite has no JSON form other than null. -/
def ofBinary64 (x : Binary64) : Json := if x.isFinite then .float x else .null

theorem find?_insert_self (key : String) (value : Json) (members : List (String × Json)) :
    find? key (insert key value members) = some value := by
  induction members with
  | nil => simp [insert, find?]
  | cons m rest ih =>
    obtain ⟨k, v⟩ := m
    unfold insert
    by_cases h : key = k
    · simp [find?, h]
    · by_cases hlt : key < k
      · simp [find?, h, hlt]
      · simp only [h, hlt, if_false]
        simpa [find?, Ne.symm h] using ih

theorem find?_insert_of_ne {key other : String} (h : other ≠ key) (value : Json)
    (members : List (String × Json)) :
    find? other (insert key value members) = find? other members := by
  induction members with
  | nil => simp [insert, find?, Ne.symm h]
  | cons m rest ih =>
    obtain ⟨k, v⟩ := m
    unfold insert
    by_cases hk : key = k
    · subst hk
      simp [find?, Ne.symm h]
    · by_cases hlt : key < k
      · simp [find?, hk, hlt, Ne.symm h]
      · simp only [hk, hlt, if_false]
        by_cases ho : k = other
        · simp [find?, ho]
        · simpa [find?, ho] using ih

end Json

end SearchBar
