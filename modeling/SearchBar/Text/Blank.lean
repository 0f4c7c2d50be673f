/-! # Blank characters

Clauses are separated by any character of the property `White_Space`, the parts
of a group only by four of the ASCII ones.
-/

namespace SearchBar.Text

/-- The characters of the property `White_Space`. -/
def blanks : List Char :=
  ['\t', '\n', '\x0b', '\x0c', '\r', ' ', '\u0085', '\u00a0', '\u1680', '\u2000', '\u2001',
    '\u2002', '\u2003', '\u2004', '\u2005', '\u2006', '\u2007', '\u2008', '\u2009', '\u200a',
    '\u2028', '\u2029', '\u202f', '\u205f', '\u3000']

def isBlank (c : Char) : Bool := blanks.contains c

def gaps : List Char := [' ', '\t', '\r', '\n']

def isGap (c : Char) : Bool := gaps.contains c

def trimStart (cs : List Char) : List Char := cs.dropWhile isBlank

def trimEnd (cs : List Char) : List Char := (cs.reverse.dropWhile isBlank).reverse

def trim (cs : List Char) : List Char := trimEnd (trimStart cs)

/-- A text is empty or begins with a blank: a clause may end in front of it. -/
def atBoundary : List Char → Bool
  | [] => true
  | c :: _ => isBlank c

theorem isBlank_iff {c : Char} : isBlank c = true ↔ c ∈ blanks := by
  simp [isBlank]

theorem isGap_iff {c : Char} : isGap c = true ↔ c ∈ gaps := by
  simp [isGap]

theorem isBlank_of_isGap {c : Char} (h : isGap c = true) : isBlank c = true := by
  rw [isGap_iff] at h
  simp only [gaps, List.mem_cons, List.not_mem_nil, or_false] at h
  rcases h with rfl | rfl | rfl | rfl <;> decide

theorem length_trimStart_le (cs : List Char) : (trimStart cs).length ≤ cs.length :=
  (List.dropWhile_sublist _).length_le

theorem trimStart_eq_cons {cs r : List Char} {c : Char} (h : trimStart cs = c :: r) :
    isBlank c = false := by
  have := List.head?_dropWhile_not isBlank cs
  rw [← trimStart, h] at this
  simpa using this

end SearchBar.Text
