/-! # Escaped text

A backslash takes the character behind it as it is. Quoted text stands between
two double quotes, with backslashes before quotes and backslashes inside.
-/

namespace SearchBar.Text

/-- The text up to the first character of `stop` that is not escaped, without its
backslashes, and the rest. There is none if a backslash has nothing behind it. -/
def unescape (stop : Char → Bool) : List Char → Option (List Char × List Char)
  | [] => some ([], [])
  | ['\\'] => none
  | '\\' :: c :: cs => (unescape stop cs).map fun r => (c :: r.1, r.2)
  | c :: cs => if stop c then some ([], c :: cs) else (unescape stop cs).map fun r => (c :: r.1, r.2)

theorem length_le_of_unescape {stop : Char → Bool} {cs text rest : List Char}
    (h : unescape stop cs = some (text, rest)) : text.length + rest.length ≤ cs.length := by
  fun_induction unescape stop cs generalizing text with
  | case1 => simp_all
  | case2 => simp at h
  | case3 c cs ih =>
    obtain ⟨⟨t, r⟩, ht, hr⟩ := Option.map_eq_some_iff.1 h
    simp only [Prod.mk.injEq] at hr
    obtain ⟨rfl, rfl⟩ := hr
    have := ih ht
    simp only [List.length_cons]
    omega
  | case4 c cs _ _ _ => simp_all
  | case5 c cs _ _ _ ih =>
    obtain ⟨⟨t, r⟩, ht, hr⟩ := Option.map_eq_some_iff.1 h
    simp only [Prod.mk.injEq] at hr
    obtain ⟨rfl, rfl⟩ := hr
    have := ih ht
    simp only [List.length_cons]
    omega

def escape (c : Char) : List Char := if c = '"' ∨ c = '\\' then ['\\', c] else [c]

def quoted (cs : List Char) : List Char := '"' :: cs.flatMap escape ++ ['"']

/-- The number of times that a character stands in a text unescaped. -/
def countUnescaped (d : Char) : List Char → Nat
  | [] => 0
  | ['\\'] => 0
  | '\\' :: _ :: cs => countUnescaped d cs
  | c :: cs => (if c = d then 1 else 0) + countUnescaped d cs

end SearchBar.Text
