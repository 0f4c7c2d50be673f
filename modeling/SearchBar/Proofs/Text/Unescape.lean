import SearchBar.Text.Blank
import SearchBar.Text.Escaped

/-! # Reading escaped text

A stretch of escaped text is read in the same way in front of every character
that ends it. What follows a scanner is described by the class of the next
character.
-/

namespace SearchBar.Text

def stopsAt (p : Char → Bool) (cs : List Char) : Bool := cs.head?.all p

@[simp] theorem stopsAt_nil (p : Char → Bool) : stopsAt p [] = true := rfl

@[simp] theorem stopsAt_cons (p : Char → Bool) (c : Char) (cs : List Char) :
    stopsAt p (c :: cs) = p c := rfl

theorem stopsAt_append {p : Char → Bool} {a : List Char} (ha : a ≠ []) (b : List Char) :
    stopsAt p (a ++ b) = stopsAt p a := by
  cases a with
  | nil => exact absurd rfl ha
  | cons c a => rfl

theorem atBoundary_eq_stopsAt (cs : List Char) : atBoundary cs = stopsAt isBlank cs := by
  cases cs <;> rfl

theorem stopsAt_mono {p q : Char → Bool} {cs : List Char} (hpq : ∀ c, p c = true → q c = true)
    (h : stopsAt p cs = true) : stopsAt q cs = true := by
  cases cs with
  | nil => rfl
  | cons c cs => exact hpq c h

theorem stopsAt_dropWhile (p : Char → Bool) (cs : List Char) :
    stopsAt (fun c => !p c) (cs.dropWhile p) = true := by
  have h := List.head?_dropWhile_not p cs
  rw [stopsAt]
  cases hhead : (cs.dropWhile p).head? with
  | none => rfl
  | some c =>
    rw [hhead] at h
    simpa using h

section

variable {p : Char → Bool} {a b : List Char}

theorem takeWhile_eq_nil_of_stopsAt (h : stopsAt (fun c => !p c) b = true) :
    b.takeWhile p = [] := by
  cases b with
  | nil => rfl
  | cons c b => simp_all

theorem dropWhile_eq_self_of_stopsAt (h : stopsAt (fun c => !p c) b = true) :
    b.dropWhile p = b := by
  cases b with
  | nil => rfl
  | cons c b => simp_all

theorem takeWhile_append_of_stopsAt (ha : ∀ c ∈ a, p c = true)
    (hb : stopsAt (fun c => !p c) b = true) : (a ++ b).takeWhile p = a := by
  rw [List.takeWhile_append_of_pos ha, takeWhile_eq_nil_of_stopsAt hb, List.append_nil]

theorem dropWhile_append_of_stopsAt (ha : ∀ c ∈ a, p c = true)
    (hb : stopsAt (fun c => !p c) b = true) : (a ++ b).dropWhile p = b := by
  rw [List.dropWhile_append_of_pos ha, dropWhile_eq_self_of_stopsAt hb]

/-- A text has one stretch of a class in front of what stops it. -/
theorem append_inj_of_stopsAt {a' b' : List Char} (h : a ++ b = a' ++ b')
    (ha : ∀ c ∈ a, p c = true) (ha' : ∀ c ∈ a', p c = true)
    (hb : stopsAt (fun c => !p c) b = true) (hb' : stopsAt (fun c => !p c) b' = true) :
    a = a' ∧ b = b' := by
  have htake := congrArg (List.takeWhile p) h
  have hdrop := congrArg (List.dropWhile p) h
  rw [takeWhile_append_of_stopsAt ha hb, takeWhile_append_of_stopsAt ha' hb'] at htake
  rw [dropWhile_append_of_stopsAt ha hb, dropWhile_append_of_stopsAt ha' hb'] at hdrop
  exact ⟨htake, hdrop⟩

end

/-- Characters that end escaped text: a backslash never does. -/
def endsAt (stop : Char → Bool) (c : Char) : Bool := stop c && c != '\\'

section Unescape

variable {stop : Char → Bool} {cs raw text rest : List Char} {c : Char}

theorem unescape_backslash (stop : Char → Bool) (c : Char) (cs : List Char) :
    unescape stop ('\\' :: c :: cs) = (unescape stop cs).map fun r => (c :: r.1, r.2) := by
  rw [unescape]

theorem unescape_cons (hc : c ≠ '\\') : unescape stop (c :: cs) =
    if stop c then some ([], c :: cs) else (unescape stop cs).map fun r => (c :: r.1, r.2) := by
  rw [unescape]
  · rintro rfl
    exact absurd rfl hc
  · rintro _ _ rfl
    exact absurd rfl hc

theorem ne_backslash_of_cases (h1 : c = '\\' → cs = [] → False)
    (h2 : ∀ d ds, c = '\\' → cs = d :: ds → False) : c ≠ '\\' := by
  intro hc
  cases cs with
  | nil => exact h1 hc rfl
  | cons d ds => exact h2 d ds hc rfl

theorem exists_raw_of_unescape (h : unescape stop cs = some (text, rest)) :
    ∃ raw, cs = raw ++ rest ∧ unescape stop raw = some (text, []) ∧
      stopsAt (endsAt stop) rest = true := by
  fun_induction unescape stop cs generalizing text with
  | case1 =>
    simp only [Option.some.injEq, Prod.mk.injEq] at h
    obtain ⟨rfl, rfl⟩ := h
    exact ⟨[], rfl, rfl, rfl⟩
  | case2 => simp at h
  | case3 c cs ih =>
    obtain ⟨⟨t, r⟩, ht, hr⟩ := Option.map_eq_some_iff.1 h
    simp only [Prod.mk.injEq] at hr
    obtain ⟨rfl, rfl⟩ := hr
    obtain ⟨raw, rfl, hraw, hend⟩ := ih ht
    exact ⟨'\\' :: c :: raw, rfl, by simp [unescape_backslash, hraw], hend⟩
  | case4 c cs h1 h2 hc =>
    simp only [Option.some.injEq, Prod.mk.injEq] at h
    obtain ⟨rfl, rfl⟩ := h
    have hne := ne_backslash_of_cases h1 h2
    exact ⟨[], rfl, rfl, by simp [endsAt, hc, hne]⟩
  | case5 c cs h1 h2 hc ih =>
    obtain ⟨⟨t, r⟩, ht, hr⟩ := Option.map_eq_some_iff.1 h
    simp only [Prod.mk.injEq] at hr
    obtain ⟨rfl, rfl⟩ := hr
    obtain ⟨raw, rfl, hraw, hend⟩ := ih ht
    exact ⟨c :: raw, rfl, by simp [unescape_cons (ne_backslash_of_cases h1 h2), hc, hraw], hend⟩

theorem unescape_append (h : unescape stop raw = some (text, []))
    (hr : stopsAt (endsAt stop) rest = true) : unescape stop (raw ++ rest) = some (text, rest) := by
  fun_induction unescape stop raw generalizing text with
  | case1 =>
    simp only [Option.some.injEq, Prod.mk.injEq, and_true] at h
    subst h
    cases rest with
    | nil => rfl
    | cons c rest =>
      simp only [stopsAt_cons, endsAt, Bool.and_eq_true, bne_iff_ne, ne_eq] at hr
      rw [List.nil_append, unescape_cons hr.2, if_pos hr.1]
  | case2 => simp at h
  | case3 c raw ih =>
    obtain ⟨⟨t, r⟩, ht, hr⟩ := Option.map_eq_some_iff.1 h
    simp only [Prod.mk.injEq] at hr
    obtain ⟨rfl, rfl⟩ := hr
    simp [unescape_backslash, ih ht]
  | case4 => simp at h
  | case5 c raw h1 h2 hc ih =>
    obtain ⟨⟨t, r⟩, ht, hr⟩ := Option.map_eq_some_iff.1 h
    simp only [Prod.mk.injEq] at hr
    obtain ⟨rfl, rfl⟩ := hr
    simp [unescape_cons (ne_backslash_of_cases h1 h2), hc, ih ht]

theorem unescape_plain_append (hp : ∀ c ∈ raw, stop c = false ∧ c ≠ '\\') (cs : List Char) :
    unescape stop (raw ++ cs) = (unescape stop cs).map fun r => (raw ++ r.1, r.2) := by
  induction raw with
  | nil => simp
  | cons c raw ih =>
    obtain ⟨hc, hne⟩ := hp c List.mem_cons_self
    rw [List.cons_append, unescape_cons hne, if_neg (by simp [hc]),
      ih fun d hd => hp d (List.mem_cons_of_mem _ hd), Option.map_map]
    rfl

theorem unescape_plain (hp : ∀ c ∈ raw, stop c = false ∧ c ≠ '\\') :
    unescape stop raw = some (raw, []) := by
  have h := unescape_plain_append hp []
  simpa [unescape] using h

theorem eq_nil_of_unescape (h : unescape stop raw = some ([], [])) : raw = [] := by
  cases raw with
  | nil => rfl
  | cons c raw =>
    by_cases hc : c = '\\'
    · subst hc
      cases raw with
      | nil => simp [unescape] at h
      | cons d raw => simp [unescape_backslash] at h
    · rw [unescape_cons hc] at h
      split at h <;> simp at h

/-- Escaped text is read as what was escaped, if no other character than a quote or a
backslash ends it. -/
theorem unescape_flatMap_escape (hstop : ∀ c, c ≠ '"' → c ≠ '\\' → stop c = false)
    (cs : List Char) : unescape stop (cs.flatMap escape) = some (cs, []) := by
  induction cs with
  | nil => rfl
  | cons c cs ih =>
    rw [List.flatMap_cons, escape]
    by_cases h : c = '"' ∨ c = '\\'
    · rw [if_pos h, List.cons_append, List.cons_append, List.nil_append, unescape_backslash, ih]
      rfl
    · obtain ⟨hquote, hslash⟩ := not_or.1 h
      rw [if_neg h, List.cons_append, List.nil_append, unescape_cons hslash,
        if_neg (by simp [hstop c hquote hslash]), ih]
      rfl

/-- Without backslashes, a text either ends at one of its characters or is read whole. -/
theorem unescape_append_cases (hraw : '\\' ∉ raw) (h : unescape stop (raw ++ cs) = some (text, rest)) :
    (∃ c s, raw = text ++ c :: s ∧ stop c = true ∧ rest = c :: (s ++ cs)) ∨
      (∀ c ∈ raw, stop c = false) ∧ ∃ t, text = raw ++ t ∧ unescape stop cs = some (t, rest) := by
  induction raw generalizing text with
  | nil => exact .inr ⟨by simp, text, rfl, h⟩
  | cons c raw ih =>
    obtain ⟨hne, hraw⟩ := List.ne_and_not_mem_of_not_mem_cons hraw
    rw [List.cons_append, unescape_cons (Ne.symm hne)] at h
    split at h
    · rename_i hc
      obtain ⟨rfl, rfl⟩ := Prod.mk.inj (Option.some.inj h)
      exact .inl ⟨c, raw, rfl, hc, rfl⟩
    · rename_i hc
      obtain ⟨⟨t, r⟩, ht, h⟩ := Option.map_eq_some_iff.1 h
      obtain ⟨rfl, rfl⟩ := Prod.mk.inj h
      rcases ih hraw ht with ⟨e, s, rfl, he, rfl⟩ | ⟨hall, u, rfl, hu⟩
      · exact .inl ⟨e, s, rfl, he, rfl⟩
      · exact .inr ⟨List.forall_mem_cons.2 ⟨Bool.eq_false_iff.2 hc, hall⟩, u, rfl, hu⟩

theorem unescape_flatMap_escape_cases {more : List Char}
    (h : unescape stop (cs.flatMap escape ++ more) = some (text, rest)) :
    (∃ c s, cs = text ++ c :: s ∧ c ≠ '"') ∨
      ∃ t, text = cs ++ t ∧ unescape stop more = some (t, rest) := by
  induction cs generalizing text with
  | nil => exact .inr ⟨text, rfl, h⟩
  | cons c cs ih =>
    have hgo (h : (unescape stop (cs.flatMap escape ++ more)).map (fun r => (c :: r.1, r.2)) =
        some (text, rest)) : (∃ e s, c :: cs = text ++ e :: s ∧ e ≠ '"') ∨
          ∃ t, text = c :: cs ++ t ∧ unescape stop more = some (t, rest) := by
      obtain ⟨⟨t, r⟩, ht, h⟩ := Option.map_eq_some_iff.1 h
      obtain ⟨rfl, rfl⟩ := Prod.mk.inj h
      rcases ih ht with ⟨e, s, rfl, he⟩ | ⟨u, rfl, hu⟩
      · exact .inl ⟨e, s, rfl, he⟩
      · exact .inr ⟨u, rfl, hu⟩
    rw [List.flatMap_cons, List.append_assoc, escape] at h
    by_cases hc : c = '"' ∨ c = '\\'
    · rw [if_pos hc] at h
      exact hgo (by rwa [List.cons_append, List.cons_append, unescape_backslash] at h)
    · obtain ⟨hquote, hslash⟩ := not_or.1 hc
      rw [if_neg hc, List.cons_append, unescape_cons hslash] at h
      split at h
      · obtain ⟨rfl, rfl⟩ := Prod.mk.inj (Option.some.inj h)
        exact .inl ⟨c, cs, rfl, hquote⟩
      · exact hgo h

end Unescape

section Quoted

/-- Splits off a text between double quotes, in which a backslash takes the next character
as it is. -/
def takeQuoted? : List Char → Option (List Char × List Char)
  | '"' :: cs => match unescape (· == '"') cs with
    | some (text, '"' :: rest) => some (text, rest)
    | _ => none
  | _ => none

theorem takeQuoted?_quoted_append (cs rest : List Char) :
    takeQuoted? (quoted cs ++ rest) = some (cs, rest) := by
  have hinside : unescape (· == '"') (cs.flatMap escape ++ '"' :: rest) = some (cs, '"' :: rest) :=
    unescape_append (unescape_flatMap_escape (by simp +contextual) cs) rfl
  have htext : quoted cs ++ rest = '"' :: (cs.flatMap escape ++ '"' :: rest) := by simp [quoted]
  rw [htext, takeQuoted?, hinside]
  rfl

end Quoted

end SearchBar.Text
