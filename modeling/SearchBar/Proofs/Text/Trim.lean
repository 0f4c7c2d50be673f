import SearchBar.Text.Blank
import SearchBar.Proofs.Text.Case

/-! # Trimmed texts

Trimming removes the blanks at both ends. A text whose ends are no blanks is trimmed,
and case plays no part in it.
-/

namespace SearchBar.Text

theorem trimStart_of_head? {cs : List Char} (h : ∀ c, cs.head? = some c → isBlank c = false) :
    trimStart cs = cs := by
  cases cs with
  | nil => rfl
  | cons c cs => exact List.dropWhile_cons_of_neg (by simp [h c rfl])

theorem trim_of_ends {cs : List Char} (hfirst : ∀ c, cs.head? = some c → isBlank c = false)
    (hlast : ∀ c, cs.getLast? = some c → isBlank c = false) : trim cs = cs := by
  have hreverse : trimStart cs.reverse = cs.reverse := by
    apply trimStart_of_head?
    intro c hc
    exact hlast c (by rwa [List.head?_reverse] at hc)
  rw [trim, trimStart_of_head? hfirst, trimEnd, ← trimStart, hreverse, List.reverse_reverse]

theorem trim_of_forall {cs : List Char} (h : ∀ c ∈ cs, isBlank c = false) : trim cs = cs :=
  trim_of_ends (fun _ hc => h _ (List.mem_of_head? hc)) (fun _ hc => h _ (List.mem_of_getLast? hc))

theorem head?_trim {cs : List Char} {c : Char} (h : (trim cs).head? = some c) :
    isBlank c = false := by
  have hprefix : trim cs <+: trimStart cs := by
    rw [← List.reverse_suffix, trim, trimEnd, List.reverse_reverse]
    exact List.dropWhile_suffix isBlank
  obtain ⟨rest, hrest⟩ := hprefix
  obtain ⟨tail, htail⟩ := List.head?_eq_some_iff.1 h
  exact trimStart_eq_cons (hrest.symm.trans (congrArg (· ++ rest) htail))

theorem getLast?_trim {cs : List Char} {c : Char} (h : (trim cs).getLast? = some c) :
    isBlank c = false := by
  rw [trim, trimEnd, List.getLast?_reverse] at h
  obtain ⟨tail, htail⟩ := List.head?_eq_some_iff.1 h
  exact trimStart_eq_cons htail

theorem trim_trim (cs : List Char) : trim (trim cs) = trim cs :=
  trim_of_ends (fun _ => head?_trim) (fun _ => getLast?_trim)

theorem trimStart_map_toLower (cs : List Char) :
    trimStart (cs.map Char.toLower) = (trimStart cs).map Char.toLower :=
  dropWhile_map_toLower (by decide) cs

theorem trim_map_toLower (cs : List Char) :
    trim (cs.map Char.toLower) = (trim cs).map Char.toLower := by
  unfold trim trimEnd
  rw [trimStart_map_toLower, ← List.map_reverse, dropWhile_map_toLower (by decide),
    List.map_reverse]

theorem trim_of_sameLetters {a b : List Char} (h : sameLetters a b = true) (htrim : trim b = b) :
    trim a = a := by
  have hblank := apply_toLower (f := isBlank) (by decide)
  rw [sameLetters_iff] at h
  apply trim_of_ends
  · rintro c hc
    have hhead : (b.map Char.toLower).head? = some c.toLower := by
      rw [← h, List.head?_map, hc]
      rfl
    rw [List.head?_map, Option.map_eq_some_iff] at hhead
    obtain ⟨c', hc', hsame⟩ := hhead
    rw [← hblank, ← hsame, hblank]
    exact head?_trim (htrim.symm ▸ hc')
  · rintro c hc
    have hlast : (b.map Char.toLower).getLast? = some c.toLower := by
      rw [← h, List.getLast?_map, hc]
      rfl
    rw [List.getLast?_map, Option.map_eq_some_iff] at hlast
    obtain ⟨c', hc', hsame⟩ := hlast
    rw [← hblank, ← hsame, hblank]
    exact getLast?_trim (htrim.symm ▸ hc')

theorem isBlank_of_class {p : Char → Bool} (hp : (blanks.all fun c => !p c) = true) {c : Char}
    (h : p c = true) : isBlank c = false := by
  rw [Bool.eq_false_iff]
  intro hblank
  have hno := List.all_eq_true.1 hp c (isBlank_iff.1 hblank)
  simp [h] at hno

theorem isBlank_of_isDigit {c : Char} (h : c.isDigit = true) : isBlank c = false :=
  isBlank_of_class (by decide) h

theorem isBlank_of_isAlpha {c : Char} (h : c.isAlpha = true) : isBlank c = false :=
  isBlank_of_class (by decide) h

end SearchBar.Text
