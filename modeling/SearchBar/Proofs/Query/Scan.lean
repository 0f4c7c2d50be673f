import SearchBar.Proofs.Text.Case
import SearchBar.Proofs.Text.Unescape
import SearchBar.Query.Draft

/-! # What the scanners accept

Each scanner is described by the stretch of text that it takes and by what may
stand behind it. The descriptions hold in both directions: a stretch is taken in
the same way in front of every text that may stand behind it.
-/

namespace SearchBar

open Text

/-- A delimiter that has no other part in the grammar. -/
structure IsDelimiter (d : Char) : Prop where
  not_mem : d ∉ ['\\', '(', ')', ':', '<', '>', '=']
  not_blank : isBlank d = false
  not_name : isNameChar d = false

theorem isDelimiter_quote : IsDelimiter '"' := ⟨by decide, by decide, by decide⟩

theorem IsDelimiter.ne_backslash {d : Char} (hd : IsDelimiter d) : d ≠ '\\' := by
  rintro rfl
  exact hd.not_mem (by decide)

variable {d : Char} {cs rest raw name : List Char} {w : Word}

/-- The stretches of text that are read as a word. -/
inductive Word.Spelled (d : Char) : List Char → Word → Prop
  | phrase {raw text : List Char} (h : unescape (endsPhrase d) raw = some (text, [])) :
      Spelled d (d :: raw ++ [d]) ⟨text, true⟩
  | bare {raw text : List Char} (h : unescape (endsWord d) raw = some (text, []))
      (hne : text ≠ []) : Spelled d raw ⟨text, false⟩

def Word.StopsAt (d : Char) (w : Word) (rest : List Char) : Prop :=
  w.quoted = false → stopsAt (endsAt (endsWord d)) rest = true

section Words

theorem endsAt_of_isGap {c : Char} (h : isGap c = true) : endsAt (endsWord d) c = true := by
  rw [isGap_iff] at h
  simp only [gaps, List.mem_cons, List.not_mem_nil, or_false] at h
  rcases h with rfl | rfl | rfl | rfl <;> simp [endsAt, endsWord]

theorem takePhrase_eq_some_iff (hd : d ≠ '\\') : takePhrase? d cs = some (w, rest) ↔
    w.quoted = true ∧ ∃ inside, cs = d :: inside ∧
      unescape (endsPhrase d) inside = some (w.text, d :: rest) := by
  constructor
  · intro h
    obtain ⟨inside, text, rfl, rfl, hinside⟩ := exists_inside_of_takePhrase h
    refine ⟨rfl, inside, rfl, ?_⟩
    cases hread : unescape (endsPhrase d) inside with
    | none =>
      obtain ⟨-, rfl⟩ : [] = text ∧ inside = d :: rest := by simpa [hread] using hinside
      simp [unescape_cons hd, endsPhrase] at hread
    | some r =>
      obtain rfl : r = (text, d :: rest) := by simpa [hread] using hinside
      rfl
  · rintro ⟨hq, inside, rfl, hu⟩
    obtain ⟨text, quoted⟩ := w
    obtain rfl : quoted = true := hq
    simp only [takePhrase?, hu, Option.getD_some, if_true]

theorem takeBare_eq_some_iff : takeBare? d cs = some (w, rest) ↔
    w.quoted = false ∧ w.text ≠ [] ∧ unescape (endsWord d) cs = some (w.text, rest) := by
  constructor
  · intro h
    unfold takeBare? at h
    split at h
    · rename_i c text r hu
      obtain ⟨rfl, rfl⟩ := Prod.mk.inj (Option.some.inj h)
      exact ⟨rfl, List.cons_ne_nil c text, hu⟩
    · simp at h
  · rintro ⟨hq, hne, hu⟩
    obtain ⟨text, quoted⟩ := w
    obtain rfl : quoted = false := hq
    obtain ⟨c, text, rfl⟩ := List.exists_cons_of_ne_nil hne
    simp only [takeBare?, hu]

theorem exists_raw_of_takePhrase (hd : IsDelimiter d) (h : takePhrase? d cs = some (w, rest)) :
    ∃ raw, cs = raw ++ rest ∧ w.Spelled d raw ∧ w.quoted = true := by
  obtain ⟨hq, inside, rfl, hu⟩ := (takePhrase_eq_some_iff hd.ne_backslash).1 h
  obtain ⟨text, quoted⟩ := w
  obtain rfl : quoted = true := hq
  obtain ⟨raw, rfl, hraw, -⟩ := exists_raw_of_unescape hu
  exact ⟨d :: raw ++ [d], by simp, .phrase hraw, rfl⟩

theorem takePhrase_append (hd : IsDelimiter d) {text : List Char}
    (h : unescape (endsPhrase d) raw = some (text, [])) (rest : List Char) :
    takePhrase? d (d :: raw ++ [d] ++ rest) = some (⟨text, true⟩, rest) := by
  have hend : stopsAt (endsAt (endsPhrase d)) (d :: rest) = true := by
    simp [endsAt, endsPhrase, hd.ne_backslash]
  exact (takePhrase_eq_some_iff hd.ne_backslash).2
    ⟨rfl, raw ++ d :: rest, by simp, unescape_append h hend⟩

theorem exists_raw_of_takeBare (h : takeBare? d cs = some (w, rest)) :
    ∃ raw, cs = raw ++ rest ∧ w.Spelled d raw ∧ w.StopsAt d rest := by
  obtain ⟨hq, hne, hu⟩ := takeBare_eq_some_iff.1 h
  obtain ⟨text, quoted⟩ := w
  obtain rfl : quoted = false := hq
  obtain ⟨raw, rfl, hraw, hend⟩ := exists_raw_of_unescape hu
  exact ⟨raw, rfl, .bare hraw hne, fun _ => hend⟩

theorem exists_raw_of_takeWord (hd : IsDelimiter d) (h : takeWord? d cs = some (w, rest)) :
    ∃ raw, cs = raw ++ rest ∧ w.Spelled d raw ∧ w.StopsAt d rest := by
  rcases takeWord_eq_some h with h | h
  · obtain ⟨raw, hcs, hraw, hq⟩ := exists_raw_of_takePhrase hd h
    exact ⟨raw, hcs, hraw, fun hf => by simp [hq] at hf⟩
  · exact exists_raw_of_takeBare h

theorem takePhrase_eq_none (h : cs.head? ≠ some d) : takePhrase? d cs = none := by
  cases cs with
  | nil => rfl
  | cons c cs => exact if_neg fun hc => h (by rw [hc]; rfl)

theorem head_of_unescape {text : List Char}
    (h : unescape (endsWord d) raw = some (text, [])) (hne : text ≠ []) :
    ∃ c r, raw = c :: r ∧ endsAt (endsWord d) c = false := by
  cases raw with
  | nil =>
    simp only [unescape, Option.some.injEq, Prod.mk.injEq, and_true] at h
    exact absurd h.symm hne
  | cons c r =>
    refine ⟨c, r, rfl, ?_⟩
    cases hc : endsAt (endsWord d) c with
    | false => rfl
    | true =>
      rw [endsAt, Bool.and_eq_true, bne_iff_ne] at hc
      rw [unescape_cons hc.2, if_pos hc.1] at h
      simp at h

theorem Word.Spelled.ne_nil (h : w.Spelled d raw) : raw ≠ [] := by
  cases h with
  | phrase h => simp
  | bare h hne =>
    obtain ⟨c, r, rfl, -⟩ := head_of_unescape h hne
    simp

theorem takeWord_eq_none_of_gap (hd : IsDelimiter d) (h : stopsAt isGap cs = true) :
    takeWord? d cs = none := by
  cases cs with
  | nil => rfl
  | cons c cs =>
    have hc : endsAt (endsWord d) c = true := endsAt_of_isGap h
    have hcd : c ≠ d := by
      rintro rfl
      exact absurd (isBlank_of_isGap h) (by simp [hd.not_blank])
    rw [endsAt, Bool.and_eq_true, bne_iff_ne] at hc
    have hphrase : takePhrase? d (c :: cs) = none := takePhrase_eq_none (by simpa using hcd)
    simp [takeWord?, hphrase, takeBare?, unescape_cons hc.2, hc.1]

theorem takeBare_plain_append (hp : ∀ c ∈ raw, endsWord d c = false ∧ c ≠ '\\') (hne : raw ≠ [])
    (cs : List Char) : takeBare? d (raw ++ cs) =
      (unescape (endsWord d) cs).map fun r => (⟨raw ++ r.1, false⟩, r.2) := by
  obtain ⟨c, raw, rfl⟩ := List.exists_cons_of_ne_nil hne
  simp only [takeBare?, unescape_plain_append hp cs]
  cases unescape (endsWord d) cs with
  | none => rfl
  | some r => rfl

theorem eq_of_takeWord_eq_none {text : List Char} (h : takeWord? d cs = none)
    (hu : unescape (endsWord d) cs = some (text, rest)) : cs = rest := by
  have hbare : takeBare? d cs = none := by
    simp only [takeWord?, Option.orElse_eq_orElse, Option.orElse_eq_or, Option.or_eq_none_iff] at h
    exact h.2
  obtain ⟨raw, rfl, hraw, -⟩ := exists_raw_of_unescape hu
  cases text with
  | nil => rw [eq_nil_of_unescape hraw, List.nil_append]
  | cons c text => simp [takeBare?, hu] at hbare

theorem takeWord_append (hd : IsDelimiter d) (h : w.Spelled d raw) (hr : w.StopsAt d rest) :
    takeWord? d (raw ++ rest) = some (w, rest) := by
  unfold takeWord?
  cases h with
  | phrase h => rw [takePhrase_append hd h]; rfl
  | @bare raw text h hne =>
    obtain ⟨c, r, rfl, hc⟩ := head_of_unescape h hne
    have hcd : c ≠ d := by
      rintro rfl
      simp [endsAt, endsWord, hd.ne_backslash] at hc
    rw [takePhrase_eq_none (by simpa using hcd)]
    obtain ⟨e, text, rfl⟩ := List.exists_cons_of_ne_nil hne
    simp only [takeBare?, unescape_append h (hr rfl)]
    rfl

end Words

def isFieldName : List Char → Bool
  | [] => false
  | c :: cs => isNameStart c && cs.all isNameChar

def isFlagName (cs : List Char) : Bool := !cs.isEmpty && cs.all isNameChar

section Names

theorem isNameStart_of_isFieldName {c : Char} (h : isFieldName (c :: cs) = true) :
    isNameStart c = true := (Bool.and_eq_true_iff.1 h).1

theorem isNameChar_of_isFieldName (h : isFieldName name = true) : ∀ c ∈ name, isNameChar c = true := by
  cases name with
  | nil => simp [isFieldName] at h
  | cons c cs =>
    simp only [isFieldName, Bool.and_eq_true, List.all_eq_true] at h
    rintro x (_ | ⟨_, hx⟩)
    · exact isNameChar_of_isNameStart h.1
    · exact h.2 x hx

theorem takeName_eq_some_iff {first : Char → Bool} : takeName? first cs = some (name, rest) ↔
    cs = name ++ rest ∧ (∃ c more, name = c :: more ∧ first c = true ∧
      ∀ x ∈ more, isNameChar x = true) ∧ stopsAt (fun c => !isNameChar c) rest = true := by
  constructor
  · intro h
    unfold takeName? at h
    split at h
    · simp at h
    · rename_i c cs
      split at h
      · rename_i hc
        obtain ⟨rfl, rfl⟩ := Prod.mk.inj (Option.some.inj h)
        exact ⟨by simp, ⟨c, _, rfl, hc, List.all_eq_true.1 List.all_takeWhile⟩,
          stopsAt_dropWhile _ _⟩
      · simp at h
  · rintro ⟨rfl, ⟨c, more, rfl, hc, hmore⟩, hr⟩
    simp only [List.cons_append, takeName?, hc, if_true, takeWhile_append_of_stopsAt hmore hr,
      dropWhile_append_of_stopsAt hmore hr]

theorem takeFieldName_eq_some_iff : takeFieldName? cs = some (name, rest) ↔
    cs = name ++ rest ∧ isFieldName name = true ∧ stopsAt (fun c => !isNameChar c) rest = true := by
  rw [takeFieldName?, takeName_eq_some_iff]
  cases name <;> simp [isFieldName, and_assoc]

theorem takeFlagName_eq_some_iff : takeFlagName? cs = some (name, rest) ↔
    cs = name ++ rest ∧ isFlagName name = true ∧ stopsAt (fun c => !isNameChar c) rest = true := by
  rw [takeFlagName?, takeName_eq_some_iff]
  cases name <;> simp [isFlagName, and_assoc]

end Names

/-- An equals sign in the text behind the sign would be read as a part of it. -/
def Operator.widens (op : Operator) (rest : List Char) : Bool :=
  (op == gt || op == lt) && rest.head? == some '='

theorem Operator.widens_cons {op : Operator} {c : Char} (hc : c ≠ '=') :
    op.widens (c :: rest) = false := by
  simp [widens, hc]

theorem Operator.take_sign_append {op : Operator} (h : op.widens rest = false) :
    take? (op.sign.toList ++ rest) = some (op, rest) := by
  have hne : ∀ r, op = gt ∨ op = lt → rest ≠ '=' :: r := by
    rintro r (rfl | rfl) rfl <;> simp [widens] at h
  cases op with
  | gte | lte | eq => rfl
  | gt =>
    show take? ('>' :: rest) = _
    rw [take?]
    exact fun r => hne r (.inl rfl)
  | lt =>
    show take? ('<' :: rest) = _
    rw [take?]
    exact fun r => hne r (.inr rfl)

theorem Operator.take_eq_some_iff {op : Operator} : take? cs = some (op, rest) ↔
    cs = op.sign.toList ++ rest ∧ op.widens rest = false := by
  refine ⟨fun h => ?_, fun ⟨hcs, h⟩ => hcs ▸ take_sign_append h⟩
  have hcs := eq_sign_append_of_take? h
  refine ⟨hcs, ?_⟩
  cases hw : op.widens rest with
  | false => rfl
  | true =>
    simp only [widens, Bool.and_eq_true, Bool.or_eq_true, beq_iff_eq] at hw
    obtain ⟨hop, hhead⟩ := hw
    obtain ⟨r, rfl⟩ := List.head?_eq_some_iff.1 hhead
    subst hcs
    rcases hop with rfl | rfl <;> simp [take?, sign] at h

theorem takeKeyword_eq_some_iff {word : List Char} : takeKeyword? word cs = some rest ↔
    ∃ raw, cs = raw ++ rest ∧ raw.map Char.toLower = word := by
  unfold takeKeyword?
  constructor
  · intro h
    split at h
    · rename_i hw
      simp only [Option.some.injEq] at h
      exact ⟨cs.take word.length, by rw [← h, List.take_append_drop], hw⟩
    · simp at h
  · rintro ⟨raw, rfl, rfl⟩
    simp

theorem takeGap_eq_some_iff : takeGap? cs = some rest ↔
    ∃ raw, cs = raw ++ rest ∧ raw ≠ [] ∧ (∀ c ∈ raw, isGap c = true) ∧
      stopsAt (fun c => !isGap c) rest = true := by
  constructor
  · intro h
    unfold takeGap? at h
    split at h
    · simp at h
    · rename_i c cs
      split at h
      · rename_i hc
        simp only [Option.some.injEq] at h
        subst h
        refine ⟨c :: cs.takeWhile isGap, by simp, by simp, ?_, stopsAt_dropWhile _ _⟩
        simpa [hc] using List.all_eq_true.1 (List.all_takeWhile (l := cs) (p := isGap))
      · simp at h
  · rintro ⟨raw, rfl, hne, hraw, hr⟩
    obtain ⟨c, raw, rfl⟩ := List.exists_cons_of_ne_nil hne
    rw [List.forall_mem_cons] at hraw
    simp only [List.cons_append, takeGap?, hraw.1, if_true, dropWhile_append_of_stopsAt hraw.2 hr]

def IsOr (raw : List Char) : Prop :=
  ∃ before word behind, raw = before ++ word ++ behind ∧
    (before ≠ [] ∧ ∀ c ∈ before, isGap c = true) ∧ word.map Char.toLower = ['o', 'r'] ∧
    behind ≠ [] ∧ ∀ c ∈ behind, isGap c = true

theorem isGap_toLower (c : Char) : isGap c.toLower = isGap c := apply_toLower (by decide) c

theorem takeOr_eq_some_iff : takeOr? cs = some rest ↔
    ∃ raw, cs = raw ++ rest ∧ IsOr raw ∧ stopsAt (fun c => !isGap c) rest = true := by
  unfold takeOr?
  constructor
  · intro h
    obtain ⟨b, hab, hb⟩ := Option.bind_eq_some_iff.1 h
    obtain ⟨a, ha, hk⟩ := Option.bind_eq_some_iff.1 hab
    obtain ⟨before, rfl, h1, h2, -⟩ := takeGap_eq_some_iff.1 ha
    obtain ⟨word, rfl, hw⟩ := takeKeyword_eq_some_iff.1 hk
    obtain ⟨behind, rfl, h3, h4, hr⟩ := takeGap_eq_some_iff.1 hb
    exact ⟨before ++ word ++ behind, by simp, ⟨before, word, behind, rfl, ⟨h1, h2⟩, hw, h3, h4⟩, hr⟩
  · rintro ⟨raw, rfl, ⟨before, word, behind, rfl, ⟨h1, h2⟩, hw, h3, h4⟩, hr⟩
    have hgap : stopsAt (fun c => !isGap c) (word ++ (behind ++ rest)) = true := by
      obtain ⟨o, word, rfl⟩ : ∃ o r, word = o :: r := by
        cases word with
        | nil => simp at hw
        | cons o r => exact ⟨o, r, rfl⟩
      simp only [List.map_cons, List.cons.injEq] at hw
      simp [← isGap_toLower o, hw.1, show isGap 'o' = false by decide]
    have ha : takeGap? (before ++ (word ++ (behind ++ rest))) = some (word ++ (behind ++ rest)) :=
      takeGap_eq_some_iff.2 ⟨before, rfl, h1, h2, hgap⟩
    have hb : takeKeyword? ['o', 'r'] (word ++ (behind ++ rest)) = some (behind ++ rest) :=
      takeKeyword_eq_some_iff.2 ⟨word, rfl, hw⟩
    have hc : takeGap? (behind ++ rest) = some rest :=
      takeGap_eq_some_iff.2 ⟨behind, rfl, h3, h4, hr⟩
    simp only [List.append_assoc, ha, Option.bind_some, hb, hc]

section Groups

inductive AlternativesSpelled (d : Char) : List Char → List Word → Prop
  | nil : AlternativesSpelled d [] []
  | cons {between raw more : List Char} {w : Word} {ws : List Word} (ho : IsOr between)
      (hw : w.Spelled d raw) (hm : AlternativesSpelled d more ws) :
      AlternativesSpelled d (between ++ raw ++ more) (w :: ws)

theorem exists_raw_of_takeAlternatives (hd : IsDelimiter d) (cs : List Char) :
    ∃ raw, cs = raw ++ (takeAlternatives d cs).2 ∧
      AlternativesSpelled d raw (takeAlternatives d cs).1 := by
  fun_induction takeAlternatives d cs with
  | case1 => exact ⟨[], rfl, .nil⟩
  | case2 => exact ⟨[], rfl, .nil⟩
  | case3 cs next ho w rest hw more ih =>
    obtain ⟨between, rfl, hbetween, -⟩ := takeOr_eq_some_iff.1 ho
    obtain ⟨raw, rfl, hraw, -⟩ := exists_raw_of_takeWord hd hw
    obtain ⟨rest', hrest, hmore⟩ := ih
    refine ⟨between ++ raw ++ rest', ?_, .cons hbetween hraw hmore⟩
    rw [List.append_assoc, List.append_assoc, ← hrest]

theorem endsAt_close : endsAt (endsWord d) ')' = true := by simp [endsAt, endsWord]

theorem stopsAt_gaps_close {g : List Char} (hg : ∀ c ∈ g, isGap c = true) (rest : List Char) :
    stopsAt (endsAt (endsWord d)) (g ++ ')' :: rest) = true := by
  cases g with
  | nil => exact endsAt_close (d := d)
  | cons c g => exact endsAt_of_isGap (hg c List.mem_cons_self)

theorem stopsAt_alternatives {more g : List Char} {ws : List Word}
    (hm : AlternativesSpelled d more ws) (hg : ∀ c ∈ g, isGap c = true) (rest : List Char) :
    stopsAt (endsAt (endsWord d)) (more ++ (g ++ ')' :: rest)) = true := by
  cases hm with
  | nil => exact stopsAt_gaps_close hg rest
  | cons ho _ _ =>
    obtain ⟨before, word, behind, rfl, ⟨h1, h2⟩, -⟩ := ho
    obtain ⟨c, before, rfl⟩ := List.exists_cons_of_ne_nil h1
    exact endsAt_of_isGap (h2 c List.mem_cons_self)

theorem not_isGap_of_spelled (hd : IsDelimiter d) (h : w.Spelled d raw) (rest : List Char) :
    stopsAt (fun c => !isGap c) (raw ++ rest) = true := by
  cases h with
  | phrase h =>
    cases hg : isGap d with
    | false => simp [hg]
    | true => exact absurd (isBlank_of_isGap hg) (by simp [hd.not_blank])
  | bare h hne =>
    obtain ⟨c, r, rfl, hc⟩ := head_of_unescape h hne
    cases hg : isGap c with
    | false => simp [hg]
    | true => exact absurd (endsAt_of_isGap (d := d) hg) (by simp [hc])

theorem takeValues_eq_none (h : cs.head? ≠ some '(') : takeValues? d cs = none := by
  unfold takeValues?
  split
  · exact absurd rfl h
  · rfl

theorem Word.Spelled.head?_ne_bracket (hd : IsDelimiter d) (h : w.Spelled d raw)
    (rest : List Char) : (raw ++ rest).head? ≠ some '(' := by
  cases h with
  | phrase h =>
    simp only [List.cons_append, List.head?_cons, ne_eq, Option.some.injEq]
    rintro rfl
    exact hd.not_mem (by decide)
  | bare h hne =>
    obtain ⟨c, r, rfl, hc⟩ := head_of_unescape h hne
    simp only [List.cons_append, List.head?_cons, ne_eq, Option.some.injEq]
    rintro rfl
    simp [endsAt, endsWord] at hc

theorem takeOr_gaps_close {g : List Char} (hg : ∀ c ∈ g, isGap c = true) :
    takeOr? (g ++ ')' :: rest) = none := by
  cases g with
  | nil => rfl
  | cons c g =>
    have h := takeGap_eq_some_iff.2 ⟨c :: g, rfl, by simp, hg,
      (show stopsAt (fun c => !isGap c) (')' :: rest) = true by simp; decide)⟩
    simp only [takeOr?, h, Option.bind_some]
    have hk : takeKeyword? ['o', 'r'] (')' :: rest) = none := by
      refine if_neg ?_
      simp only [List.length_cons, List.length_nil, List.take_succ_cons, List.map_cons,
        List.cons.injEq]
      exact fun h => absurd h.1 (by decide)
    rw [hk]
    rfl

section

variable {next : List Char}

theorem takeAlternatives_of_takeOr_eq_none (h : takeOr? cs = none) :
    takeAlternatives d cs = ([], cs) := by
  rw [takeAlternatives]
  split
  · rfl
  · rename_i ho
    simp [h] at ho

theorem takeAlternatives_of_takeWord_eq_none (ho : takeOr? cs = some next)
    (hw : takeWord? d next = none) : takeAlternatives d cs = ([], cs) := by
  rw [takeAlternatives]
  split
  · rfl
  · rename_i h
    obtain rfl := Option.some.inj (ho.symm.trans h)
    split
    · rfl
    · rename_i h
      simp [hw] at h

theorem takeAlternatives_of_takeWord (ho : takeOr? cs = some next)
    (hw : takeWord? d next = some (w, rest)) :
    takeAlternatives d cs = (w :: (takeAlternatives d rest).1, (takeAlternatives d rest).2) := by
  rw [takeAlternatives]
  split
  · rename_i h
    simp [ho] at h
  · rename_i h
    obtain rfl := Option.some.inj (ho.symm.trans h)
    split
    · rename_i h
      simp [hw] at h
    · rename_i h
      obtain ⟨rfl, rfl⟩ := Prod.mk.inj (Option.some.inj (hw.symm.trans h))
      rfl

end

theorem takeAlternatives_append (hd : IsDelimiter d) {g : List Char} {ws : List Word}
    (h : AlternativesSpelled d raw ws) (hg : ∀ c ∈ g, isGap c = true) (rest : List Char) :
    takeAlternatives d (raw ++ (g ++ ')' :: rest)) = (ws, g ++ ')' :: rest) := by
  induction h with
  | nil => exact takeAlternatives_of_takeOr_eq_none (takeOr_gaps_close hg)
  | @cons between raw more w ws ho hw hm ih =>
    have hor : takeOr? (between ++ (raw ++ (more ++ (g ++ ')' :: rest)))) =
        some (raw ++ (more ++ (g ++ ')' :: rest))) :=
      takeOr_eq_some_iff.2 ⟨between, rfl, ho, not_isGap_of_spelled hd hw _⟩
    have hword := takeWord_append hd hw fun _ => stopsAt_alternatives hm hg rest
    rw [List.append_assoc, List.append_assoc, takeAlternatives_of_takeWord hor hword, ih]

def ValuesSpelled (d : Char) (raw : List Char) (ws : List Word) : Prop :=
  ∃ opening first more closing w vs, raw = '(' :: opening ++ first ++ more ++ closing ++ [')'] ∧
    ws = w :: vs ∧ (∀ c ∈ opening, isGap c = true) ∧ w.Spelled d first ∧
    AlternativesSpelled d more vs ∧ ∀ c ∈ closing, isGap c = true

theorem forall_mem_takeWhile (p : Char → Bool) (cs : List Char) :
    ∀ c ∈ cs.takeWhile p, p c = true := List.all_eq_true.1 List.all_takeWhile

theorem takeValues_eq_some_iff (hd : IsDelimiter d) {ws : List Word} :
    takeValues? d cs = some (ws, rest) ↔ ∃ raw, cs = raw ++ rest ∧ ValuesSpelled d raw ws := by
  constructor
  · intro h
    obtain ⟨inside, w, behind, rfl, hword, hclose, rfl⟩ := exists_values_of_takeValues h
    obtain ⟨first, hfirst, hspelled, -⟩ := exists_raw_of_takeWord hd hword
    obtain ⟨more, hmore, halt⟩ := exists_raw_of_takeAlternatives hd behind
    refine ⟨_, ?_, inside.takeWhile isGap, first, more,
      (takeAlternatives d behind).2.takeWhile isGap, w, _, rfl, rfl, forall_mem_takeWhile _ _,
      hspelled, halt, forall_mem_takeWhile _ _⟩
    have hopening := List.takeWhile_append_dropWhile (p := isGap) (l := inside)
    have hclosing := List.takeWhile_append_dropWhile (p := isGap)
      (l := (takeAlternatives d behind).2)
    rw [hclose] at hclosing
    rw [hfirst] at hopening
    simp only [List.cons_append, List.append_assoc, List.nil_append]
    rw [hclosing, ← hmore, hopening]
  · rintro ⟨raw, rfl, opening, first, more, closing, w, vs, rfl, rfl, ho, hf, hm, hc⟩
    have h1 : (opening ++ (first ++ (more ++ (closing ++ ')' :: rest)))).dropWhile isGap =
        first ++ (more ++ (closing ++ ')' :: rest)) :=
      dropWhile_append_of_stopsAt ho (not_isGap_of_spelled hd hf _)
    have h2 := takeWord_append hd hf fun _ => stopsAt_alternatives hm hc rest
    have h3 := takeAlternatives_append hd hm hc rest
    have h4 : (closing ++ ')' :: rest).dropWhile isGap = ')' :: rest :=
      dropWhile_append_of_stopsAt hc (by simp; decide)
    simp only [List.cons_append, List.append_assoc, List.nil_append, takeValues?, h1, h2,
      Option.bind_some, h3, h4]

theorem ValuesSpelled.stopsAt_name {ws : List Word} (h : ValuesSpelled d raw ws)
    (rest : List Char) : stopsAt (fun c => !isNameChar c) (raw ++ rest) = true := by
  obtain ⟨opening, first, more, closing, w, vs, rfl, -⟩ := h
  rfl

end Groups

end SearchBar
