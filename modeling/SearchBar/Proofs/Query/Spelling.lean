import Mathlib.Data.List.Basic
import SearchBar.Proofs.Query.Scan
import SearchBar.Query.Reader

/-! # The spelling of drafts

The grammar of single drafts, said without the order in which the kinds of drafts
are tried. What a text begins with is decided by the stretch that is taken and by
whether something that ends it stands behind it.
-/

namespace SearchBar

open Text

variable {d : Char} {cs rest raw name : List Char} {op : Operator} {w : Word} {ws : List Word}
  {draft : Draft}

theorem not_isNameChar_of_isBlank {c : Char} (h : isBlank c = true) : isNameChar c = false := by
  have hall : blanks.any isNameChar = false := by decide +kernel
  exact Bool.eq_false_iff.2 (List.any_eq_false.1 hall c (isBlank_iff.1 h))

theorem stopsAt_name_of_atBoundary (h : atBoundary rest = true) :
    stopsAt (fun c => !isNameChar c) rest = true := by
  rw [atBoundary_eq_stopsAt] at h
  exact stopsAt_mono (fun c hc => by simp [not_isNameChar_of_isBlank hc]) h

theorem isNameChar_toLower (c : Char) : isNameChar c.toLower = isNameChar c :=
  apply_toLower (by decide) c

theorem isNameStart_toLower (c : Char) : isNameStart c.toLower = isNameStart c :=
  apply_toLower (by decide) c

theorem isFieldName_of_isReserved (h : isReserved name = true) : isFieldName name = true := by
  rw [isReserved, sameLetters_iff] at h
  obtain ⟨i, s, rfl⟩ := List.length_eq_two.1 (by simpa using congrArg List.length h)
  simp only [List.map_cons, List.map_nil, List.cons.injEq, and_true] at h
  have hi : isNameStart i = true := by rw [← isNameStart_toLower, h.1]; decide
  have hs : isNameChar s = true := by rw [← isNameChar_toLower, h.2]; decide
  simp [isFieldName, hi, hs]

def beginsComparison (cs : List Char) : Bool :=
  ((takeFieldName? cs).bind fun name => Operator.take? name.2).isSome

/-- The stretches of text that are read as a draft. -/
inductive Draft.Spelled (d : Char) : List Char → Draft → Prop
  | flag {reserved name : List Char} (hr : isReserved reserved = true)
      (hn : isFlagName name = true) : Spelled d (reserved ++ ':' :: name) (.flag name)
  | group {name raw : List Char} {ws : List Word} (hn : isFieldName name = true)
      (hv : ValuesSpelled d raw ws) : Spelled d (name ++ ':' :: raw) (.group name ws)
  | field {name raw : List Char} {op : Operator} {w : Word} (hn : isFieldName name = true)
      (ho : op.widens raw = false) (hw : w.Spelled d raw)
      (hf : isReserved name = true → op = .eq → stopsAt (fun c => !isNameChar c) raw = true) :
      Spelled d (name ++ op.sign.toList ++ raw) (.field name op w)
  | missing {name : List Char} {op : Operator} (hn : isFieldName name = true) :
      Spelled d (name ++ op.sign.toList) (.missing name op)
  | term {raw : List Char} {w : Word} (hw : w.Spelled d raw) (hc : beginsComparison raw = false) :
      Spelled d raw (.term w)

/-- A draft that only a gap or the end of the text ends. -/
def Draft.isOpen : Draft → Bool
  | .field _ _ w | .term w => !w.quoted
  | .missing _ _ => true
  | .flag _ | .group _ _ => false

def Draft.EndsAt (draft : Draft) (rest : List Char) : Prop :=
  atBoundary rest = true ∧ (draft.isOpen = true → stopsAt isGap rest = true)

theorem not_isNameChar_sign (op : Operator) (rest : List Char) :
    stopsAt (fun c => !isNameChar c) (op.sign.toList ++ rest) = true := by
  cases op <;> rfl

def IsPlain (d c : Char) : Prop := endsWord d c = false ∧ c ≠ '\\'

theorem isPlain_iff {c : Char} :
    IsPlain d c ↔ c ≠ d ∧ c ∉ [' ', '\t', '\r', '\n', '(', ')', '\\'] := by
  simp only [IsPlain, endsWord, List.contains_eq_mem, List.mem_cons, List.not_mem_nil, or_false,
    decide_eq_false_iff_not]
  grind

def signChars : List Char := [':', '<', '>', '=']

theorem mem_sign {c : Char} (h : c ∈ op.sign.toList) : c ∈ signChars := by
  have hall : op.sign.toList.all signChars.contains = true := by cases op <;> decide
  exact List.contains_iff_mem.1 (List.all_eq_true.1 hall c h)

theorem isPlain_of_mem_sign (hd : IsDelimiter d) {c : Char} (h : c ∈ op.sign.toList) :
    IsPlain d c := by
  have hc := mem_sign h
  simp only [signChars, List.mem_cons, List.not_mem_nil, or_false] at hc
  refine isPlain_iff.2 ⟨?_, ?_⟩
  · rintro rfl
    refine hd.not_mem ?_
    rcases hc with rfl | rfl | rfl | rfl <;> decide
  · rcases hc with rfl | rfl | rfl | rfl <;> decide

theorem isPlain_of_isNameChar (hd : IsDelimiter d) {c : Char} (h : isNameChar c = true) :
    IsPlain d c := by
  have hall : [' ', '\t', '\r', '\n', '(', ')', '\\'].any isNameChar = false := by decide
  refine isPlain_iff.2 ⟨?_, fun hc => List.any_eq_false.1 hall c hc h⟩
  rintro rfl
  simp [hd.not_name] at h

theorem takeFieldName_sign (hn : isFieldName name = true) (op : Operator) (rest : List Char) :
    takeFieldName? (name ++ (op.sign.toList ++ rest)) = some (name, op.sign.toList ++ rest) :=
  takeFieldName_eq_some_iff.2 ⟨rfl, hn, not_isNameChar_sign op rest⟩

theorem beginsComparison_iff : beginsComparison cs = true ↔ ∃ name op rest,
    cs = name ++ (op.sign.toList ++ rest) ∧ isFieldName name = true ∧
      Operator.widens op rest = false := by
  unfold beginsComparison
  constructor
  · intro h
    obtain ⟨⟨op, rest⟩, h⟩ := Option.isSome_iff_exists.1 h
    obtain ⟨⟨name, r⟩, hname, hop⟩ := Option.bind_eq_some_iff.1 h
    obtain ⟨rfl, hn, -⟩ := takeFieldName_eq_some_iff.1 hname
    obtain ⟨rfl, ho⟩ := Operator.take_eq_some_iff.1 hop
    exact ⟨name, op, rest, rfl, hn, ho⟩
  · rintro ⟨name, op, rest, rfl, hn, ho⟩
    simp [takeFieldName_sign hn, Operator.take_sign_append ho]

/-! ### The kinds of drafts behind a name and a sign -/

theorem takeGroup_sign (hn : isFieldName name = true) :
    Draft.takeGroup? d (name ++ (op.sign.toList ++ rest)) =
      if op = .eq then (takeValues? d rest).map fun r => (.group name r.1, r.2) else none := by
  simp only [Draft.takeGroup?, takeFieldName_sign hn, Option.bind_some]
  cases op <;> rfl

theorem takeComparison_sign (hn : isFieldName name = true) (ho : op.widens rest = false) :
    Draft.takeComparison? d (name ++ (op.sign.toList ++ rest)) =
      (takeWord? d rest).map fun r => (.field name op r.1, r.2) := by
  simp only [Draft.takeComparison?, takeFieldName_sign hn, Option.bind_some,
    Operator.take_sign_append ho]

theorem takeMissing_sign (hn : isFieldName name = true) (ho : op.widens rest = false) :
    Draft.takeMissing? (name ++ (op.sign.toList ++ rest)) =
      if stopsAt isGap rest = true then some (.missing name op, rest) else none := by
  simp only [Draft.takeMissing?, takeFieldName_sign hn, Option.bind_some,
    Operator.take_sign_append ho]
  rfl

theorem isReserved_of_keyword (h : raw.map Char.toLower = ['i', 's', ':']) :
    ∃ name, raw = name ++ [':'] ∧ isReserved name = true := by
  obtain ⟨i, s, c, rfl⟩ := List.length_eq_three.1 (by simpa using congrArg List.length h)
  simp only [List.map_cons, List.map_nil, List.cons.injEq, and_true] at h
  have hcolon : (c.toLower == ':') = (c == ':') := apply_toLower (f := (· == ':')) (by decide) c
  rw [h.2.2] at hcolon
  obtain rfl : c = ':' := by simpa using hcolon.symm
  exact ⟨[i, s], rfl, by simp [isReserved, sameLetters_iff, h.1, h.2.1]⟩

theorem takeFlag_eq_some_iff : Draft.takeFlag? cs = some (draft, rest) ↔
    ∃ reserved name, cs = reserved ++ ':' :: (name ++ rest) ∧ isReserved reserved = true ∧
      isFlagName name = true ∧ stopsAt (fun c => !isNameChar c) rest = true ∧
      draft = .flag name := by
  unfold Draft.takeFlag?
  constructor
  · intro h
    obtain ⟨r, hk, h⟩ := Option.bind_eq_some_iff.1 h
    obtain ⟨⟨name, r'⟩, hn, h⟩ := Option.map_eq_some_iff.1 h
    simp only [Prod.mk.injEq] at h
    obtain ⟨rfl, rfl⟩ := h
    obtain ⟨kw, rfl, hkw⟩ := takeKeyword_eq_some_iff.1 hk
    obtain ⟨rfl, hname, hr⟩ := takeFlagName_eq_some_iff.1 hn
    obtain ⟨reserved, rfl, hreserved⟩ := isReserved_of_keyword hkw
    exact ⟨reserved, name, by simp, hreserved, hname, hr, rfl⟩
  · rintro ⟨reserved, name, rfl, hreserved, hname, hr, rfl⟩
    have hk : takeKeyword? ['i', 's', ':'] (reserved ++ ':' :: (name ++ rest)) =
        some (name ++ rest) := by
      refine takeKeyword_eq_some_iff.2 ⟨reserved ++ [':'], by simp, ?_⟩
      rw [isReserved, sameLetters_iff] at hreserved
      rw [List.map_append, hreserved]
      rfl
    simp only [hk, Option.bind_some, takeFlagName_eq_some_iff.2 ⟨rfl, hname, hr⟩, Option.map_some]

/-- Two ways to write a text as a name and a sign are the same way. -/
theorem name_sign_unique {name' rest' : List Char} {op' : Operator} (hn : isFieldName name = true)
    (hn' : isFieldName name' = true) (ho : op.widens rest = false) (ho' : op'.widens rest' = false)
    (h : name ++ (op.sign.toList ++ rest) = name' ++ (op'.sign.toList ++ rest')) :
    name = name' ∧ op = op' ∧ rest = rest' := by
  have h1 := takeFieldName_sign hn op rest
  rw [h, takeFieldName_sign hn' op' rest'] at h1
  simp only [Option.some.injEq, Prod.mk.injEq] at h1
  have h2 := Operator.take_sign_append ho
  rw [← h1.2, Operator.take_sign_append ho'] at h2
  simp only [Option.some.injEq, Prod.mk.injEq] at h2
  exact ⟨h1.1.symm, h2.1.symm, h2.2.symm⟩

theorem takeFlag_sign_eq_none (hn : isFieldName name = true) (ho : op.widens rest = false)
    (h : isReserved name = true → op = .eq → stopsAt (fun c => !isNameChar c) rest = true) :
    Draft.takeFlag? (name ++ (op.sign.toList ++ rest)) = none := by
  refine Option.eq_none_iff_forall_not_mem.2 ?_
  rintro ⟨draft, r⟩ hmem
  obtain ⟨reserved, flag, heq, hr, hf, -⟩ := takeFlag_eq_some_iff.1 hmem
  obtain ⟨rfl, rfl, rfl⟩ : name = reserved ∧ op = .eq ∧ rest = flag ++ r :=
    name_sign_unique hn (isFieldName_of_isReserved hr) ho rfl heq
  specialize h hr rfl
  cases flag with
  | nil => simp [isFlagName] at hf
  | cons c flag =>
    simp only [isFlagName, List.all_cons, Bool.and_eq_true] at hf
    simp [hf.2.1] at h

/-! ### Reading what is spelled -/

theorem takeTerm_of_not_beginsComparison (h : beginsComparison cs = false) :
    Draft.take? d cs = Draft.takeTerm? d cs := by
  have hnone : ∀ name rest, takeFieldName? cs = some (name, rest) →
      Operator.take? rest = none := by
    intro name rest hname
    cases ho : Operator.take? rest with
    | none => rfl
    | some r => simp [beginsComparison, hname, ho] at h
  have hflag : Draft.takeFlag? cs = none := by
    refine Option.eq_none_iff_forall_not_mem.2 ?_
    rintro ⟨draft, r⟩ hmem
    obtain ⟨reserved, flag, rfl, hr, -⟩ := takeFlag_eq_some_iff.1 hmem
    have hb : beginsComparison (reserved ++ ':' :: (flag ++ r)) = true := beginsComparison_iff.2
      ⟨reserved, .eq, flag ++ r, rfl, isFieldName_of_isReserved hr, rfl⟩
    simp [h] at hb
  have hothers : Draft.takeGroup? d cs = none ∧ Draft.takeComparison? d cs = none ∧
      Draft.takeMissing? cs = none := by
    unfold Draft.takeGroup? Draft.takeComparison? Draft.takeMissing?
    cases hname : takeFieldName? cs with
    | none => simp
    | some r =>
      obtain ⟨name, rest⟩ := r
      have ho := hnone name rest hname
      refine ⟨?_, by simp [ho], by simp [ho]⟩
      rw [Option.bind_some]
      split
      · rename_i r heq
        obtain rfl : rest = ':' :: r := heq
        simp [Operator.take?] at ho
      · rfl
  unfold Draft.take?
  simp [hflag, hothers]

theorem widens_of_append {a b : List Char} (h : op.widens (a ++ b) = false) :
    op.widens a = false := by
  cases a with
  | nil => simp [Operator.widens]
  | cons c a => exact h

theorem widens_append {a b : List Char} (h : op.widens a = false) (hb : atBoundary b = true) :
    op.widens (a ++ b) = false := by
  cases a with
  | nil =>
    cases b with
    | nil => simp [Operator.widens]
    | cons c b =>
      refine Operator.widens_cons ?_
      rintro rfl
      simp [atBoundary] at hb
      exact absurd hb (by decide)
  | cons c a => exact h

theorem not_isBlank_of_mem_name_sign {c : Char} (hn : isFieldName name = true)
    (hc : c ∈ name ++ op.sign.toList) : isBlank c = false := by
  cases hb : isBlank c with
  | false => rfl
  | true =>
    rcases List.mem_append.1 hc with hc | hc
    · have hname := isNameChar_of_isFieldName hn c hc
      simp [not_isNameChar_of_isBlank hb] at hname
    · have hall : signChars.any isBlank = false := by decide
      exact absurd hb (List.any_eq_false.1 hall c (mem_sign hc))

theorem not_isBlank_of_isFlagName (h : isFlagName name = true) :
    ∀ c ∈ name, isBlank c = false := by
  intro c hc
  rw [isFlagName, Bool.and_eq_true, List.all_eq_true] at h
  cases hb : isBlank c with
  | false => rfl
  | true => simpa [not_isNameChar_of_isBlank hb] using h.2 c hc

theorem beginsComparison_append (hb : atBoundary rest = true) :
    beginsComparison (raw ++ rest) = beginsComparison raw := by
  rw [Bool.eq_iff_iff, beginsComparison_iff, beginsComparison_iff]
  constructor
  · rintro ⟨name, op, r, heq, hn, ho⟩
    rw [← List.append_assoc] at heq
    rcases List.append_eq_append_iff.1 heq with ⟨as, hname, hrest⟩ | ⟨as, rfl, rfl⟩
    · cases as with
      | nil => exact ⟨name, op, [], by simpa using hname.symm, hn, by simp [Operator.widens]⟩
      | cons c as =>
        have hc : isBlank c = false :=
          not_isBlank_of_mem_name_sign hn (hname ▸ List.mem_append_right _ List.mem_cons_self)
        rw [hrest] at hb
        simp [atBoundary, hc] at hb
    · exact ⟨name, op, as, by simp, hn, widens_of_append ho⟩
  · rintro ⟨name, op, r, rfl, hn, ho⟩
    exact ⟨name, op, r ++ rest, by simp, hn, widens_append ho hb⟩

theorem stopsAt_isGap_of_word (hd : IsDelimiter d) (hb : atBoundary rest = true)
    (h : stopsAt (endsAt (endsWord d)) rest = true) : stopsAt isGap rest = true := by
  cases rest with
  | nil => rfl
  | cons c rest =>
    have hcd : c ≠ d := by
      rintro rfl
      simp [atBoundary, hd.not_blank] at hb
    have hall : ['(', ')'].any isBlank = false := by decide
    simp only [stopsAt_cons, endsAt, endsWord, List.contains_eq_mem, Bool.and_eq_true,
      decide_eq_true_eq, bne_iff_ne] at h
    have hbr : c ∉ ['(', ')'] := fun hm => List.any_eq_false.1 hall c hm hb
    rw [stopsAt_cons, isGap_iff, gaps]
    simp only [List.mem_cons, List.not_mem_nil, or_false] at h hbr ⊢
    grind

theorem Word.StopsAt.of_gap (h : w.quoted = false → stopsAt isGap rest = true) :
    w.StopsAt d rest := fun hq => stopsAt_mono (fun _ => endsAt_of_isGap) (h hq)

theorem stopsAt_name_of_takeFlag_eq_none (hr : isReserved name = true)
    (h : Draft.takeFlag? (name ++ (Operator.eq.sign.toList ++ rest)) = none) :
    stopsAt (fun c => !isNameChar c) rest = true := by
  cases rest with
  | nil => rfl
  | cons c rest =>
    cases hc : isNameChar c with
    | false => simp [hc]
    | true =>
      have hflag := takeFlag_eq_some_iff.2 ⟨name, c :: rest.takeWhile isNameChar,
        congrArg (name ++ ':' :: c :: ·) List.takeWhile_append_dropWhile.symm, hr,
        by simp [isFlagName, hc], stopsAt_dropWhile _ rest, rfl⟩
      exact absurd (h.symm.trans hflag) (by simp)

/-- What is left of a term behind a name and a sign could have been a value, or a gap
behind a missing one. -/
theorem takeTerm_sign_eq_none (hd : IsDelimiter d) {r : List Char} (hn : isFieldName name = true)
    (hw : takeWord? d r = none) (hg : stopsAt isGap r = false) (hb : atBoundary rest = true) :
    takeWord? d (name ++ (op.sign.toList ++ r)) ≠ some (w, rest) := by
  intro h
  have hplain : ∀ c ∈ name ++ op.sign.toList, endsWord d c = false ∧ c ≠ '\\' := by
    intro c hc
    rcases List.mem_append.1 hc with hc | hc
    · exact isPlain_of_isNameChar hd (isNameChar_of_isFieldName hn c hc)
    · exact isPlain_of_mem_sign hd hc
  have hphrase : takePhrase? d (name ++ (op.sign.toList ++ r)) = none := by
    cases name with
    | nil => simp [isFieldName] at hn
    | cons n name =>
      refine takePhrase_eq_none fun hnd => ?_
      simp only [List.cons_append, List.head?_cons, Option.some.injEq] at hnd
      simpa [hnd, hd.not_name] using isNameChar_of_isFieldName hn n List.mem_cons_self
  have hbare := takeBare_plain_append hplain (by simp; rintro rfl; simp [isFieldName] at hn) r
  rw [List.append_assoc] at hbare
  simp only [takeWord?, hphrase, hbare, Option.orElse_eq_orElse, Option.orElse_eq_or,
    Option.none_or, Option.map_eq_some_iff, Prod.mk.injEq] at h
  obtain ⟨⟨text, r'⟩, hu, -, rfl⟩ := h
  obtain rfl := eq_of_takeWord_eq_none hw hu
  obtain ⟨-, -, -, hend⟩ := exists_raw_of_unescape hu
  simp [stopsAt_isGap_of_word hd hb hend] at hg

theorem not_beginsComparison_of_takeWord (hd : IsDelimiter d) (hb : atBoundary rest = true)
    (hfield : Draft.takeComparison? d cs = none) (hmissing : Draft.takeMissing? cs = none)
    (hvalue : takeWord? d cs = some (w, rest)) : beginsComparison cs = false := by
  refine Bool.eq_false_iff.2 fun hc => ?_
  obtain ⟨name, op, r, rfl, hn, ho⟩ := beginsComparison_iff.1 hc
  rw [takeComparison_sign hn ho, Option.map_eq_none_iff] at hfield
  have hgap : stopsAt isGap r = false := by simpa [takeMissing_sign hn ho] using hmissing
  exact takeTerm_sign_eq_none hd hn hfield hgap hb hvalue

/-- What is read in front of a blank or the end of the text is spelled. -/
theorem Draft.exists_raw_of_take (hd : IsDelimiter d) (h : take? d cs = some (draft, rest))
    (hb : atBoundary rest = true) :
    ∃ raw, cs = raw ++ rest ∧ draft.Spelled d raw ∧ draft.EndsAt rest := by
  have hword {w : Word} (hend : w.StopsAt d rest) (hq : w.quoted = false) :
      stopsAt isGap rest = true := stopsAt_isGap_of_word hd hb (hend hq)
  cases takes_of_take? h with
  | @flag after name _ hkeyword hname =>
    have hflag : takeFlag? cs = some (.flag name, rest) := by simp [takeFlag?, hkeyword, hname]
    obtain ⟨reserved, name', rfl, hr, hn, -, hdraft⟩ := takeFlag_eq_some_iff.1 hflag
    obtain rfl := Draft.flag.inj hdraft
    exact ⟨reserved ++ ':' :: name, by simp, .flag hr hn, hb, by simp [isOpen]⟩
  | group _ hname hvalues =>
    obtain ⟨rfl, hn, -⟩ := takeFieldName_eq_some_iff.1 hname
    obtain ⟨raw, rfl, hraw⟩ := (takeValues_eq_some_iff hd).1 hvalues
    exact ⟨_ ++ ':' :: raw, by simp, .group hn hraw, hb, by simp [isOpen]⟩
  | @field name _ _ _ op _ hflag _ hname hop hvalue =>
    obtain ⟨rfl, hn, -⟩ := takeFieldName_eq_some_iff.1 hname
    obtain ⟨rfl, ho⟩ := Operator.take_eq_some_iff.1 hop
    obtain ⟨raw, rfl, hraw, hend⟩ := exists_raw_of_takeWord hd hvalue
    refine ⟨name ++ op.sign.toList ++ raw, by simp, .field hn (widens_of_append ho) hraw ?_, hb,
      fun hopen => hword hend (by simpa [isOpen] using hopen)⟩
    rintro hr rfl
    exact stopsAt_append hraw.ne_nil rest ▸ stopsAt_name_of_takeFlag_eq_none hr hflag
  | @missing name _ _ op _ _ _ hname hop hend =>
    obtain ⟨rfl, hn, -⟩ := takeFieldName_eq_some_iff.1 hname
    obtain ⟨rfl, -⟩ := Operator.take_eq_some_iff.1 hop
    exact ⟨name ++ op.sign.toList, by simp, .missing hn, hb, fun _ => hend⟩
  | term _ _ hfield hmissing hvalue =>
    have hc := not_beginsComparison_of_takeWord hd hb hfield hmissing hvalue
    obtain ⟨raw, rfl, hraw, hend⟩ := exists_raw_of_takeWord hd hvalue
    rw [beginsComparison_append hb] at hc
    exact ⟨raw, rfl, .term hraw hc, hb,
      fun hopen => hword hend (by simpa [isOpen] using hopen)⟩

/-- What is spelled is read in front of everything that may stand behind it. -/
theorem Draft.take_append (hd : IsDelimiter d) (h : draft.Spelled d raw) (hr : draft.EndsAt rest) :
    take? d (raw ++ rest) = some (draft, rest) := by
  obtain ⟨hb, hopen⟩ := hr
  cases h with
  | @flag reserved name hr hn =>
    have h := takeFlag_eq_some_iff.2
      ⟨reserved, name, rfl, hr, hn, stopsAt_name_of_atBoundary hb, rfl⟩
    unfold take?
    simp [h]
  | @group name raw ws hn hv =>
    have heq : name ++ ':' :: raw ++ rest = name ++ (Operator.eq.sign.toList ++ (raw ++ rest)) := by
      simp [Operator.sign]
    have hflag : takeFlag? (name ++ (Operator.eq.sign.toList ++ (raw ++ rest))) = none :=
      takeFlag_sign_eq_none hn rfl fun _ _ => hv.stopsAt_name rest
    have hgroup : takeValues? d (raw ++ rest) = some (ws, rest) :=
      (takeValues_eq_some_iff hd).2 ⟨raw, rfl, hv⟩
    rw [heq]
    unfold take?
    simp [hflag, takeGroup_sign hn, hgroup]
  | @field name raw op w hn ho hw hf =>
    have heq : name ++ op.sign.toList ++ raw ++ rest = name ++ (op.sign.toList ++ (raw ++ rest)) := by
      simp
    have ho := widens_append ho hb
    have hflag := takeFlag_sign_eq_none hn ho fun hr hop =>
      (stopsAt_append hw.ne_nil rest).trans (hf hr hop)
    have hword : takeWord? d (raw ++ rest) = some (w, rest) :=
      takeWord_append hd hw (.of_gap fun hq => hopen (by simp [isOpen, hq]))
    rw [heq]
    unfold take?
    simp [hflag, takeGroup_sign hn, takeValues_eq_none (hw.head?_ne_bracket hd rest),
      takeComparison_sign hn ho,
      hword]
  | @missing name op hn =>
    have hg := hopen rfl
    have ho : op.widens rest = false := widens_append (a := []) (by simp [Operator.widens]) hb
    have hflag := takeFlag_sign_eq_none hn ho fun _ _ => stopsAt_name_of_atBoundary hb
    have hvalues : takeValues? d rest = none := by
      refine takeValues_eq_none fun h => ?_
      obtain ⟨r, rfl⟩ := List.head?_eq_some_iff.1 h
      have hbracket : isGap '(' = true := hg
      exact absurd hbracket (by decide)
    rw [List.append_assoc]
    unfold take?
    simp [hflag, takeGroup_sign hn, hvalues, takeComparison_sign hn ho,
      takeWord_eq_none_of_gap hd hg, takeMissing_sign hn ho, hg]
  | @term raw w hw hc =>
    have hword : takeWord? d (raw ++ rest) = some (w, rest) :=
      takeWord_append hd hw (.of_gap fun hq => hopen (by simp [isOpen, hq]))
    rw [takeTerm_of_not_beginsComparison (by rw [beginsComparison_append hb, hc]), takeTerm?, hword]
    rfl

end SearchBar
