import SearchBar.Proofs.Query.DelimitedWords

/-! # Written clauses under other delimiters

If another character than a double quote delimits phrases, a written clause is read in step
with what was written, or it goes astray: its place is taken by a clause with a text that
is written in quotes, and that is not the one that was written.
-/

namespace SearchBar

open Calendar Text

variable {d : Char} {now : Instant} {c e : Clause} {v v' : Value} {w w' : Word}
  {ws ws' : List Word} {vs vs' : List Value} {name x y rest : List Char} {draft : Draft}
  {negated : Bool} {op : Operator} {cs : List Clause}

section Values

theorem typeWord_of_isMarked (hw : w.quoted = true ∨ IsMarked w.text) :
    typeWord { delimiter := d } now name w = .ok (.text (String.ofList w.text)) := by
  cases hq : w.quoted with
  | true => exact typeWord_of_quoted rfl hq
  | false =>
    have hmark := hw.resolve_left (by simp [hq])
    rw [typeWord_of_infer rfl rfl hq, ofWord_of_isMarked hmark]

def Value.IsMarked : Value → Prop
  | text s => SearchBar.IsMarked s.toList
  | _ => False

theorem Value.isMarked_of_beq (h : (v' == v) = true) (hmark : v'.IsMarked) : v.IsMarked := by
  cases v' with
  | text s =>
    cases v with
    | text t =>
      obtain rfl : s = t := by simpa [Value.beq_def, same] using h
      exact hmark
    | number | bool | date => simp [Value.beq_def, same] at h
  | number | bool | date => exact hmark.elim

theorem isMarked_of_typeWord (hmark : IsMarked w.text)
    (h : typeWord { delimiter := d } now name w = .ok v) : v.IsMarked := by
  rw [typeWord_of_isMarked (.inr hmark)] at h
  rw [← Except.ok.inj h, Value.IsMarked, String.toList_ofList]
  exact hmark

theorem text_word_of_beq (h : (Value.text (String.ofList x) == v) = true) :
    (v.word now).text = x := by
  cases v with
  | text s =>
    obtain rfl : String.ofList x = s := by simpa [Value.beq_def, Value.same] using h
    exact String.toList_ofList
  | number | bool | date => simp [Value.beq_def, Value.same] at h

theorem isFaithful_of_inStep (hfits : v.Fits { delimiter := d } name)
    (hstep : (v.word now).InStep d w') (h : typeWord { delimiter := d } now name w' = .ok v')
    (hsame : (v' == v) = true) : v.IsFaithful ∧ d ∉ (v.word now).text := by
  obtain ⟨-, ⟨rfl, hd⟩ | ⟨hq', hne⟩⟩ := hstep
  · refine ⟨?_, hd⟩
    cases v with
    | text | bool => trivial
    | date => simp [Value.Fits, Dialect.kind?] at hfits
    | number n =>
      have hsettled := typeWord_settled hfits trivial h
      exact legible_of_settled hfits trivial h hsettled hsame
  · rw [typeWord_of_isMarked (.inl hq')] at h
    obtain rfl := Except.ok.inj h
    exact absurd (text_word_of_beq hsame).symm hne

theorem isFaithful_of_forall₂ (hfits : ∀ v ∈ vs, v.Fits { delimiter := d } name)
    (hsteps : List.Forall₂ (Word.InStep d) (vs.map (·.word now)) ws')
    (h : List.Forall₂ (fun w v => typeWord { delimiter := d } now name w = .ok v) ws' vs')
    (hsame : (vs' == vs) = true) : ∀ v ∈ vs, v.IsFaithful ∧ d ∉ (v.word now).text := by
  rw [beq_iff_forall₂] at hsame
  induction vs generalizing ws' vs' with
  | nil => simp
  | cons v vs ih =>
    obtain ⟨hv, hvs⟩ := List.forall_mem_cons.1 hfits
    cases hsteps with
    | cons hstep hsteps =>
      cases h with
      | cons hw h =>
        obtain ⟨hsame, hsames⟩ := List.forall₂_cons.1 hsame
        exact List.forall_mem_cons.2 ⟨isFaithful_of_inStep hv hstep hw hsame,
          ih hvs hsteps h hsames⟩

theorem isMarked_of_astray (hastray : Astray (vs.map (·.word now)) ws')
    (h : List.Forall₂ (fun w v => typeWord { delimiter := d } now name w = .ok v) ws' vs') :
    (∃ v ∈ vs', v.IsMarked) ∧ (vs' == vs) = false := by
  obtain ⟨⟨w', hw', hmark⟩, hne⟩ := hastray
  constructor
  · obtain ⟨v', hv', htype⟩ := exists_mem_of_forall₂ h hw'
    exact ⟨v', hv', isMarked_of_typeWord hmark htype⟩
  · refine Bool.eq_false_iff.2 fun hsame => hne ?_
    rw [beq_iff_forall₂] at hsame
    rw [List.forall₂_map_left_iff]
    clear hne hw' hmark
    induction h generalizing vs with
    | nil =>
      cases hsame
      exact .nil
    | @cons w' v' ws' vs' htype _ ih =>
      cases hsame with
      | cons hv hsame =>
        refine .cons (fun hmark => ?_) (ih hsame)
        rw [typeWord_of_isMarked (.inr hmark)] at htype
        obtain rfl := Except.ok.inj htype
        exact (text_word_of_beq hv).symm

end Values

section Clauses

def Clause.words (now : Instant) : Clause → List Word
  | term s _ => [.of s.toList]
  | flag _ _ => []
  | c => c.values.map (·.word now)

def Clause.IsMarked : Clause → Prop
  | term s _ => SearchBar.IsMarked s.toList
  | c => ∃ v ∈ c.values, v.IsMarked

theorem Clause.isMarked_of_beq (h : (e == c) = true) (hmark : e.IsMarked) : c.IsMarked := by
  have hvalues (he : ∃ v ∈ e.values, v.IsMarked) : ∃ v ∈ c.values, v.IsMarked := by
    obtain ⟨v, hv, hmark⟩ := he
    obtain ⟨u, hu, hvu⟩ := exists_mem_of_forall₂ (values_of_beq h) hv
    exact ⟨u, hu, Value.isMarked_of_beq hvu hmark⟩
  cases e <;> cases c <;> first | exact hvalues hmark | simp [beq_def, same] at h
  obtain ⟨rfl, -⟩ := h
  exact hmark

theorem Value.not_isMarked_of_word (h : (v.word now).quoted = false) : ¬ v.IsMarked := by
  cases v with
  | text s => exact not_isMarked_of_needsQuotes h
  | number | bool | date => exact id

theorem Clause.not_isMarked_of_words (h : ∀ w ∈ c.words now, w.quoted = false) : ¬ c.IsMarked := by
  have hvalues (hwords : c.words now = c.values.map (·.word now)) :
      ¬ ∃ v ∈ c.values, v.IsMarked := by
    rintro ⟨v, hv, hmark⟩
    exact Value.not_isMarked_of_word (h _ (hwords ▸ List.mem_map_of_mem hv)) hmark
  cases c with
  | term s m => exact not_isMarked_of_needsQuotes (h _ List.mem_cons_self)
  | field | oneOf | flag => exact hvalues rfl

/-- The clause is written without quotes, and if it is read as an equal one it is faithful
and has no delimiter in its words. -/
structure Clause.InStep (d : Char) (now : Instant) (c e : Clause) : Prop where
  not_quoted : ∀ w ∈ c.words now, w.quoted = false
  isFlag_eq : e.isFlag = c.isFlag
  of_beq : (e == c) = true → c.IsFaithful ∧ ∀ w ∈ c.words now, d ∉ w.text

/-- Another clause is read in the place of one, with a text that is written in quotes. -/
structure Clause.IsAstray (c e : Clause) : Prop where
  isMarked : e.IsMarked
  isFlag_eq : c.isFlag = false
  beq_eq : (e == c) = false

/-- What stands in front of `rest` is read up to its end as a clause in step, or as a clause
that is astray. -/
def Clause.ReadAs (d : Char) (now : Instant) (rest : List Char) (c e : Clause) (r : List Char) :
    Prop :=
  c.IsAstray e ∨ r = rest ∧ c.InStep d now e

end Clauses

section Drafts

theorem not_isBlank_name_sign (hn : isFieldName name = true) (op : Operator) :
    ∀ c ∈ name ++ op.sign.toList, isBlank c = false ∧ c ≠ '\\' := by
  refine fun c hc => ⟨not_isBlank_of_mem_name_sign hn hc, ?_⟩
  rintro rfl
  rcases List.mem_append.1 hc with hc | hc
  · exact absurd (isNameChar_of_isFieldName hn _ hc) (by decide)
  · exact absurd (mem_sign hc) (by decide)

theorem isMarked_of_takeWord_sign (hn : isFieldName name = true)
    (h : takeWord? d (name ++ (op.sign.toList ++ x)) = some (w, rest))
    (hrest : atBoundary rest = true) : IsMarked w.text := by
  obtain ⟨b, s, hsign, hb⟩ : ∃ b s, op.sign.toList = b :: s ∧ b ∈ specials := by
    cases op <;> exact ⟨_, _, rfl, by decide⟩
  have hne : name ≠ [] := by
    rintro rfl
    simp [isFieldName] at hn
  obtain ⟨a, t, rfl⟩ := List.exists_cons_of_ne_nil hne
  have ha : b ≠ a := by
    rintro rfl
    have hname := isNameChar_of_isFieldName hn b List.mem_cons_self
    have hnone : specials.any isNameChar = false := by decide
    exact List.any_eq_false.1 hnone b hb hname
  have hchars := not_isBlank_name_sign hn op
  rw [← List.append_assoc, List.cons_append] at h
  exact isMarked_of_mem (mem_of_takeWord hchars (by simp [hsign]) ha h hrest) hb

theorem read_sign_cases (hn : isFieldName name = true) (hr : isReserved name = false)
    (ho : op.widens x = false)
    (h : Draft.take? d (name ++ (op.sign.toList ++ x)) = some (draft, rest))
    (hrest : atBoundary rest = true)
    (he : resolve { delimiter := d } now negated draft = .ok e) :
    (∃ ws vs, op = .eq ∧ takeValues? d x = some (ws, rest) ∧
      List.Forall₂ (fun w v => typeWord { delimiter := d } now name w = .ok v) ws vs ∧
      e = .oneOf (String.ofList name) vs !negated) ∨
    (∃ w v, takeWord? d x = some (w, rest) ∧ typeWord { delimiter := d } now name w = .ok v ∧
      e = .field (String.ofList name) op v !negated) ∨
    ∃ w, e = .term (String.ofList w) !negated ∧ IsMarked w := by
  have hname := takeFieldName_sign hn op x
  cases Draft.takes_of_take? h with
  | flag hword hflag =>
    have hnone := takeFlag_sign_eq_none hn ho (by simp [hr])
    simp [Draft.takeFlag?, hword, hflag] at hnone
  | @group _ after _ ws _ hname' hvalues =>
    obtain ⟨rfl, hbehind⟩ := Prod.mk.inj (Option.some.inj (hname.symm.trans hname'))
    obtain ⟨rfl, rfl⟩ : op = .eq ∧ x = after := by
      cases op with
      | eq => exact ⟨rfl, (List.cons.inj hbehind).2⟩
      | gt | gte | lt | lte => exact absurd (List.cons.inj hbehind).1 (by decide)
    cases resolve_eq_ok_iff.1 he with
    | group _ htyped => exact .inl ⟨ws, _, rfl, hvalues, htyped, rfl⟩
  | @field _ _ _ _ _ w _ _ hname' hop hvalue =>
    obtain ⟨rfl, rfl⟩ := Prod.mk.inj (Option.some.inj (hname.symm.trans hname'))
    obtain ⟨rfl, rfl⟩ := Prod.mk.inj (Option.some.inj
      ((Operator.take_sign_append ho).symm.trans hop))
    cases resolve_eq_ok_iff.1 he with
    | field _ htyped => exact .inr (.inl ⟨w, _, hvalue, htyped, rfl⟩)
  | missing => simp [resolve] at he
  | @term _ w _ _ _ _ hvalue =>
    exact .inr (.inr ⟨w.text, (Except.ok.inj he).symm, isMarked_of_takeWord_sign hn hvalue hrest⟩)

end Drafts

section Kinds

variable {s n : String} {m : Bool}

theorem stopsAt_endsWritten (h : stopsAt (· == ' ') x = true) : stopsAt endsWritten x = true :=
  stopsAt_mono (fun c hc => by simp [endsWritten, beq_iff_eq.1 hc]) h

theorem isAstray_term (hmark : IsMarked x) (hterm : c.isTerm = false) (hflag : c.isFlag = false) :
    c.IsAstray (.term (String.ofList x) m) := by
  refine ⟨by rwa [Clause.IsMarked, String.toList_ofList], hflag, ?_⟩
  cases c <;> first | rfl | simp [Clause.isTerm] at hterm

theorem eq_of_term_beq (h : (Clause.term (String.ofList x) m == .term s m) = true) :
    x = s.toList := by
  obtain rfl : String.ofList x = s := by simpa [Clause.beq_def, Clause.same] using h
  exact String.toList_ofList.symm

theorem inStep_term (hstep : (Word.of s.toList).InStep d w) :
    (Clause.term s m).InStep d now (.term (String.ofList w.text) m) := by
  obtain ⟨hq, hcase⟩ := hstep
  refine ⟨by simpa [Clause.words] using hq, rfl, fun hsame => ⟨⟨rfl, by simp [Clause.values]⟩, ?_⟩⟩
  rcases hcase with ⟨rfl, hmem⟩ | ⟨-, hne⟩
  · simpa [Clause.words] using hmem
  · exact absurd (eq_of_term_beq hsame) hne

theorem take_term (hx : stopsAt (· == ' ') x = true) :
    Draft.take? d ((Clause.term s m).body now ++ x) =
      Draft.takeTerm? d ((Word.of s.toList).write ++ x) := by
  refine takeTerm_of_not_beginsComparison ?_
  rw [Clause.body, beginsComparison_append (endsAt_of_stopsAt (.term (.of s.toList)) hx).1,
    not_beginsComparison_wordText]

theorem readAs_term (hd : d ≠ '"') (hx : stopsAt (· == ' ') x = true)
    (h : Draft.take? d ((Clause.term s m).body now ++ x) = some (draft, rest))
    (hrest : atBoundary rest = true)
    (he : resolve { delimiter := d } now (!m) draft = .ok e) :
    (Clause.term s m).ReadAs d now x e rest := by
  rw [take_term hx] at h
  obtain ⟨⟨w, r⟩, hword, h⟩ := Option.map_eq_some_iff.1 h
  obtain ⟨rfl, rfl⟩ := Prod.mk.inj h
  obtain rfl := Except.ok.inj he
  rw [Bool.not_not]
  rcases inStep_of_takeWord hd (.of s.toList) (stopsAt_endsWritten hx) hword hrest with
    ⟨hmark, hne⟩ | ⟨hstep, rfl⟩
  · exact .inl ⟨by rwa [Clause.IsMarked, String.toList_ofList], rfl,
      Bool.eq_false_iff.2 fun hsame => hne (eq_of_term_beq hsame)⟩
  · exact .inr ⟨rfl, inStep_term hstep⟩

theorem take_flag (hn : isFlagName n.toList = true) (hx : stopsAt (· == ' ') x = true) :
    Draft.take? d ((Clause.flag n m).body now ++ x) = some (.flag n.toList, x) := by
  have hname := stopsAt_name_of_atBoundary (endsAt_of_stopsAt (.flag n.toList) hx).1
  have hflag := takeFlag_eq_some_iff.2
    ⟨['i', 's'], n.toList, rfl, by decide, hn, hname, rfl⟩
  have hbody : (Clause.flag n m).body now ++ x = ['i', 's'] ++ ':' :: (n.toList ++ x) := rfl
  unfold Draft.take?
  rw [hbody, hflag]
  rfl

theorem readAs_flag (hn : isFlagName n.toList = true) (hx : stopsAt (· == ' ') x = true)
    (h : Draft.take? d ((Clause.flag n m).body now ++ x) = some (draft, rest))
    (he : resolve { delimiter := d } now (!m) draft = .ok e) :
    (Clause.flag n m).ReadAs d now x e rest := by
  obtain ⟨rfl, rfl⟩ := Prod.mk.inj (Option.some.inj ((take_flag hn hx).symm.trans h))
  obtain rfl := Except.ok.inj he
  rw [Bool.not_not, String.ofList_toList]
  exact .inr ⟨rfl, by simp [Clause.words], rfl,
    fun _ => ⟨⟨rfl, by simp [Clause.values]⟩, by simp [Clause.words]⟩⟩

theorem isAstray_of_values (hmark : e.IsMarked) (hflag : c.isFlag = false)
    (h : (e.values == c.values) = false) : c.IsAstray e :=
  ⟨hmark, hflag, Bool.eq_false_iff.2 fun hsame =>
    Bool.eq_false_iff.1 h (beq_iff_forall₂.2 (values_of_beq hsame))⟩

theorem inStep_of_values (hfits : ∀ v ∈ c.values, v.Fits { delimiter := d } name)
    (hwords : c.words now = c.values.map (·.word now)) (hrun : c.runsTogether = false)
    (hflag : e.isFlag = c.isFlag)
    (hsteps : List.Forall₂ (Word.InStep d) (c.values.map (·.word now)) ws)
    (h : List.Forall₂ (fun w v => typeWord { delimiter := d } now name w = .ok v) ws e.values) :
    c.InStep d now e := by
  refine ⟨fun w hw => ?_, hflag, fun hsame => ?_⟩
  · obtain ⟨w', -, hstep⟩ := exists_mem_of_forall₂ hsteps (hwords ▸ hw)
    exact hstep.1
  · have hvalues := isFaithful_of_forall₂ hfits hsteps h (beq_iff_forall₂.2 (values_of_beq hsame))
    refine ⟨⟨hrun, fun v hv => (hvalues v hv).1⟩, fun w hw => ?_⟩
    obtain ⟨v, hv, rfl⟩ := List.mem_map.1 (hwords ▸ hw)
    exact (hvalues v hv).2

theorem body_field_append (now : Instant) (n : String) (op : Operator) (v : Value) (m : Bool)
    (x : List Char) : (Clause.field n op v m).body now ++ x =
      n.toList ++ (op.sign.toList ++ ((v.word now).write ++ x)) := by
  simp [Clause.body, Value.write_word]

theorem takeValues_write (hw : w.Writable) (x : List Char) :
    takeValues? d (w.write ++ x) = none := by
  obtain ⟨a, s, hwrite, -, hbracket, -⟩ := head_write hw
  exact takeValues_eq_none (by simp [hwrite, hbracket])

theorem widens_write_append {v : Value} (hrun : v.runsInto op = false)
    (hx : stopsAt (· == ' ') x = true) (now : Instant) :
    op.widens ((v.word now).write ++ x) = false := by
  refine widens_append ?_ (endsAt_of_stopsAt (.flag []) hx).1
  rw [v.write_word, widens_clauseText, hrun]

theorem readAs_field {v : Value} (hd : d ≠ '"')
    (hc : (Clause.field n op v m).Admitted { delimiter := d }) (hrun : v.runsInto op = false)
    (hx : stopsAt (· == ' ') x = true)
    (h : Draft.take? d ((Clause.field n op v m).body now ++ x) = some (draft, rest))
    (hrest : atBoundary rest = true)
    (he : resolve { delimiter := d } now (!m) draft = .ok e) :
    (Clause.field n op v m).ReadAs d now x e rest := by
  obtain ⟨hn, hcheck, hfits⟩ := hc
  have ho := widens_write_append hrun hx now
  rw [body_field_append] at h
  rcases read_sign_cases hn (isReserved_of_checkField hcheck) ho h hrest he with
    ⟨ws, vs, -, hvalues, -⟩ | ⟨w, v', hword, htype, rfl⟩ | ⟨t, rfl, hmark⟩
  · simp [takeValues_write (v.writable_word now)] at hvalues
  · rw [Bool.not_not, String.ofList_toList]
    have htypes : List.Forall₂ (fun w v => typeWord { delimiter := d } now n.toList w = .ok v)
      [w] [v'] := .cons htype .nil
    rcases inStep_of_takeWord hd (v.writable_word now) (stopsAt_endsWritten hx) hword hrest with
      ⟨hmark, hne⟩ | ⟨hstep, rfl⟩
    · have hastray : Astray ([v].map (·.word now)) [w] := astray_cons hmark hne
      obtain ⟨hmark, hvalues⟩ := isMarked_of_astray hastray htypes
      exact .inl (isAstray_of_values hmark rfl hvalues)
    · exact .inr ⟨rfl, inStep_of_values (by simpa [Clause.values] using hfits) rfl hrun rfl
        (.cons hstep .nil) htypes⟩
  · exact .inl (isAstray_term hmark rfl rfl)

theorem body_oneOf_append (now : Instant) (n : String) (v : Value) (vs : List Value) (m : Bool)
    (x : List Char) : (Clause.oneOf n (v :: vs) m).body now ++ x = n.toList ++
      (Operator.eq.sign.toList ++
        ('(' :: ((v.word now).write ++ writtenTail (vs.map (·.word now)) x))) := by
  simp [Clause.body, writtenTail, intercalate_cons, List.flatMap_map, Value.write_word,
    Operator.sign]

theorem readAs_oneOf {vs : List Value} (hd : d ≠ '"')
    (hc : (Clause.oneOf n vs m).Admitted { delimiter := d })
    (h : Draft.take? d ((Clause.oneOf n vs m).body now ++ x) = some (draft, rest))
    (hrest : atBoundary rest = true)
    (he : resolve { delimiter := d } now (!m) draft = .ok e) :
    (Clause.oneOf n vs m).ReadAs d now x e rest := by
  obtain ⟨hn, hcheck, hne, hfits⟩ := hc
  obtain ⟨v, vs, rfl⟩ := List.exists_cons_of_ne_nil hne
  have hv := v.writable_word now
  have hvs : ∀ w ∈ vs.map (·.word now), w.Writable :=
    List.forall_mem_map.2 fun u _ => u.writable_word now
  rw [body_oneOf_append] at h
  rcases read_sign_cases hn (isReserved_of_checkField hcheck) rfl h hrest he with
    ⟨ws, vs', -, hvalues, htypes, rfl⟩ | ⟨w, v', hword, htype, rfl⟩ | ⟨t, rfl, hmark⟩
  · rw [Bool.not_not, String.ofList_toList]
    rcases inStep_of_takeValues hd hv hvs hvalues with hastray | ⟨rfl, hsteps⟩
    · have hastray : Astray ((v :: vs).map (·.word now)) ws := hastray
      obtain ⟨hmark, hvalues⟩ := isMarked_of_astray hastray htypes
      exact .inl (isAstray_of_values hmark rfl hvalues)
    · exact .inr ⟨rfl, inStep_of_values hfits rfl rfl rfl hsteps htypes⟩
  · have hmark := isMarked_of_typeWord (isMarked_of_takeWord_bracket hv hword) htype
    exact .inl ⟨⟨v', List.mem_cons_self, hmark⟩, rfl, rfl⟩
  · exact .inl (isAstray_term hmark rfl rfl)

/-! ### Signs that take in an equals sign -/

/-- In front of its first space or backslash, if there is one, the text has marks. -/
def MarkedToSpace (cs : List Char) : Prop :=
  ∃ x y, cs = x ++ y ∧ (∀ a ∈ x, a ≠ ' ' ∧ a ≠ '\\') ∧ (y = [] ∨ IsMarked x)

theorem IsMarked.append (h : IsMarked x) (y : List Char) : IsMarked (x ++ y) := by
  obtain ⟨a, ha, hmark⟩ := h
  exact ⟨a, List.mem_append_left y ha, hmark⟩

theorem MarkedToSpace.append (hx : ∀ a ∈ x, a ≠ ' ' ∧ a ≠ '\\') (h : MarkedToSpace y) :
    MarkedToSpace (x ++ y) := by
  obtain ⟨u, t, rfl, hu, hmark⟩ := h
  refine ⟨x ++ u, t, by simp, List.forall_mem_append.2 ⟨hx, hu⟩, hmark.imp id ?_⟩
  rintro ⟨a, ha, hmark⟩
  exact ⟨a, List.mem_append_right x ha, hmark⟩

theorem Word.Writable.markedToSpace (hw : w.Writable) : MarkedToSpace w.write := by
  unfold Word.write
  split
  · exact ⟨['"'], _, rfl, by simp, .inr (isMarked_of_mem List.mem_cons_self (by decide))⟩
  · rename_i hq
    obtain ⟨-, hplain⟩ := hw (Bool.eq_false_iff.2 hq)
    refine ⟨w.text, [], by simp, fun a ha => ⟨?_, ?_⟩, .inl rfl⟩
    · rintro rfl
      exact hplain ⟨_, ha, .inl (by decide)⟩
    · rintro rfl
      exact not_backslash_mem hplain ha

theorem Clause.markedToSpace (hc : c.WellNamed) (now : Instant) : MarkedToSpace (c.write now) := by
  have hname {n : List Char} (hn : ∀ a ∈ n, isNameChar a = true) :
      ∀ a ∈ n, a ≠ ' ' ∧ a ≠ '\\' := by
    refine fun a ha => ⟨?_, ?_⟩ <;>
    · rintro rfl
      exact absurd (hn _ ha) (by decide)
  have hbody : MarkedToSpace (c.body now) := by
    cases c with
    | term s m => exact (Word.Writable.of s.toList).markedToSpace
    | flag n m =>
      have hn : ∀ a ∈ n.toList, isNameChar a = true := by
        have hflag : isFlagName n.toList = true := hc
        simp only [isFlagName, Bool.and_eq_true, List.all_eq_true] at hflag
        exact hflag.2
      refine ⟨_, [], (List.append_nil _).symm, ?_, .inl rfl⟩
      exact List.forall_mem_append.2 ⟨by simp, hname hn⟩
    | field n op v m =>
      have hchars := not_isBlank_name_sign hc.1 op
      rw [body, ← v.write_word]
      refine (v.writable_word now).markedToSpace.append fun a ha => ⟨?_, (hchars a ha).2⟩
      rintro rfl
      exact absurd (hchars _ ha).1 (by decide)
    | oneOf n vs m =>
      rw [body, List.append_assoc, List.append_assoc]
      refine .append (hname (isNameChar_of_isFieldName hc.1)) ?_
      exact ⟨[':', '('], _, rfl, by simp, .inr (isMarked_of_mem List.mem_cons_self (by decide))⟩
  unfold write
  split
  · exact hbody
  · exact .append (x := ['-']) (by simp) hbody

/-- A word that begins behind a clause begins with a space, so spaces delimit phrases. It ends
in front of a blank only if it holds marks. -/
theorem isMarked_of_takeWord_behind (hcs : ∀ c ∈ cs, c.WellNamed)
    (h : takeWord? d (writtenBehind now cs) = some (w, rest)) (hrest : atBoundary rest = true) :
    IsMarked w.text := by
  cases cs with
  | nil => simp [takeWord?, takePhrase?, takeBare?, unescape] at h
  | cons c cs =>
    obtain ⟨hc, hcs⟩ := List.forall_mem_cons.1 hcs
    rw [writtenBehind_cons] at h
    rcases takeWord_cases (by simp) h with ⟨-, inside, hinside, hu⟩ | ⟨-, hne, hu⟩
    · obtain ⟨rfl, rfl⟩ := List.cons.inj hinside
      obtain ⟨x, y, hwrite, hx, hmark⟩ := Clause.markedToSpace hc now
      rw [hwrite, List.append_assoc] at hu
      rcases unescape_append_cases (fun hmem => (hx _ hmem).2 rfl) hu with
        ⟨a, s, rfl, ha, -⟩ | ⟨-, t, htext, ht⟩
      · have hspace := hx a (by simp)
        simp [endsPhrase, hspace.1, hspace.2] at ha
      · rw [htext]
        rcases hmark with rfl | hmark
        · cases cs with
          | nil => simp [unescape] at ht
          | cons c' cs =>
            obtain ⟨a, s, hwrite', hblank⟩ := Clause.head_write (hcs c' List.mem_cons_self) now
            rw [List.nil_append, writtenBehind_cons, unescape_cons (by decide),
              if_pos (by simp [endsPhrase])] at ht
            obtain ⟨-, rfl⟩ := List.cons.inj (Prod.mk.inj (Option.some.inj ht)).2
            simp [hwrite', atBoundary, hblank] at hrest
        · exact hmark.append t
    · rw [unescape_cons (by decide), if_pos (by simp [endsWord])] at hu
      exact absurd (Prod.mk.inj (Option.some.inj hu)).1.symm hne

theorem exists_tail_of_runsInto {v : Value} (hrun : v.runsInto op = true) (now : Instant) :
    (op = .gt ∨ op = .lt) ∧ ∃ tail, v.word now = ⟨'=' :: tail, false⟩ ∧ ¬ IsMarked tail := by
  rw [← widens_clauseText now] at hrun
  obtain ⟨hop, tail, htail⟩ := Operator.widens_iff.1 hrun
  refine ⟨hop, tail, ?_⟩
  have hwritable := v.writable_word now
  rw [← v.write_word] at htail
  generalize v.word now = w at htail hwritable
  obtain ⟨text, quoted⟩ := w
  cases quoted with
  | true => simp [Word.write, Text.quoted] at htail
  | false =>
    obtain rfl : text = '=' :: tail := htail
    refine ⟨rfl, ?_⟩
    rintro ⟨a, ha, hmark⟩
    exact (hwritable rfl).2 ⟨a, List.mem_cons_of_mem _ ha, hmark⟩

/-- A value of which the sign takes in the first character: it is read with another operator. -/
theorem readAs_field_of_runsInto {v : Value} (hd : d ≠ '"')
    (hc : (Clause.field n op v m).Admitted { delimiter := d }) (hrun : v.runsInto op = true)
    (hcs : ∀ c ∈ cs, c.WellNamed)
    (h : Draft.take? d ((Clause.field n op v m).body now ++ writtenBehind now cs) =
      some (draft, rest))
    (hrest : atBoundary rest = true)
    (he : resolve { delimiter := d } now (!m) draft = .ok e) :
    (Clause.field n op v m).ReadAs d now (writtenBehind now cs) e rest := by
  obtain ⟨hn, hcheck, -⟩ := hc
  obtain ⟨hop, tail, hword, hplain⟩ := exists_tail_of_runsInto hrun now
  have hwrite : (v.word now).write = '=' :: tail := by
    rw [hword]
    rfl
  have hother (v' : Value) :
      (Clause.field n op.widened v' m == Clause.field n op v m) = false := by
    rcases hop with rfl | rfl <;> simp [Clause.beq_def, Clause.same, Operator.widened]
  rw [body_field_append, hwrite, List.cons_append, Operator.sign_widened hop] at h
  rcases read_sign_cases hn (isReserved_of_checkField hcheck) (op.widens_widened _) h hrest he with
    ⟨ws, vs, heq, -⟩ | ⟨w, v', htake, htype, rfl⟩ | ⟨t, rfl, hmark⟩
  · rcases hop with rfl | rfl <;> simp [Operator.widened] at heq
  · rw [Bool.not_not, String.ofList_toList]
    have hastray (hmark : IsMarked w.text) :
        (Clause.field n op v m).IsAstray (.field n op.widened v' m) :=
      ⟨⟨v', List.mem_cons_self, isMarked_of_typeWord hmark htype⟩, rfl, hother v'⟩
    by_cases htail : tail = []
    · subst htail
      exact .inl (hastray (isMarked_of_takeWord_behind hcs htake hrest))
    · have hwritable : (Word.mk tail false).Writable := fun _ => ⟨htail, hplain⟩
      rcases inStep_of_takeWord hd hwritable (stopsAt_endsWritten (stopsAt_writtenBehind now cs))
        htake hrest with ⟨hmark, -⟩ | ⟨-, rfl⟩
      · exact .inl (hastray hmark)
      · refine .inr ⟨rfl, ?_, rfl, fun hsame => ?_⟩
        · simp [Clause.words, Clause.values, hword]
        · simp [hother] at hsame
  · exact .inl (isAstray_term hmark rfl rfl)

end Kinds

section Pieces

theorem takeSigned_write (hc : c.WellNamed) (now : Instant) (d : Char) (x : List Char) :
    takeSigned? d (c.write now ++ x) =
      (Draft.take? d (c.body now ++ x)).map fun r => (!c.must, r) := by
  obtain ⟨a, s, hbody, hminus, -⟩ := Clause.head_body hc now
  unfold Clause.write
  cases c.must with
  | true =>
    rw [if_pos rfl, takeSigned_of_head?_ne (by simp [hbody, hminus])]
    rfl
  | false => rfl

/-- A written clause in front of others is read in step or goes astray. -/
theorem readAs_of_takePiece (hd : d ≠ '"') (hc : c.Admitted { delimiter := d })
    (hcs : ∀ c ∈ cs, c.WellNamed)
    (he : contentClause { delimiter := d } now
      (takePiece d (c.write now ++ writtenBehind now cs)).1 = .ok e) :
    c.ReadAs d now (writtenBehind now cs) e
      (takePiece d (c.write now ++ writtenBehind now cs)).2 := by
  obtain ⟨negated, draft, hcontent, hresolve⟩ := exists_draft_of_contentClause he
  obtain ⟨htake, hrest⟩ := takeSigned_of_takePiece hcontent
  rw [takeSigned_write hc.wellNamed] at htake
  obtain ⟨r, hdraft, hr⟩ := Option.map_eq_some_iff.1 htake
  obtain ⟨rfl, rfl⟩ := Prod.mk.inj hr
  have hx := stopsAt_writtenBehind now cs
  cases c with
  | term s m => exact readAs_term hd hx hdraft hrest hresolve
  | flag n m => exact readAs_flag hc hx hdraft hresolve
  | oneOf n vs m => exact readAs_oneOf hd hc hdraft hrest hresolve
  | field n op v m =>
    cases hrun : v.runsInto op with
    | false => exact readAs_field hd hc hrun hx hdraft hrest hresolve
    | true => exact readAs_field_of_runsInto hd hc hrun hcs hdraft hrest hresolve

theorem take_write (hc : c.WellNamed) (hrun : c.runsTogether = false)
    (hwords : ∀ w ∈ c.words now, w.quoted = false ∧ d ∉ w.text) (hx : stopsAt (· == ' ') x = true) :
    Draft.take? d (c.body now ++ x) = some (c.draft now, x) := by
  have hends := stopsAt_endsWritten hx
  cases c with
  | flag n m => exact take_flag hc hx
  | term s m =>
    obtain ⟨hq, hmem⟩ := hwords _ List.mem_cons_self
    rw [take_term hx, Draft.takeTerm?, takeWord_of_not_mem (.of s.toList) hq hmem hends]
    rfl
  | field n op v m =>
    obtain ⟨hn, hr⟩ := hc
    obtain ⟨hq, hmem⟩ := hwords _ List.mem_cons_self
    have hrun : v.runsInto op = false := hrun
    have ho := widens_write_append hrun hx now
    have hdraft : (Clause.field n op v m).draft now = .field n.toList op (v.word now) := by
      rw [Clause.draft, widens_clauseText, hrun, if_neg Bool.false_ne_true]
    rw [body_field_append, hdraft]
    unfold Draft.take?
    simp [takeFlag_sign_eq_none hn ho (by simp [hr]), takeGroup_sign hn,
      takeValues_write (v.writable_word now), takeComparison_sign hn ho,
      takeWord_of_not_mem (v.writable_word now) hq hmem hends]
  | oneOf n vs m =>
    obtain ⟨hn, hr, hne⟩ := hc
    obtain ⟨v, vs, rfl⟩ := List.exists_cons_of_ne_nil hne
    have hvs : ∀ w ∈ vs.map (·.word now), w.Writable :=
      List.forall_mem_map.2 fun u _ => u.writable_word now
    have hvalues := takeValues_written (v.writable_word now) hvs hwords x
    rw [body_oneOf_append]
    have hsign (x : List Char) : Operator.eq.widens x = false := rfl
    unfold Draft.take?
    simp [takeFlag_sign_eq_none hn (hsign _) (by simp [hr]), takeGroup_sign hn, hvalues,
      Clause.draft]

theorem takePiece_write (hc : c.WellNamed) (hrun : c.runsTogether = false)
    (hwords : ∀ w ∈ c.words now, w.quoted = false ∧ d ∉ w.text) (hx : stopsAt (· == ' ') x = true) :
    takePiece d (c.write now ++ x) = (.ok (!c.must, c.draft now), x) := by
  have hb := (endsAt_of_stopsAt (c.draft now) hx).1
  simp only [takePiece, takeSigned_write hc, take_write hc hrun hwords hx, Option.map_some, hb,
    if_true]

end Pieces

end SearchBar
