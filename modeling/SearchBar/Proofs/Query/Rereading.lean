import SearchBar.Proofs.Calendar.Parts
import SearchBar.Proofs.Query.Distinct
import SearchBar.Proofs.Query.Writing

/-! # Reading what is written

A written value is read as an equal one if its text does not run into the sign in front
of it, its numbers are finite and its dates can be read. What is read from a written
clause keeps to this: it has no infinities, and its dates have no fraction.
-/

namespace SearchBar

open Calendar Text

variable {dialect : Dialect} {now : Instant} {op : Operator} {v v' : Value} {name : List Char}
  {w : Word}

section Signs

/-- The text of the value is taken into the sign of the operator in front of it. -/
def Value.runsInto (op : Operator) : Value → Bool
  | text s => op.widens (wordText s.toList)
  | _ => false

def Clause.runsTogether : Clause → Bool
  | field _ op v _ => v.runsInto op
  | _ => false

theorem Operator.widens_of_head?_ne {rest : List Char} (h : rest.head? ≠ some '=') :
    op.widens rest = false := by
  simp [widens, h]

theorem widens_wordText_of_head?_ne {cs : List Char} (h : cs.head? ≠ some '=') :
    op.widens (wordText cs) = false := by
  unfold wordText
  split
  · exact Operator.widens_of_head?_ne (by simp [quoted])
  · exact Operator.widens_of_head?_ne h

theorem head?_ne_of_all {p : Char → Bool} {a : Char} {cs : List Char}
    (hcs : ∀ c ∈ cs, p c = true) (ha : p a = false) : cs.head? ≠ some a := by
  intro h
  have hmem := hcs a (List.mem_of_head? h)
  simp [ha] at hmem

theorem head?_plainText_ne (x : Binary64) : x.plainText.head? ≠ some '=' :=
  head?_ne_of_all (fun _ => isNumeralChar_of_mem_plainText) (by decide)

theorem head?_write_ne (now : Instant) (d : DateValue) : (d.write now none).head? ≠ some '=' :=
  head?_ne_of_all (fun _ => isDateChar_of_mem_write) (by decide)

theorem head?_boolText_ne (b : Bool) : (Value.boolText b).head? ≠ some '=' := by
  cases b <;> decide

theorem widens_clauseText (now : Instant) (op : Operator) (v : Value) :
    op.widens (v.clauseText now) = v.runsInto op := by
  cases v with
  | text s => rfl
  | number x => exact Operator.widens_of_head?_ne (head?_plainText_ne x)
  | bool b => exact Operator.widens_of_head?_ne (head?_boolText_ne b)
  | date d => exact widens_wordText_of_head?_ne (head?_write_ne now d)

theorem Value.runsInto_iff : v.runsInto op = true ↔ (op = .gt ∨ op = .lt) ∧
    ∃ s, v = .text s ∧ s.toList.head? = some '=' ∧
      ∀ c ∈ s.toList, isBlank c = false ∧ c ∉ specials := by
  constructor
  · intro h
    cases v with
    | text s =>
      obtain ⟨hop, tail, htail⟩ := Operator.widens_iff.1 h
      unfold wordText at htail
      split at htail
      · simp [quoted] at htail
      · rename_i hq
        obtain ⟨-, -, -, hplain, -⟩ := needsQuotes_eq_false_iff.1 (Bool.eq_false_iff.2 hq)
        exact ⟨hop, s, rfl, by rw [htail]; rfl, hplain⟩
    | number | bool | date => simp [runsInto] at h
  · rintro ⟨hop, s, rfl, hhead, hplain⟩
    obtain ⟨tail, htail⟩ := List.head?_eq_some_iff.1 hhead
    have hquotes : needsQuotes s.toList = false := by
      refine needsQuotes_eq_false_iff.2 ⟨by simp [htail], by simp [htail], ?_, hplain, ?_⟩
      · rw [htail]
        refine Bool.eq_false_iff.2 fun h => ?_
        simp [sameLetters_iff] at h
      · rw [htail]
        simp [Value.ofWord, Binary64.readPlain?, Decimal.readPlain?, Decimal.takeMinus,
          Decimal.readUnsigned?, Value.isText]
    exact Operator.widens_iff.2 ⟨hop, tail, by rw [wordText, hquotes]; exact htail⟩

end Signs

section Values

def Value.Fits (dialect : Dialect) (name : List Char) : Value → Prop
  | text _ => dialect.kind? (String.ofList name) = none ∨
      dialect.kind? (String.ofList name) = some .text
  | number _ => dialect.kind? (String.ofList name) = none ∧ dialect.typing = .infer ∨
      dialect.kind? (String.ofList name) = some .number
  | bool _ => dialect.kind? (String.ofList name) = none ∧ dialect.typing = .infer ∨
      dialect.kind? (String.ofList name) = some .bool
  | date _ => dialect.kind? (String.ofList name) = some .date

/-- What is written for the value can be read as such a value. -/
def Value.Legible (now : Instant) : Value → Prop
  | number x => x.isFinite = true
  | date d => ∃ d', DateValue.read? now (d.write now none) = some d' ∧ (d' == d) = true
  | _ => True

theorem typeWord_of_kind {kind : FieldKind} (h : dialect.kind? (String.ofList name) = some kind)
    (w : Word) : typeWord dialect now name w = typeAs now kind name w.text := by
  simp only [typeWord, h]

theorem typeWord_of_quoted (h : dialect.kind? (String.ofList name) = none) (hw : w.quoted = true) :
    typeWord dialect now name w = .ok (.text (String.ofList w.text)) := by
  simp [typeWord, h, hw]

theorem typeWord_of_text (h : dialect.kind? (String.ofList name) = none)
    (ht : dialect.typing = .text) :
    typeWord dialect now name w = .ok (.text (String.ofList w.text)) := by
  simp [typeWord, h, ht]

theorem typeWord_of_infer (h : dialect.kind? (String.ofList name) = none)
    (ht : dialect.typing = .infer) (hw : w.quoted = false) :
    typeWord dialect now name w = .ok (.ofWord w.text) := by
  simp [typeWord, h, ht, hw]

theorem typeWord_cases (dialect : Dialect) (now : Instant) (name : List Char) (w : Word) :
    (∃ kind, dialect.kind? (String.ofList name) = some kind ∧
      typeWord dialect now name w = typeAs now kind name w.text) ∨
    dialect.kind? (String.ofList name) = none ∧
      typeWord dialect now name w = .ok (.text (String.ofList w.text)) ∨
    dialect.kind? (String.ofList name) = none ∧ dialect.typing = .infer ∧ w.quoted = false ∧
      typeWord dialect now name w = .ok (.ofWord w.text) := by
  cases hk : dialect.kind? (String.ofList name) with
  | some kind => exact .inl ⟨kind, rfl, typeWord_of_kind hk w⟩
  | none =>
    right
    cases ht : dialect.typing with
    | text => exact .inl ⟨rfl, typeWord_of_text hk ht⟩
    | infer =>
      cases hw : w.quoted with
      | true => exact .inl ⟨rfl, typeWord_of_quoted hk hw⟩
      | false => exact .inr ⟨rfl, rfl, rfl, typeWord_of_infer hk ht hw⟩

theorem typeAs_eq_ok {kind : FieldKind} {text : List Char}
    (h : typeAs now kind name text = .ok v) :
    (kind = .text ∧ v = .text (String.ofList text)) ∨
    (kind = .number ∧ ∃ x, v = .number x ∧ Binary64.read? text = some x ∧ x.isFinite = true) ∨
    (kind = .bool ∧ ∃ b, v = .bool b) ∨
    (kind = .date ∧ ∃ d, v = .date d ∧ DateValue.read? now text = some d) := by
  cases kind with
  | text => exact .inl ⟨rfl, (Except.ok.inj h).symm⟩
  | number =>
    simp only [typeAs] at h
    split at h
    · rename_i x hx
      obtain ⟨hread, hfin⟩ := Option.filter_eq_some_iff.1 hx
      exact .inr (.inl ⟨rfl, x, (Except.ok.inj h).symm, hread, hfin⟩)
    · simp at h
  | bool =>
    simp only [typeAs] at h
    split at h
    · exact .inr (.inr (.inl ⟨rfl, true, (Except.ok.inj h).symm⟩))
    · split at h
      · exact .inr (.inr (.inl ⟨rfl, false, (Except.ok.inj h).symm⟩))
      · simp at h
  | date =>
    simp only [typeAs] at h
    split at h
    · rename_i d hd
      exact .inr (.inr (.inr ⟨rfl, d, (Except.ok.inj h).symm, hd⟩))
    · simp at h

theorem ofWord_cases (cs : List Char) : (∃ b, Value.ofWord cs = .bool b) ∨
    (∃ x, Value.ofWord cs = .number x ∧ Binary64.readPlain? cs = some x) ∨
    Value.ofWord cs = .text (String.ofList cs) := by
  unfold Value.ofWord
  split
  · exact .inl ⟨true, rfl⟩
  · split
    · exact .inl ⟨false, rfl⟩
    · split
      · rename_i x hx
        exact .inr (.inl ⟨x, rfl, hx⟩)
      · exact .inr (.inr rfl)

theorem ofWord_of_isText {cs : List Char} (h : (Value.ofWord cs).isText = true) :
    Value.ofWord cs = .text (String.ofList cs) := by
  rcases ofWord_cases cs with ⟨b, hb⟩ | ⟨x, hx, -⟩ | ht
  · simp [hb, Value.isText] at h
  · simp [hx, Value.isText] at h
  · exact ht

theorem fits_of_typeWord (h : typeWord dialect now name w = .ok v) : v.Fits dialect name := by
  rcases typeWord_cases dialect now name w with ⟨kind, hk, htype⟩ | ⟨hk, htype⟩ | ⟨hk, ht, -, htype⟩
  · rw [htype] at h
    rcases typeAs_eq_ok h with ⟨rfl, rfl⟩ | ⟨rfl, x, rfl, -⟩ | ⟨rfl, b, rfl⟩ | ⟨rfl, d, rfl, -⟩
    · exact .inr hk
    · exact .inr hk
    · exact .inr hk
    · exact hk
  · obtain rfl := Except.ok.inj (htype.symm.trans h)
    exact .inl hk
  · obtain rfl := Except.ok.inj (htype.symm.trans h)
    rcases ofWord_cases w.text with ⟨b, hb⟩ | ⟨x, hx, -⟩ | htext
    · rw [hb]
      exact .inl ⟨hk, ht⟩
    · rw [hx]
      exact .inl ⟨hk, ht⟩
    · rw [htext]
      exact .inl hk

theorem ofWord_of_readPlain {cs : List Char} {x : Binary64}
    (h : Binary64.readPlain? cs = some x) : Value.ofWord cs = .number x := by
  have htrue : Binary64.readPlain? "true".toList = none := rfl
  have hfalse : Binary64.readPlain? "false".toList = none := rfl
  unfold Value.ofWord
  rw [if_neg, if_neg, h]
  · rintro rfl
    exact absurd (hfalse.symm.trans h) (by simp)
  · rintro rfl
    exact absurd (htrue.symm.trans h) (by simp)

theorem beq_self_of_isFinite {x : Binary64} (h : x.isFinite = true) : (x == x) = true := by
  obtain ⟨s, k, rfl⟩ := Binary64.isFinite_iff.1 h
  cases s with
  | false => exact Binary64.beq_iff.2 ⟨_, rfl, rfl⟩
  | true => exact Binary64.beq_iff.2 ⟨_, rfl, rfl⟩

theorem ofWord_boolText (b : Bool) : Value.ofWord (Value.boolText b) = .bool b := by
  cases b <;> rfl

theorem ofWord_of_not_needsQuotes {cs : List Char} (h : needsQuotes cs = false) :
    Value.ofWord cs = .text (String.ofList cs) :=
  ofWord_of_isText (needsQuotes_eq_false_iff.1 h).2.2.2.2

theorem typeWord_of_text_word (s : String) (hk : dialect.kind? (String.ofList name) = none) :
    typeWord dialect now name (.of s.toList) = .ok (.text s) := by
  rcases typeWord_cases dialect now name (.of s.toList) with ⟨kind, hk', -⟩ | ⟨-, h⟩ | ⟨-, -, hq, h⟩
  · simp [hk] at hk'
  · rw [h, Word.of, String.ofList_toList]
  · rw [h, Word.of, ofWord_of_not_needsQuotes hq, String.ofList_toList]

theorem typeWord_word (hfits : v.Fits dialect name) (h : v.Legible now) :
    ∃ v', typeWord dialect now name (v.word now) = .ok v' ∧ (v' == v) = true := by
  cases v with
  | text s =>
    refine ⟨.text s, ?_, beq_self_eq_true s⟩
    rcases hfits with hk | hk
    · exact typeWord_of_text_word s hk
    · rw [typeWord_of_kind hk, typeAs, Value.word, Word.of, String.ofList_toList]
  | number x =>
    refine ⟨.number x, ?_, beq_self_of_isFinite h⟩
    rcases hfits with ⟨hk, ht⟩ | hk
    · rw [typeWord_of_infer hk ht rfl]
      exact congrArg _ (ofWord_of_readPlain (Binary64.readPlain?_plainText h))
    · have hfinite : x.isFinite = true := h
      rw [typeWord_of_kind hk]
      simp [typeAs, Value.word, Binary64.read?_plainText h, Option.filter, hfinite]
  | bool b =>
    refine ⟨.bool b, ?_, beq_self_eq_true b⟩
    rcases hfits with ⟨hk, ht⟩ | hk
    · rw [typeWord_of_infer hk ht rfl]
      exact congrArg _ (ofWord_boolText b)
    · rw [typeWord_of_kind hk]
      cases b <;> rfl
  | date d =>
    obtain ⟨d', hread, hsame⟩ := h
    refine ⟨.date d', ?_, hsame⟩
    rw [typeWord_of_kind hfits]
    simp [typeAs, Value.word, Word.of, hread]

theorem typeWord_runsInto (hrun : v.runsInto op = false)
    (h : typeWord dialect now name (v.word now) = .ok v') : v'.runsInto op = false := by
  have htext : op.widens (wordText (v.word now).text) = false := by
    cases v with
    | text s => exact hrun
    | number x => exact widens_wordText_of_head?_ne (head?_plainText_ne x)
    | bool b => exact widens_wordText_of_head?_ne (head?_boolText_ne b)
    | date d => exact widens_wordText_of_head?_ne (head?_write_ne now d)
  have hofList : Value.runsInto op (.text (String.ofList (v.word now).text)) = false := by
    rwa [Value.runsInto, String.toList_ofList]
  rcases typeWord_cases dialect now name (v.word now) with
    ⟨kind, -, htype⟩ | ⟨-, htype⟩ | ⟨-, -, -, htype⟩
  · rw [htype] at h
    rcases typeAs_eq_ok h with ⟨-, rfl⟩ | ⟨-, x, rfl, -⟩ | ⟨-, b, rfl⟩ | ⟨-, d, rfl, -⟩
    · exact hofList
    · rfl
    · rfl
    · rfl
  · obtain rfl := Except.ok.inj (htype.symm.trans h)
    exact hofList
  · obtain rfl := Except.ok.inj (htype.symm.trans h)
    rcases ofWord_cases (v.word now).text with ⟨b, hb⟩ | ⟨x, hx, -⟩ | htext
    · rw [hb]
      rfl
    · rw [hx]
      rfl
    · rw [htext]
      exact hofList

/-- The value could have been read from a written one. -/
def Value.Settled : Value → Prop
  | number x => x.isFinite = true
  | date d => d.instant.fraction = 0
  | _ => True

/-- Dates are read as they are written, apart from fractions of a second. -/
def Value.KeepsDate (now : Instant) : Value → Prop
  | date d => ∀ d', DateValue.read? now (d.write now none) = some d' →
      (d' == { d with instant := d.instant.dropFraction }) = true
  | _ => True

theorem isFinite_of_readPlain {x y : Binary64} (h : Binary64.readPlain? x.plainText = some y) :
    y.isFinite = true := by
  cases hx : x.isFinite with
  | true =>
    obtain rfl := Option.some.inj ((Binary64.readPlain?_plainText hx).symm.trans h)
    exact hx
  | false =>
    cases x with
    | finite s k => simp [Binary64.isFinite] at hx
    | infinite s =>
      have hnone : Binary64.readPlain? (Binary64.infinite s).plainText = none := by cases s <;> rfl
      exact absurd (hnone.symm.trans h) (by simp)
    | nan =>
      have hnone : Binary64.readPlain? Binary64.nan.plainText = none := rfl
      exact absurd (hnone.symm.trans h) (by simp)

theorem typeWord_settled (hfits : v.Fits dialect name) (hdate : v.KeepsDate now)
    (h : typeWord dialect now name (v.word now) = .ok v') : v'.Settled := by
  rcases typeWord_cases dialect now name (v.word now) with
    ⟨kind, hk, htype⟩ | ⟨-, htype⟩ | ⟨hk, -, hq, htype⟩
  · rw [htype] at h
    rcases typeAs_eq_ok h with ⟨-, rfl⟩ | ⟨-, x, rfl, -, hx⟩ | ⟨-, b, rfl⟩ | ⟨rfl, d', rfl, hread⟩
    · trivial
    · exact hx
    · trivial
    · cases v with
      | text s => rcases hfits with hk' | hk' <;> simp [hk] at hk'
      | number x => rcases hfits with ⟨hk', -⟩ | hk' <;> simp [hk] at hk'
      | bool b => rcases hfits with ⟨hk', -⟩ | hk' <;> simp [hk] at hk'
      | date d =>
        have hsame := (DateValue.beq_iff.1 (hdate d' hread)).1
        show d'.instant.fraction = 0
        rw [hsame]
        exact Instant.fraction_dropFraction d.instant
  · obtain rfl := Except.ok.inj (htype.symm.trans h)
    trivial
  · obtain rfl := Except.ok.inj (htype.symm.trans h)
    cases v with
    | text s =>
      rw [Value.word, Word.of, ofWord_of_not_needsQuotes hq]
      trivial
    | date d => simp [Value.Fits, hk] at hfits
    | bool b =>
      rw [show Value.ofWord ((Value.bool b).word now).text = .bool b from ofWord_boolText b]
      trivial
    | number x =>
      rcases ofWord_cases x.plainText with ⟨b, hb⟩ | ⟨y, hy, hread⟩ | htext
      · rw [show Value.ofWord ((Value.number x).word now).text = .bool b from hb]
        trivial
      · rw [show Value.ofWord ((Value.number x).word now).text = .number y from hy]
        exact isFinite_of_readPlain hread
      · rw [show Value.ofWord ((Value.number x).word now).text = .text _ from htext]
        trivial

theorem isFinite_of_beq {x y : Binary64} (h : (x == y) = true) (hx : x.isFinite = true) :
    y.isFinite = true := by
  obtain ⟨s, k, rfl⟩ := Binary64.isFinite_iff.1 hx
  obtain ⟨a, hxa, hya⟩ := Binary64.beq_iff.1 h
  have hk := k.isLt
  cases y with
  | finite => rfl
  | nan => simp [Binary64.key] at hya
  | infinite t =>
    exfalso
    cases s <;> cases t <;> simp only [Binary64.key, Option.some.injEq, Binary64.ranks] at hxa hya <;>
      omega

theorem legible_of_settled {u : Value} (hfits : v.Fits dialect name) (hdate : v.KeepsDate now)
    (h : typeWord dialect now name (v.word now) = .ok v') (hu : u.Settled) (huv : (u == v) = true) :
    v.Legible now := by
  cases v with
  | text s => trivial
  | bool b => trivial
  | number x =>
    cases u with
    | number y => exact isFinite_of_beq huv hu
    | text | bool | date => simp [Value.beq_def, Value.same] at huv
  | date d =>
    cases u with
    | date e =>
      rw [typeWord_of_kind hfits] at h
      rcases typeAs_eq_ok h with ⟨hk, -⟩ | ⟨hk, -⟩ | ⟨hk, -⟩ | ⟨-, d', -, hread⟩
      · simp at hk
      · simp at hk
      · simp at hk
      · have hinstant : e.instant = d.instant := (DateValue.beq_iff.1 huv).1
        have hfraction : d.instant.fraction = 0 := hinstant ▸ hu
        have hsame := hdate d' (by simpa [Value.word, Word.of] using hread)
        rw [Instant.dropFraction_of_fraction hfraction] at hsame
        exact ⟨d', by simpa [Value.word, Word.of] using hread, hsame⟩
    | text | bool | number => simp [Value.beq_def, Value.same] at huv

end Values

section Clauses

variable {c d e : Clause}

def Clause.Admitted (dialect : Dialect) : Clause → Prop
  | term _ _ => True
  | field n op v _ => isFieldName n.toList = true ∧ checkField dialect n.toList op = .ok () ∧
      v.Fits dialect n.toList
  | oneOf n vs _ => isFieldName n.toList = true ∧ checkField dialect n.toList .eq = .ok () ∧
      vs ≠ [] ∧ ∀ v ∈ vs, v.Fits dialect n.toList
  | flag n _ => isFlagName n.toList = true

theorem isReserved_of_checkField (h : checkField dialect name op = .ok ()) :
    isReserved name = false := (checkField_eq_ok_iff.1 h).1

theorem Clause.Admitted.wellNamed (h : c.Admitted dialect) : c.WellNamed := by
  cases c with
  | term => trivial
  | flag => exact h
  | field n op v m => exact ⟨h.1, isReserved_of_checkField h.2.1⟩
  | oneOf n vs m => exact ⟨h.1, isReserved_of_checkField h.2.1, h.2.2.1⟩

theorem Clause.Admitted.fits (h : c.Admitted dialect) (hv : v ∈ c.values) :
    ∃ name, v.Fits dialect name := by
  cases c with
  | term | flag => simp [values] at hv
  | field n op u m => exact ⟨n.toList, List.mem_singleton.1 hv ▸ h.2.2⟩
  | oneOf n vs m => exact ⟨n.toList, h.2.2.2 v hv⟩

theorem Clause.Admitted.ne_date (h : c.Admitted dialect) (hschema : dialect.schema = none)
    (hv : v ∈ c.values) (d : DateValue) : v ≠ .date d := by
  rintro rfl
  obtain ⟨name, hfits⟩ := h.fits hv
  simp [Value.Fits, Dialect.kind?, hschema] at hfits

theorem reread_term (s : String) (m : Bool) :
    (Clause.term s m).reread dialect now = .ok (.term s m) := by
  simp [Clause.reread, Clause.draft, resolve, Word.of, Clause.must]

theorem reread_flag (n : String) (m : Bool) :
    (Clause.flag n m).reread dialect now = .ok (.flag n m) := by
  simp [Clause.reread, Clause.draft, resolve, Clause.must]

theorem reread_field {n : String} {m : Bool} (hcheck : checkField dialect n.toList op = .ok ())
    (hrun : v.runsInto op = false) : (Clause.field n op v m).reread dialect now = .ok d ↔
      ∃ v', typeWord dialect now n.toList (v.word now) = .ok v' ∧ d = .field n op v' m := by
  simp only [Clause.reread, Clause.draft, widens_clauseText, hrun, Bool.false_eq_true, if_false,
    resolve, hcheck, Clause.must, Bool.not_not, String.ofList_toList, bind, Except.bind]
  cases typeWord dialect now n.toList (v.word now) <;> simp [eq_comm]

theorem reread_oneOf {n : String} {m : Bool} {vs : List Value}
    (hcheck : checkField dialect n.toList .eq = .ok ()) :
    (Clause.oneOf n vs m).reread dialect now = .ok d ↔
      ∃ vs', List.Forall₂ (fun v v' => typeWord dialect now n.toList (v.word now) = .ok v') vs vs' ∧
        d = .oneOf n vs' m := by
  have hmap {vs' : List Value} : (vs.map (·.word now)).mapM (typeWord dialect now n.toList) =
      .ok vs' ↔ List.Forall₂ (fun v v' => typeWord dialect now n.toList (v.word now) = .ok v')
        vs vs' := by
    rw [mapM_eq_ok_iff, List.forall₂_map_left_iff]
  simp only [← hmap, Clause.reread, Clause.draft, resolve, hcheck, Clause.must, Bool.not_not,
    String.ofList_toList, bind, Except.bind]
  cases (vs.map (·.word now)).mapM (typeWord dialect now n.toList) <;> simp [eq_comm]

/-- Clauses that run together with their sign compare by another operator when read
again, or have no value any more. -/
theorem reread_of_runsInto {n : String} {m : Bool} (hrun : v.runsInto op = true)
    (h : (Clause.field n op v m).reread dialect now = .ok d) :
    ∃ v', d = .field n op.widened v' m := by
  simp only [Clause.reread, Clause.draft, widens_clauseText, hrun, if_true, Draft.ofBare] at h
  split at h
  · simp [resolve] at h
  · cases resolve_eq_ok_iff.1 h with
    | @field _ _ _ v' => exact ⟨v', by simp [Clause.must]⟩

theorem runsInto_widened (op : Operator) (v : Value) : v.runsInto op.widened = false := by
  cases v with
  | text s => exact Operator.widens_widened op _
  | number | bool | date => rfl

/-- What is read from a written clause does not run together with its sign. -/
theorem reread_runsTogether (hc : c.Admitted dialect) (h : c.reread dialect now = .ok d) :
    d.runsTogether = false := by
  cases c with
  | term s m =>
    obtain rfl := Except.ok.inj ((reread_term s m).symm.trans h)
    rfl
  | flag n m =>
    obtain rfl := Except.ok.inj ((reread_flag n m).symm.trans h)
    rfl
  | oneOf n vs m =>
    obtain ⟨vs', -, rfl⟩ := (reread_oneOf hc.2.1).1 h
    rfl
  | field n op v m =>
    cases hrun : v.runsInto op with
    | false =>
      obtain ⟨v', hv', rfl⟩ := (reread_field hc.2.1 hrun).1 h
      exact typeWord_runsInto hrun hv'
    | true =>
      obtain ⟨v', rfl⟩ := reread_of_runsInto hrun h
      exact runsInto_widened op v'

theorem reread_values (hc : c.Admitted dialect) (hrun : c.runsTogether = false)
    (h : c.reread dialect now = .ok d) : ∃ name, List.Forall₂ (fun v v' =>
      v.Fits dialect name ∧ typeWord dialect now name (v.word now) = .ok v') c.values d.values := by
  cases c with
  | term s m =>
    obtain rfl := Except.ok.inj ((reread_term s m).symm.trans h)
    exact ⟨[], .nil⟩
  | flag n m =>
    obtain rfl := Except.ok.inj ((reread_flag n m).symm.trans h)
    exact ⟨[], .nil⟩
  | field n op v m =>
    obtain ⟨v', hv', rfl⟩ := (reread_field hc.2.1 hrun).1 h
    exact ⟨n.toList, .cons ⟨hc.2.2, hv'⟩ .nil⟩
  | oneOf n vs m =>
    obtain ⟨vs', hvs', rfl⟩ := (reread_oneOf hc.2.1).1 h
    exact ⟨n.toList, (List.forall₂_and_left _ _).2 ⟨hc.2.2.2, hvs'⟩⟩

/-- Clauses with legible values that do not run together are read back. -/
theorem reread_of_legible (hc : c.Admitted dialect) (hrun : c.runsTogether = false)
    (hv : ∀ v ∈ c.values, v.Legible now) :
    ∃ d, c.reread dialect now = .ok d ∧ (d == c) = true := by
  cases c with
  | term s m => exact ⟨_, reread_term s m, by simp [Clause.beq_def, Clause.same]⟩
  | flag n m => exact ⟨_, reread_flag n m, by simp [Clause.beq_def, Clause.same]⟩
  | field n op v m =>
    obtain ⟨v', hv', hsame⟩ := typeWord_word hc.2.2 (hv v List.mem_cons_self)
    exact ⟨_, (reread_field hc.2.1 hrun).2 ⟨v', hv', rfl⟩, by simp [Clause.beq_def, Clause.same, hsame]⟩
  | oneOf n vs m =>
    have hvs : ∃ vs', List.Forall₂ (fun v v' => typeWord dialect now n.toList (v.word now) = .ok v')
        vs vs' ∧ List.Forall₂ (fun v w => (v == w) = true) vs' vs := by
      have hfits := hc.2.2.2
      clear hc hrun
      induction vs with
      | nil => exact ⟨[], .nil, .nil⟩
      | cons v vs ih =>
        obtain ⟨v', hv', hsame⟩ := typeWord_word (hfits v List.mem_cons_self) (hv v List.mem_cons_self)
        obtain ⟨vs', hvs', hsames⟩ := ih (fun u hu => hv u (List.mem_cons_of_mem v hu))
          fun u hu => hfits u (List.mem_cons_of_mem v hu)
        exact ⟨v' :: vs', .cons hv' hvs', .cons hsame hsames⟩
    obtain ⟨vs', hvs', hsame⟩ := hvs
    exact ⟨_, (reread_oneOf hc.2.1).2 ⟨vs', hvs', rfl⟩,
      by simp [Clause.beq_def, Clause.same, beq_iff_forall₂.2 hsame]⟩

theorem runsInto_of_beq (h : (v == v') = true) : v.runsInto op = v'.runsInto op := by
  cases v <;> cases v' <;> first | rfl | simp [Value.beq_def, Value.same] at h
  rw [h]

theorem runsTogether_of_beq (h : (d == c) = true) : d.runsTogether = c.runsTogether := by
  cases d <;> cases c <;> first | rfl | simp [Clause.beq_def, Clause.same] at h
  obtain ⟨⟨⟨rfl, rfl⟩, hv⟩, rfl⟩ := h
  exact runsInto_of_beq hv

theorem values_of_beq (h : (d == c) = true) :
    List.Forall₂ (fun v w => (v == w) = true) d.values c.values := by
  cases d <;> cases c <;> first | exact .nil | simp [Clause.beq_def, Clause.same] at h
  · exact .cons h.1.2 .nil
  · exact beq_iff_forall₂.1 h.1.2

end Clauses

end SearchBar
