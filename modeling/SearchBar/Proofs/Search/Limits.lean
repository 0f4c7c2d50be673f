import Mathlib.Algebra.Order.BigOperators.Group.List
import SearchBar.Proofs.Calendar.Limits
import SearchBar.Proofs.Compile.Bounds
import SearchBar.Proofs.Query.Pairing
import SearchBar.Proofs.Search.Trails

/-! # Searches within the limits

A clause meets a limit if it is tried with a date whose window is not kept. A search without
trails stops at the first clause that a record does not meet, so the order of the clauses
decides which limits it meets. A search with trails tries and writes all of them.
-/

namespace SearchBar

open Calendar Text

section Checks

variable {α β : Type} {check : α → Attempt Unit} {found : α → Bool}

theorem checkUntil_singleton (a : α) : checkUntil check found [a] = check a := by
  rw [checkUntil]
  cases check a <;> cases found a <;> rfl

theorem checkUntil_append (as bs : List α) : checkUntil check found (as ++ bs) = (do
    checkUntil check found as
    if as.any found then .ok () else checkUntil check found bs) := by
  induction as with
  | nil => rfl
  | cons a as ih =>
    rw [List.cons_append, checkUntil, checkUntil, ih, bind_assoc]
    congr 1
    funext
    rw [List.any_cons]
    cases found a <;> rfl

theorem checkUntil_congr_of_forall₂ {R : α → β → Prop} {check' : β → Attempt Unit} {found' : β → Bool}
    {as : List α} {bs : List β} (h : List.Forall₂ R as bs) (hcheck : ∀ a b, R a b → check a = check' b)
    (hfound : ∀ a b, R a b → found a = found' b) : checkUntil check found as = checkUntil check' found' bs := by
  induction h with
  | nil => rfl
  | cons hab _ ih => rw [checkUntil, checkUntil, hcheck _ _ hab, hfound _ _ hab, ih]

end Checks

section Clauses

variable {op : Operator} {v w : Value} {a record : Json} {c e : Clause}

mutual

theorem checkMeets_eq (op : Operator) (v : Value) : ∀ a : Json, checkMeets op v a =
    checkUntil (fun l => checkMeetsScalar l v) (fun l => meetsScalar l op v) a.leaves
  | .arr items => by rw [checkMeets, Json.leaves, checkAnyMeets_eq]
  | .null | .bool _ | .int _ | .float _ | .str _ | .obj _ => by
    simp [checkMeets, Json.leaves, checkUntil_singleton]

theorem checkAnyMeets_eq (op : Operator) (v : Value) : ∀ items : List Json,
    checkAnyMeets op v items =
      checkUntil (fun l => checkMeetsScalar l v) (fun l => meetsScalar l op v) (Json.allLeaves items)
  | [] => rfl
  | a :: items => by
    rw [checkAnyMeets, Json.allLeaves, checkUntil_append, checkMeets_eq, checkAnyMeets_eq, meets_eq_any]

end

theorem Calendar.DateValue.range_congr {d d' : DateValue} (h : (d == d') = true) : d.range = d'.range := by
  obtain ⟨hinstant, hgranularity⟩ := DateValue.beq_iff.1 h
  have hunit : d.unit = d'.unit := congrArg (·.getD .day) hgranularity
  rw [DateValue.range, DateValue.range, hunit, hinstant]

theorem checkMeetsScalar_congr (h : (v == w) = true) (a : Json) :
    checkMeetsScalar a v = checkMeetsScalar a w := by
  rw [Value.beq_def] at h
  cases v <;> cases w <;> simp only [Value.same, Bool.false_eq_true] at h
  · rfl
  · rfl
  · rfl
  · rw [checkMeetsScalar, checkMeetsScalar, DateValue.range_congr h]

theorem checkMeets_congr (h : (v == w) = true) (op : Operator) (a : Json) :
    checkMeets op v a = checkMeets op w a := by
  simp only [checkMeets_eq, checkMeetsScalar_congr h, meetsScalar_congr h]

theorem Clause.checkHolds_congr (h : (c == e) = true) (record : Json) :
    c.checkHolds record = e.checkHolds record := by
  rw [Clause.beq_def] at h
  cases c <;> cases e <;> simp only [same, Bool.false_eq_true, Bool.and_eq_true] at h
  · rfl
  · obtain ⟨⟨⟨hname, hop⟩, hv⟩, -⟩ := h
    rw [beq_iff_eq.1 hname, beq_iff_eq.1 hop]
    simp only [checkHolds, checkMeets_congr hv]
  · obtain ⟨⟨hname, hvs⟩, -⟩ := h
    have hcheck (a : Json) := checkUntil_congr_of_forall₂ (beq_iff_forall₂.1 hvs)
      (fun v w hvw => checkMeets_congr hvw .eq a) fun v w hvw => meets_congr hvw .eq a
    rw [beq_iff_eq.1 hname]
    simp only [checkHolds, hcheck]
  · rfl

def Value.HasKeptWindow (v : Value) : Prop :=
  ∀ d, v = .date d → d.opening.IsKept ∧ d.closing.IsKept

def Clause.HasKeptWindows (c : Clause) : Prop := ∀ v ∈ c.values, v.HasKeptWindow

theorem checkMeetsScalar_date {d : DateValue} : checkMeetsScalar a (.date d) = .ok () ↔
    (a.readInstant.isSome = true → d.opening.IsKept ∧ d.closing.IsKept) := by
  rw [checkMeetsScalar]
  split
  case isTrue hread => simp [discard_eq_ok_iff, hread, DateValue.range_eq_ok_iff]
  case isFalse hread => exact iff_of_true rfl fun h => absurd h hread

theorem Value.HasKeptWindow.checkMeets (h : v.HasKeptWindow) (op : Operator) (a : Json) :
    checkMeets op v a = .ok () := by
  rw [checkMeets_eq]
  refine checkUntil_of_forall fun l _ => ?_
  cases v with
  | text | number | bool => rfl
  | date d => exact checkMeetsScalar_date.2 fun _ => h d rfl

theorem Clause.HasKeptWindows.checkHolds (h : c.HasKeptWindows) (record : Json) :
    c.checkHolds record = .ok () := by
  cases c with
  | term | flag => rfl
  | field n op v must =>
    rw [Clause.checkHolds]
    split
    · exact (h v (by simp [Clause.values])).checkMeets op _
    · rfl
  | oneOf n vs must =>
    rw [Clause.checkHolds]
    split
    · exact checkUntil_of_forall fun v hv => (h v hv).checkMeets .eq _
    · rfl

end Clauses

section LastDay

variable {op : Operator} {v : Value} {c : Clause} {k : Nat}

def lastDay : DateValue :=
  { instant := .midnight (Date.toDay ⟨262142, 12, 31⟩), granularity := some .day,
    format := some "YYYY-MM-DD" }

/-- A text of more than `k` characters that is read as the last day that is kept. -/
def lastDayText (k : Nat) : List Char := List.replicate (k + 1) ' ' ++ "+262142-12-31".toList

def lastDayLeaf (k : Nat) : Json := .str (String.ofList (lastDayText k))

theorem trimStart_lastDayText (k : Nat) : trimStart (lastDayText k) = "+262142-12-31".toList := by
  rw [trimStart, lastDayText, List.dropWhile_append_of_pos (by simp [isBlank, blanks])]
  decide

theorem lt_length_lower_lastDayText (k : Nat) : k < (lower (lastDayText k)).length := by
  have hdate : ("+262142-12-31".toList.all fun c => decide (c.toNat < 128)) = true := by decide
  have hascii : ∀ c ∈ lastDayText k, c.toNat < 128 := by
    simp only [lastDayText, List.mem_append, List.mem_replicate]
    rintro c (⟨-, rfl⟩ | hc)
    · decide
    · exact of_decide_eq_true (List.all_eq_true.1 hdate c hc)
  rw [lower, lowerAfter_of_ascii [] hascii, List.length_map, lastDayText, List.length_append,
    List.length_replicate]
  omega

theorem readInstant_lastDayLeaf (k : Nat) : (lastDayLeaf k).readInstant = some lastDay.instant := by
  have hblank : ' ' ∈ (lastDayText k).take 4 := by simp [lastDayText, List.replicate_succ]
  have hstamp := readOffsetTimestamp?_eq_none hblank rfl
  have hday : Json.readDay? (lastDayText k) = Json.readDay? "+262142-12-31".toList := by
    simp only [Json.readDay?, readFields?, Field.read?, trimStart_lastDayText]
    rfl
  rw [lastDayLeaf, Json.readInstant, String.toList_ofList, hstamp, hday]
  decide

theorem readNumber_lastDayLeaf (k : Nat) : (lastDayLeaf k).readNumber = none := by
  rw [lastDayLeaf, Json.readNumber, String.toList_ofList, trim, trimStart_lastDayText]
  decide

theorem readBool_lastDayLeaf (k : Nat) : (lastDayLeaf k).readBool = none := by
  simp [lastDayLeaf, Json.readBool, sameLetters, lastDayText, List.replicate_succ]

/-- No window that is kept reaches behind the last day, and no shorter text is equal to its text. -/
theorem meets_lastDayLeaf {now : Instant} (hkept : v.HasKeptWindow)
    (hshort : (lower (v.plainText now)).length ≤ k) :
    meets .eq v (lastDayLeaf k) = false := by
  have hscalar : meets .eq v (lastDayLeaf k) = meetsScalar (lastDayLeaf k) .eq v := rfl
  rw [hscalar]
  cases v with
  | text s =>
    have hne : lower (lastDayText k) ≠ lower s.toList := fun h =>
      (lt_length_lower_lastDayText k).not_ge (h ▸ hshort)
    simpa [meetsScalar, Operator.acceptsText, lastDayLeaf] using hne
  | number x => rw [meetsScalar, readNumber_lastDayLeaf]; rfl
  | bool b => rw [meetsScalar, readBool_lastDayLeaf]; cases b <;> rfl
  | date d =>
    have hclosing := (isKept_iff.1 (hkept d rfl).2).2
    have hlate : ¬ lastDay.instant < d.closing := by
      rw [isMidnight_closing d, ← Instant.le_def, Instant.midnight_le_iff]
      exact Int.le_sub_one_of_lt hclosing
    rw [meetsScalar, readInstant_lastDayLeaf]
    simp [Operator.acceptsInstant, hlate]

theorem hasKeptWindow_of_checkMeets (h : checkMeets op v (lastDayLeaf k) = .ok ()) :
    v.HasKeptWindow := by
  rintro d rfl
  exact checkMeetsScalar_date.1 h (by rw [readInstant_lastDayLeaf]; rfl)

theorem hasKeptWindow_of_checkUntil {vs : List Value} {now : Instant}
    (hshort : ∀ v ∈ vs, (lower (v.plainText now)).length ≤ k)
    (h : checkUntil (fun v => checkMeets .eq v (lastDayLeaf k)) (fun v => meets .eq v (lastDayLeaf k)) vs =
      .ok ()) : ∀ v ∈ vs, v.HasKeptWindow := by
  induction vs with
  | nil => simp
  | cons v vs ih =>
    rw [List.forall_mem_cons] at hshort ⊢
    obtain ⟨hv, hvs⟩ := checkUntil_cons.1 h
    have hkept := hasKeptWindow_of_checkMeets hv
    have hmissed := meets_lastDayLeaf hkept hshort.1
    exact ⟨hkept, ih hshort.2 (hvs.resolve_left (by simp [hmissed]))⟩

/-- A clause meets no limit on any record exactly if the windows of its dates are kept: on a record
of the last day, written in a text that is longer than any of the values, all of them are tried. -/
theorem Clause.checkHolds_iff : (∀ record, c.checkHolds record = .ok ()) ↔ c.HasKeptWindows := by
  refine ⟨fun h => ?_, fun h record => h.checkHolds record⟩
  have hlookup (n : String) (k : Nat) : (Json.obj [(n, lastDayLeaf k)]).lookup? n = some (lastDayLeaf k) := by
    simp [Json.lookup?, Json.member?, Json.find?, lastDayLeaf, Json.isNull]
  cases c with
  | term | flag => simp [HasKeptWindows, values]
  | field n op v must =>
    have hcheck := h (.obj [(n, lastDayLeaf 0)])
    rw [checkHolds, hlookup] at hcheck
    simpa [HasKeptWindows, values] using hasKeptWindow_of_checkMeets hcheck
  | oneOf n vs must =>
    let length (v : Value) : Nat := (lower (v.plainText (.midnight 0))).length
    have hcheck := h (.obj [(n, lastDayLeaf (vs.map length).sum)])
    rw [checkHolds, hlookup] at hcheck
    exact hasKeptWindow_of_checkUntil
      (fun v hv => List.le_sum_of_mem (List.mem_map_of_mem (f := length) hv)) hcheck

end LastDay

namespace Query

variable {q r : Query} {options : SearchOptions} {now : Instant} {record : Json} {records found : List Json}

section Executing

theorem execute_eq_ok_iff : q.execute now options records = .ok found ↔
    (∀ record ∈ records, q.checkRecord now options record = .ok ()) ∧
      q.search now options records = found := by
  rw [execute, check_bind_eq_ok_iff, checkAll_iff]
  exact and_congr_right' (iff_of_eq (Except.ok.injEq _ _))

theorem checkRecord_of_checkHolds (hexplain : options.explain = false)
    (h : ∀ c ∈ q.clauses, c.checkHolds record = .ok ()) : q.checkRecord now options record = .ok () := by
  rw [checkRecord, if_neg (by simp [hexplain])]
  exact checkUntil_of_forall h

theorem checkRecord_explain_iff (hexplain : options.explain = true) :
    q.checkRecord now options record = .ok () ↔
      ∀ c ∈ q.clauses, c.checkHolds record = .ok () ∧ c.checkWrite now = .ok () := by
  rw [checkRecord, if_pos hexplain, checkAll_iff]
  simp only [check_bind_eq_ok_iff]

theorem execute_of_checkHolds (hexplain : options.explain = false)
    (h : ∀ record ∈ records, ∀ c ∈ q.clauses, c.checkHolds record = .ok ()) :
    q.execute now options records = .ok (q.search now options records) :=
  execute_eq_ok_iff.2 ⟨fun record hrecord => checkRecord_of_checkHolds hexplain (h record hrecord), rfl⟩

end Executing

section Order

theorem exists_sameClauses_cons (hq : q.sameClauses q = true) {c : Clause} (hc : c ∈ q.clauses) :
    ∃ cs, q.sameClauses ⟨c :: cs⟩ = true := by
  obtain ⟨before, behind, hclauses⟩ := List.append_of_mem hc
  have hperm : q.clauses.Perm (c :: (before ++ behind)) := hclauses ▸ List.perm_middle
  obtain ⟨-, hfound, hothers⟩ := sameClauses_iff.1 hq
  refine ⟨before ++ behind, sameClauses_iff.2 ⟨hperm.length_eq, fun e he => ?_, fun e he => ?_⟩⟩
  · obtain ⟨e', he', h⟩ := hfound e he
    exact ⟨e', hperm.subset he', h⟩
  · obtain ⟨e', he', h⟩ := hothers e (hperm.symm.subset he)
    exact ⟨e', he', h⟩

theorem checkHolds_of_sameClauses (h : q.sameClauses r = true)
    (hq : ∀ c ∈ q.clauses, c.checkHolds record = .ok ()) :
    ∀ c ∈ r.clauses, c.checkHolds record = .ok () := by
  intro c hc
  obtain ⟨e, he, hec⟩ := exists_mem_of_sameClauses h hc
  rw [← Clause.checkHolds_congr hec]
  exact hq e he

/-- Searches with the same clauses that both end find the same records in the same order, and all
of them end exactly if the windows of all dates of the query are kept. -/
theorem execute_sameClauses (hexplain : options.explain = false) (hq : q.sameClauses q = true) :
    (∀ r, q.sameClauses r = true → ∀ now now' records found found',
      q.execute now options records = .ok found → r.execute now' options records = .ok found' →
        found = found') ∧
    ((∀ r, q.sameClauses r = true → ∀ now now' records, ∃ found,
      q.execute now options records = .ok found ∧ r.execute now' options records = .ok found) ↔
        ∀ c ∈ q.clauses, c.HasKeptWindows) := by
  refine ⟨fun r h now now' records found found' hfound hfound' => ?_, fun h c hc => ?_,
    fun h r hsame now now' records => ?_⟩
  · rw [← (execute_eq_ok_iff.1 hfound).2, ← (execute_eq_ok_iff.1 hfound').2]
    exact search_eq_of_sameClauses h hexplain now now' records
  · obtain ⟨cs, hsame⟩ := exists_sameClauses_cons hq hc
    refine Clause.checkHolds_iff.1 fun record => ?_
    obtain ⟨found, -, hfound⟩ := h _ hsame (.midnight 0) (.midnight 0) [record]
    have hrecord := (execute_eq_ok_iff.1 hfound).1 record (List.mem_singleton_self record)
    rw [checkRecord, if_neg (by simp [hexplain])] at hrecord
    exact (checkUntil_cons.1 hrecord).1
  · have hkept (record : Json) : ∀ c ∈ q.clauses, c.checkHolds record = .ok () :=
      fun c hc => (h c hc).checkHolds record
    refine ⟨_, execute_of_checkHolds hexplain fun record _ => hkept record, ?_⟩
    rw [search_eq_of_sameClauses hsame hexplain now now' records]
    exact execute_of_checkHolds hexplain fun record _ => checkHolds_of_sameClauses hsame (hkept record)

theorem execute_sameClauses_forms :
    let date (format : Option String) : Value :=
      .date { instant := .midnight 0, granularity := some .month, format := format }
    let size (negative : Bool) : Clause :=
      .field "size" .gte (.number (.ofRank negative 0)) true
    let q := ofClauses [size false, .field "due" .eq (date (some "this month")) false]
    let r := ofClauses [.field "due" .eq (date none) false, size true]
    ({} : SearchOptions).explain = false ∧ q.sameClauses q = true ∧ q.sameClauses r = true ∧
      ∀ now records, ∃ found, q.execute now {} records = .ok found ∧ r.execute now {} records = .ok found := by
  intro date size q r
  have hq : q.sameClauses q = true := by decide +kernel
  have hsame : q.sameClauses r = true := by decide +kernel
  have hclauses : q.clauses = [size false, .field "due" .eq (date (some "this month")) false] := by
    rfl
  have hkept : ∀ c ∈ q.clauses, c.HasKeptWindows := by
    rw [hclauses]
    simpa [size, date, Clause.HasKeptWindows, Clause.values, Value.HasKeptWindow] using by decide
  have hexplain : ({} : SearchOptions).explain = false := rfl
  obtain ⟨-, hends⟩ := execute_sameClauses hexplain hq
  exact ⟨hexplain, hq, hsame, fun now => hends.2 hkept r hsame now now⟩

/-- The first clause is not met, or the first clause meets a limit. -/
theorem not_execute_sameClauses_last_day :
    ¬ ∀ q r : Query, q.sameClauses r = true → ∀ now records,
      q.execute now {} records = r.execute now {} records := by
  intro h
  let x : Clause := .field "x" .eq (.text "1") true
  let d : Clause := .field "d" .eq (.date lastDay) true
  let record : Json := .obj [("d", .str "2024-01-01")]
  have hfirst : (ofClauses [x, d]).execute (.midnight 0) {} [record] = .ok [] := by rfl
  have hlast : (ofClauses [d, x]).execute (.midnight 0) {} [record] = .error .calendar := by rfl
  have hsame := h (ofClauses [x, d]) (ofClauses [d, x]) (by decide +kernel) (.midnight 0) [record]
  rw [hfirst, hlast] at hsame
  simp at hsame

end Order

section Trails

/-- A search with trails ends exactly if every clause is tried on every record and written without
a limit. Then the search without trails ends as well and finds the same records, in the same
order and each of them without its trail. -/
theorem execute_explain (q : Query) (now now' : Instant) (options : SearchOptions)
    (records : List Json) :
    ((∃ found, q.execute now { options with explain := true } records = .ok found) ↔
      ∀ record ∈ records, ∀ c ∈ q.clauses, c.checkHolds record = .ok () ∧ c.checkWrite now = .ok ()) ∧
    ∀ found, q.execute now { options with explain := true } records = .ok found →
      ∃ plain, q.execute now' { options with explain := false } records = .ok plain ∧
        List.Forall₂ (q.Explains now) plain found := by
  have hrecord {record : Json} :
      q.checkRecord now { options with explain := true } record = .ok () ↔ _ :=
    checkRecord_explain_iff rfl
  refine ⟨?_, fun found hfound => ?_⟩
  · simp only [execute_eq_ok_iff, hrecord]
    exact ⟨fun ⟨_, h, _⟩ => h, fun h => ⟨_, h, rfl⟩⟩
  · obtain ⟨hcheck, rfl⟩ := execute_eq_ok_iff.1 hfound
    simp only [hrecord] at hcheck
    exact ⟨_, execute_of_checkHolds rfl fun record h c hc => (hcheck record h c hc).1,
      search_explain q now now' options records⟩

/-- Without trails, the clause that meets a limit is not tried. -/
theorem not_execute_explain_last_day :
    ¬ ∀ (q : Query) (now : Instant) (records plain : List Json),
      q.execute now { explain := false } records = .ok plain →
        ∃ found, q.execute now { explain := true } records = .ok found ∧
          List.Forall₂ (q.Explains now) plain found := by
  intro h
  let x : Clause := .field "x" .eq (.text "1") true
  let d : Clause := .field "d" .eq (.date lastDay) true
  let record : Json := .obj [("d", .str "2024-01-01")]
  have hplain : (ofClauses [x, d]).execute (.midnight 0) { explain := false } [record] = .ok [] := by rfl
  have htrails : (ofClauses [x, d]).execute (.midnight 0) { explain := true } [record] =
      .error .calendar := by rfl
  obtain ⟨found, hfound, -⟩ := h _ _ _ _ hplain
  rw [htrails] at hfound
  simp at hfound

end Trails

end Query

end SearchBar
