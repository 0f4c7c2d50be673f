import SearchBar.Proofs.Compile.Bounds
import SearchBar.Proofs.Search.Matching

/-! # Comparisons in order

Numbers, dates and texts each give the operators a meaning of their own. In all three a value
of a record stands before, at or behind the value of a clause, or is not compared at all: a
date is a window, and an instant may lie before it, in it or behind it. So the operators fit
together, and on a list they do so because one item decides.
-/

namespace SearchBar

open Calendar Text

/-- No window ends before it begins, also where the calendar ends. -/
theorem Calendar.DateValue.day_opening_le (d : DateValue) : d.opening.day ≤ d.closing.day := by
  have hmonths (k n : Int) (hn : 0 ≤ n) : (firstOfMonth k).toDay ≤
      (Granularity.shiftMonths (.midnight (firstOfMonth k).toDay) n).day := by
    rw [shiftMonths_firstOfMonth, day_midnight]
    exact toDay_firstOfMonth_le (by split <;> omega)
  unfold opening closing Granularity.next
  cases d.unit with
  | day | week =>
    simp only [Granularity.start, Instant.addDays_midnight, day_midnight]
    omega
  | month =>
    rw [start_month_eq]
    exact hmonths _ 1 (by decide)
  | year =>
    rw [start_year_eq]
    exact hmonths _ 12 (by decide)

theorem Calendar.DateValue.lt_opening_iff {d : DateValue} {t : Instant} :
    t < d.opening ↔ t.day < d.opening.day := Instant.lt_midnight_iff

theorem Calendar.DateValue.lt_closing_iff {d : DateValue} {t : Instant} :
    t < d.closing ↔ t.day < d.closing.day := by
  rw [isMidnight_closing d]
  exact Instant.lt_midnight_iff

section Places

def Calendar.DateValue.place (d : DateValue) (t : Instant) : Ordering :=
  if t < d.opening then .lt else if t < d.closing then .eq else .gt

def place? : Value → Json → Option Ordering
  | .date d, a => a.readInstant.map d.place
  | .number x, a => a.readNumber.bind (·.compare? x)
  | .text s, .str a => some (compare (lower a.toList) (lower s.toList))
  | _, _ => none

def places (v : Value) (a : Json) : List Ordering := a.leaves.filterMap (place? v)

def Json.isNumberOrBool : Json → Bool
  | .bool _ | .int _ | .float _ => true
  | _ => false

/-- The values of a clause that are compared in order with all that a value of a record holds.
For a text these may be nothing but texts, next to what is never compared with a text: nulls
and objects. -/
inductive Value.Orders (a : Json) : Value → Prop
  | number (x : Binary64) : Orders a (.number x)
  | date (d : DateValue) : Orders a (.date d)
  | text (s : String) (h : ∀ l ∈ a.leaves, l.isNumberOrBool = false) : Orders a (.text s)

variable {v : Value} {a l : Json} {op op' : Operator} {o : Ordering}

theorem Operator.acceptsInstant_eq_accepts (op : Operator) (d : DateValue) (t : Instant) :
    op.acceptsInstant d t = op.accepts (d.place t) := by
  have hordered : t < d.opening → t < d.closing := fun h =>
    DateValue.lt_closing_iff.2 (Int.lt_of_lt_of_le (DateValue.lt_opening_iff.1 h) d.day_opening_le)
  unfold DateValue.place
  by_cases hopening : t < d.opening
  · have hclosing := hordered hopening
    cases op <;> simp [acceptsInstant, accepts, Instant.le_def, hopening, hclosing]
  · by_cases hclosing : t < d.closing <;> cases op <;>
      simp [acceptsInstant, accepts, Instant.le_def, hopening, hclosing]

theorem Operator.acceptsText_eq_accepts (op : Operator) (expected : List Char) (s : String) :
    op.acceptsText expected (.str s) = op.accepts (compare (lower s.toList) expected) := by
  cases op with
  | eq => exact Std.compare_beq_eq_beq.symm
  | gt | gte | lt | lte => rfl

/-- An operator accepts a value by its place. -/
theorem meetsScalar_eq_any_place (h : v.Orders a) (hl : l ∈ a.leaves) (op : Operator) :
    meetsScalar l op v = (place? v l).any op.accepts := by
  cases h with
  | number x => rfl
  | date d =>
    rw [meetsScalar, place?, Option.any_map]
    congr 1
    funext t
    exact op.acceptsInstant_eq_accepts d t
  | text s h =>
    have hkind := h l hl
    cases l with
    | str s' => exact op.acceptsText_eq_accepts _ s'
    | bool | int | float => simp [Json.isNumberOrBool] at hkind
    | null | arr | obj => cases op <;> rfl

theorem meets_iff_exists_place (h : v.Orders a) (op : Operator) :
    meets op v a = true ↔ ∃ o ∈ places v a, op.accepts o = true := by
  simp only [meets_eq_any, List.any_eq_true, places, List.mem_filterMap]
  constructor
  · rintro ⟨l, hl, hmeets⟩
    rw [meetsScalar_eq_any_place h hl, Option.any_eq_true] at hmeets
    obtain ⟨o, ho, hacc⟩ := hmeets
    exact ⟨o, ⟨l, hl, ho⟩, hacc⟩
  · rintro ⟨o, ⟨l, hl, ho⟩, hacc⟩
    exact ⟨l, hl, by rw [meetsScalar_eq_any_place h hl, ho, Option.any_some, hacc]⟩

theorem Operator.accepts_gte_iff :
    gte.accepts o = true ↔ gt.accepts o = true ∨ eq.accepts o = true := by
  cases o <;> decide

theorem Operator.accepts_lte_iff :
    lte.accepts o = true ↔ lt.accepts o = true ∨ eq.accepts o = true := by
  cases o <;> decide

/-- The operators of which no two accept one place. -/
def Operator.exclusive : List Operator := [lt, eq, gt]

theorem Operator.eq_of_accepts (hop : op ∈ exclusive) (hop' : op' ∈ exclusive)
    (h : op.accepts o = true) (h' : op'.accepts o = true) : op = op' := by
  have hall : ∀ op ∈ exclusive, ∀ op' ∈ exclusive,
      op.accepts o = true → op'.accepts o = true → op = op' := by
    cases o <;> decide
  exact hall op hop op' hop' h h'

theorem leaves_of_ne_arr (h : ∀ items, a ≠ .arr items) : a.leaves = [a] := by
  cases a with
  | arr items => exact absurd rfl (h items)
  | null | bool | int | float | str | obj => simp [Json.leaves]

end Places

/-- Behind or at is one of behind and at, and before or at is one of before and at, also in
lists of any depth. A value that is no list has one place at most. -/
theorem comparisons_cohere {v : Value} {a : Json} (h : v.Orders a) :
    (meets .gte v a = true ↔ meets .gt v a = true ∨ meets .eq v a = true) ∧
    (meets .lte v a = true ↔ meets .lt v a = true ∨ meets .eq v a = true) ∧
    ((∀ items, a ≠ .arr items) → ∀ op ∈ Operator.exclusive, ∀ op' ∈ Operator.exclusive,
      meets op v a = true → meets op' v a = true → op = op') := by
  simp only [meets_iff_exists_place h]
  refine ⟨?_, ?_, ?_⟩
  · simp only [Operator.accepts_gte_iff, and_or_left, exists_or]
  · simp only [Operator.accepts_lte_iff, and_or_left, exists_or]
  · rintro hlist op hop op' hop' ⟨o, ho, hacc⟩ ⟨o', ho', hacc'⟩
    have hplace {o : Ordering} (ho : o ∈ places v a) : place? v a = some o := by
      simpa [places, leaves_of_ne_arr hlist] using ho
    obtain rfl := Option.some.inj ((hplace ho).symm.trans (hplace ho'))
    exact Operator.eq_of_accepts hop hop' hacc hacc'

theorem comparisons_cohere_lists :
    let names := Json.arr [.str "Alice", .arr [.str "BOB", .null]]
    let month : Value :=
      .date { instant := .midnight (Date.toDay ⟨2023, 2, 1⟩), granularity := some .month }
    let day := Json.str "2023-02-28"
    ((Value.text "bob").Orders names ∧ meets .lt (.text "bob") names = true ∧
      (meets .lte (.text "bob") names = true ↔
        meets .lt (.text "bob") names = true ∨ meets .eq (.text "bob") names = true)) ∧
    month.Orders day ∧ (∀ items, day ≠ .arr items) ∧ meets .eq month day = true ∧
      meets .gt month day = false := by
  intro names month day
  have hnames : (Value.text "bob").Orders names := .text _ (by decide)
  have hday : month.Orders day := .date _
  have hlist (items : List Json) : day ≠ .arr items := by simp [day]
  have heq : meets .eq month day = true := by decide
  refine ⟨⟨hnames, by decide, (comparisons_cohere hnames).2.1⟩, hday, hlist, heq,
    Bool.eq_false_iff.2 fun hgt => ?_⟩
  have hsame := (comparisons_cohere hday).2.2 hlist .eq (by decide) .gt (by decide) heq hgt
  cases hsame

end SearchBar
