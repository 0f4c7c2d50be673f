import SearchBar.Compile.QueryObject
import SearchBar.Compile.QueryString
import SearchBar.Proofs.Calendar.Timestamps
import SearchBar.Search.Match

/-! # Bounds of dates

A date clause bounds the instants that meet it by the ends of its window. The search, the
range of a query object and the interval of a query string each state the bounds in a way
of their own; read back, all three admit the same instants.
-/

namespace SearchBar

open Calendar Text

/-- A comparison of instants with a limit. -/
structure Bound where
  op : Operator
  limit : Instant

namespace Bound

def Admits (b : Bound) (t : Instant) : Prop :=
  match b.op with
  | .eq => t = b.limit
  | .gt => b.limit < t
  | .gte => b.limit ≤ t
  | .lt => t < b.limit
  | .lte => t ≤ b.limit

end Bound

section Reading

def boundOfMember? : String × Json → Option Bound
  | (key, .str s) => do
    let op ← [Operator.gt, .gte, .lt, .lte].find? (·.name == key)
    let t ← readOffsetTimestamp? s.toList
    some ⟨op, t⟩
  | _ => none

/-- The bounds of a query object that is a range of a field. -/
def boundsOfObject? (field : String) : Json → Option (List Bound)
  | .obj [("range", .obj [(f, .obj members)])] =>
    if f = field then members.mapM boundOfMember? else none
  | _ => none

def takeTimestamp? (cs : List Char) : Option (Instant × List Char) := do
  let (text, cs) ← takeQuoted? cs
  let t ← readOffsetTimestamp? text
  some (t, cs)

/-- Splits off the bracket in front of an interval. A square bracket lets the limit in. -/
def takeOpening? : List Char → Option (Operator × List Char)
  | '[' :: cs => some (.gte, cs)
  | '\x7b' :: cs => some (.gt, cs)
  | _ => none

def takeClosing? : List Char → Option (Operator × List Char)
  | ']' :: cs => some (.lte, cs)
  | '\x7d' :: cs => some (.lt, cs)
  | _ => none

def takeTo? : List Char → Option (List Char)
  | ' ' :: 'T' :: 'O' :: ' ' :: cs => some cs
  | _ => none

def boundsOfInterval? (cs : List Char) : Option (List Bound) := do
  let (opening, cs) ← takeOpening? cs
  let (low, cs) ← takeTimestamp? cs
  let cs ← takeTo? cs
  let (high, cs) ← takeTimestamp? cs
  let (closing, cs) ← takeClosing? cs
  if cs.isEmpty then some [⟨opening, low⟩, ⟨closing, high⟩] else none

def boundsOfSide? (cs : List Char) : Option (List Bound) := do
  let (op, cs) ← Operator.take? cs
  let (t, cs) ← takeTimestamp? cs
  if cs.isEmpty && op != .eq then some [⟨op, t⟩] else none

/-- The bounds in a query string. -/
def boundsOfText? (cs : List Char) : Option (List Bound) :=
  boundsOfInterval? cs <|> boundsOfSide? cs

end Reading

section Midnights

variable {t : Instant} {d : DateValue}

def Calendar.Instant.IsMidnight (t : Instant) : Prop := t = .midnight t.day

theorem isMidnight_opening (d : DateValue) : d.opening.IsMidnight := rfl

theorem isMidnight_closing (d : DateValue) : d.closing.IsMidnight := by
  unfold DateValue.closing Granularity.next
  cases d.unit with
  | day | week => exact Instant.addDays_midnight _ _
  | month | year =>
    simp only [Granularity.shiftMonths]
    split <;> rfl

theorem readOffsetTimestamp?_midnight (ht : t.IsMidnight) (hyear : t.HasPlainYear) :
    readOffsetTimestamp? (isoText t) = some t := by
  have hnano : t.nano.val = 0 := by rw [ht]; rfl
  have hregular : t.IsRegular := by
    intro hleap
    simp [Instant.inLeap, hnano] at hleap
  rw [readOffsetTimestamp?_isoText hyear hregular, Instant.dropFraction_of_fraction]
  simp [Instant.fraction, hnano]

theorem takeTimestamp?_quoted (ht : t.IsMidnight) (hyear : t.HasPlainYear) (rest : List Char) :
    takeTimestamp? (quoted (isoText t) ++ rest) = some (t, rest) := by
  rw [takeTimestamp?, takeQuoted?_quoted_append]
  simp only [Option.bind_eq_bind, Option.bind_some, readOffsetTimestamp?_midnight ht hyear]

theorem boundsOfText?_side (op : Operator) (hop : op ≠ .eq) (ht : t.IsMidnight)
    (hyear : t.HasPlainYear) :
    boundsOfText? (op.sign.toList ++ quoted (isoText t)) = some [⟨op, t⟩] := by
  have htake : Operator.take? (op.sign.toList ++ quoted (isoText t)) =
      some (op, quoted (isoText t)) := by cases op <;> rfl
  have htime := takeTimestamp?_quoted ht hyear []
  rw [List.append_nil] at htime
  have hbracket : boundsOfInterval? (op.sign.toList ++ quoted (isoText t)) = none := by
    cases op <;> rfl
  have hside : boundsOfSide? (op.sign.toList ++ quoted (isoText t)) = some [⟨op, t⟩] := by
    simp [boundsOfSide?, htake, htime, hop]
  rw [boundsOfText?, hbracket, hside]
  rfl

theorem boundsOfText?_window {u : Instant} (ht : t.IsMidnight) (htyear : t.HasPlainYear)
    (hu : u.IsMidnight) (huyear : u.HasPlainYear) :
    boundsOfText? ('[' :: quoted (isoText t) ++ " TO ".toList ++ quoted (isoText u) ++ ['\x7d']) =
      some [⟨.gte, t⟩, ⟨.lt, u⟩] := by
  have hto : takeTo? (" TO ".toList ++ (quoted (isoText u) ++ ['\x7d'])) =
      some (quoted (isoText u) ++ ['\x7d']) := rfl
  have hwindow : boundsOfInterval? ('[' :: (quoted (isoText t) ++
      (" TO ".toList ++ (quoted (isoText u) ++ ['\x7d'])))) = some [⟨.gte, t⟩, ⟨.lt, u⟩] := by
    simp only [boundsOfInterval?, takeOpening?, takeTimestamp?_quoted ht htyear, hto,
      takeTimestamp?_quoted hu huyear, takeClosing?, Option.bind_eq_bind, Option.bind_some]
    rfl
  rw [boundsOfText?]
  simp only [List.cons_append, List.append_assoc, hwindow]
  rfl

end Midnights

section Writing

variable {d : DateValue} {t : Instant}

def Operator.dateBounds (op : Operator) (d : DateValue) : List Bound :=
  match op with
  | eq => [⟨.gte, d.opening⟩, ⟨.lt, d.closing⟩]
  | gt => [⟨.gte, d.closing⟩]
  | gte => [⟨.gte, d.opening⟩]
  | lt => [⟨.lt, d.opening⟩]
  | lte => [⟨.lt, d.closing⟩]

theorem acceptsInstant_iff (op : Operator) (d : DateValue) (t : Instant) :
    op.acceptsInstant d t = true ↔ ∀ b ∈ op.dateBounds d, b.Admits t := by
  cases op <;> simp [Operator.acceptsInstant, Operator.dateBounds, Bound.Admits]

variable (hopening : d.opening.HasPlainYear) (hclosing : d.closing.HasPlainYear)
include hopening hclosing

theorem boundsOfObject?_comparison (field : String) (op : Operator) :
    boundsOfObject? field (PartCompiler.comparison field op (.date d)) = some (op.dateBounds d) := by
  have hlow := readOffsetTimestamp?_midnight (isMidnight_opening d) hopening
  have hhigh := readOffsetTimestamp?_midnight (isMidnight_closing d) hclosing
  have horder : ¬ "lt" < "gte" := by decide
  have hwindow (a b : Json) :
      Json.ofMembers [("gte", a), ("lt", b)] = .obj [("gte", a), ("lt", b)] := by
    simp [Json.ofMembers, Json.insert, horder]
  have hside (key : String) (a : Json) : Json.ofMembers [(key, a)] = .obj [(key, a)] := rfl
  cases op <;>
    simp [PartCompiler.comparison, PartCompiler.dateObject, PartCompiler.range, single,
      PartCompiler.timeText, hwindow, hside, boundsOfObject?, boundOfMember?, Operator.dateBounds,
      hlow, hhigh, Operator.name]

theorem boundsOfText?_comparisonText (op : Operator) :
    boundsOfText? (comparisonText op (.date d)) = some (op.dateBounds d) := by
  have hlow := isMidnight_opening d
  have hhigh := isMidnight_closing d
  cases op with
  | eq => exact boundsOfText?_window hlow hopening hhigh hclosing
  | gt => exact boundsOfText?_side .gte (by decide) hhigh hclosing
  | gte => exact boundsOfText?_side .gte (by decide) hlow hopening
  | lt => exact boundsOfText?_side .lt (by decide) hlow hopening
  | lte => exact boundsOfText?_side .lt (by decide) hhigh hclosing

end Writing

/-- A search, a query object and a query string admit the same instants for a date clause. -/
theorem date_bounds_agree {d : DateValue} (hopening : d.opening.HasPlainYear)
    (hclosing : d.closing.HasPlainYear) (field : String) (op : Operator) :
    ∃ inObject inText : List Bound,
      boundsOfObject? field (PartCompiler.comparison field op (.date d)) = some inObject ∧
      boundsOfText? (comparisonText op (.date d)) = some inText ∧
      ∀ t : Instant,
        (∀ s : String, (Json.str s).readInstant = some t →
          (meets op (.date d) (.str s) = true ↔ ∀ b ∈ inObject, b.Admits t)) ∧
        ((∀ b ∈ inObject, b.Admits t) ↔ ∀ b ∈ inText, b.Admits t) := by
  refine ⟨op.dateBounds d, op.dateBounds d, boundsOfObject?_comparison hopening hclosing field op,
    boundsOfText?_comparisonText hopening hclosing op, ?_⟩
  intro t
  refine ⟨?_, Iff.rfl⟩
  intro s hs
  have hmeets : meets op (.date d) (.str s) = op.acceptsInstant d t := by
    simp only [meets, meetsScalar, hs, Option.any_some]
  rw [hmeets, acceptsInstant_iff]

theorem date_bounds_agree_february :
    let d : DateValue := tagged (.midnight (Date.toDay ⟨2024, 2, 1⟩)) .month "MMM YYYY"
    let late : Instant := ⟨Date.toDay ⟨2024, 2, 29⟩, ⟨86399, by decide⟩, ⟨500000000, by decide⟩⟩
    let march : Instant := .midnight (Date.toDay ⟨2024, 3, 1⟩)
    (d.opening.HasPlainYear ∧ d.closing.HasPlainYear) ∧
    ((Json.str "2024-02-29T23:59:59.5Z").readInstant = some late ∧
      (Json.str "2024-03-01").readInstant = some march) ∧
    ∃ inObject inText : List Bound,
      boundsOfObject? "due" (PartCompiler.comparison "due" .lte (.date d)) = some inObject ∧
      boundsOfText? (comparisonText .lte (.date d)) = some inText ∧
      (∀ b ∈ inText, b.Admits late) ∧ ¬ ∀ b ∈ inObject, b.Admits march := by
  intro d late march
  have hopening : d.opening.HasPlainYear := by decide
  have hclosing : d.closing.HasPlainYear := by decide
  have hlate : (Json.str "2024-02-29T23:59:59.5Z").readInstant = some late := by decide
  have hmarch : (Json.str "2024-03-01").readInstant = some march := by decide
  obtain ⟨inObject, inText, hobject, htext, hagree⟩ :=
    date_bounds_agree hopening hclosing "due" .lte
  refine ⟨⟨hopening, hclosing⟩, ⟨hlate, hmarch⟩, inObject, inText, hobject, htext, ?_, ?_⟩
  · have hmeets : meets .lte (.date d) (.str "2024-02-29T23:59:59.5Z") = true := by decide
    exact (hagree late).2.1 (((hagree late).1 _ hlate).1 hmeets)
  · intro hadmits
    have hmeets : meets .lte (.date d) (.str "2024-03-01") = false := by decide
    have hyes := ((hagree march).1 _ hmarch).2 hadmits
    simp [hmeets] at hyes

end SearchBar
