import Mathlib.Data.List.Induction
import Mathlib.Data.Prod.Lex
import SearchBar.Proofs.Query.Placement

/-! # Lines and columns

A line and a column name a place in a text as well as its offset does. Places further on in
the text are further on by line and column, and the offset can be counted again from the
lines of the text.
-/

namespace SearchBar

/-- The offset falls between two characters of the text, in front of them all or behind. -/
def IsBoundary (text : List Char) (offset : Nat) : Prop :=
  ∃ before, before <+: text ∧ byteLength before = offset

def Position.lineColumn (p : Position) : Nat ×ₗ Nat := toLex (p.line, p.column)

def linesOf (text : List Char) : List (List Char) := text.splitOn '\n'

def ended (ls : List (List Char)) : List Char := ls.flatMap (· ++ ['\n'])

/-- The bytes in front of a line and a column: those of the lines before it with their
newlines, and those of the characters before it in the line itself. A line has a column for
each of its characters and one behind them. -/
def offsetAt? (text : List Char) : Nat → Nat → Option Nat
  | line + 1, column + 1 =>
    match (linesOf text)[line]? with
    | some here =>
      if column ≤ here.length then
        some (byteLength (ended ((linesOf text).take line)) + byteLength (here.take column))
      else none
    | none => none
  | _, _ => none

section Lines

variable {a b cs part part' l here : List Char} {full ls : List (List Char)} {i : Nat}

@[simp] theorem ended_nil : ended [] = [] := rfl

@[simp] theorem ended_cons (l : List Char) (ls : List (List Char)) :
    ended (l :: ls) = l ++ '\n' :: ended ls := by
  simp [ended]

@[simp] theorem ended_append (ls ls' : List (List Char)) :
    ended (ls ++ ls') = ended ls ++ ended ls' := by
  simp [ended]

/-- The text is made of the lines `full` with their newlines, and of `part`, which begins
one more line. -/
structure InLines (cs : List Char) (full : List (List Char)) (part : List Char) : Prop where
  eq_append : cs = ended full ++ part
  full_unbroken : ∀ l ∈ full, '\n' ∉ l
  part_unbroken : '\n' ∉ part

theorem InLines.append_part (h : InLines a full part) (hb : '\n' ∉ b) :
    InLines (a ++ b) full (part ++ b) where
  eq_append := by rw [h.eq_append, List.append_assoc]
  full_unbroken := h.full_unbroken
  part_unbroken := fun hmem => (List.mem_append.1 hmem).elim h.part_unbroken hb

/-- The first newline that follows ends the last line. -/
theorem InLines.append_lines (h : InLines a full part) (h' : InLines b (l :: ls) part') :
    InLines (a ++ b) (full ++ (part ++ l) :: ls) part' where
  eq_append := by simp [h.eq_append, h'.eq_append]
  full_unbroken := by
    intro k hk
    rcases List.mem_append.1 hk with hk | hk
    · exact h.full_unbroken k hk
    · rcases List.mem_cons.1 hk with rfl | hk
      · exact fun hmem => (List.mem_append.1 hmem).elim h.part_unbroken
          (h'.full_unbroken l List.mem_cons_self)
      · exact h'.full_unbroken k (List.mem_cons_of_mem l hk)
  part_unbroken := h'.part_unbroken

theorem exists_inLines (cs : List Char) : ∃ full part, InLines cs full part := by
  induction cs using List.reverseRecOn with
  | nil => exact ⟨[], [], rfl, by simp, by simp⟩
  | append_singleton cs c ih =>
    obtain ⟨full, part, h⟩ := ih
    by_cases hc : c = '\n'
    · subst hc
      have hnewline : InLines ['\n'] [[]] [] := ⟨rfl, by simp, by simp⟩
      exact ⟨_, _, h.append_lines hnewline⟩
    · exact ⟨_, _, h.append_part (by simpa using Ne.symm hc)⟩

theorem InLines.linesOf_eq (h : InLines cs full part) : linesOf cs = full ++ [part] := by
  obtain ⟨rfl, hfull, hpart⟩ := h
  induction full with
  | nil => exact List.splitOn_eq_singleton hpart
  | cons l ls ih =>
    obtain ⟨hl, hls⟩ := List.forall_mem_cons.1 hfull
    rw [ended_cons, List.append_assoc, List.cons_append, linesOf,
      List.splitOn_append_cons_self_of_not_mem hl, ← linesOf, ih hls, List.cons_append]

theorem InLines.exists_linesOf_append (h : InLines a full part) (b : List Char) :
    ∃ more rest, linesOf (a ++ b) = full ++ (part ++ more) :: rest := by
  obtain ⟨full', part', hb⟩ := exists_inLines b
  cases full' with
  | nil =>
    have hpart : b = part' := hb.eq_append
    exact ⟨b, [], (h.append_part (hpart ▸ hb.part_unbroken)).linesOf_eq⟩
  | cons l ls =>
    refine ⟨l, ls ++ [part'], ?_⟩
    rw [(h.append_lines hb).linesOf_eq, List.append_assoc, List.cons_append]

theorem ended_linesOf (cs : List Char) : ended (linesOf cs) = cs ++ ['\n'] := by
  obtain ⟨full, part, h⟩ := exists_inLines cs
  rw [h.linesOf_eq, ended_append, ended_cons, ended_nil, ← List.append_assoc, ← h.eq_append]

theorem newline_not_mem_of_mem_linesOf (hl : l ∈ linesOf cs) : '\n' ∉ l := by
  obtain ⟨full, part, h⟩ := exists_inLines cs
  rw [h.linesOf_eq, List.mem_append, List.mem_singleton] at hl
  rcases hl with hl | rfl
  · exact h.full_unbroken l hl
  · exact h.part_unbroken

theorem ended_take_append_isPrefix (h : (linesOf cs)[i]? = some here) :
    ended ((linesOf cs).take i) ++ here <+: cs := by
  have hsplit : (linesOf cs).take i ++ here :: (linesOf cs).drop (i + 1) = linesOf cs := by
    obtain ⟨hi, rfl⟩ := List.getElem?_eq_some_iff.1 h
    rw [← List.drop_eq_getElem_cons hi, List.take_append_drop]
  have hends : ended ((linesOf cs).take i) ++ here ++ '\n' :: ended ((linesOf cs).drop (i + 1)) =
      cs ++ ['\n'] := by
    rw [← ended_linesOf, ← congrArg ended hsplit, ended_append, ended_cons, List.append_assoc]
  rcases List.prefix_concat_iff.1 ⟨_, hends⟩ with hall | hbegins
  · have hlength := congrArg List.length hends
    rw [hall] at hlength
    simp at hlength
  · exact hbegins

theorem inLines_take (h : (linesOf cs)[i]? = some here) (n : Nat) :
    InLines (ended ((linesOf cs).take i) ++ here.take n) ((linesOf cs).take i) (here.take n) where
  eq_append := rfl
  full_unbroken := fun _ hl => newline_not_mem_of_mem_linesOf (List.mem_of_mem_take hl)
  part_unbroken := fun hmem =>
    newline_not_mem_of_mem_linesOf (List.mem_of_getElem? h) (List.mem_of_mem_take hmem)

end Lines

section Places

variable {a b before cs part : List Char} {full : List (List Char)} {line column o o₁ o₂ : Nat}

theorem InLines.count (h : InLines cs full part) : cs.count '\n' = full.length := by
  obtain ⟨rfl, hfull, hpart⟩ := h
  rw [List.count_append, List.count_eq_zero.2 hpart, Nat.add_zero]
  induction full with
  | nil => rfl
  | cons l ls ih =>
    obtain ⟨hl, hls⟩ := List.forall_mem_cons.1 hfull
    rw [ended_cons, List.count_append, List.count_eq_zero.2 hl, Nat.zero_add, List.count_cons_self,
      ih hls, List.length_cons]

theorem InLines.takeWhile_reverse (h : InLines cs full part) :
    cs.reverse.takeWhile (· != '\n') = part.reverse := by
  have hends : (ended full).reverse.takeWhile (· != '\n') = [] := by
    rcases List.eq_nil_or_concat full with hfull | ⟨ls, l, hfull⟩
    · simp [hfull]
    · simp [hfull]
  have hpart : ∀ c ∈ part.reverse, (c != '\n') = true := fun c hc =>
    bne_iff_ne.2 fun heq => h.part_unbroken (heq ▸ List.mem_reverse.1 hc)
  rw [h.eq_append, List.reverse_append, List.takeWhile_append_of_pos hpart, hends, List.append_nil]

theorem InLines.lineColumn_at_append (h : InLines before full part) (behind : List Char) :
    (Position.at (before ++ behind) (byteLength before)).lineColumn =
      toLex (full.length + 1, part.length + 1) := by
  have hmin : min (byteLength before) (byteLength (before ++ behind)) = byteLength before := by
    rw [byteLength_append]
    omega
  simp only [Position.lineColumn, Position.at, hmin, takeBytes?_append, Option.getD_some, h.count,
    h.takeWhile_reverse, List.length_reverse]

theorem IsBoundary.exists_append (h₁ : IsBoundary cs o₁) (h₂ : IsBoundary cs o₂) (hlt : o₁ < o₂) :
    ∃ a b behind, cs = a ++ b ++ behind ∧ b ≠ [] ∧ byteLength a = o₁ ∧
      byteLength (a ++ b) = o₂ := by
  obtain ⟨a, ha, rfl⟩ := h₁
  obtain ⟨a', ha', rfl⟩ := h₂
  rcases List.prefix_or_prefix_of_prefix ha ha' with ⟨b, rfl⟩ | ⟨b, rfl⟩
  · obtain ⟨behind, rfl⟩ := ha'
    exact ⟨a, b, behind, rfl, fun hb => by simp [hb] at hlt, rfl, rfl⟩
  · rw [byteLength_append] at hlt
    omega

/-- Reading on leads to a later line if it passes a newline, and otherwise to a later column
of the line. -/
theorem lineColumn_lt_append (a : List Char) (hb : b ≠ []) (behind : List Char) :
    (Position.at (a ++ b ++ behind) (byteLength a)).lineColumn <
      (Position.at (a ++ b ++ behind) (byteLength (a ++ b))).lineColumn := by
  obtain ⟨full, part, ha⟩ := exists_inLines a
  obtain ⟨full', part', hb'⟩ := exists_inLines b
  have hstart : (Position.at (a ++ b ++ behind) (byteLength a)).lineColumn =
      toLex (full.length + 1, part.length + 1) := by
    rw [List.append_assoc, ha.lineColumn_at_append]
  rw [hstart]
  cases full' with
  | nil =>
    have hpart : b = part' := hb'.eq_append
    have hpos : 0 < b.length := List.length_pos_iff.2 hb
    rw [(ha.append_part (hpart ▸ hb'.part_unbroken)).lineColumn_at_append,
      Prod.Lex.toLex_lt_toLex, List.length_append]
    exact .inr ⟨rfl, by omega⟩
  | cons l ls =>
    rw [(ha.append_lines hb').lineColumn_at_append, Prod.Lex.toLex_lt_toLex, List.length_append,
      List.length_cons]
    exact .inl (by omega)

theorem offsetAt?_append (h : InLines before full part) (behind : List Char) :
    offsetAt? (before ++ behind) (full.length + 1) (part.length + 1) =
      some (byteLength before) := by
  obtain ⟨more, rest, hlines⟩ := h.exists_linesOf_append behind
  have hhere : (linesOf (before ++ behind))[full.length]? = some (part ++ more) := by
    rw [hlines, List.getElem?_append_right (Nat.le_refl _), Nat.sub_self]
    rfl
  have hle : part.length ≤ (part ++ more).length := by simp
  simp only [offsetAt?, hhere, if_pos hle, List.take_left]
  rw [hlines, List.take_left, ← byteLength_append, ← h.eq_append]

theorem exists_inLines_of_offsetAt? (h : offsetAt? cs line column = some o) :
    ∃ before full part, before <+: cs ∧ InLines before full part ∧ byteLength before = o ∧
      line = full.length + 1 ∧ column = part.length + 1 := by
  unfold offsetAt? at h
  split at h
  · rename_i line column
    split at h
    · rename_i here hhere
      split at h
      · rename_i hle
        have hlt := (List.getElem?_eq_some_iff.1 hhere).1
        have hbegins := (List.prefix_append_right_inj (ended ((linesOf cs).take line))).2
          (List.take_prefix column here)
        refine ⟨_, _, _, hbegins.trans (ended_take_append_isPrefix hhere),
          inLines_take hhere column, ?_, ?_, ?_⟩
        · rw [byteLength_append]
          exact Option.some.inj h
        · rw [List.length_take_of_le (Nat.le_of_lt hlt)]
        · rw [List.length_take_of_le hle]
      · simp at h
    · simp at h
  · simp at h

/-- The offset of a line and a column is the one that is at that line and column. -/
theorem offsetAt?_eq_some_iff : offsetAt? cs line column = some o ↔
    IsBoundary cs o ∧ (Position.at cs o).lineColumn = toLex (line, column) := by
  constructor
  · intro h
    obtain ⟨before, full, part, ⟨behind, rfl⟩, hlines, rfl, rfl, rfl⟩ :=
      exists_inLines_of_offsetAt? h
    exact ⟨⟨before, List.prefix_append before behind, rfl⟩, hlines.lineColumn_at_append behind⟩
  · rintro ⟨⟨before, ⟨behind, rfl⟩, rfl⟩, h⟩
    obtain ⟨full, part, hlines⟩ := exists_inLines before
    rw [hlines.lineColumn_at_append] at h
    obtain ⟨rfl, rfl⟩ := Prod.mk.inj (toLex.injective h)
    exact offsetAt?_append hlines behind

end Places

section Diagnostics

theorem IsStretch.isBoundary {text : List Char} {start stop : Nat} (h : IsStretch text start stop) :
    IsBoundary text start ∧ IsBoundary text stop := by
  obtain ⟨before, inside, behind, rfl, hstart, hstop, -⟩ := h
  refine ⟨⟨before, List.prefix_append _ _, hstart⟩, ⟨before ++ inside, ?_, hstop⟩⟩
  rw [← List.append_assoc]
  exact List.prefix_append _ _

/-- Lines and columns identify the places of a text. Of two offsets the later one is at a later
line and column, and a line and a column lead back to the offset that is there. So the lines
and columns of a diagnostic say as well as its offsets do what it is about. -/
theorem positions_identify_offsets (text : String) :
    (∀ o₁ o₂, IsBoundary text.toList o₁ → IsBoundary text.toList o₂ → o₁ < o₂ →
      (Position.at text.toList o₁).lineColumn < (Position.at text.toList o₂).lineColumn) ∧
    (∀ line column o, offsetAt? text.toList line column = some o ↔
      IsBoundary text.toList o ∧ (Position.at text.toList o).lineColumn = toLex (line, column)) ∧
    ∀ dialect now, ∀ g ∈ (Query.readAll dialect now text).diagnostics,
      offsetAt? text.toList g.start.line g.start.column = some g.start.offset ∧
        offsetAt? text.toList g.stop.line g.stop.column = some g.stop.offset := by
  refine ⟨fun o₁ o₂ h₁ h₂ hlt => ?_, fun line column o => offsetAt?_eq_some_iff,
    fun dialect now g hg => ?_⟩
  · obtain ⟨a, b, behind, htext, hb, rfl, rfl⟩ := h₁.exists_append h₂ hlt
    rw [htext]
    exact lineColumn_lt_append a hb behind
  · rw [diagnostics_readAll] at hg
    obtain ⟨p, hp, hg⟩ := List.mem_filterMap.1 hg
    have hstretch : IsStretch text.toList p.start p.stop := isStretch_of_mem_pieces [] hp
    obtain ⟨hstart, hstop⟩ := p.places_of_diagnostic? hstretch hg
    obtain ⟨hstart', hstop'⟩ := p.offsets_of_diagnostic? hstretch hg
    obtain ⟨hbefore, hbehind⟩ := hstretch.isBoundary
    rw [hstart', hstop', hstart, hstop]
    exact ⟨offsetAt?_eq_some_iff.2 ⟨hbefore, rfl⟩, offsetAt?_eq_some_iff.2 ⟨hbehind, rfl⟩⟩

theorem positions_identify_offsets_newlines :
    let text := "é\n\n€ a>"
    (IsBoundary text.toList 2 ∧ IsBoundary text.toList 3 ∧
      (Position.at text.toList 2).lineColumn = toLex (1, 2) ∧
      (Position.at text.toList 3).lineColumn = toLex (2, 1) ∧
      (Position.at text.toList 2).lineColumn < (Position.at text.toList 3).lineColumn) ∧
    (IsBoundary text.toList 7 ∧ (Position.at text.toList 7).lineColumn = toLex (3, 2) ∧
      offsetAt? text.toList 3 2 = some 7) ∧
    ∃ g ∈ (Query.readAll {} (.midnight 0) text).diagnostics,
      offsetAt? text.toList g.start.line g.start.column = some g.start.offset ∧
        offsetAt? text.toList g.stop.line g.stop.column = some g.stop.offset := by
  intro text
  obtain ⟨hlt, hiff, hdiagnostics⟩ := positions_identify_offsets text
  have h2 : IsBoundary text.toList 2 := ⟨"é".toList, by decide, by decide⟩
  have h3 : IsBoundary text.toList 3 := ⟨"é\n".toList, by decide, by decide⟩
  have h7 : IsBoundary text.toList 7 := ⟨"é\n\n€".toList, by decide, by decide⟩
  obtain ⟨g, hg⟩ := List.exists_mem_of_ne_nil (Query.readAll {} (.midnight 0) text).diagnostics
    (by decide +kernel)
  exact ⟨⟨h2, h3, by decide, by decide, hlt 2 3 h2 h3 (by decide)⟩,
    ⟨h7, by decide, (hiff 3 2 7).2 ⟨h7, by decide⟩⟩, g, hg, hdiagnostics _ _ g hg⟩

end Diagnostics

end SearchBar
