import Mathlib.Data.List.Forall2

/-! # Calls in a row

A call that can fail is made for each member of a list. Either every call gives a result, or
the first one that fails settles the error of the run.
-/

namespace SearchBar

variable {α β γ δ ε : Type} {call : α → Except ε β} {a : α} {as : List α} {e : ε}

theorem forall₂_ok_iff {f : α → Except ε β} {bs : List β} :
    List.Forall₂ (fun a b => f a = .ok b) as bs ↔
      (∀ a ∈ as, ∃ b, f a = .ok b) ∧ as.filterMap (fun a => (f a).toOption) = bs := by
  constructor
  · intro h
    induction h with
    | nil => exact ⟨by simp, rfl⟩
    | @cons a b as bs hab _ ih =>
      refine ⟨List.forall_mem_cons.2 ⟨⟨b, hab⟩, ih.1⟩, ?_⟩
      rw [List.filterMap_cons, hab]
      exact congrArg (b :: ·) ih.2
  · rintro ⟨h, rfl⟩
    induction as with
    | nil => exact .nil
    | cons a as ih =>
      obtain ⟨⟨b, hab⟩, h⟩ := List.forall_mem_cons.1 h
      rw [List.filterMap_cons, hab]
      exact .cons hab (ih h)

section Bind

variable {x : Except ε α} {f : α → Except ε β} {b : β}

theorem bind_eq_ok_iff : x >>= f = .ok b ↔ ∃ a, x = .ok a ∧ f a = .ok b := by
  cases x <;> simp [bind, Except.bind]

theorem bind_eq_error_iff :
    x >>= f = .error e ↔ x = .error e ∨ ∃ a, x = .ok a ∧ f a = .error e := by
  cases x <;> simp [bind, Except.bind]

theorem discard_eq_ok_iff : discard x = .ok () ↔ ∃ a, x = .ok a := by
  cases x <;> simp [discard, Functor.discard, Functor.mapConst, Except.map]

end Bind

theorem mapM_eq_ok_iff {f : α → Except ε β} {bs : List β} :
    as.mapM f = .ok bs ↔ List.Forall₂ (fun a b => f a = .ok b) as bs := by
  induction as generalizing bs with
  | nil => simp [pure, Except.pure, eq_comm]
  | cons a as ih =>
    rw [List.mapM_cons, List.forall₂_cons_left_iff]
    constructor
    · intro h
      obtain ⟨b, hb, h⟩ := bind_eq_ok_iff.1 h
      obtain ⟨bs', hbs, h⟩ := bind_eq_ok_iff.1 h
      exact ⟨b, bs', hb, ih.1 hbs, (Except.ok.inj h).symm⟩
    · rintro ⟨b, bs', hb, hbs, rfl⟩
      exact bind_eq_ok_iff.2 ⟨b, hb, bind_eq_ok_iff.2 ⟨bs', ih.2 hbs, rfl⟩⟩

/-- Of calls in a row, the first one that fails has this error. -/
def FailsFirst (call : α → Except ε β) (as : List α) (e : ε) : Prop :=
  ∃ before a behind, as = before ++ a :: behind ∧ (∀ b ∈ before, ∃ r, call b = .ok r) ∧
    call a = .error e

theorem failsFirst_nil : ¬ FailsFirst call [] e := by
  rintro ⟨before, a, behind, h, -⟩
  simp at h

theorem failsFirst_cons : FailsFirst call (a :: as) e ↔
    call a = .error e ∨ (∃ r, call a = .ok r) ∧ FailsFirst call as e := by
  constructor
  · rintro ⟨before, b, behind, h, hbefore, hb⟩
    cases before with
    | nil =>
      obtain ⟨rfl, -⟩ := List.cons.inj h
      exact .inl hb
    | cons c before =>
      obtain ⟨rfl, rfl⟩ := List.cons.inj h
      obtain ⟨hc, hbefore⟩ := List.forall_mem_cons.1 hbefore
      exact .inr ⟨hc, before, b, behind, rfl, hbefore, hb⟩
  · rintro (h | ⟨ha, before, b, behind, rfl, hbefore, hb⟩)
    · exact ⟨[], a, as, rfl, by simp, h⟩
    · exact ⟨a :: before, b, behind, rfl, List.forall_mem_cons.2 ⟨ha, hbefore⟩, hb⟩

theorem exists_failsFirst_iff :
    (∃ e, FailsFirst call as e) ↔ ∃ a ∈ as, ∃ e, call a = .error e := by
  induction as with
  | nil => simp [failsFirst_nil]
  | cons a as ih =>
    simp only [failsFirst_cons, List.exists_mem_cons_iff, ← ih]
    cases ha : call a with
    | ok r => simp
    | error e => exact iff_of_true ⟨e, .inl rfl⟩ (.inl ⟨e, rfl⟩)

theorem failsFirst_map (f : α → β → γ) (g : α → δ) {call : δ → Except ε β} :
    FailsFirst (fun a => (call (g a)).map (f a)) as e ↔ FailsFirst call (as.map g) e := by
  induction as with
  | nil => simp [failsFirst_nil]
  | cons a as ih =>
    rw [List.map_cons, failsFirst_cons, failsFirst_cons, ih]
    cases call (g a) <;> simp [Except.map]

/-- A run over a list ends with the first error. -/
theorem mapM_eq_error_iff : as.mapM call = .error e ↔ FailsFirst call as e := by
  induction as with
  | nil => simp [failsFirst_nil, pure, Except.pure]
  | cons a as ih =>
    rw [List.mapM_cons, failsFirst_cons, ← ih]
    cases ha : call a with
    | error e' => simp [bind, Except.bind]
    | ok r => cases hm : as.mapM call <;> simp [bind, Except.bind, pure, Except.pure]

end SearchBar
