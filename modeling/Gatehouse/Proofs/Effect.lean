import Mathlib.Order.Defs.Unbundled

/-!
# Computations that fail and keep their state

Setups, stages of a request and operations on a writer are all computations of one kind: they work
on a state, and what they have done before they fail stays done.  The equations below run such a
computation step by step; `Leaves` states what a whole computation does to its state whatever its
result, and is proved from what its steps do.
-/

namespace Gatehouse.Effect

/-! ## Computations without a state -/

section

variable {ε α β : Type}

/-- What follows a step is done with what the step has returned. -/
theorem bind_eq_ok {x : Except ε α} {f : α → Except ε β} {b : β} :
    (x >>= f) = .ok b ↔ ∃ a, x = .ok a ∧ f a = .ok b := by
  cases x with
  | error e =>
      constructor
      · intro h
        cases h
      · rintro ⟨_, h, _⟩
        cases h
  | ok a =>
      constructor
      · intro h
        exact ⟨a, rfl, h⟩
      · rintro ⟨_, ⟨rfl⟩, h⟩
        exact h

/-- A check that refuses comes to no result. -/
theorem ite_throw_eq_ok {refuses : Prop} [Decidable refuses] {e : ε} {next : Except ε α} {a : α} :
    (if refuses then throw e else next) = .ok a ↔ ¬ refuses ∧ next = .ok a := by
  by_cases h : refuses
  · rw [if_pos h]
    constructor
    · intro hne
      cases hne
    · intro hboth
      exact absurd h hboth.1
  · rw [if_neg h]
    exact ⟨fun hnext => ⟨h, hnext⟩, And.right⟩

theorem map_eq_ok {f : α → β} {x : Except ε α} {b : β} :
    x.map f = .ok b ↔ ∃ a, x = .ok a ∧ f a = b := by
  cases x with
  | error e =>
      constructor
      · intro h
        cases h
      · rintro ⟨_, h, _⟩
        cases h
  | ok a =>
      constructor
      · rintro ⟨rfl⟩
        exact ⟨a, rfl, rfl⟩
      · rintro ⟨_, ⟨rfl⟩, rfl⟩
        rfl

theorem mapError_eq_ok {f : ε → β} {x : Except ε α} {a : α} :
    x.mapError f = .ok a ↔ x = .ok a := by
  cases x with
  | error e =>
      constructor
      · intro h
        cases h
      · intro h
        cases h
  | ok value =>
      constructor
      · rintro ⟨rfl⟩
        rfl
      · rintro ⟨rfl⟩
        rfl

end

/-! ## Runs -/

variable {ε τ α β : Type}

@[simp]
theorem run_pure (value : α) (s : τ) :
    (pure value : ExceptT ε (StateM τ) α).run s = (.ok value, s) := rfl

@[simp]
theorem run_throw (error : ε) (s : τ) :
    (throw error : ExceptT ε (StateM τ) α).run s = (.error error, s) := rfl

@[simp]
theorem run_get (s : τ) : (get : ExceptT ε (StateM τ) τ).run s = (.ok s, s) := rfl

@[simp]
theorem run_set (s s' : τ) :
    (set s' : ExceptT ε (StateM τ) PUnit).run s = (.ok ⟨⟩, s') := rfl

@[simp]
theorem run_liftM (answer : Except ε α) (s : τ) :
    (liftM answer : ExceptT ε (StateM τ) α).run s = (answer, s) := by
  cases answer <;> rfl

/-- A computation goes on from where the one before it has returned. -/
theorem run_bind_ok {first : ExceptT ε (StateM τ) α} {next : α → ExceptT ε (StateM τ) β}
    {s s' : τ} {value : α} (h : first.run s = (.ok value, s')) :
    (first >>= next).run s = (next value).run s' := by
  simp only [ExceptT.run_bind]
  change (match first.run s with
    | (result, s') => (ExceptT.bindCont next result) s') = _
  rw [h]
  rfl

/-- A computation does not go on where the one before it has failed. -/
theorem run_bind_error {first : ExceptT ε (StateM τ) α} {next : α → ExceptT ε (StateM τ) β}
    {s s' : τ} {error : ε} (h : first.run s = (.error error, s')) :
    (first >>= next).run s = (.error error, s') := by
  simp only [ExceptT.run_bind]
  change (match first.run s with
    | (result, s') => (ExceptT.bindCont next result) s') = _
  rw [h]
  rfl

/-- A computation that returns has gone through both of its parts. -/
theorem run_bind_eq_ok {first : ExceptT ε (StateM τ) α} {next : α → ExceptT ε (StateM τ) β}
    {s s' : τ} {value : β} (h : (first >>= next).run s = (.ok value, s')) :
    ∃ a between, first.run s = (.ok a, between) ∧ (next a).run between = (.ok value, s') := by
  rcases hfirst : first.run s with ⟨error | a, between⟩
  · rw [run_bind_error hfirst] at h
    cases h
  · rw [run_bind_ok hfirst] at h
    exact ⟨a, between, rfl, h⟩

/-! ## What a computation leaves -/

/-- However the computation ends, it leaves a state that stands in the relation to the first. -/
def Leaves (R : τ → τ → Prop) (x : ExceptT ε (StateM τ) α) : Prop :=
  ∀ s, R s (x.run s).2

namespace Leaves

variable {R : τ → τ → Prop} [IsPreorder τ R]

theorem pure (value : α) : Leaves R (pure value : ExceptT ε (StateM τ) α) :=
  fun s => refl_of R s

theorem throw (error : ε) : Leaves R (throw error : ExceptT ε (StateM τ) α) :=
  fun s => refl_of R s

theorem get : Leaves R (get : ExceptT ε (StateM τ) τ) :=
  fun s => refl_of R s

theorem liftM (answer : Except ε α) :
    Leaves R (liftM answer : ExceptT ε (StateM τ) α) := by
  intro s
  rw [run_liftM]
  exact refl_of R s

omit [IsPreorder τ R] in
theorem of_run {x : ExceptT ε (StateM τ) α} {s s' : τ} {answer : Except ε α} (h : Leaves R x)
    (hrun : x.run s = (answer, s')) : R s s' := by
  have hs := h s
  rwa [hrun] at hs

omit [IsPreorder τ R] in
theorem modify {change : τ → τ} (h : ∀ s, R s (change s)) :
    Leaves R (modify change : ExceptT ε (StateM τ) PUnit) :=
  h

theorem bind {first : ExceptT ε (StateM τ) α} {next : α → ExceptT ε (StateM τ) β}
    (hfirst : Leaves R first) (hnext : ∀ value, Leaves R (next value)) :
    Leaves R (first >>= next) := by
  intro s
  have hbefore := hfirst s
  rcases hrun : first.run s with ⟨error | value, s'⟩
  · rw [run_bind_error hrun]
    rwa [hrun] at hbefore
  · rw [run_bind_ok hrun]
    rw [hrun] at hbefore
    exact trans_of R hbefore (hnext value s')

theorem forM {items : List α} {step : α → ExceptT ε (StateM τ) PUnit}
    (h : ∀ item ∈ items, Leaves R (step item)) : Leaves R (items.forM step) := by
  induction items with
  | nil => exact fun s => refl_of R s
  | cons item rest ih =>
      refine bind (h item List.mem_cons_self) fun _ => ih fun other hother => ?_
      exact h other (List.mem_cons_of_mem item hother)

end Leaves

/-! ## How a computation fails -/

/-- Every failure of the computation is of a kind. -/
def FailsOnly (P : ε → Prop) (x : ExceptT ε (StateM τ) α) : Prop :=
  ∀ s error, (x.run s).1 = .error error → P error

namespace FailsOnly

variable {P : ε → Prop}

theorem pure (value : α) : FailsOnly P (pure value : ExceptT ε (StateM τ) α) := by
  intro s error h
  cases h

theorem throw {error : ε} (h : P error) :
    FailsOnly P (throw error : ExceptT ε (StateM τ) α) := by
  intro s other hother
  cases hother
  exact h

theorem get : FailsOnly P (get : ExceptT ε (StateM τ) τ) := by
  intro s error h
  cases h

theorem set (s : τ) : FailsOnly P (set s : ExceptT ε (StateM τ) PUnit) := by
  intro s error h
  cases h

theorem modify (change : τ → τ) :
    FailsOnly P (modify change : ExceptT ε (StateM τ) PUnit) := by
  intro s error h
  cases h

theorem bind {first : ExceptT ε (StateM τ) α} {next : α → ExceptT ε (StateM τ) β}
    (hfirst : FailsOnly P first) (hnext : ∀ value, FailsOnly P (next value)) :
    FailsOnly P (first >>= next) := by
  intro s error h
  rcases hrun : first.run s with ⟨reason | value, s'⟩
  · rw [run_bind_error hrun] at h
    cases h
    exact hfirst s error (by rw [hrun])
  · rw [run_bind_ok hrun] at h
    exact hnext value s' error h

end FailsOnly

/-! ## What a computation returns -/

/-- Every value that the computation returns is of a kind. -/
def ReturnsOnly (P : α → Prop) (x : ExceptT ε (StateM τ) α) : Prop :=
  ∀ s value, (x.run s).1 = .ok value → P value

namespace ReturnsOnly

theorem pure {P : α → Prop} {value : α} (h : P value) :
    ReturnsOnly P (pure value : ExceptT ε (StateM τ) α) := by
  intro s other hother
  cases hother
  exact h

/-- What a computation returns is what its last part returns. -/
theorem bind {P : β → Prop} {first : ExceptT ε (StateM τ) α} {next : α → ExceptT ε (StateM τ) β}
    (hnext : ∀ value, ReturnsOnly P (next value)) : ReturnsOnly P (first >>= next) := by
  intro s value h
  rcases hrun : first.run s with ⟨error | between, s'⟩
  · rw [run_bind_error hrun] at h
    cases h
  · rw [run_bind_ok hrun] at h
    exact hnext between s' value h

end ReturnsOnly

end Gatehouse.Effect
