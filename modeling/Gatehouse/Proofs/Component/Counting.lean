import Gatehouse.Component.Setup
import Mathlib.Data.Set.Card
import Mathlib.Logic.Function.Basic
import Mathlib.Logic.Relation

/-!
# Requests that are counted at the same time

`ClassState.monitorRequest` is one call that nothing interrupts.  Here a call is cut into its atomic
steps: it draws a number from the counter, and then it writes its path, its number and its mark into
the monitor, each by itself.  Any number of calls share one class, and between two steps of a call
any steps of others may be taken.

So the number that stands published need not be the last that was drawn, and marks may be missing as
long as a call is under way.  What never goes wrong is the account of the numbers: a call has one
exactly from its first step on, and it has made its mark exactly after its last.
-/

namespace Gatehouse.Component.Counting

open Telemetry (Activity Monitor)

variable {σ : Type}

/-- Where a call stands, with the number it has drawn. -/
inductive Phase where
  /-- About to draw a number. -/
  | arriving
  /-- About to write its path. -/
  | locating (served : Nat)
  /-- About to publish its number. -/
  | publishing (served : Nat)
  /-- About to make its mark. -/
  | marking (served : Nat)
  | done (served : Nat)

namespace Phase

def served? : Phase → Option Nat
  | .arriving => none
  | .locating served | .publishing served | .marking served | .done served => some served

def hasMarked : Phase → Bool
  | .done _ => true
  | _ => false

def underWay : Phase → Bool
  | .arriving | .done _ => false
  | _ => true

/-- A call makes its mark after it has drawn its number. -/
theorem isSome_of_hasMarked {p : Phase} (h : p.hasMarked = true) : p.served?.isSome = true := by
  cases p with
  | done served => rfl
  | _ => cases h

/-- Whoever is not under way and has a number has made the mark. -/
theorem hasMarked_of_isSome {p : Phase} (hquiet : p.underWay = false)
    (h : p.served?.isSome = true) : p.hasMarked = true := by
  cases p with
  | arriving => cases h
  | done served => rfl
  | _ => cases hquiet

end Phase

def observe (s : ClassState σ) (change : Monitor → Monitor) : ClassState σ :=
  { s with monitor := s.monitor.map change }

/-- One atomic step of a call with a path. -/
inductive Move (path : String) : ClassState σ → Phase → ClassState σ → Phase → Prop where
  | draw {s : ClassState σ} :
      Move path s .arriving { s with requests := s.requests + 1 } (.locating (s.requests + 1))
  | locate {s : ClassState σ} {served : Nat} :
      Move path s (.locating served) (observe s fun m => { m with location := path })
        (.publishing served)
  | publish {s : ClassState σ} {served : Nat} :
      Move path s (.publishing served) (observe s (·.setExtra "queries" (.int served)))
        (.marking served)
  | mark {s : ClassState σ} {served : Nat} :
      Move path s (.marking served) (observe s (·.mark Activity.queries.name)) (.done served)

/-- Steps of one call while every other stands still. -/
inductive Moves (path : String) : ClassState σ → Phase → ClassState σ → Phase → Prop where
  | refl {s : ClassState σ} {p : Phase} : Moves path s p s p
  | head {s s' last : ClassState σ} {p p' q : Phase} (move : Move path s p s' p')
      (rest : Moves path s' p' last q) : Moves path s p last q

/-- `monitorRequest` does what the steps of one call do when nothing interrupts them. -/
theorem moves_monitorRequest (path : String) (s : ClassState σ) :
    Moves path s .arriving (s.monitorRequest path) (.done (s.requests + 1)) := by
  have hlast : s.monitorRequest path =
      observe (observe (observe { s with requests := s.requests + 1 }
        fun m => { m with location := path }) (·.setExtra "queries" (.int (s.requests + 1 : Nat))))
          (·.mark Activity.queries.name) := by
    rw [observe, observe, observe, Option.map_map, Option.map_map]
    rfl
  rw [hlast]
  exact .head .draw (.head .locate (.head .publish (.head .mark .refl)))

/-! ## All calls together -/

/-- A class with the calls that share it; `κ` names them. -/
structure World (κ σ : Type) where
  state : ClassState σ
  phase : κ → Phase

def World.new (κ : Type) (start : ClassState σ) : World κ σ := ⟨start, fun _ => .arriving⟩

section

variable {κ : Type} [DecidableEq κ] (paths : κ → String)

/-- Some call takes one step. -/
inductive Step : World κ σ → World κ σ → Prop where
  | of {w : World κ σ} (i : κ) {s' : ClassState σ} {p' : Phase}
      (move : Move (paths i) w.state (w.phase i) s' p') :
      Step w ⟨s', Function.update w.phase i p'⟩

/-- A world that comes about from a class that no call has reached, by any interleaving. -/
abbrev Reachable (start : ClassState σ) (w : World κ σ) : Prop :=
  Relation.ReflTransGen (Step paths) (World.new κ start) w

end

/-! ## The account -/

/-- Nothing has been counted so far. -/
structure Unserved (s : ClassState σ) : Prop where
  requests : s.requests = 0
  monitor : ∃ m, s.monitor = some m ∧ m.marks Activity.queries.name = 0 ∧
    m.extra? "queries" = none

/-- The numbers that were drawn are those from one to the count of requests, each by one call. -/
structure Numbered {κ : Type} (w : World κ σ) : Prop where
  distinct : ∀ i j served, (w.phase i).served? = some served →
    (w.phase j).served? = some served → i = j
  exact : ∀ served, (∃ i, (w.phase i).served? = some served) ↔
    1 ≤ served ∧ served ≤ w.state.requests

/-- What the monitor tells. -/
structure Told {κ : Type} (w : World κ σ) (m : Monitor) : Prop where
  monitor : w.state.monitor = some m
  marks : m.marks Activity.queries.name = {i | (w.phase i).hasMarked = true}.ncard
  published : ∀ value, m.extra? "queries" = some value →
    ∃ i served, (w.phase i).served? = some served ∧ value = .int served

/-- How the calls of a world are counted. -/
structure Accounted {κ : Type} (w : World κ σ) : Prop extends Numbered w where
  /-- As many requests are counted as there are calls that have a number. -/
  requests : {i | (w.phase i).served?.isSome = true}.Finite ∧
    w.state.requests = {i | (w.phase i).served?.isSome = true}.ncard
  told : ∃ m, Told w m

section

variable {κ : Type} {w : World κ σ}

theorem accounted_new {start : ClassState σ} (h : Unserved start) :
    Accounted (World.new κ start) where
  distinct i j served hi := by cases hi
  exact served := by
    constructor
    · rintro ⟨i, hi⟩
      cases hi
    · intro hrange
      change 1 ≤ served ∧ served ≤ start.requests at hrange
      rw [h.requests] at hrange
      omega
  requests := by
    have hnone : {i | (((World.new κ start).phase i).served?).isSome = true} = ∅ :=
      Set.eq_empty_of_forall_notMem fun i hi => by cases hi
    rw [hnone, Set.ncard_empty]
    exact ⟨Set.finite_empty, h.requests⟩
  told := by
    obtain ⟨m, hmonitor, hmarks, hpublished⟩ := h.monitor
    have hnone : {i | ((World.new κ start).phase i).hasMarked = true} = ∅ :=
      Set.eq_empty_of_forall_notMem fun i hi => by cases hi
    refine ⟨m, hmonitor, by rw [hnone, Set.ncard_empty, hmarks], fun value hvalue => ?_⟩
    rw [hpublished] at hvalue
    cases hvalue

variable [DecidableEq κ] {i : κ} {p' : Phase}

/-- A step that draws no number leaves every call the one it has. -/
theorem served?_update (h : p'.served? = (w.phase i).served?) (j : κ) :
    (Function.update w.phase i p' j).served? = (w.phase j).served? := by
  by_cases hj : j = i
  · subst hj
    rw [Function.update_self, h]
  · rw [Function.update_of_ne hj]

theorem hasMarked_update (h : p'.hasMarked = (w.phase i).hasMarked) (j : κ) :
    (Function.update w.phase i p' j).hasMarked = (w.phase j).hasMarked := by
  by_cases hj : j = i
  · subst hj
    rw [Function.update_self, h]
  · rw [Function.update_of_ne hj]

/-- The calls of which something holds after a step are those before it and the one that has taken
the step, if it starts to hold of this one. -/
theorem setOf_update (phase : κ → Phase) (i : κ) (holds : Phase → Bool) (h : holds p' = true) :
    {j | holds (Function.update phase i p' j) = true} = insert i {j | holds (phase j) = true} := by
  ext j
  by_cases hj : j = i
  · subst hj
    simp [h]
  · simp [hj]

/-- A step that neither draws a number nor makes a mark keeps the account, if the monitor tells of
no other marks and the number that it publishes was drawn. -/
theorem Accounted.of_monitor (h : Accounted w) {change : Monitor → Monitor}
    (hserved : p'.served? = (w.phase i).served?)
    (hmarked : p'.hasMarked = (w.phase i).hasMarked)
    (hmarks : ∀ m, (change m).marks Activity.queries.name = m.marks Activity.queries.name)
    (hpublished : ∀ m value, (change m).extra? "queries" = some value →
      m.extra? "queries" = some value ∨
        ∃ served, (w.phase i).served? = some served ∧ value = .int served) :
    Accounted (⟨observe w.state change, Function.update w.phase i p'⟩ : World κ σ) where
  distinct j k served := by
    simp only [served?_update hserved]
    exact h.distinct j k served
  exact served := by
    simp only [served?_update hserved]
    exact h.exact served
  requests := by
    simp only [served?_update hserved]
    exact h.requests
  told := by
    obtain ⟨m, htold⟩ := h.told
    refine ⟨change m, congrArg (Option.map change) htold.monitor, ?_, ?_⟩
    · simp only [hasMarked_update hmarked]
      rw [hmarks, htold.marks]
    · simp only [served?_update hserved]
      intro value hvalue
      obtain hkept | ⟨served, hi, rfl⟩ := hpublished m value hvalue
      · exact htold.published value hkept
      · exact ⟨i, served, hi, rfl⟩

/-- Drawing a number keeps the account: it is the next, and nobody has it. -/
theorem Accounted.draw (h : Accounted w) (hi : w.phase i = .arriving) :
    Accounted (⟨{ w.state with requests := w.state.requests + 1 },
      Function.update w.phase i (.locating (w.state.requests + 1))⟩ : World κ σ) := by
  have hbefore : (w.phase i).served? = none := by rw [hi]; rfl
  -- The numbers before the step belong to other calls, and they are no greater than the count.
  have hold : ∀ j served, (w.phase j).served? = some served →
      j ≠ i ∧ 1 ≤ served ∧ served ≤ w.state.requests := by
    intro j served hj
    refine ⟨?_, (h.exact served).mp ⟨j, hj⟩⟩
    rintro rfl
    rw [hbefore] at hj
    cases hj
  have hafter : ∀ j served,
      (Function.update w.phase i (.locating (w.state.requests + 1)) j).served? = some served ↔
        (w.phase j).served? = some served ∨ j = i ∧ served = w.state.requests + 1 := by
    intro j served
    by_cases hj : j = i
    · subst hj
      rw [Function.update_self, hbefore]
      simp [Phase.served?, eq_comm]
    · simp [hj]
  refine ⟨⟨?_, ?_⟩, ?_, ?_⟩
  · intro j k served hj hk
    rcases (hafter j served).mp hj with hj' | ⟨rfl, rfl⟩
    · rcases (hafter k served).mp hk with hk' | ⟨-, rfl⟩
      · exact h.distinct j k served hj' hk'
      · have hle := (hold j _ hj').2.2
        omega
    · rcases (hafter k _).mp hk with hk' | ⟨rfl, -⟩
      · have hle := (hold k _ hk').2.2
        omega
      · rfl
  · intro served
    simp only [hafter]
    constructor
    · rintro ⟨j, hj | ⟨-, rfl⟩⟩
      · obtain ⟨-, hone, hle⟩ := hold j served hj
        exact ⟨hone, hle.trans (Nat.le_succ _)⟩
      · exact ⟨Nat.succ_pos _, le_rfl⟩
    · rintro ⟨hone, hle⟩
      obtain hlt | rfl := Nat.lt_or_eq_of_le hle
      · obtain ⟨j, hj⟩ := (h.exact served).mpr ⟨hone, Nat.le_of_lt_succ hlt⟩
        exact ⟨j, .inl hj⟩
      · exact ⟨i, .inr ⟨rfl, rfl⟩⟩
  · obtain ⟨hfinite, hrequests⟩ := h.requests
    have hnot : i ∉ {j | (w.phase j).served?.isSome = true} := by simp [hbefore]
    have hnumber : (Phase.locating (w.state.requests + 1)).served?.isSome = true := rfl
    rw [setOf_update w.phase i (·.served?.isSome) hnumber,
      Set.ncard_insert_of_notMem hnot hfinite, ← hrequests]
    exact ⟨hfinite.insert i, rfl⟩
  · obtain ⟨m, htold⟩ := h.told
    have hmarked : (Phase.locating (w.state.requests + 1)).hasMarked = (w.phase i).hasMarked := by
      rw [hi]
      rfl
    refine ⟨m, htold.monitor, ?_, fun value hvalue => ?_⟩
    · simp only [hasMarked_update hmarked]
      exact htold.marks
    · obtain ⟨j, served, hj, rfl⟩ := htold.published value hvalue
      exact ⟨j, served, (hafter j served).mpr (.inl hj), rfl⟩

theorem marks_mark (m : Monitor) (activity : String) :
    (m.mark activity).marks activity = m.marks activity + 1 := by
  rw [Monitor.mark, Monitor.marks, Table.get?_insert_self, Option.getD_some]

/-- A call that makes its mark is one more that has. -/
theorem Accounted.mark (h : Accounted w) {served : Nat} (hi : w.phase i = .marking served) :
    Accounted (⟨observe w.state (·.mark Activity.queries.name),
      Function.update w.phase i (.done served)⟩ : World κ σ) := by
  have hserved : (Phase.done served).served? = (w.phase i).served? := by rw [hi]; rfl
  refine ⟨⟨?_, ?_⟩, ?_, ?_⟩
  · simp only [served?_update hserved]
    exact h.distinct
  · simp only [served?_update hserved]
    exact h.exact
  · simp only [served?_update hserved]
    exact h.requests
  · obtain ⟨m, htold⟩ := h.told
    have hnot : i ∉ {j | (w.phase j).hasMarked = true} := by simp [hi, Phase.hasMarked]
    have hfinite : {j | (w.phase j).hasMarked = true}.Finite :=
      h.requests.1.subset fun _ => Phase.isSome_of_hasMarked
    have hmark : (Phase.done served).hasMarked = true := rfl
    refine ⟨m.mark Activity.queries.name, congrArg (Option.map _) htold.monitor, ?_, ?_⟩
    · rw [setOf_update w.phase i Phase.hasMarked hmark,
        Set.ncard_insert_of_notMem hnot hfinite, ← htold.marks, marks_mark]
    · simp only [served?_update hserved]
      exact htold.published

/-- Every step keeps the account. -/
theorem Step.accounted {paths : κ → String} {w' : World κ σ} (step : Step paths w w')
    (h : Accounted w) : Accounted w' := by
  obtain ⟨i, move⟩ := step
  rename_i s' p'
  generalize hi : w.phase i = p at move
  generalize hs : w.state = s at move
  cases move with
  | draw =>
      subst hs
      exact h.draw hi
  | locate =>
      subst hs
      refine h.of_monitor (by rw [hi]; rfl) (by rw [hi]; rfl) (fun _ => rfl) fun m value hvalue => ?_
      exact .inl hvalue
  | @publish served =>
      subst hs
      refine h.of_monitor (by rw [hi]; rfl) (by rw [hi]; rfl) (fun _ => rfl) fun m value hvalue => ?_
      rw [Monitor.extra?, Monitor.setExtra, Table.get?_insert_self] at hvalue
      exact .inr ⟨served, by rw [hi]; rfl, (Option.some.inj hvalue).symm⟩
  | mark =>
      subst hs
      exact h.mark hi

/-- Whatever the interleaving, the account is in order. -/
theorem Reachable.accounted {paths : κ → String} {start : ClassState σ} (hstart : Unserved start)
    (h : Reachable paths start w) : Accounted w := by
  induction h with
  | refl => exact accounted_new hstart
  | tail _ step ih => exact step.accounted ih

omit [DecidableEq κ] in
/-- There are no more marks than requests. -/
theorem Accounted.marks_le {m : Monitor} (h : Accounted w) (htold : Told w m) :
    m.marks Activity.queries.name ≤ w.state.requests := by
  rw [htold.marks, h.requests.2]
  exact Set.ncard_le_ncard (fun _ => Phase.isSome_of_hasMarked) h.requests.1

omit [DecidableEq κ] in
/-- Once no call is under way, each that has drawn a number has made its mark. -/
theorem Accounted.marks_eq {m : Monitor} (h : Accounted w) (htold : Told w m)
    (hquiet : ∀ i, (w.phase i).underWay = false) :
    m.marks Activity.queries.name = w.state.requests := by
  rw [htold.marks, h.requests.2]
  congr 1
  ext j
  exact ⟨Phase.isSome_of_hasMarked, Phase.hasMarked_of_isSome (hquiet j)⟩

end

end Gatehouse.Component.Counting
