import Gatehouse.Proofs.Component.Interleaving
import Mathlib.Algebra.Order.BigOperators.Group.Finset

/-!
# A class is set up once

Whatever the order in which uses of a class take their steps, its setup is begun at most once, it is
ready only when its runtime stands published, and every use comes to the same answer.  Finitely many
uses all come to their end, since they never wait for one another for good.

The proof names the history of the class so far.  It fixes all cells, and it only ever moves on
while its setup is under way, which is while one use has the lock; so the uses without the lock
always find what they found before.
-/

namespace Gatehouse.Component

open Effect

variable {σ : Type}

/-- What has happened to a class. -/
inductive History (σ : Type) where
  | untouched
  /-- The attempt has been counted. -/
  | begun
  /-- The build has ended, and nothing is known of its result yet. -/
  | built
  | published (runtime : Runtime σ)
  | ready (runtime : Runtime σ)
  | failed (error : ServiceError)

namespace History

def attempts : History σ → Nat
  | .untouched => 0
  | _ => 1

def builds : History σ → Nat
  | .untouched | .begun => 0
  | _ => 1

def runtime? : History σ → Option (Runtime σ)
  | .published runtime | .ready runtime => some runtime
  | _ => none

def isReady : History σ → Bool
  | .ready _ => true
  | _ => false

def failure? : History σ → Option ServiceError
  | .failed e => some e
  | _ => none

/-- The history fixes what every cell of the class holds.  A runtime in its cell has the
property `B`. -/
structure Describes (B : Runtime σ → Prop) (g : History σ) (s : ClassState σ) (builds : Nat) :
    Prop where
  attempts : s.attempts = g.attempts
  builds : builds = g.builds
  runtime : s.runtime = g.runtime?
  ready : s.ready = g.isReady
  failure : s.failure = g.failure?
  origin : ∀ runtime, g.runtime? = some runtime → B runtime

/-- The answer of every use from now on. -/
def answer? : History σ → Option (Answer σ)
  | .ready runtime => some (.ok runtime)
  | .failed e => some (.error (.failed e.replay))
  | _ => none

/-- No setup is under way. -/
def AtRest (g : History σ) : Prop := g = .untouched ∨ ∃ answer, g.answer? = some answer

/-- A use may stand here.  A runtime that waits to be published has the property `B`. -/
def Admits (B : Runtime σ → Prop) (g : History σ) : Phase σ → Prop
  | .looking true => g.AtRest
  | .looking false | .waiting => True
  | .fetching _ => g.isReady = true
  | .checking => g.AtRest ∧ g.isReady = false
  | .counting => g = .untouched
  | .building => g = .begun
  | .publishing runtime => g = .built ∧ B runtime
  | .recording _ => g = .built
  | .declaring runtime => g = .published runtime
  | .leaving answer | .returned answer => g.answer? = some answer

/-- Once every use has its answer, the answer stays. -/
theorem Admits.of_without_lock {B : Runtime σ → Prop} {g g' : History σ} {p : Phase σ}
    (h : g.Admits B p) (hlock : p.hasLock = false) (hmove : g' = g ∨ g.answer? = none) :
    g'.Admits B p := by
  rcases hmove with rfl | hopen
  · exact h
  · cases p with
    | looking locked =>
        change locked = false at hlock
        subst hlock
        exact trivial
    | fetching locked =>
        cases g <;> simp_all [Admits, isReady, answer?]
    | waiting => exact trivial
    | returned answer =>
        change g.answer? = some answer at h
        rw [hopen] at h
        cases h
    | _ => exact absurd hlock (by simp [Phase.hasLock])

theorem eq_ready {g : History σ} (h : g.isReady = true) : ∃ runtime, g = .ready runtime := by
  cases g with
  | ready runtime => exact ⟨runtime, rfl⟩
  | _ => exact absurd h (by simp [isReady])

theorem eq_failed {g : History σ} {e : ServiceError} (h : g.failure? = some e) :
    g = .failed e := by
  cases g with
  | failed e' =>
      obtain rfl : e' = e := Option.some.inj h
      rfl
  | _ => exact absurd h (by simp [failure?])

/-- A class at rest that has neither runtime nor failure has not been touched. -/
theorem AtRest.untouched {g : History σ} (h : g.AtRest) (hready : g.isReady = false)
    (hfailure : g.failure? = none) : g = .untouched := by
  rcases h with h | ⟨answer, hanswer⟩
  · exact h
  · cases g <;> simp_all [answer?, isReady, failure?]

end History

/-- A step of one use keeps its phase within what the history admits.  The history itself moves on
only while the use has the lock before and after the step. -/
theorem Move.admits {c : HandlerClass σ} (hc : c.HooksReturn) {caller : Caller}
    {B : Runtime σ → Prop}
    (hB : ∀ setting setting' runtime, (c.build caller.services caller.location).run setting
      = (.ok runtime, setting') → B runtime)
    {s s' : ClassState σ} {p p' : Phase σ} (move : Move c caller s p s' p')
    {g : History σ} {builds : Nat} (hg : g.Describes B s builds) (hp : g.Admits B p)
    (hrest : p.hasLock = false → p'.hasLock = true → g.AtRest) :
    ∃ g' : History σ, g'.Describes B s' (buildsAfter p builds) ∧ g'.Admits B p' ∧
      (g' = g ∨ g.answer? = none ∧ p.hasLock = true ∧ p'.hasLock = true) := by
  cases move with
  | @notReady locked h =>
      refine ⟨g, hg, ?_, .inl rfl⟩
      cases locked with
      | true => exact ⟨hp, hg.ready.symm.trans h⟩
      | false => exact trivial
  | ready h => exact ⟨g, hg, hg.ready.symm.trans h, .inl rfl⟩
  | @fetch locked runtime h =>
      refine ⟨g, hg, ?_, .inl rfl⟩
      obtain ⟨stored, rfl⟩ := History.eq_ready hp
      obtain rfl : stored = runtime := Option.some.inj (hg.runtime.symm.trans h)
      cases locked <;> rfl
  | miss h =>
      obtain ⟨stored, rfl⟩ := History.eq_ready hp
      exact absurd (hg.runtime.symm.trans h) (by simp [History.runtime?])
  | lock => exact ⟨g, hg, hrest rfl rfl, .inl rfl⟩
  | refused h =>
      obtain rfl := History.eq_failed (hg.failure.symm.trans h)
      exact ⟨_, hg, rfl, .inl rfl⟩
  | untried h =>
      obtain rfl := hp.1.untouched hp.2 (hg.failure.symm.trans h)
      exact ⟨_, hg, rfl, .inl rfl⟩
  | count =>
      obtain rfl : g = .untouched := hp
      refine ⟨.begun, ⟨?_, hg.builds, hg.runtime, hg.ready, hg.failure, hg.origin⟩, rfl,
        .inr ⟨rfl, rfl, rfl⟩⟩
      change s.attempts + 1 = 1
      rw [hg.attempts]
      rfl
  | @build instanceState policies log answer setting h =>
      obtain rfl : g = .begun := hp
      have hcells := (c.leaves_build caller.services caller.location
        ⟨s, instanceState, policies, log⟩).cells
      rw [h] at hcells
      have hdescribes : History.Describes B .built setting.state (builds + 1) := by
        refine ⟨hcells.attempts.trans hg.attempts, ?_, hcells.runtime.trans hg.runtime,
          hcells.ready.trans hg.ready, hcells.failure.trans hg.failure, hg.origin⟩
        rw [hg.builds]
        rfl
      rcases answer with (e | reason) | runtime
      · exact ⟨.built, hdescribes, rfl, .inr ⟨rfl, rfl, rfl⟩⟩
      · obtain ⟨e, he⟩ := HandlerClass.failsOnly_build hc _ _ _ (.panicked reason)
          (congrArg Prod.fst h)
        cases he
      · exact ⟨.built, hdescribes, ⟨rfl, hB _ _ _ h⟩, .inr ⟨rfl, rfl, rfl⟩⟩
  | @publish runtime =>
      obtain ⟨rfl, hbuilt⟩ : g = .built ∧ B runtime := hp
      have hnone : s.runtime = none := hg.runtime
      refine ⟨.published runtime, ⟨hg.attempts, hg.builds, ?_, hg.ready, hg.failure, ?_⟩, ?_,
        .inr ⟨rfl, rfl, rfl⟩⟩
      · simp [ClassState.publish, hnone, History.runtime?]
      · intro stored hstored
        rwa [← Option.some.inj hstored]
      · simp [ClassState.publish, hnone, History.Admits]
  | @declare runtime =>
      obtain rfl : g = .published runtime := hp
      exact ⟨.ready runtime, ⟨hg.attempts, hg.builds, hg.runtime, rfl, hg.failure, hg.origin⟩, rfl,
        .inr ⟨rfl, rfl, rfl⟩⟩
  | @record e =>
      obtain rfl : g = .built := hp
      have hnone : s.failure = none := hg.failure
      refine ⟨.failed e, ⟨hg.attempts, hg.builds, hg.runtime, hg.ready, ?_, ?_⟩, rfl,
        .inr ⟨rfl, rfl, rfl⟩⟩
      · simp [ClassState.fail, hnone, History.failure?]
      · exact fun runtime h => hg.origin runtime h
  | unlock => exact ⟨g, hg, hp, .inl rfl⟩

/-- The lock is given up only by a use that returns. -/
theorem Move.returns {c : HandlerClass σ} {caller : Caller} {s s' : ClassState σ}
    {p p' : Phase σ} (move : Move c caller s p s' p') (hp : p.hasLock = true)
    (hp' : p'.hasLock = false) : ∃ answer, p' = .returned answer := by
  cases move with
  | @unlock answer => exact ⟨answer, rfl⟩
  | @notReady locked => cases locked <;> simp_all [Phase.hasLock, Phase.unsettled]
  | @miss locked => cases locked <;> simp_all [Phase.hasLock, Phase.unsettled]
  | @fetch locked => cases locked <;> simp_all [Phase.hasLock, Phase.found]
  | @build _ _ _ answer =>
      rcases answer with (e | reason) | runtime <;> simp_all [Phase.hasLock, Phase.built]
  | _ => simp_all [Phase.hasLock]

/-! ## Every reachable world -/

section

variable {κ : Type} [DecidableEq κ] {c : HandlerClass σ} {callers : κ → Caller}

/-- The runtime comes from the setup steps of the class, run to their end by one of its uses. -/
def BuiltBy (c : HandlerClass σ) (callers : κ → Caller) (runtime : Runtime σ) : Prop :=
  ∃ i setting setting', (c.build (callers i).services (callers i).location).run setting
    = (.ok runtime, setting')

/-- What holds of a world in which a class has some history. -/
structure Sound (c : HandlerClass σ) (callers : κ → Caller) (w : World κ σ) (g : History σ) :
    Prop where
  lock : ∀ i, w.holder = some i ↔ (w.phase i).hasLock = true
  cells : g.Describes (BuiltBy c callers) w.state w.builds
  phases : ∀ i, g.Admits (BuiltBy c callers) (w.phase i)
  rest : w.holder = none → g.AtRest

omit [DecidableEq κ] in
theorem sound_new (c : HandlerClass σ) (callers : κ → Caller) :
    Sound c callers {} .untouched where
  lock i := by simp [Phase.hasLock]
  cells := ⟨rfl, rfl, rfl, rfl, rfl, fun _ h => absurd h (by simp [History.runtime?])⟩
  phases _ := trivial
  rest _ := .inl rfl

theorem Step.sound (hc : c.HooksReturn) {w w' : World κ σ} {g : History σ}
    (h : Sound c callers w g) (step : Step c callers w w') :
    ∃ g', Sound c callers w' g' ∧ (g' = g ∨ g.answer? = none) := by
  obtain ⟨i, move, hlock⟩ := step
  rename_i s' p'
  -- Only the use that moves has the lock before or after the step.
  have hothers : (w.phase i).hasLock = true ∨ p'.hasLock = true →
      ∀ j, j ≠ i → (w.phase j).hasLock = false := by
    intro hi j hne
    by_contra hj
    have hholder : w.holder = some j := (h.lock j).mpr (by simpa using hj)
    have hbefore : (w.phase i).hasLock = true ∨ w.holder = none := hi.elim .inl hlock
    rcases hbefore with hp | hnone
    · rw [(h.lock i).mpr hp] at hholder
      exact hne (Option.some.inj hholder).symm
    · rw [hnone] at hholder
      cases hholder
  have hfree : (w.phase i).hasLock = false → p'.hasLock = true → g.AtRest := by
    intro hp hp'
    exact h.rest ((hlock hp').resolve_left (by simp [hp]))
  obtain ⟨g', hcells, hphase, hmove⟩ :=
    move.admits hc (fun _ _ _ hbuild => ⟨i, _, _, hbuild⟩) h.cells (h.phases i) hfree
  refine ⟨g', ⟨?_, hcells, ?_, ?_⟩, hmove.imp_right And.left⟩
  · intro j
    by_cases hj : j = i
    · subst hj
      have hsame := h.lock j
      cases hp : (w.phase j).hasLock <;> cases hp' : p'.hasLock <;>
        simp_all [holderAfter]
    · have hsame := h.lock j
      have hnot := fun hi => hothers hi j hj
      simp only [Function.update_of_ne hj]
      cases hp : (w.phase i).hasLock <;> cases hp' : p'.hasLock <;>
        simp_all [holderAfter, Ne.symm hj]
  · intro j
    by_cases hj : j = i
    · subst hj
      simpa using hphase
    · simp only [Function.update_of_ne hj]
      rcases hmove with rfl | ⟨hopen, hp, _⟩
      · exact h.phases j
      · exact (h.phases j).of_without_lock (hothers (.inl hp) j hj) (.inr hopen)
  · intro hnone
    have hp' : p'.hasLock = false := by
      cases hp' : p'.hasLock with
      | false => rfl
      | true => simp [holderAfter, hp'] at hnone
    have hsame : g' = g := hmove.resolve_right (by simp [hp'])
    subst hsame
    cases hp : (w.phase i).hasLock with
    | false => exact h.rest (by simpa [holderAfter, hp, hp'] using hnone)
    | true =>
        obtain ⟨answer, rfl⟩ := move.returns hp hp'
        exact .inr ⟨answer, hphase⟩

/-- Whatever happens from a sound world on, the world stays sound and an answer stays the same. -/
theorem Reaches.sound (hc : c.HooksReturn) {w w' : World κ σ} {g : History σ}
    (h : Sound c callers w g) (hreach : Reaches c callers w w') :
    ∃ g', Sound c callers w' g' ∧ ∀ answer, g.answer? = some answer → g'.answer? = some answer := by
  induction hreach with
  | refl => exact ⟨g, h, fun _ hanswer => hanswer⟩
  | tail _ step ih =>
      obtain ⟨between, hbetween, hkept⟩ := ih
      obtain ⟨g', hg', hmove⟩ := step.sound hc hbetween
      refine ⟨g', hg', fun answer hanswer => ?_⟩
      rcases hmove with rfl | hopen
      · exact hkept answer hanswer
      · rw [hkept answer hanswer] at hopen
        cases hopen

/-! ## Every use comes to its answer -/

/-- Once the answer stands, a use comes to it by its own steps and changes nothing. -/
theorem moves_to_answer (c : HandlerClass σ) (caller : Caller) {B : Runtime σ → Prop}
    {g : History σ} {s : ClassState σ} {builds : Nat} (hg : g.Describes B s builds)
    {answer : Answer σ} (hanswer : g.answer? = some answer) {p : Phase σ} (hp : g.Admits B p) :
    Moves c caller s p s (.returned answer) := by
  have leave : Moves c caller s (.leaving answer) s (.returned answer) := .head .unlock .refl
  have look : Moves c caller s (.looking true) s (.returned answer) := by
    cases g with
    | ready runtime =>
        obtain rfl : Except.ok runtime = answer := Option.some.inj hanswer
        exact .head (.ready hg.ready) (.head (.fetch hg.runtime) leave)
    | failed e =>
        obtain rfl : Except.error (.failed e.replay) = answer := Option.some.inj hanswer
        exact .head (.notReady hg.ready) (.head (.refused hg.failure) leave)
    | _ => cases hanswer
  have wait : Moves c caller s .waiting s (.returned answer) := .head .lock look
  cases p with
  | looking locked =>
      cases locked with
      | true => exact look
      | false =>
          cases g with
          | ready runtime =>
              obtain rfl : Except.ok runtime = answer := Option.some.inj hanswer
              exact .head (.ready hg.ready) (.head (.fetch hg.runtime) .refl)
          | failed e => exact .head (.notReady hg.ready) wait
          | _ => cases hanswer
  | fetching locked =>
      obtain ⟨runtime, rfl⟩ := History.eq_ready hp
      obtain rfl : Except.ok runtime = answer := Option.some.inj hanswer
      cases locked with
      | true => exact .head (.fetch hg.runtime) leave
      | false => exact .head (.fetch hg.runtime) .refl
  | waiting => exact wait
  | checking =>
      cases g with
      | failed e =>
          obtain rfl : Except.error (.failed e.replay) = answer := Option.some.inj hanswer
          exact .head (.refused hg.failure) leave
      | ready runtime => exact absurd hp.2 (by simp [History.isReady])
      | _ => cases hanswer
  | leaving other =>
      obtain rfl : other = answer := Option.some.inj (hp.symm.trans hanswer)
      exact leave
  | returned other =>
      obtain rfl : other = answer := Option.some.inj (hp.symm.trans hanswer)
      exact .refl
  | counting =>
      obtain rfl : g = .untouched := hp
      cases hanswer
  | building =>
      obtain rfl : g = .begun := hp
      cases hanswer
  | publishing runtime =>
      obtain rfl : g = .built := hp.1
      cases hanswer
  | declaring runtime =>
      obtain rfl : g = .published runtime := hp
      cases hanswer
  | recording e =>
      obtain rfl : g = .built := hp
      cases hanswer

/-- Steps of one use are steps of the world, if that use has the lock or nobody has. -/
theorem reaches_of_moves {w : World κ σ} {i : κ} {s s' : ClassState σ} {p p' : Phase σ}
    (h : Moves c (callers i) s p s' p') (hs : w.state = s) (hp : w.phase i = p)
    (hfree : p.hasLock = true ∨ w.holder = none) :
    ∃ w', Reaches c callers w w' ∧ w'.state = s' ∧ w'.phase i = p' ∧
      (p'.hasLock = true ∨ w'.holder = none) ∧ ∀ j, j ≠ i → w'.phase j = w.phase j := by
  induction h generalizing w with
  | refl => exact ⟨w, .refl, hs, hp, hfree, fun _ _ => rfl⟩
  | @head _ s₁ _ _ p₁ _ move _ ih =>
      subst hs hp
      have hfree' : p₁.hasLock = true ∨
          holderAfter i (w.phase i) p₁ w.holder = none := by
        cases hp₁ : p₁.hasLock with
        | true => exact .inl rfl
        | false =>
            right
            rcases hfree with hlock | hnone
            · simp [holderAfter, hp₁, hlock]
            · simp [holderAfter, hp₁, hnone]
      let stepped : World κ σ := {
        state := s₁
        holder := holderAfter i (w.phase i) p₁ w.holder
        phase := Function.update w.phase i p₁
        builds := buildsAfter (w.phase i) w.builds }
      have step : Step c callers w stepped := .of i move fun _ => hfree
      obtain ⟨w', hreach, hstate, hphase, hlast, hothers⟩ :=
        @ih stepped rfl (Function.update_self i p₁ w.phase) hfree'
      refine ⟨w', .head step hreach, hstate, hphase, hlast, fun j hj => ?_⟩
      rw [hothers j hj]
      exact Function.update_of_ne hj p₁ w.phase

/-- Once the answer stands, any use can be brought to it: whoever has the lock leaves it first. -/
theorem Sound.reaches_answer {w : World κ σ} {g : History σ} (h : Sound c callers w g)
    {answer : Answer σ} (hanswer : g.answer? = some answer) (j : κ) :
    ∃ w', Reaches c callers w w' ∧ w'.phase j = .returned answer := by
  have moves (i : κ) := moves_to_answer c (callers i) h.cells hanswer (h.phases i)
  cases hholder : w.holder with
  | none =>
      obtain ⟨w', hreach, _, hphase, _⟩ := reaches_of_moves (moves j) rfl rfl (.inr hholder)
      exact ⟨w', hreach, hphase⟩
  | some i =>
      obtain ⟨between, hreach, hstate, hphase, hlock, hothers⟩ :=
        reaches_of_moves (moves i) rfl rfl (.inl ((h.lock i).mp hholder))
      by_cases hj : j = i
      · subst hj
        exact ⟨between, hreach, hphase⟩
      · have hfree : between.holder = none := hlock.resolve_left (by simp [Phase.hasLock])
        obtain ⟨w', hmore, _, hend, _⟩ :=
          reaches_of_moves (moves j) hstate (hothers j hj) (.inr hfree)
        exact ⟨w', hreach.trans hmore, hend⟩

/-! ## Every use comes to its end -/

/-- Only a use that has returned stands still for good. -/
theorem Move.exists_of_under_way [Nonempty σ] (caller : Caller) (s : ClassState σ) {p : Phase σ}
    (hp : ∀ answer, p ≠ .returned answer) : ∃ s' p', Move c caller s p s' p' := by
  cases p with
  | looking locked =>
      cases hready : s.ready with
      | true => exact ⟨_, _, .ready hready⟩
      | false => exact ⟨_, _, .notReady hready⟩
  | fetching locked =>
      cases hruntime : s.runtime with
      | some runtime => exact ⟨_, _, .fetch hruntime⟩
      | none => exact ⟨_, _, .miss hruntime⟩
  | waiting => exact ⟨_, _, .lock⟩
  | checking =>
      cases hfailure : s.failure with
      | some e => exact ⟨_, _, .refused hfailure⟩
      | none => exact ⟨_, _, .untried hfailure⟩
  | counting => exact ⟨_, _, .count⟩
  | building =>
      -- Whatever the hooks read besides the class, the build ends with some answer.
      let setting : Setting σ := ⟨s, Classical.arbitrary σ, .fixed .allowAll, []⟩
      rcases hbuild : (c.build caller.services caller.location).run setting with ⟨answer, setting'⟩
      exact ⟨_, _, .build hbuild⟩
  | publishing runtime => exact ⟨_, _, .publish⟩
  | declaring runtime => exact ⟨_, _, .declare⟩
  | recording e => exact ⟨_, _, .record⟩
  | leaving answer => exact ⟨_, _, .unlock⟩
  | returned answer => exact absurd rfl (hp answer)

/-- The uses never wait for one another for good: while one of them is under way, some use can
take a step. -/
theorem Sound.exists_step [Nonempty σ] {w : World κ σ} {g : History σ} (h : Sound c callers w g)
    {i : κ} (hi : ∀ answer, w.phase i ≠ .returned answer) : ∃ w', Step c callers w w' := by
  cases hholder : w.holder with
  | none =>
      obtain ⟨s', p', move⟩ := Move.exists_of_under_way (c := c) (callers i) w.state hi
      exact ⟨_, .of i move fun _ => .inr hholder⟩
  | some j =>
      have hlock : (w.phase j).hasLock = true := (h.lock j).mp hholder
      have hj : ∀ answer, w.phase j ≠ .returned answer := by
        intro answer hanswer
        rw [hanswer] at hlock
        cases hlock
      obtain ⟨s', p', move⟩ := Move.exists_of_under_way (c := c) (callers j) w.state hj
      exact ⟨_, .of j move fun _ => .inl hlock⟩

/-- How many atomic steps all uses take at most from here on. -/
def World.remaining [Fintype κ] (w : World κ σ) : Nat := ∑ i, (w.phase i).remaining

/-- So no run is longer than what remains at its beginning. -/
theorem Step.remaining_lt [Fintype κ] {w w' : World κ σ} (step : Step c callers w w') :
    w'.remaining < w.remaining := by
  obtain ⟨i, move, -⟩ := step
  rename_i s' p'
  have hle : ∀ j, (Function.update w.phase i p' j).remaining ≤ (w.phase j).remaining := by
    intro j
    by_cases hj : j = i
    · subst hj
      rw [Function.update_self]
      exact move.remaining_lt.le
    · rw [Function.update_of_ne hj]
  refine Finset.sum_lt_sum (fun j _ => hle j) ⟨i, Finset.mem_univ i, ?_⟩
  simpa using move.remaining_lt

/-- Finitely many uses all come to their end, in whatever order their steps are taken: a run stops
only when all have returned, and none can go on for ever. -/
theorem Reachable.all_return [Nonempty σ] [Fintype κ] (hc : c.HooksReturn) {w : World κ σ}
    (hw : Reachable c callers w) :
    (∀ w', Step c callers w w' → w'.remaining < w.remaining) ∧
    ((∀ w', ¬ Step c callers w w') → ∀ i, ∃ answer, w.phase i = .returned answer) := by
  refine ⟨fun _ step => step.remaining_lt, fun hstill i => ?_⟩
  obtain ⟨g, hg, -⟩ := Reaches.sound hc (sound_new c callers) hw
  by_contra hopen
  obtain ⟨w', step⟩ := hg.exists_step fun answer hanswer => hopen ⟨answer, hanswer⟩
  exact hstill w' step

end

/-! ## The result -/

/-- Two uses have got the same: one runtime, or failures that no client and no log can tell
apart. -/
def SameAnswer : Answer σ → Answer σ → Prop
  | .ok runtime, .ok runtime' => runtime = runtime'
  | .error (.failed e), .error (.failed e') =>
    e.category = e'.category ∧ e.message = e'.message ∧ ∀ id, e.envelope id = e'.envelope id
  | _, _ => False

theorem History.sameAnswer {g : History σ} {a b : Answer σ} (ha : g.answer? = some a)
    (hb : g.answer? = some b) : SameAnswer a b := by
  obtain rfl : a = b := Option.some.inj (ha.symm.trans hb)
  cases g with
  | ready runtime =>
      obtain rfl : Except.ok runtime = a := Option.some.inj ha
      exact rfl
  | failed e =>
      obtain rfl : Except.error (.failed e.replay) = a := Option.some.inj ha
      exact ⟨rfl, rfl, fun _ => rfl⟩
  | _ => cases ha

/-- Any number of uses share a class whose hooks return, and their steps come in any order.  The
setup is begun and run at most once; the class is ready only when a complete runtime stands
published, and never ready and failed at once; all uses that have returned have got the same; and
a use that begins after one has returned can always be brought to its end, and gets the same. -/
theorem setup_once_for_all_uses {κ : Type} [DecidableEq κ] (c : HandlerClass σ)
    (hc : c.HooksReturn) (callers : κ → Caller) {w : World κ σ} (hw : Reachable c callers w) :
    w.state.attempts ≤ 1 ∧ w.builds ≤ 1 ∧
    (w.state.ready = true →
      ∃ runtime, w.state.runtime = some runtime ∧ BuiltBy c callers runtime) ∧
    ¬ (w.state.ready = true ∧ w.state.hasFailed = true) ∧
    (∀ i j a b, w.phase i = .returned a → w.phase j = .returned b → SameAnswer a b) ∧
    ∀ i j a, w.phase i = .returned a → w.phase j = .looking false →
      ∀ w', Reaches c callers w w' →
        (∀ b, w'.phase j = .returned b → SameAnswer a b) ∧
        ∃ w'' b, Reaches c callers w' w'' ∧ w''.phase j = .returned b ∧ SameAnswer a b := by
  obtain ⟨g, hg, _⟩ := Reaches.sound hc (sound_new c callers) hw
  have hreturned : ∀ {w : World κ σ} {g : History σ}, Sound c callers w g →
      ∀ {i a}, w.phase i = .returned a → g.answer? = some a := by
    intro w g hg i a ha
    have hadmits := hg.phases i
    rwa [ha] at hadmits
  refine ⟨?_, ?_, ?_, ?_, ?_, ?_⟩
  · rw [hg.cells.attempts]
    cases g <;> simp [History.attempts]
  · rw [hg.cells.builds]
    cases g <;> simp [History.builds]
  · intro hready
    obtain ⟨runtime, rfl⟩ := History.eq_ready (hg.cells.ready.symm.trans hready)
    exact ⟨runtime, hg.cells.runtime, hg.cells.origin runtime rfl⟩
  · rintro ⟨hready, hfailed⟩
    obtain ⟨runtime, rfl⟩ := History.eq_ready (hg.cells.ready.symm.trans hready)
    rw [ClassState.hasFailed, hg.cells.failure] at hfailed
    cases hfailed
  · intro i j a b ha hb
    exact History.sameAnswer (hreturned hg ha) (hreturned hg hb)
  · intro i j a ha _ w' hreach
    obtain ⟨g', hg', hkept⟩ := Reaches.sound hc hg hreach
    have hanswer : g'.answer? = some a := hkept a (hreturned hg ha)
    refine ⟨fun b hb => History.sameAnswer hanswer (hreturned hg' hb), ?_⟩
    obtain ⟨w'', hmore, hend⟩ := hg'.reaches_answer hanswer j
    exact ⟨w'', a, hmore, hend, History.sameAnswer hanswer hanswer⟩

def unreachableStore : HandlerClass Unit where
  system := "Accounts"
  handler := "Ledger"
  methods := []
  onSetup _ state := (.raised (.untyped ⟨[], "database unreachable"⟩), state)

theorem unreachableStore_hooksReturn : unreachableStore.HooksReturn where
  prepare _ _ _ := by simp [unreachableStore, Hook.none]
  setup _ _ _ := by simp [unreachableStore]

/-- Two uses of such a class, one of which is over before the other looks: the other is told the
same failure. -/
theorem failed_setup_reaches_later_use :
    ∃ (w : World Bool Unit) (e : ServiceError),
      Reachable unreachableStore (fun _ => ⟨{}, "/ledger"⟩) w ∧
      w.state.attempts ≤ 1 ∧ w.phase false = .returned (.error (.failed e)) ∧
      w.phase true = .looking false ∧
      ∃ w' b, Reaches unreachableStore (fun _ => ⟨{}, "/ledger"⟩) w w' ∧
        w'.phase true = .returned b ∧ SameAnswer (.error (.failed e)) b := by
  let callers : Bool → Caller := fun _ => ⟨{}, "/ledger"⟩
  let setting : Setting Unit := ⟨{}, (), .fixed .allowAll, []⟩
  have hrun : ((unreachableStore.ensure {} "/ledger").run setting).1 = .error (.failed
      (hookFailure unreachableStore.fullName "initialize"
        (.untyped ⟨[], "database unreachable"⟩)).replay) := rfl
  rcases hensure : (unreachableStore.ensure {} "/ledger").run setting with ⟨answer, setting'⟩
  rw [hensure] at hrun
  obtain rfl := hrun
  have moves := moves_ensure (callers false) (fun _ => rfl) hensure
  obtain ⟨w, hw, -, hfirst, -, hothers⟩ :=
    reaches_of_moves (w := {}) (i := false) moves rfl rfl (.inr rfl)
  have hsecond : w.phase true = .looking false := hothers true (by decide)
  obtain ⟨hattempts, -, -, -, -, hlater⟩ :=
    setup_once_for_all_uses unreachableStore unreachableStore_hooksReturn callers hw
  obtain ⟨-, w', b, hreach, hend, hsame⟩ := hlater false true _ hfirst hsecond w .refl
  exact ⟨w, _, hw, hattempts, hfirst, hsecond, w', b, hreach, hend, hsame⟩

end Gatehouse.Component
