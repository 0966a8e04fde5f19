import Gatehouse.Proofs.Service.Sequence

/-!
# Whether a setup is final

A setup that returns, with a runtime or with an error, is final: it is the only one, and if it has
failed every later request is refused with the failure that it has left.  A breakdown of a hook is
not recorded, so it is not final; the class stays pending and the next request sets it up again.
-/

namespace Gatehouse.Service

open Component
open Effect
open Response

variable {σ : Type}

/-- The first attempt in a run of requests is the last.  If it brings no runtime, the class has
failed, its component is reported so, and all requests from then on are refused with the failure
that is recorded. -/
structure FinalSetup (visits : List (Visit σ)) (last : ClassState σ) : Prop where
  once : last.attempts ≤ 1
  refused : ∀ before a after, visits = before ++ a :: after → a.GetsNoRuntime →
    last.hasFailed = true ∧ Readiness.ofSetup last.outcome? = .failed ∧
    ∃ recorded, last.failure = some recorded ∧ ∀ b ∈ after,
      b.setup.1 = .error (.failed recorded.replay) ∧
      b.handled.1 = envelopeWriter recorded.replay (some b.scene.context.requestId)

namespace Serves

variable {c : HandlerClass σ} {last : ClassState σ}

/-- If no hook breaks down, a new class is set up at most once. -/
theorem attempts_le_one {visits : List (Visit σ)} (h : Serves c {} visits last)
    (hkept : ∀ a ∈ visits, ¬ a.BreaksDown) : last.attempts ≤ 1 := by
  rw [h.attempts_eq]
  cases visits with
  | nil => exact Nat.zero_le 1
  | cons a rest =>
      obtain _ | ⟨-, start, hrest⟩ := h
      have horder : Orderly a.scene.setting.state := by
        rw [start]
        exact .new
      have hopen : a.scene.setting.state.settled? = none := by
        rw [start]
        rfl
      -- The first request settles the class, so no later one finds it open.
      have hsettled : ∃ found, a.handled.2.setting.state.settled? = some found := by
        rw [(Visit.settled_of_open horder hopen).1]
        rcases hsetup : a.setup.1 with (e | reason) | runtime
        · exact ⟨_, rfl⟩
        · exact absurd ⟨reason, hsetup⟩ (hkept a List.mem_cons_self)
        · exact ⟨_, rfl⟩
      obtain ⟨found, hfound⟩ := hsettled
      have hnone : rest.countP Visit.triesSetup = 0 := by
        rw [List.countP_eq_zero]
        intro b hb
        rw [Visit.triesSetup, (hrest.settled hfound).2 b hb]
        exact Bool.false_ne_true
      rw [← List.singleton_append, List.countP_append, hnone]
      exact List.countP_le_length

/-- From a request on that is told of a failed setup, all requests are refused with the failure that
is recorded. -/
theorem refused_after {before after : List (Visit σ)} {a : Visit σ}
    (h : Serves c {} (before ++ a :: after) last) {e : ServiceError}
    (hfailed : a.setup.1 = .error (.failed e)) :
    last.outcome? = some false ∧ ∃ recorded, last.failure = some recorded ∧
      recorded.replay = e ∧ ∀ b ∈ after, b.setup.1 = .error (.failed recorded.replay) := by
  obtain ⟨-, hbefore, hafter⟩ := h.split
  have hsettled := Visit.settled_of_failed (hbefore.orderly .new).1 hfailed
  obtain ⟨hlast, hvisits⟩ := hafter.settled hsettled
  obtain ⟨houtcome, recorded, hrecorded, rfl⟩ := (h.orderly .new).1.of_refused hlast
  refine ⟨houtcome, recorded, hrecorded, rfl, fun b hb => ?_⟩
  rw [Visit.setup_of_settled (hvisits b hb)]
  rfl

/-- A breakdown that nothing follows leaves the class pending. -/
theorem pending_after {before : List (Visit σ)} {a : Visit σ}
    (h : Serves c {} (before ++ [a]) last) (hbroken : a.BreaksDown) :
    last.failure = none ∧ last.outcome? = none := by
  obtain ⟨-, hbefore, hafter⟩ := h.split
  have hopen := Visit.open_of_breakdown (hbefore.orderly .new).1 hbroken
  obtain ⟨hlast, -⟩ := h.orderly .new
  cases hafter
  exact ⟨(hlast.of_open hopen).2.2, hlast.outcome?_of_open hopen⟩

/-- A request that follows a breakdown begins another attempt. -/
theorem tries_after {before after : List (Visit σ)} {a b : Visit σ}
    (h : Serves c {} (before ++ a :: b :: after) last) (hbroken : a.BreaksDown) :
    b.triesSetup = true := by
  obtain ⟨-, hbefore, hafter⟩ := h.split
  have hopen := Visit.open_of_breakdown (hbefore.orderly .new).1 hbroken
  rw [Visit.triesSetup]
  cases hafter with
  | cons _ start _ =>
      rw [start, hopen]
      rfl

/-- A run in which a hook breaks down has no final setup. -/
theorem not_final {visits : List (Visit σ)} (h : Serves c {} visits last) {a : Visit σ}
    (ha : a ∈ visits) (hbroken : a.BreaksDown) : ¬ FinalSetup visits last := by
  intro hfinal
  obtain ⟨before, after, rfl⟩ := List.append_of_mem ha
  cases after with
  | nil =>
      have hnone : a.GetsNoRuntime := by
        obtain ⟨reason, hreason⟩ := hbroken
        intro runtime hruntime
        rw [hreason] at hruntime
        cases hruntime
      obtain ⟨-, -, recorded, hrecorded, -⟩ := hfinal.refused before a [] rfl hnone
      rw [(h.pending_after hbroken).1] at hrecorded
      cases hrecorded
  | cons b after =>
      have hfirst : a.triesSetup = true := by
        rw [Visit.triesSetup, Visit.open_of_breaksDown hbroken]
        rfl
      have hsecond : b.triesSetup = true := h.tries_after hbroken
      have honce := hfinal.once
      rw [h.attempts_eq, List.countP_append, List.countP_cons_of_pos hfirst,
        List.countP_cons_of_pos hsecond] at honce
      omega

end Serves

/-- Every attempt is counted, and a request that begins none leaves all as it finds it.  The setup
of a new class is final in a run of requests exactly if no hook breaks down in it; after a breakdown
the class is pending, and the next request begins another attempt. -/
theorem setup_is_final_iff_no_breakdown (c : HandlerClass σ) {visits : List (Visit σ)}
    {last : ClassState σ} (h : Serves c {} visits last) :
    last.attempts = visits.countP Visit.triesSetup ∧
    (∀ a ∈ visits, a.triesSetup = false → a.setup.2 = a.scene.setting) ∧
    (FinalSetup visits last ↔ ∀ a ∈ visits, ¬ a.BreaksDown) ∧
    (∀ before a b after, visits = before ++ a :: b :: after → a.BreaksDown →
      b.triesSetup = true) ∧
    ∀ before a, visits = before ++ [a] → a.BreaksDown →
      last.hasFailed = false ∧ Readiness.ofSetup last.outcome? = .pending := by
  refine ⟨h.attempts_eq, ?_, ?_, ?_, ?_⟩
  · intro a _ ha
    rw [Visit.triesSetup, Option.isNone_eq_false_iff, Option.isSome_iff_exists] at ha
    obtain ⟨found, hfound⟩ := ha
    rw [Visit.setup_of_settled hfound]
  · constructor
    · intro hfinal a ha hbroken
      exact h.not_final ha hbroken hfinal
    · intro hkept
      refine ⟨h.attempts_le_one hkept, ?_⟩
      rintro before a after rfl hnone
      obtain ⟨e, he⟩ := Visit.failed_of_no_runtime hnone (hkept a (by simp))
      obtain ⟨houtcome, recorded, hrecorded, -, hafter⟩ := h.refused_after he
      refine ⟨?_, ?_, recorded, hrecorded, fun b hb => ⟨hafter b hb, ?_⟩⟩
      · rw [ClassState.hasFailed, hrecorded]
        rfl
      · rw [houtcome]
        rfl
      · rw [(Stopped.setup (hafter b hb)).handled]
  · rintro before a b after rfl hbroken
    exact h.tries_after hbroken
  · rintro before a rfl hbroken
    obtain ⟨hfailure, houtcome⟩ := h.pending_after hbroken
    rw [ClassState.hasFailed, hfailure, houtcome]
    exact ⟨rfl, rfl⟩

/-- A request to a class that finds it in some state. -/
def visitTo (c : HandlerClass Unit) (s : ClassState Unit) : Visit Unit where
  handlerClass := c
  services := {}
  now := 0
  request := { path := "/archive" }
  scene := ⟨⟨s, (), .fixed .allowAll, []⟩, { requestId := "r1", path := "/archive" }, []⟩

/-- The state that such a request leaves. -/
def stateAfter (c : HandlerClass Unit) (s : ClassState Unit) : ClassState Unit :=
  (visitTo c s).handled.2.setting.state

/-- Two requests to a class, the first of which finds it new. -/
theorem serves_two (c : HandlerClass Unit) :
    Serves c {} [visitTo c {}, visitTo c (stateAfter c {})] (stateAfter c (stateAfter c {})) :=
  .cons rfl rfl (.cons rfl rfl .nil)

def sealedArchive : HandlerClass Unit where
  system := "Accounts"
  handler := "Archive"
  methods := []
  onSetup _ state := (.raised (.untyped ⟨["opening the archive"], "it is sealed"⟩), state)

/-- The second request to such a class is refused as the first was, and its setup was final. -/
theorem sealedArchive_setup_is_final :
    ∃ visits last e, Serves sealedArchive {} visits last ∧ visits.length = 2 ∧
      (∀ a ∈ visits, a.setup.1 = .error (.failed e)) ∧ FinalSetup visits last := by
  let visits : List (Visit Unit) :=
    [visitTo sealedArchive {}, visitTo sealedArchive (stateAfter sealedArchive {})]
  have hserves : Serves sealedArchive {} visits _ := serves_two sealedArchive
  have hfailed : ∀ a ∈ visits, a.setup.1 = .error (.failed (hookFailure "Accounts/Archive"
      "initialize" (.untyped ⟨["opening the archive"], "it is sealed"⟩))) := by
    intro a ha
    rcases List.mem_cons.mp ha with rfl | ha
    · rfl
    · obtain rfl := List.mem_singleton.mp ha
      rfl
  obtain ⟨-, -, hfinal, -⟩ := setup_is_final_iff_no_breakdown sealedArchive hserves
  refine ⟨visits, _, _, hserves, rfl, hfailed, hfinal.mpr ?_⟩
  rintro a ha ⟨reason, hbroken⟩
  rw [hfailed a ha] at hbroken
  cases hbroken

def brokenArchive : HandlerClass Unit where
  system := "Accounts"
  handler := "Archive"
  methods := []
  onSetup _ state := (.panicked "index out of range", state)

/-- Two requests to such a class set it up twice, and it is pending after both. -/
theorem brokenArchive_is_set_up_twice :
    ∃ visits last, Serves brokenArchive {} visits last ∧ last.attempts = 2 ∧
      last.hasFailed = false ∧ Readiness.ofSetup last.outcome? = .pending ∧
      ¬ FinalSetup visits last := by
  let last := stateAfter brokenArchive (stateAfter brokenArchive {})
  have hattempts : last.attempts = 2 := rfl
  refine ⟨_, last, serves_two brokenArchive, hattempts, rfl, rfl, ?_⟩
  intro hfinal
  have honce := hfinal.once
  rw [hattempts] at honce
  exact absurd honce (by decide)

end Gatehouse.Service
