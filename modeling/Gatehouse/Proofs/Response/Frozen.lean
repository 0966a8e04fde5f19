import Gatehouse.Proofs.Response.Script
import Gatehouse.Response.Result

/-!
# Finished responses

Once a response is finished, nothing that can still be asked of its writer changes it: operations
and replays are refused, and the envelope of an error is passed over in silence.  A replay that is
refused does not begin with its log, which is stated by a replay that leaves open what performing an
action means.
-/

namespace Gatehouse.Response

open Effect

/-! ## Replays with open actions -/

section

variable {m : Type → Type} [Monad m]

def liftEdit {α : Type} (e : Edit α) : ExceptT TransportError (StateT Writer m) α :=
  fun w => Pure.pure (e.run w)

def performAll (perform : Action → ExceptT TransportError (StateT Writer m) Unit) :
    List Action → ExceptT TransportError (StateT Writer m) Unit
  | [] => Pure.pure ()
  | action :: rest => do
    perform action
    performAll perform rest

/-- The replay of a log, whatever it is to perform one of its actions. -/
def Deferred.replayWith (perform : Action → ExceptT TransportError (StateT Writer m) Unit)
    (log : Deferred) : ExceptT TransportError (StateT Writer m) Unit := do
  liftEdit Edit.ensureOpen
  match log.status with
  | some status => liftEdit (Edit.setStatus status)
  | none => Pure.pure ()
  performAll perform log.actions
  if !(← liftEdit get).finished then liftEdit (Edit.finish log.payload)

end

theorem applyAll_eq (actions : List Action) :
    applyAll actions = performAll (m := Id) Action.apply actions := by
  induction actions with
  | nil => rfl
  | cons action rest ih =>
      rw [applyAll, performAll, ih]

/-- A replay applies the actions. -/
theorem Deferred.replay_eq (log : Deferred) :
    log.replay = log.replayWith (m := Id) Action.apply := by
  rw [replay, applyAll_eq]
  rfl

/-- Where the response is finished a replay ends before its first action, whatever it is to perform
one. -/
theorem Deferred.replayWith_of_finished {m : Type → Type} [Monad m] [LawfulMonad m] {w : Writer}
    (h : w.finished = true)
    (perform : Action → ExceptT TransportError (StateT Writer m) Unit) (log : Deferred) :
    (log.replayWith perform).run.run w = Pure.pure (.error .alreadyFinished, w) := by
  have hrefused : (liftEdit Edit.ensureOpen : ExceptT TransportError (StateT Writer m) Unit).run.run
      w = Pure.pure (.error .alreadyFinished, w) :=
    congrArg Pure.pure (run_ensureOpen_of_finished h)
  rw [replayWith, ExceptT.run_bind, StateT.run_bind, hrefused, pure_bind]
  rfl

theorem Deferred.edit_replay_of_finished {w : Writer} (h : w.finished = true) (log : Deferred) :
    w.edit log.replay = (.error .alreadyFinished, w) := by
  rw [replay_eq]
  exact replayWith_of_finished (m := Id) h Action.apply log

/-! ## Calls on a writer -/

/-- What can be asked of a writer. -/
inductive Call where
  | operation (operation : Operation)
  | replay (log : Deferred)
  | finishError (error : ServiceError) (requestId : Option String)

namespace Call

def edit : Call → Edit Unit
  | .operation o => o.edit
  | .replay log => log.replay
  | .finishError error requestId => Response.finishError error requestId

def lateAnswer : Call → Except TransportError Unit
  | .finishError .. => .ok ()
  | _ => .error .alreadyFinished

/-- The answers to calls in their order, and the writer that they leave. -/
def run : List Call → Writer → List (Except TransportError Unit) × Writer
  | [], w => ([], w)
  | call :: rest, w =>
    let (answer, next) := w.edit call.edit
    let (answers, last) := run rest next
    (answer :: answers, last)

/-- A call on a finished response is answered without effect. -/
theorem edit_of_finished {w : Writer} (h : w.finished = true) (call : Call) :
    w.edit call.edit = (call.lateAnswer, w) := by
  cases call with
  | operation o => exact o.edit_of_finished h
  | replay log => exact log.edit_replay_of_finished h
  | finishError error requestId =>
      rw [Writer.edit, edit]
      unfold Response.finishError
      rw [run_bind_ok (run_get w), if_pos h]
      rfl

/-- So are any number of them. -/
theorem run_of_finished {w : Writer} (h : w.finished = true) (calls : List Call) :
    run calls w = (calls.map lateAnswer, w) := by
  induction calls with
  | nil => rfl
  | cons call rest ih =>
      rw [run, edit_of_finished h call]
      dsimp only
      rw [ih, List.map_cons]

theorem run_append (first second : List Call) (w : Writer) :
    (run (first ++ second) w).2 = (run second (run first w).2).2 := by
  induction first generalizing w with
  | nil => rfl
  | cons call rest ih => exact ih _

/-- Calls that finish an open response have one among them that does, and none behind it counts. -/
theorem exists_completing {w : Writer} (hopen : w.finished = false) {calls : List Call}
    (h : (run calls w).2.finished = true) :
    ∃ before call rest, calls = before ++ call :: rest ∧
      (run before w).2.finished = false ∧ (run (before ++ [call]) w).2.finished = true := by
  induction calls generalizing w with
  | nil =>
      rw [run, hopen] at h
      cases h
  | cons call rest ih =>
      cases hnext : (w.edit call.edit).2.finished with
      | true => exact ⟨[], call, rest, rfl, hopen, hnext⟩
      | false =>
          obtain ⟨before, last, tail, rfl, hbefore, hlast⟩ := ih hnext h
          exact ⟨call :: before, last, tail, rfl, hbefore, hlast⟩

end Call

/-- A finished response stays as it is: whatever is asked of its writer afterwards, operations and
replays are refused, the envelope of an error is passed over in silence, and no replay performs an
action of its log.  So where logs are replayed one behind the other, those behind the first that
completes the response may as well be any others. -/
theorem finished_response_is_frozen (w : Writer) :
    (w.finished = true →
      (∀ calls, Call.run calls w = (calls.map Call.lateAnswer, w)) ∧
      ∀ (log : Deferred) (m : Type → Type) [Monad m] [LawfulMonad m]
        (perform : Action → ExceptT TransportError (StateT Writer m) Unit),
        (log.replayWith perform).run.run w = Pure.pure (.error .alreadyFinished, w)) ∧
    (w.finished = false → ∀ logs : List Deferred,
      (Call.run (logs.map .replay) w).2.finished = true →
      ∃ before log rest, logs = before ++ log :: rest ∧
        (Call.run (before.map .replay) w).2.finished = false ∧
        (Call.run ((before ++ [log]).map .replay) w).2.finished = true ∧
        ∀ others : List Deferred, (Call.run ((before ++ log :: others).map .replay) w).2 =
          (Call.run ((before ++ [log]).map .replay) w).2) := by
  constructor
  · intro h
    exact ⟨Call.run_of_finished h, fun log _ _ _ perform => log.replayWith_of_finished h perform⟩
  · intro hopen logs h
    obtain ⟨before, call, rest, hcalls, hbefore, hcompleted⟩ := Call.exists_completing hopen h
    obtain ⟨logs, tail, rfl, rfl, htail⟩ := List.map_eq_append_iff.mp hcalls
    obtain ⟨log, others, rfl, rfl, rfl⟩ := List.map_eq_cons_iff.mp htail
    have hlog : logs.map Call.replay ++ [.replay log] = (logs ++ [log]).map .replay := by
      rw [List.map_append, List.map_singleton]
    rw [hlog] at hcompleted
    refine ⟨logs, log, others, rfl, hbefore, hcompleted, fun others => ?_⟩
    have hsplit : logs ++ log :: others = (logs ++ [log]) ++ others := by simp
    rw [hsplit, List.map_append, Call.run_append, Call.run_of_finished hcompleted]

def brokenLog : Deferred where
  actions := [.write (.text "a"), .setHeader "no name" "x", .custom (Edit.write (.text "c"))]

def plainLog : Deferred where
  payload := some (.text "b")
  status := some ⟨201⟩

theorem plainLog_freezes_response :
    let w := (Call.run [.replay brokenLog, .replay plainLog] Writer.new).2
    w.finished = true ∧ Call.run [.replay brokenLog, .finishError (.http .ok "late") none] w =
      ([.error .alreadyFinished, .ok ()], w) := by
  intro w
  have hfinished : w.finished = true := rfl
  exact ⟨hfinished, ((finished_response_is_frozen w).1 hfinished).1 _⟩

/-- What a log that has failed has written is still there when another completes the response. -/
theorem brokenLog_contributes :
    let first := Call.run [.replay brokenLog] Writer.new
    let both := Call.run [.replay brokenLog, .replay plainLog] Writer.new
    first.2.finished = false ∧ both.2.finished = true ∧
      both.2.body ≠ (Call.run [.replay plainLog] Writer.new).2.body := by
  decide

end Gatehouse.Response
