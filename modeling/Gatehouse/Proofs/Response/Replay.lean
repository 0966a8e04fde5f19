import Gatehouse.Proofs.Response.Body
import Gatehouse.Response.Deferred

/-!
# Replays

A replay of a log does its steps in their order, up to the first that fails: the status, the
actions, and then the payload, unless the response is finished by then.  What the log writes is
stripped by the writer in any case, so that stripping the log first changes nothing.
-/

namespace Gatehouse.Response

open Effect
open Http (Status)

/-! ## Steps -/

def inTurn : List (Edit Unit) → Edit Unit
  | [] => pure ()
  | step :: rest => do
    step
    inTurn rest

/-- The steps succeed one behind the other and lead from one writer to another. -/
inductive Course : List (Edit Unit) → Writer → Writer → Prop where
  | done {w : Writer} : Course [] w w
  | step {step : Edit Unit} {rest : List (Edit Unit)} {w next last : Writer}
      (hstep : w.edit step = (.ok (), next)) (hrest : Course rest next last) :
      Course (step :: rest) w last

/-- One of the steps is the first to fail, on the writer to which those before it have led. -/
def FailsFirst (steps : List (Edit Unit)) (w : Writer) (error : TransportError)
    (left : Writer) : Prop :=
  ∃ before step after reached, steps = before ++ step :: after ∧ Course before w reached ∧
    reached.edit step = (.error error, left)

def Finishes (steps : List (Edit Unit)) (w : Writer) : Prop :=
  ∃ before step after reached next, steps = before ++ step :: after ∧ Course before w reached ∧
    reached.finished = false ∧ reached.edit step = (.ok (), next) ∧ next.finished = true

/-- The edit never reopens a response. -/
def KeepsFinished (e : Edit Unit) : Prop :=
  ∀ w : Writer, w.finished = true → (w.edit e).2.finished = true

theorem edit_inTurn_eq_ok {steps : List (Edit Unit)} {w last : Writer} :
    w.edit (inTurn steps) = (.ok (), last) ↔ Course steps w last := by
  induction steps generalizing w with
  | nil =>
      constructor
      · rintro ⟨rfl⟩
        exact .done
      · rintro ⟨⟩
        rfl
  | cons step rest ih =>
      rw [inTurn, Writer.edit]
      constructor
      · intro h
        rcases hstep : w.edit step with ⟨error | ⟨⟩, next⟩
        · rw [run_bind_error hstep] at h
          cases h
        · rw [run_bind_ok hstep] at h
          exact .step hstep (ih.mp h)
      · rintro (_ | ⟨hstep, hrest⟩)
        rw [run_bind_ok hstep]
        exact ih.mpr hrest

theorem edit_inTurn_eq_error {steps : List (Edit Unit)} {w left : Writer}
    {error : TransportError} :
    w.edit (inTurn steps) = (.error error, left) ↔ FailsFirst steps w error left := by
  induction steps generalizing w with
  | nil =>
      constructor
      · intro h
        cases h
      · rintro ⟨before, step, after, reached, hsteps, -⟩
        exact absurd hsteps.symm (List.append_ne_nil_of_right_ne_nil _ (List.cons_ne_nil _ _))
  | cons step rest ih =>
      rw [inTurn, Writer.edit]
      constructor
      · intro h
        rcases hstep : w.edit step with ⟨reason | ⟨⟩, next⟩
        · rw [run_bind_error hstep] at h
          cases h
          exact ⟨[], step, rest, w, rfl, .done, hstep⟩
        · rw [run_bind_ok hstep] at h
          obtain ⟨before, failed, after, reached, rfl, hbefore, hfailed⟩ := ih.mp h
          exact ⟨step :: before, failed, after, reached, rfl, .step hstep hbefore, hfailed⟩
      · rintro ⟨before, failed, after, reached, hsteps, hbefore, hfailed⟩
        cases hbefore with
        | done =>
            obtain ⟨rfl, rfl⟩ := List.cons.inj hsteps
            exact run_bind_error hfailed
        | step hstep hbefore =>
            obtain ⟨rfl, rfl⟩ := List.cons.inj hsteps
            rw [run_bind_ok hstep]
            exact ih.mpr ⟨_, failed, after, reached, rfl, hbefore, hfailed⟩

theorem Course.append_iff {first second : List (Edit Unit)} {w last : Writer} :
    Course (first ++ second) w last ↔ ∃ next, Course first w next ∧ Course second next last := by
  induction first generalizing w with
  | nil =>
      constructor
      · intro h
        exact ⟨w, .done, h⟩
      · rintro ⟨_, ⟨⟩, h⟩
        exact h
  | cons step rest ih =>
      constructor
      · rintro (_ | ⟨hstep, hrest⟩)
        obtain ⟨next, hfirst, hsecond⟩ := ih.mp hrest
        exact ⟨next, .step hstep hfirst, hsecond⟩
      · rintro ⟨next, _ | ⟨hstep, hfirst⟩, hsecond⟩
        exact .step hstep (ih.mpr ⟨next, hfirst, hsecond⟩)

/-- Steps that find the response open and leave it finished have one among them that finishes it. -/
theorem Course.finishes {steps : List (Edit Unit)} {w last : Writer} (h : Course steps w last)
    (hopen : w.finished = false) (hlast : last.finished = true) : Finishes steps w := by
  induction h with
  | done =>
      rw [hopen] at hlast
      cases hlast
  | @step step rest w next last hstep hrest ih =>
      cases hnext : next.finished with
      | true => exact ⟨[], step, rest, w, next, rfl, .done, hopen, hstep, hnext⟩
      | false =>
          obtain ⟨before, closing, after, reached, left, rfl, hbefore, hrest⟩ := ih hnext hlast
          exact ⟨step :: before, closing, after, reached, left, rfl, .step hstep hbefore, hrest⟩

/-- A response that is finished stays so where no step reopens it. -/
theorem Course.stays_finished {steps : List (Edit Unit)} {w last : Writer}
    (h : Course steps w last) (hkeeps : ∀ step ∈ steps, KeepsFinished step)
    (hfinished : w.finished = true) : last.finished = true := by
  induction h with
  | done => exact hfinished
  | step hstep hrest ih =>
      obtain ⟨hfirst, hothers⟩ := List.forall_mem_cons.mp hkeeps
      have hnext := hfirst _ hfinished
      rw [hstep] at hnext
      exact ih hothers hnext

theorem Course.unique {steps : List (Edit Unit)} {w last other : Writer}
    (h : Course steps w last) (hother : Course steps w other) : other = last := by
  rw [← edit_inTurn_eq_ok] at h hother
  rw [h] at hother
  cases hother
  rfl

/-- Where no step reopens the response, it is finished in the end exactly if a step finishes it. -/
theorem Course.finished_iff {steps : List (Edit Unit)} {w last : Writer}
    (h : Course steps w last) (hopen : w.finished = false)
    (hkeeps : ∀ step ∈ steps, KeepsFinished step) : last.finished = true ↔ Finishes steps w := by
  refine ⟨h.finishes hopen, ?_⟩
  rintro ⟨before, closing, after, reached, next, rfl, hbefore, -, hclosing, hnext⟩
  obtain ⟨between, hfirst, hsecond⟩ := append_iff.mp h
  obtain rfl := hfirst.unique hbefore
  cases hsecond with
  | step hstep hafter =>
      rw [hclosing] at hstep
      cases hstep
      refine hafter.stays_finished (fun step hmem => hkeeps step ?_) hnext
      exact List.mem_append_right before (List.mem_cons_of_mem closing hmem)

/-! ## The steps of a log -/

namespace Deferred

/-- What a log asks for before its payload: its status, if it has one, and its actions. -/
def steps (log : Deferred) : List (Edit Unit) :=
  (log.status.map Edit.setStatus).toList ++ log.actions.map Action.apply

def close (log : Deferred) : Edit Unit := do
  if !(← get).finished then Edit.finish log.payload

/-- The payload of a log has completed the response. -/
def Completes (log : Deferred) (last w : Writer) : Prop :=
  last.edit (Edit.finish log.payload) = (.ok (), w) ∧
    match log.payload with
    | none => w.body = last.body
    | some payload => ∃ bytes, Chunk last.codec payload bytes ∧ w.body = last.body ++ bytes

/-- No closure of the log reopens a response. -/
def KeepsFinished (log : Deferred) : Prop :=
  ∀ script, Action.custom script ∈ log.actions → Response.KeepsFinished script

end Deferred

theorem applyAll_eq_inTurn (actions : List Action) :
    applyAll actions = inTurn (actions.map Action.apply) := by
  induction actions with
  | nil => rfl
  | cons action rest ih => rw [applyAll, ih, List.map_cons, inTurn]

theorem inTurn_append (first second : List (Edit Unit)) :
    inTurn (first ++ second) = (do inTurn first; inTurn second) := by
  induction first with
  | nil => exact (pure_bind () fun _ => inTurn second).symm
  | cons step rest ih => rw [List.cons_append, inTurn, inTurn, ih, bind_assoc]

namespace Deferred

/-- A replay of an open response does the steps of the log in their order. -/
theorem replay_eq_inTurn (log : Deferred) :
    log.replay = (do Edit.ensureOpen; inTurn (log.steps ++ [log.close])) := by
  have hclose : inTurn [log.close] = log.close := bind_pure log.close
  rw [replay, steps, List.append_assoc, inTurn_append, inTurn_append, hclose,
    ← applyAll_eq_inTurn]
  cases log.status with
  | none => rfl
  | some status =>
      have hstatus : inTurn [Edit.setStatus status] = Edit.setStatus status :=
        bind_pure (Edit.setStatus status)
      change (do Edit.ensureOpen; Edit.setStatus status; applyAll log.actions; log.close) =
        (do Edit.ensureOpen; inTurn [Edit.setStatus status]; applyAll log.actions; log.close)
      rw [hstatus]

theorem edit_replay {w : Writer} (hopen : w.finished = false) (log : Deferred) :
    w.edit log.replay = w.edit (inTurn (log.steps ++ [log.close])) := by
  rw [replay_eq_inTurn]
  exact run_bind_ok (run_ensureOpen hopen)

theorem edit_close_of_finished {w : Writer} (h : w.finished = true) (log : Deferred) :
    w.edit log.close = (.ok (), w) := by
  rw [Writer.edit, close, run_bind_ok (run_get w), h]
  rfl

theorem edit_close_of_open {w : Writer} (h : w.finished = false) (log : Deferred) :
    w.edit log.close = w.edit (Edit.finish log.payload) := by
  rw [Writer.edit, close, run_bind_ok (run_get w), h]
  rfl

/-- A payload that has completed the response has found it open. -/
theorem Completes.was_open {log : Deferred} {last w : Writer} (h : log.Completes last w) :
    last.finished = false := by
  cases hlast : last.finished with
  | false => rfl
  | true =>
      have hrefused : last.edit (Edit.finish log.payload) = (.error .alreadyFinished, last) :=
        Operation.edit_of_finished hlast (.finish log.payload)
      have haccepted := h.1
      rw [hrefused] at haccepted
      cases haccepted

theorem completes_of_finish {log : Deferred} {last w : Writer} (hopen : last.finished = false)
    (h : last.edit (Edit.finish log.payload) = (.ok (), w)) :
    log.Completes last w ∧ w.finished = true := by
  rw [Completes]
  cases hpayload : log.payload with
  | none =>
      rw [hpayload] at h
      have hrun : last.edit (Edit.finish none) = _ := run_finish_none hopen
      rw [hrun] at h
      cases h
      exact ⟨⟨hrun, rfl⟩, rfl⟩
  | some payload =>
      rw [hpayload] at h
      have hadds := Adds.finish hopen payload
      rw [Writer.edit] at h
      rw [h] at hadds
      cases hadds with
      | added chunk _ body => exact ⟨⟨h, _, chunk, body⟩, finished_of_finish hopen h⟩

/-- A replay that succeeds does every step before the payload, and then the payload completes the
response if it is still open. -/
theorem exists_course {log : Deferred} {w left : Writer} (hopen : w.finished = false)
    (h : w.edit log.replay = (.ok (), left)) :
    left.finished = true ∧ ∃ last, Course log.steps w last ∧
      (last.finished = true ∧ left = last ∨ last.finished = false ∧ log.Completes last left) := by
  rw [edit_replay hopen, edit_inTurn_eq_ok, Course.append_iff] at h
  obtain ⟨last, hsteps, _ | ⟨hclose, ⟨⟩⟩⟩ := h
  cases hlast : last.finished with
  | true =>
      rw [edit_close_of_finished hlast] at hclose
      cases hclose
      exact ⟨hlast, left, hsteps, .inl ⟨hlast, rfl⟩⟩
  | false =>
      rw [edit_close_of_open hlast] at hclose
      obtain ⟨hcompletes, hfinished⟩ := completes_of_finish hlast hclose
      exact ⟨hfinished, last, hsteps, .inr ⟨hlast, hcompletes⟩⟩

end Deferred

/-! ## Stripped logs -/

/-- The writer strips what is added to the body. -/
theorem append_strip (payload : Payload) : Edit.append payload.strip = Edit.append payload := by
  cases payload with
  | structured value =>
      funext w
      have hstripped := run_append_structured value.strip w
      rw [Json.strip_strip] at hstripped
      exact hstripped.trans (run_append_structured value w).symm
  | _ => rfl

theorem finish_map_strip (payload : Option Payload) :
    Edit.finish (payload.map Payload.strip) = Edit.finish payload := by
  have hfinish (payload : Payload) : Edit.finish (some payload) =
      (do Edit.ensureOpen; Edit.append payload; modify fun w => { w with finished := true }) := rfl
  cases payload with
  | none => rfl
  | some payload => rw [Option.map_some, hfinish, hfinish, append_strip]

theorem Action.apply_strip (action : Action) : action.strip.apply = action.apply := by
  cases action with
  | write payload => rw [strip, apply, apply, Edit.write, append_strip, Edit.write]
  | finish payload => exact finish_map_strip payload
  | _ => rfl

/-- A log does the same whether it is stripped first or not. -/
theorem Deferred.replay_strip (log : Deferred) : log.strip.replay = log.replay := by
  have hactions : log.strip.actions.map Action.apply = log.actions.map Action.apply := by
    rw [strip, List.map_map]
    exact List.map_congr_left fun action _ => action.apply_strip
  have hsteps : log.strip.steps = log.steps := by rw [steps, steps, hactions]; rfl
  have hclose : log.strip.close = log.close := by
    rw [close, close, strip, finish_map_strip]
  rw [replay_eq_inTurn, replay_eq_inTurn, hsteps, hclose]

/-! ## Reopened responses -/

/-- A recorded operation reopens no response. -/
theorem Action.keepsFinished {action : Action}
    (h : ∀ script, action = .custom script → KeepsFinished script) :
    KeepsFinished action.apply := by
  intro w hfinished
  have hrefused (operation : Operation) : (w.edit operation.edit).2.finished = true := by
    rw [operation.edit_of_finished hfinished]
    exact hfinished
  cases action with
  | setStatus status => exact hrefused (.setStatus status)
  | setHeader name value => exact hrefused (.setHeader name value)
  | addHeader name value => exact hrefused (.addHeader name value)
  | clearHeader name => exact hrefused (.clearHeader name)
  | write payload => exact hrefused (.write payload)
  | redirect location status => exact hrefused (.redirect location status)
  | finish payload => exact hrefused (.finish payload)
  | sendError status message => exact hrefused (.sendError status message)
  | custom script => exact h script rfl w hfinished

theorem Deferred.KeepsFinished.steps {log : Deferred} (h : log.KeepsFinished) :
    ∀ step ∈ log.steps, Response.KeepsFinished step := by
  intro step hmem
  rcases List.mem_append.mp hmem with hstatus | haction
  · obtain ⟨status, -, rfl⟩ := Option.map_eq_some_iff.mp (Option.mem_toList.mp hstatus)
    have hkeeps : Response.KeepsFinished (Action.setStatus status).apply :=
      Action.keepsFinished nofun
    exact hkeeps
  · obtain ⟨action, hmem, rfl⟩ := List.mem_map.mp haction
    refine Action.keepsFinished fun script hscript => h script ?_
    rwa [← hscript]

/-! ## The course of a replay -/

/-- A replay on an open response does the same with a log and with the log stripped.  If it
succeeds, the response is finished, and the payload has completed it exactly if the steps before it
had left it open, that is, where no closure reopens a response, if none of them had finished it.  It
fails with the error of the first step that fails, of the status, the actions and the payload in
this order, and leaves what that step has left. -/
theorem replay_follows_its_log (log : Deferred) (w : Writer) (hopen : w.finished = false) :
    w.edit log.strip.replay = w.edit log.replay ∧
    (∀ left, w.edit log.replay = (.ok (), left) → left.finished = true ∧
      ∃ last, Course log.steps w last ∧ (last.finished = true → left = last) ∧
        (log.Completes last left ↔ last.finished = false) ∧
        (log.KeepsFinished → (log.Completes last left ↔ ¬ Finishes log.steps w))) ∧
    ∀ error left, w.edit log.replay = (.error error, left) ↔
      FailsFirst (log.steps ++ [log.close]) w error left := by
  refine ⟨by rw [log.replay_strip], fun left h => ?_, fun error left => ?_⟩
  · obtain ⟨hfinished, last, hcourse, hend⟩ := Deferred.exists_course hopen h
    have hiff : log.Completes last left ↔ last.finished = false := by
      refine ⟨Deferred.Completes.was_open, fun hlast => ?_⟩
      rcases hend with ⟨htrue, -⟩ | ⟨-, hcompletes⟩
      · rw [hlast] at htrue
        cases htrue
      · exact hcompletes
    refine ⟨hfinished, last, hcourse, fun hlast => ?_, hiff, fun hkeeps => ?_⟩
    · rcases hend with ⟨-, hleft⟩ | ⟨hfalse, -⟩
      · exact hleft
      · rw [hlast] at hfalse
        cases hfalse
    · rw [hiff, ← hcourse.finished_iff hopen hkeeps.steps, Bool.not_eq_true]
  · rw [Deferred.edit_replay hopen, edit_inTurn_eq_error]

/-- A log that writes a call stack, and whose payload comes too late because a closure finishes the
response before. -/
def hastyLog : Deferred where
  payload := some (.text "late")
  status := some ⟨201⟩
  actions := [.write (.structured (.obj [("CallStack", .str "main"), ("a", .int 1)])),
    .custom (Edit.finish none)]

theorem hastyLog_keepsFinished : hastyLog.KeepsFinished := by
  intro script hmem w hfinished
  have hscript : script = Edit.finish none := by simpa [hastyLog] using hmem
  have hfinish : KeepsFinished (Action.finish none).apply := Action.keepsFinished nofun
  rw [hscript]
  exact hfinish w hfinished

theorem hastyLog_ends_before_its_payload :
    (Writer.new).finished = false ∧
    (Writer.new).edit hastyLog.strip.replay = (Writer.new).edit hastyLog.replay ∧
    ∃ left, (Writer.new).edit hastyLog.replay = (.ok (), left) ∧ left.finished = true ∧
      Course hastyLog.steps Writer.new left ∧ ¬ hastyLog.Completes left left ∧
      Finishes hastyLog.steps Writer.new := by
  let left := ((Writer.new).edit hastyLog.replay).2
  have hopen : (Writer.new).finished = false := rfl
  have hrun : (Writer.new).edit hastyLog.replay = (.ok (), left) := rfl
  obtain ⟨hstrip, hok, -⟩ := replay_follows_its_log hastyLog Writer.new hopen
  obtain ⟨hfinished, last, hcourse, -, hopened, hreached⟩ := hok left hrun
  have hsteps : Course hastyLog.steps Writer.new left := edit_inTurn_eq_ok.mp rfl
  obtain rfl := hcourse.unique hsteps
  have hlate : ¬ hastyLog.Completes left left := by
    rw [hopened, hfinished]
    decide
  have hfinishes := not_not.mp (mt (hreached hastyLog_keepsFinished).mpr hlate)
  exact ⟨hopen, hstrip, left, hrun, hfinished, hsteps, hlate, hfinishes⟩

end Gatehouse.Response
