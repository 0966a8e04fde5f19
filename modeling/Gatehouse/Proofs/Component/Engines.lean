import Gatehouse.Proofs.Component.Build
import Gatehouse.Proofs.Config.Coherence
import Gatehouse.Proofs.Policy.Sharing
import Gatehouse.Proofs.Table

/-!
# The engines of classes

Calls for engines that share a directory, in whatever order their steps come, are answered as the
rules of their sections have it, and calls for one section are answered alike.  Settings that are
coherent have an engine for every section, so a class whose setup fails has been failed by a hook.
-/

namespace Gatehouse

namespace Policy

variable {κ ε δ : Type}

/-! ## Engines that can be told apart -/

/-- An engine together with the call that has made it. -/
structure Made (κ : Type) where
  maker : κ
  engine : Engine

def Made.ofRules (maker : κ) (rules : Rules) : Made κ := ⟨maker, .ofRules rules⟩

namespace Directory

def map (f : ε → δ) (d : Directory ε) : Directory δ where
  sections := d.sections
  inUse := d.inUse.map fun (name, engine) => (name, f engine)

theorem find?_map (f : ε → δ) (d : Directory ε) (name : String) :
    (d.map f).find? name = (d.find? name).map f := by
  rw [find?, find?, map]
  induction d.inUse with
  | nil => rfl
  | cons first rest ih =>
      rw [List.map_cons, Table.get?, Table.get?]
      split
      · rfl
      · exact ih

/-- Every engine in use is made of the rules of its section, none of whose properties is blank. -/
def Faithful (d : Directory Engine) : Prop :=
  ∀ name engine, d.find? name = some engine →
    engine = .ofRules (d.configured name) ∧ ¬(d.configured name).NamesBlank

theorem engineFor_of_named {d : Directory Engine} (hd : d.Faithful) {name : String}
    (h : ¬(d.configured name).NamesBlank) :
    (d.engineFor Engine.ofRules name).1 = .ok (.ofRules (d.configured name)) := by
  rw [engineFor]
  cases hfound : Table.get? name d.inUse with
  | some engine => rw [← (hd name engine hfound).1]
  | none =>
      rw [check_of_named h]
      dsimp only
      rw [publish_of_free hfound]

end Directory

theorem Sound.faithful {ask : κ → String} {sections : Table Rules} {w : World κ (Made κ)}
    (h : Sound Made.ofRules ask sections w) : (w.directory.map Made.engine).Faithful := by
  intro name engine hfound
  rw [Directory.find?_map] at hfound
  obtain ⟨made, hmade, rfl⟩ := Option.map_eq_some_iff.mp hfound
  obtain ⟨hnamed, maker, -, rfl⟩ := h.inUse name made hmade
  change Engine.ofRules _ = Engine.ofRules (w.directory.configured name) ∧
    ¬(w.directory.configured name).NamesBlank
  rw [h.configured]
  exact ⟨rfl, hnamed⟩

/-- Coherent settings have no section with a blank property. -/
theorem not_namesBlank_of_coherent {s : Config.Settings} (h : s.Coherent) (name : String) :
    ¬(rulesIn s.authorization name).NamesBlank := by
  rw [rulesIn]
  cases hget : Table.get? name s.authorization with
  | none => simp [Rules.NamesBlank]
  | some rules =>
      rw [Option.getD_some, ← Rules.hasBlankProperty_iff,
        h.rules name rules (Table.mem_of_get? hget)]
      exact Bool.false_ne_true

end Policy

/-! ## Setups with an engine -/

namespace Component.HandlerClass

open Effect

variable {σ : Type} (c : HandlerClass σ)

def hooks : List (String × Hook σ) :=
  [("pre_initialize", c.onPrepare), ("initialize", c.onSetup)]

/-- A hook of the class has stopped its setup. -/
inductive StoppedByHook : Stop → Prop where
  | raised {name : String} {hook : Hook σ} {context : SetupContext} {state : σ} {e : Raised}
      (isHook : (name, hook) ∈ c.hooks) (ending : (hook context state).1 = .raised e) :
      StoppedByHook (.failed (hookFailure c.fullName name e))
  | panicked {name : String} {hook : Hook σ} {context : SetupContext} {state : σ} {reason : String}
      (isHook : (name, hook) ∈ c.hooks) (ending : (hook context state).1 = .panicked reason) :
      StoppedByHook (.panicked reason)

variable {c}

theorem failsOnly_hook {name : String} {hook : Hook σ} (h : (name, hook) ∈ c.hooks)
    {context : SetupContext} (hinfo : context.info.fullName = c.fullName) :
    FailsOnly c.StoppedByHook (runHook name hook context) := by
  apply failsOnly_runHook
  · intro state e hending
    rw [hinfo]
    exact .raised h hending
  · exact fun _ _ _ hending => .panicked h hending

/-- With an engine for its section, a setup can only be stopped by a hook, and the gate of what it
builds has the engine. -/
theorem build_of_engine {s : Setting σ} {engine : Policy.Engine}
    (h : (s.policies.engineFor c.policySection).1 = .ok engine) (services : Services)
    (location : String) :
    (∀ stop, ((c.build services location).run s).1 = .error stop → c.StoppedByHook stop) ∧
    ∀ runtime, ((c.build services location).run s).1 = .ok runtime →
      runtime.gate.engine = engine := by
  have hengine : ∀ log, c.engine.run { s with log } =
      (.ok engine, { s with log, policies := (s.policies.engineFor c.policySection).2 }) := by
    intro log
    rw [HandlerClass.engine, run_bind_ok (run_get _), run_bind_ok (run_set _ _), h]
    rfl
  have hreport : ∀ lines, (report lines : SetupM σ Unit).run s =
      (.ok (), { s with log := s.log ++ lines }) := fun _ => rfl
  rw [build, run_bind_ok (hreport _), run_bind_ok (hengine _)]
  constructor
  · refine FailsOnly.bind (.modify _) (fun _ => ?_) _
    refine .bind (failsOnly_hook List.mem_cons_self rfl) fun _ => ?_
    refine .bind (failsOnly_hook (List.mem_cons_of_mem _ List.mem_cons_self) rfl) fun _ => ?_
    exact .bind (.modify _) fun _ => .bind (.modify _) fun _ => .pure _
  · refine ReturnsOnly.bind (fun _ => ?_) _
    refine .bind fun _ => .bind fun _ => .bind fun _ => .bind fun _ => .pure rfl

end Component.HandlerClass

/-! ## Answers -/

namespace Policy

open Component Config

/-- Any number of calls share a directory that had no engine in use, and their steps come in any
order.  A call is refused if and only if its section has a blank property; the engine it is answered
with otherwise judges by the rules of the section, and calls for the same section are answered with
the same engine, made by one of them.  Every call can be brought to its answer.  After whatever
calls there have been, coherent settings have an engine for every section, and no class fails for
want of one. -/
theorem engines_are_shared [DecidableEq κ] (ask : κ → String) (sections : Table Rules)
    {w : World κ (Made κ)} (hw : Reachable Made.ofRules ask sections w) :
    (∀ i answer, w.phase i = .answered answer →
      (answer = .error (Directory.refusal (ask i)) ↔ (rulesIn sections (ask i)).NamesBlank) ∧
      (¬(rulesIn sections (ask i)).NamesBlank → ∃ made, answer = .ok made ∧
        made.engine = .ofRules (rulesIn sections (ask i)))) ∧
    (∀ i j made made', ask i = ask j → w.phase i = .answered (.ok made) →
      w.phase j = .answered (.ok made') → made = made' ∧ ask made.maker = ask i) ∧
    (∀ i, ∃ w' answer, Reaches Made.ofRules ask w w' ∧ w'.phase i = .answered answer) ∧
    ∀ settings : Settings, settings.incoherence? = none → settings.authorization = sections →
      (∀ i answer, w.phase i = .answered answer → ∃ made, answer = .ok made) ∧
      let policies : Source := .configured (w.directory.map Made.engine)
      (∀ name, (policies.engineFor name).1 = .ok (.ofRules (rulesIn sections name))) ∧
      ∀ {σ : Type} (c : HandlerClass σ) (services : Services) (location : String)
        (s : Setting σ), s.policies = policies →
        (∀ stop, ((c.build services location).run s).1 = .error stop → c.StoppedByHook stop) ∧
        ∀ runtime, ((c.build services location).run s).1 = .ok runtime →
          runtime.gate.engine = .ofRules (rulesIn sections c.policySection) := by
  have hsound : Sound Made.ofRules ask sections w := Reachable.sound hw
  have hnamed : ∀ i answer, w.phase i = .answered answer →
      ¬(rulesIn sections (ask i)).NamesBlank → ∃ made, answer = .ok made ∧
        made.engine = .ofRules (rulesIn sections (ask i)) := by
    intro i answer hanswer hnamed
    rcases hsound.answered hanswer with ⟨made, rfl, -, -, maker, -, rfl⟩ | ⟨-, hblank⟩
    · exact ⟨_, rfl, rfl⟩
    · exact absurd hblank hnamed
  refine ⟨fun i answer hanswer => ⟨hsound.refused_iff hanswer, hnamed i answer hanswer⟩, ?_, ?_, ?_⟩
  · intro i j made made' hask hi hj
    obtain ⟨_, heq, hinUse, -, maker, hmaker, hrules⟩ | ⟨hne, -⟩ := hsound.answered hi
    · obtain rfl := Except.ok.inj heq
      have hinUse' := hsound.phases j
      rw [hj, ← hask] at hinUse'
      refine ⟨Option.some.inj (hinUse.symm.trans hinUse'), ?_⟩
      rw [hrules]
      exact hmaker
    · cases hne
  · intro i
    obtain ⟨d', answer, hmoves⟩ := moves_to_answer (Made.ofRules i) (ask i) w.directory (w.phase i)
    obtain ⟨w', hreach, -, hphase⟩ := reaches_of_moves hmoves rfl rfl
    exact ⟨w', answer, hreach, hphase⟩
  · rintro settings hcoherent rfl
    have hclean := not_namesBlank_of_coherent (settings.incoherence?_eq_none_iff.mp hcoherent)
    have hengine : ∀ name,
        ((Source.configured (w.directory.map Made.engine)).engineFor name).1 =
          .ok (.ofRules (rulesIn settings.authorization name)) := by
      intro name
      have hconfigured : (w.directory.map Made.engine).configured name =
          rulesIn settings.authorization name := hsound.configured name
      rw [← hconfigured]
      apply Directory.engineFor_of_named hsound.faithful
      rw [hconfigured]
      exact hclean name
    refine ⟨?_, hengine, ?_⟩
    · intro i answer hanswer
      obtain ⟨made, hmade, -⟩ := hnamed i answer hanswer (hclean (ask i))
      exact ⟨made, hmade⟩
    · intro σ c services location s hpolicies
      apply HandlerClass.build_of_engine
      rw [hpolicies]
      exact hengine c.policySection

/-- Two calls for one section that have both found no engine in use: the one that looked first puts
its engine into use last, and is answered with the other's. -/
theorem slower_call_gets_engine_in_use :
    let ask : Bool → String := fun _ => "Ledger"
    let sections : Table Rules := [("Ledger", { default := ["authenticated"] })]
    ∃ (w : World Bool (Made Bool)) (made made' : Made Bool),
      Reachable Made.ofRules ask sections w ∧ w.phase true = .answered (.ok made) ∧
      w.phase false = .answered (.ok made') ∧ made.maker = true ∧ made = made' := by
  intro ask sections
  have hcheck : ({ sections } : Directory (Made Bool)).check "Ledger" =
      .ok { default := ["authenticated"] } := by
    rfl
  have hw : Reachable Made.ofRules ask sections _ :=
    ((((((Relation.ReflTransGen.refl).tail (.of false (.miss rfl))).tail
      (.of false (.accepted hcheck))).tail (.of true (.miss rfl))).tail
      (.of true (.accepted hcheck))).tail (.of true .publish)).tail (.of false .publish)
  obtain ⟨-, hshared, -⟩ := engines_are_shared ask sections hw
  exact ⟨_, _, _, hw, rfl, rfl, rfl, (hshared true false _ _ rfl rfl rfl).1⟩

end Policy

end Gatehouse
