import Gatehouse.Policy.Engine
import Mathlib.Logic.Function.Basic
import Mathlib.Logic.Relation

/-!
# Engines that are asked for at the same time

`Directory.engineFor` is one call for the engine of a section that nothing interrupts.  Here a call
is cut into its atomic steps: the look at the engines in use, the check of the section's rules, and
the step that puts an engine into use unless another call was faster.  Any number of calls share one
directory, and a step of the whole is a step of any one of them.

Whatever calls do, an engine in use stays in use, and is one that some call for its section has made
of the section's rules.
-/

namespace Gatehouse.Policy

/-! ## Blank properties -/

/-- One of the lists of properties, be it the default, that of a method or that of a group, holds a
property of which trimming leaves nothing. -/
def Rules.NamesBlank (rules : Rules) : Prop :=
  ∃ list, (list = rules.default ∨ (∃ method, (method, list) ∈ rules.methods) ∨
    ∃ group, (group, list) ∈ rules.groups) ∧ ∃ property ∈ list, Text.trim property = ""

theorem Rules.mem_lists_iff {rules : Rules} {list : List String} :
    list ∈ rules.lists ↔ list = rules.default ∨ (∃ method, (method, list) ∈ rules.methods) ∨
      ∃ group, (group, list) ∈ rules.groups := by
  simp [lists]

theorem Rules.hasBlankProperty_iff (rules : Rules) :
    rules.hasBlankProperty = true ↔ rules.NamesBlank := by
  simp only [hasBlankProperty, List.any_eq_true, String.isEmpty_iff, mem_lists_iff, NamesBlank]

/-! ## The directory -/

namespace Directory

variable {ε : Type}

def find? (d : Directory ε) (name : String) : Option ε := Table.get? name d.inUse

def refusal (name : String) : PolicyError := .invalidSection name Rules.blankPropertyMessage

theorem check_of_blank {d : Directory ε} {name : String} (h : (d.configured name).NamesBlank) :
    d.check name = .error (refusal name) := by
  rw [check, if_pos ((Rules.hasBlankProperty_iff _).mpr h)]
  rfl

theorem check_of_named {d : Directory ε} {name : String} (h : ¬(d.configured name).NamesBlank) :
    d.check name = .ok (d.configured name) := by
  rw [check, if_neg fun hblank => h ((Rules.hasBlankProperty_iff _).mp hblank)]

theorem publish_of_found {d : Directory ε} {name : String} {engine : ε}
    (h : d.find? name = some engine) (other : ε) : d.publish name other = (engine, d) := by
  rw [find?] at h
  rw [publish, h]

theorem publish_of_free {d : Directory ε} {name : String} (h : d.find? name = none) (engine : ε) :
    d.publish name engine =
      (engine, { d with inUse := Table.insert name engine d.inUse }) := by
  rw [find?] at h
  rw [publish, h]

theorem sections_publish (d : Directory ε) (name : String) (engine : ε) :
    (d.publish name engine).2.sections = d.sections := by
  rw [publish]
  split <;> rfl

/-- What is in use under the name afterwards is the answer. -/
theorem find?_publish_self (d : Directory ε) (name : String) (engine : ε) :
    (d.publish name engine).2.find? name = some (d.publish name engine).1 := by
  cases h : d.find? name with
  | some found =>
      rw [publish_of_found h]
      exact h
  | none =>
      rw [publish_of_free h]
      exact Table.get?_insert_self name engine d.inUse

theorem find?_publish_of_ne (d : Directory ε) {name other : String} (h : other ≠ name)
    (engine : ε) : (d.publish name engine).2.find? other = d.find? other := by
  cases hfound : d.find? name with
  | some found => rw [publish_of_found hfound]
  | none =>
      rw [publish_of_free hfound]
      exact Table.get?_insert_of_ne h engine d.inUse

/-- What is in use stays in use. -/
theorem find?_publish_of_found {d : Directory ε} {other : String} {found : ε}
    (h : d.find? other = some found) (name : String) (engine : ε) :
    (d.publish name engine).2.find? other = some found := by
  by_cases hname : other = name
  · subst hname
    rw [publish_of_found h]
    exact h
  · rw [find?_publish_of_ne d hname]
    exact h

end Directory

/-! ## Calls -/

variable {κ ε : Type}

/-- Where a call for an engine stands. -/
inductive Phase (ε : Type) where
  /-- About to look whether an engine is in use. -/
  | looking
  /-- About to check the rules of the section. -/
  | checking
  /-- About to put an engine with these rules into use. -/
  | publishing (rules : Rules)
  | answered (answer : Except PolicyError ε)

/-- One atomic step of a call for the engine of a section. -/
inductive Move (make : Rules → ε) (name : String) :
    Directory ε → Phase ε → Directory ε → Phase ε → Prop where
  | hit {d : Directory ε} {engine : ε} (h : d.find? name = some engine) :
      Move make name d .looking d (.answered (.ok engine))
  | miss {d : Directory ε} (h : d.find? name = none) : Move make name d .looking d .checking
  | refused {d : Directory ε} {e : PolicyError} (h : d.check name = .error e) :
      Move make name d .checking d (.answered (.error e))
  | accepted {d : Directory ε} {rules : Rules} (h : d.check name = .ok rules) :
      Move make name d .checking d (.publishing rules)
  | publish {d : Directory ε} {rules : Rules} :
      Move make name d (.publishing rules) (d.publish name (make rules)).2
        (.answered (.ok (d.publish name (make rules)).1))

inductive Moves (make : Rules → ε) (name : String) :
    Directory ε → Phase ε → Directory ε → Phase ε → Prop where
  | refl {d : Directory ε} {p : Phase ε} : Moves make name d p d p
  | head {d d' last : Directory ε} {p p' q : Phase ε} (move : Move make name d p d' p')
      (rest : Moves make name d' p' last q) : Moves make name d p last q

/-- `engineFor` does what the steps of one call do when nothing interrupts them. -/
theorem moves_engineFor (make : Rules → ε) (d : Directory ε) (name : String) :
    Moves make name d .looking (d.engineFor make name).2
      (.answered (d.engineFor make name).1) := by
  rw [Directory.engineFor]
  cases hfound : Table.get? name d.inUse with
  | some engine => exact .head (.hit hfound) .refl
  | none =>
      apply Moves.head (.miss hfound)
      cases hcheck : d.check name with
      | error e => exact .head (.refused hcheck) .refl
      | ok rules => exact .head (.accepted hcheck) (.head .publish .refl)

/-! ## All calls together -/

/-- A directory with the calls for its engines; `κ` names them. -/
structure World (κ ε : Type) where
  directory : Directory ε
  phase : κ → Phase ε := fun _ => .looking

section

variable [DecidableEq κ] (make : κ → Rules → ε) (ask : κ → String)

/-- Some call takes one step.  Each makes engines of its own and asks for the section it names. -/
inductive Step : World κ ε → World κ ε → Prop where
  | of {w : World κ ε} (i : κ) {d' : Directory ε} {p' : Phase ε}
      (move : Move (make i) (ask i) w.directory (w.phase i) d' p') :
      Step w { directory := d', phase := Function.update w.phase i p' }

/-- A world that comes about from another by any interleaving of steps. -/
abbrev Reaches : World κ ε → World κ ε → Prop := Relation.ReflTransGen (Step make ask)

/-- A world that comes about while calls share a directory that had no engine in use at first. -/
abbrev Reachable (sections : Table Rules) (w : World κ ε) : Prop :=
  Reaches make ask { directory := { sections } } w

end

def rulesIn (sections : Table Rules) (name : String) : Rules := (Table.get? name sections).getD {}

/-- The engine is one that a call for the section makes of the section's rules, none of whose
properties is blank. -/
structure MadeFor (make : κ → Rules → ε) (ask : κ → String) (sections : Table Rules)
    (name : String) (engine : ε) : Prop where
  named : ¬(rulesIn sections name).NamesBlank
  made : ∃ maker, ask maker = name ∧ engine = make maker (rulesIn sections name)

/-- What a call that stands at a phase has found out, which no step of another call undoes. -/
def Phase.Justified (d : Directory ε) (name : String) : Phase ε → Prop
  | .looking | .checking => True
  | .publishing rules => rules = d.configured name ∧ ¬(d.configured name).NamesBlank
  | .answered (.ok engine) => d.find? name = some engine
  | .answered (.error e) => e = Directory.refusal name ∧ (d.configured name).NamesBlank

/-- What holds of a world whose calls share the sections. -/
structure Sound (make : κ → Rules → ε) (ask : κ → String) (sections : Table Rules)
    (w : World κ ε) : Prop where
  unchanged : w.directory.sections = sections
  inUse : ∀ name engine, w.directory.find? name = some engine →
    MadeFor make ask sections name engine
  phases : ∀ i, (w.phase i).Justified w.directory (ask i)

theorem Sound.configured {make : κ → Rules → ε} {ask : κ → String} {sections : Table Rules}
    {w : World κ ε} (h : Sound make ask sections w) (name : String) :
    w.directory.configured name = rulesIn sections name := by
  rw [Directory.configured, h.unchanged]
  rfl

/-- One directory comes after another: it has the same sections, and what was in use is in use. -/
structure Later (d d' : Directory ε) : Prop where
  sections : d'.sections = d.sections
  kept : ∀ name engine, d.find? name = some engine → d'.find? name = some engine

theorem Later.configured {d d' : Directory ε} (h : Later d d') (name : String) :
    d'.configured name = d.configured name := by
  rw [Directory.configured, Directory.configured, h.sections]

theorem Phase.Justified.later {d d' : Directory ε} {name : String} {p : Phase ε}
    (h : p.Justified d name) (hlater : Later d d') : p.Justified d' name := by
  cases p with
  | looking => trivial
  | checking => trivial
  | publishing rules =>
      rw [Justified, hlater.configured]
      exact h
  | answered answer =>
      cases answer with
      | ok engine => exact hlater.kept name engine h
      | error e =>
          rw [Justified, hlater.configured]
          exact h

/-- What one step does: it brings the call on, and if it puts an engine into use, then one that the
call has made of the rules of its section, where none was in use. -/
theorem Move.justified {make : Rules → ε} {name : String} {d d' : Directory ε} {p p' : Phase ε}
    (move : Move make name d p d' p') (h : p.Justified d name) :
    Later d d' ∧ p'.Justified d' name ∧ ∀ other engine, d'.find? other = some engine →
      d.find? other = some engine ∨ other = name ∧ engine = make (d.configured name) ∧
        ¬(d.configured name).NamesBlank := by
  cases move with
  | hit hfound => exact ⟨⟨rfl, fun _ _ => id⟩, hfound, fun _ _ => .inl⟩
  | miss hfree => exact ⟨⟨rfl, fun _ _ => id⟩, trivial, fun _ _ => .inl⟩
  | @refused e hcheck =>
      refine ⟨⟨rfl, fun _ _ => id⟩, ?_, fun _ _ => .inl⟩
      by_cases hblank : (d.configured name).NamesBlank
      · rw [Directory.check_of_blank hblank] at hcheck
        exact ⟨(Except.error.inj hcheck).symm, hblank⟩
      · rw [Directory.check_of_named hblank] at hcheck
        cases hcheck
  | @accepted rules hcheck =>
      refine ⟨⟨rfl, fun _ _ => id⟩, ?_, fun _ _ => .inl⟩
      by_cases hblank : (d.configured name).NamesBlank
      · rw [Directory.check_of_blank hblank] at hcheck
        cases hcheck
      · rw [Directory.check_of_named hblank] at hcheck
        exact ⟨(Except.ok.inj hcheck).symm, hblank⟩
  | @publish rules =>
      obtain ⟨rfl, hnamed⟩ := h
      refine ⟨⟨d.sections_publish name _, ?_⟩, d.find?_publish_self name _, ?_⟩
      · exact fun other engine hfound => Directory.find?_publish_of_found hfound name _
      · intro other engine hfound
        by_cases hother : other = name
        · subst hother
          cases hbefore : d.find? other with
          | some before =>
              rw [Directory.publish_of_found hbefore, hbefore] at hfound
              exact .inl hfound
          | none =>
              rw [d.find?_publish_self, Directory.publish_of_free hbefore] at hfound
              exact .inr ⟨rfl, (Option.some.inj hfound).symm, hnamed⟩
        · rw [d.find?_publish_of_ne hother] at hfound
          exact .inl hfound

section

variable [DecidableEq κ] {make : κ → Rules → ε} {ask : κ → String} {sections : Table Rules}
variable {w w' : World κ ε}

omit [DecidableEq κ] in
theorem sound_new (make : κ → Rules → ε) (ask : κ → String) (sections : Table Rules) :
    Sound make ask sections { directory := { sections } } where
  unchanged := rfl
  inUse _ _ h := nomatch h
  phases _ := trivial

theorem Step.sound (h : Sound make ask sections w) (step : Step make ask w w') :
    Sound make ask sections w' := by
  obtain ⟨i, move⟩ := step
  obtain ⟨hlater, hphase, hinUse⟩ := move.justified (h.phases i)
  refine ⟨hlater.sections.trans h.unchanged, ?_, ?_⟩
  · intro name engine hfound
    rcases hinUse name engine hfound with hbefore | ⟨rfl, rfl, hnamed⟩
    · exact h.inUse name engine hbefore
    · rw [h.configured] at hnamed ⊢
      exact ⟨hnamed, i, rfl, rfl⟩
  · intro j
    by_cases hj : j = i
    · subst hj
      simpa only [Function.update_self] using hphase
    · simpa only [Function.update_of_ne hj] using (h.phases j).later hlater

/-- Every world that calls come to is sound. -/
theorem Reachable.sound (h : Reachable make ask sections w) : Sound make ask sections w := by
  induction h with
  | refl => exact sound_new make ask sections
  | tail _ step ih => exact step.sound ih

omit [DecidableEq κ] in
/-- What a call has been answered with. -/
theorem Sound.answered (h : Sound make ask sections w) {i : κ} {answer : Except PolicyError ε}
    (hanswer : w.phase i = .answered answer) :
    (∃ engine, answer = .ok engine ∧ w.directory.find? (ask i) = some engine ∧
      MadeFor make ask sections (ask i) engine) ∨
    answer = .error (Directory.refusal (ask i)) ∧ (rulesIn sections (ask i)).NamesBlank := by
  have hphase := h.phases i
  rw [hanswer] at hphase
  cases answer with
  | ok engine => exact .inl ⟨engine, rfl, hphase, h.inUse _ _ hphase⟩
  | error e =>
      obtain ⟨rfl, hblank⟩ := hphase
      rw [h.configured] at hblank
      exact .inr ⟨rfl, hblank⟩

omit [DecidableEq κ] in
/-- A call is refused if and only if its section has a blank property. -/
theorem Sound.refused_iff (h : Sound make ask sections w) {i : κ} {answer : Except PolicyError ε}
    (hanswer : w.phase i = .answered answer) :
    answer = .error (Directory.refusal (ask i)) ↔ (rulesIn sections (ask i)).NamesBlank := by
  rcases h.answered hanswer with ⟨engine, rfl, -, hmade⟩ | ⟨rfl, hblank⟩
  · exact iff_of_false nofun hmade.named
  · exact iff_of_true rfl hblank

/-- Steps of one call are steps of the world. -/
theorem reaches_of_moves {i : κ} {d d' : Directory ε} {p p' : Phase ε}
    (h : Moves (make i) (ask i) d p d' p') (hd : w.directory = d) (hp : w.phase i = p) :
    ∃ w', Reaches make ask w w' ∧ w'.directory = d' ∧ w'.phase i = p' := by
  induction h generalizing w with
  | refl => exact ⟨w, .refl, hd, hp⟩
  | @head _ d₁ _ _ p₁ _ move _ ih =>
      subst hd hp
      obtain ⟨w', hreach, hlast⟩ :=
        @ih { directory := d₁, phase := Function.update w.phase i p₁ } rfl
          (Function.update_self i p₁ w.phase)
      exact ⟨w', .head (.of i move) hreach, hlast⟩

end

/-- Wherever a call stands, its own steps bring it to an answer. -/
theorem moves_to_answer (make : Rules → ε) (name : String) (d : Directory ε) (p : Phase ε) :
    ∃ d' answer, Moves make name d p d' (.answered answer) := by
  cases p with
  | looking => exact ⟨_, _, moves_engineFor make d name⟩
  | checking =>
      cases hcheck : d.check name with
      | error e => exact ⟨_, _, .head (.refused hcheck) .refl⟩
      | ok rules => exact ⟨_, _, .head (.accepted hcheck) (.head .publish .refl)⟩
  | publishing rules => exact ⟨_, _, .head .publish .refl⟩
  | answered answer => exact ⟨_, _, .refl⟩

end Gatehouse.Policy
