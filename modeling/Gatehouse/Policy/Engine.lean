import Gatehouse.Policy.Rules

/-!
# Policy engines

An engine judges the calls of one component.  A policy source hands out the engine of a section and
remembers those it has built, so that a section is checked and built once.
-/

namespace Gatehouse.Policy

/-- Judges a call of a method with its required properties, and completes the caller's record. -/
structure Engine where
  authorize : String → Option (List String) → Credential → Bool × Credential

namespace Engine

def allowAll : Engine := ⟨fun _ _ c => (true, c)⟩

def denyAll : Engine := ⟨fun _ _ c => (false, c)⟩

/-- The rules of a section decide. -/
def ofRules (rules : Rules) : Engine := ⟨rules.authorize⟩

end Engine

/-- Why a section has no engine. -/
inductive PolicyError where
  | invalidSection (name reason : String)
  | unavailable (reason : String)
  deriving DecidableEq, Repr

def PolicyError.message : PolicyError → String
  | .invalidSection name reason => s!"invalid authorization section {name}: {reason}"
  | .unavailable reason => s!"policy engine unavailable: {reason}"

/-- The configured sections, and the engines already in use.  What stands for an engine is left
open, so that engines with the same rules can be told apart. -/
structure Directory (ε : Type) where
  sections : Table Rules
  inUse : Table ε := []

namespace Directory

variable {ε : Type}

/-- The rules configured for a section: none for a section that is not configured. -/
def configured (d : Directory ε) (name : String) : Rules := (Table.get? name d.sections).getD {}

/-- The rules of a section, if every property in them has a name. -/
def check (d : Directory ε) (name : String) : Except PolicyError Rules :=
  let rules := d.configured name
  if rules.hasBlankProperty then .error (.invalidSection name Rules.blankPropertyMessage)
  else .ok rules

/-- Puts an engine into use, unless another is already in use under that name; the answer is what is
in use then. -/
def publish (d : Directory ε) (name : String) (engine : ε) : ε × Directory ε :=
  match Table.get? name d.inUse with
  | some engine => (engine, d)
  | none => (engine, { d with inUse := Table.insert name engine d.inUse })

def engineFor (make : Rules → ε) (d : Directory ε) (name : String) :
    Except PolicyError ε × Directory ε :=
  match Table.get? name d.inUse with
  | some engine => (.ok engine, d)
  | none =>
    match d.check name with
    | .error e => (.error e, d)
    | .ok rules =>
      let (engine, d) := d.publish name (make rules)
      (.ok engine, d)

end Directory

/-- Where engines come from. -/
inductive Source where
  | configured (directory : Directory Engine)
  /-- One engine for every section. -/
  | fixed (engine : Engine)
  | unavailable (reason : String)

namespace Source

def ofSections (sections : Table Rules) : Source := .configured { sections }

def engineFor (source : Source) (name : String) : Except PolicyError Engine × Source :=
  match source with
  | .fixed engine => (.ok engine, source)
  | .unavailable reason => (.error (.unavailable reason), source)
  | .configured directory =>
    let (engine, directory) := directory.engineFor Engine.ofRules name
    (engine, .configured directory)

end Source

end Gatehouse.Policy
