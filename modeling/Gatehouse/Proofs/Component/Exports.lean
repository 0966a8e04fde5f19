import Gatehouse.Component.Method
import Gatehouse.Proofs.Table

/-!
# What is declared of exported methods

A table of methods comes about by exports, each with its declarations, and between exports anybody
may look a method up.  A method that somebody has looked up is no longer changed.  Since an export
starts with a method that nobody has seen, none of its declarations is lost, and since it starts
afresh, nothing that was declared before is kept.
-/

namespace Gatehouse.Component

open Response (MethodResult)

variable {σ : Type}

/-! ## Exports -/

inductive Declaration (σ : Type) where
  | auth (properties : List String)
  /-- The properties of a comma-separated list. -/
  | authList (list : String)
  | finishWith (finisher : Finisher σ)

namespace Declaration

def declareIn (table : MethodTable σ) (name : String) : Declaration σ → MethodTable σ
  | .auth properties => table.auth name properties
  | .authList list => table.authList name list
  | .finishWith finisher => table.finishWith name finisher

/-- The properties that are declared to be required. -/
def required? : Declaration σ → Option (List String)
  | .auth properties => some properties
  | .authList list => some (Policy.parseProperties list)
  | .finishWith _ => none

def finisher? : Declaration σ → Option (Finisher σ)
  | .auth _ | .authList _ => none
  | .finishWith finisher => some finisher

end Declaration

/-- An export and what is declared of it, in this order. -/
structure Export (σ : Type) where
  name : String
  call : Work σ MethodResult
  declarations : List (Declaration σ) := []

/-- The method that is exported: of its own declarations the last of each kind counts. -/
def Export.method (e : Export σ) : Method σ where
  name := e.name
  call := e.call
  required := (e.declarations.filterMap Declaration.required?).getLast?
  finisher := (e.declarations.filterMap Declaration.finisher?).getLast?

/-- The last export of a name. -/
def LastExport (exports : List (Export σ)) (name : String) (e : Export σ) : Prop :=
  ∃ before after, exports = before ++ e :: after ∧ e.name = name ∧
    ∀ later ∈ after, later.name ≠ name

/-! ## Tables in use -/

/-- A table some of whose methods somebody holds. -/
structure SharedTable (σ : Type) where
  table : MethodTable σ := []
  /-- The names whose methods, as they are now, somebody holds. -/
  held : List String := []

namespace SharedTable

/-- What is found is held from then on. -/
def lookUp (s : SharedTable σ) (name : String) : SharedTable σ :=
  match s.table.resolve name with
  | some _ => { s with held := name :: s.held }
  | none => s

/-- Nobody holds the new method of a name. -/
def publish (s : SharedTable σ) (name : String) (call : Work σ MethodResult) : SharedTable σ where
  table := s.table.publish name call
  held := s.held.filter (· ≠ name)

/-- A method that somebody holds stays as it is. -/
def declare (s : SharedTable σ) (name : String) (d : Declaration σ) : SharedTable σ :=
  if name ∈ s.held then s else { s with table := d.declareIn s.table name }

/-- Exports a method and declares what is to be declared of it.  Nobody can look it up before that
is done. -/
def enter (s : SharedTable σ) (e : Export σ) : SharedTable σ :=
  e.declarations.foldl (fun s d => s.declare e.name d) (s.publish e.name e.call)

/-- What happens to a table. -/
inductive Event (σ : Type) where
  | exported (e : Export σ)
  | lookedUp (name : String)

def Event.export? : Event σ → Option (Export σ)
  | .exported e => some e
  | .lookedUp _ => none

def step (s : SharedTable σ) : Event σ → SharedTable σ
  | .exported e => s.enter e
  | .lookedUp name => s.lookUp name

def after (events : List (Event σ)) : SharedTable σ := events.foldl step {}

end SharedTable

/-! ## One export -/

namespace MethodTable

variable {table : MethodTable σ} {name : String}

theorem get?_declare (table : MethodTable σ) (name other : String)
    (change : Method σ → Method σ) :
    Table.get? other (table.declare name change) =
      (Table.get? other table).map fun method => if other = name then change method else method := by
  induction table with
  | nil => rfl
  | cons first rest ih =>
      obtain ⟨key, method⟩ := first
      change Table.get? other ((key, _) :: declare rest name change) = _
      rw [Table.get?, Table.get?]
      by_cases hkey : key = other
      · subst hkey
        rw [if_pos rfl, if_pos rfl, Option.map_some]
      · rw [if_neg hkey, if_neg hkey, ih]

theorem ordered_declare (h : Table.Ordered table) (change : Method σ → Method σ) :
    Table.Ordered (table.declare name change) :=
  List.pairwise_map.mpr h

/-- What is declared of a method just entered might have been entered with it. -/
theorem declare_insert (h : Table.Ordered table) (method : Method σ)
    (change : Method σ → Method σ) :
    declare (Table.insert name method table) name change =
      Table.insert name (change method) table := by
  apply (ordered_declare (h.insert name method) change).ext (h.insert name (change method))
  intro other found
  rw [get?_declare]
  by_cases hother : other = name
  · subst hother
    rw [Table.get?_insert_self, Table.get?_insert_self, Option.map_some, if_pos rfl]
  · rw [Table.get?_insert_of_ne hother, Table.get?_insert_of_ne hother]
    simp only [hother, if_false, Option.map_id']

end MethodTable

def Declaration.change (method : Method σ) (d : Declaration σ) : Method σ where
  name := method.name
  call := method.call
  required := d.required?.or method.required
  finisher := d.finisher?.or method.finisher

theorem Declaration.declareIn_insert {table : MethodTable σ} (h : Table.Ordered table)
    (name : String) (method : Method σ) (d : Declaration σ) :
    d.declareIn (Table.insert name method table) name =
      Table.insert name (d.change method) table := by
  cases d with
  | auth properties =>
      exact MethodTable.declare_insert h method fun m => { m with required := some properties }
  | authList list =>
      exact MethodTable.declare_insert h method fun m =>
        { m with required := some (Policy.parseProperties list) }
  | finishWith finisher =>
      exact MethodTable.declare_insert h method fun m => { m with finisher := some finisher }

/-- One declaration after another, each kind is as the last of it says. -/
theorem foldl_change (method : Method σ) (declarations : List (Declaration σ)) :
    declarations.foldl Declaration.change method =
      { method with
        required := (declarations.filterMap Declaration.required?).getLast?.or method.required
        finisher := (declarations.filterMap Declaration.finisher?).getLast?.or method.finisher } := by
  induction declarations using List.reverseRecOn with
  | nil => rfl
  | append_singleton declarations d ih =>
      rw [List.foldl_append, ih]
      cases d <;> simp [Declaration.change, Declaration.required?, Declaration.finisher?]

namespace SharedTable

/-- As long as nobody holds the method, every declaration reaches it. -/
theorem foldl_declare {table : MethodTable σ} (h : Table.Ordered table) {name : String}
    {held : List String} (hfree : name ∉ held) (method : Method σ)
    (declarations : List (Declaration σ)) :
    declarations.foldl (fun s d => declare s name d) ⟨Table.insert name method table, held⟩ =
      ⟨Table.insert name (declarations.foldl Declaration.change method) table, held⟩ := by
  induction declarations generalizing method with
  | nil => rfl
  | cons d rest ih =>
      rw [List.foldl_cons, List.foldl_cons, declare, if_neg hfree, d.declareIn_insert h]
      exact ih (d.change method)

/-- An export binds its name to the method that it describes, whatever was held. -/
theorem table_enter (s : SharedTable σ) (h : Table.Ordered s.table) (e : Export σ) :
    (s.enter e).table = Table.insert e.name e.method s.table := by
  have hfree : e.name ∉ s.held.filter (· ≠ e.name) := by simp
  rw [enter, publish, MethodTable.publish, foldl_declare h hfree, foldl_change]
  simp only [Option.or_none, Export.method]

theorem table_lookUp (s : SharedTable σ) (name : String) : (s.lookUp name).table = s.table := by
  rw [lookUp]
  cases s.table.resolve name <;> rfl

/-! ## All exports -/

/-- Lookups leave no trace: the table is that of the exports. -/
theorem table_after (events : List (Event σ)) :
    (after events).table =
      Table.ofList ((events.filterMap Event.export?).map fun e => (e.name, e.method)) := by
  induction events using List.reverseRecOn with
  | nil => rfl
  | append_singleton events event ih =>
      have hstep : after (events ++ [event]) = (after events).step event := List.foldl_append
      rw [hstep, List.filterMap_append]
      cases event with
      | lookedUp name =>
          have hnone : ([.lookedUp name] : List (Event σ)).filterMap Event.export? = [] := rfl
          rw [step, table_lookUp, ih, hnone, List.append_nil]
      | exported e =>
          have hordered : Table.Ordered (after events).table := ih ▸ Table.ordered_ofList _
          rw [step, table_enter _ hordered, ih, Table.ofList, Table.ofList]
          simp [Event.export?, List.foldl_append]

end SharedTable

theorem lastExport_iff {exports : List (Export σ)} {name : String} {method : Method σ} :
    Table.LastBound (exports.map fun e => (e.name, e.method)) name method ↔
      ∃ e, LastExport exports name e ∧ method = e.method := by
  constructor
  · rintro ⟨before, after, hpairs, hafter⟩
    obtain ⟨front, back, rfl, rfl, hback⟩ := List.map_eq_append_iff.mp hpairs
    obtain ⟨e, behind, rfl, he, rfl⟩ := List.map_eq_cons_iff.mp hback
    obtain ⟨rfl, rfl⟩ := Prod.mk.inj he
    exact ⟨e, ⟨front, behind, rfl, rfl, fun later hlater =>
      hafter (later.name, later.method) (List.mem_map_of_mem hlater)⟩, rfl⟩
  · rintro ⟨e, ⟨before, after, rfl, rfl, hafter⟩, rfl⟩
    refine ⟨_, _, by rw [List.map_append, List.map_cons], fun pair hpair => ?_⟩
    obtain ⟨later, hlater, rfl⟩ := List.mem_map.mp hpair
    exact hafter later hlater

/-- Whatever is exported, declared and looked up: a name leads to no method if it was never
exported, and otherwise to that of its last export, with the properties and the finisher that were
last declared of this export and none else.  The names are in strict order, and they are those that
were exported. -/
theorem last_exports_are_resolved (events : List (SharedTable.Event σ)) (name : String) :
    let exports := events.filterMap SharedTable.Event.export?
    let table := (SharedTable.after events).table
    (table.resolve name = none ↔ ∀ e ∈ exports, e.name ≠ name) ∧
    (∀ method, table.resolve name = some method ↔
      ∃ e, LastExport exports name e ∧ method = e.method) ∧
    (Table.names table).Pairwise (· < ·) ∧
    (name ∈ Table.names table ↔ ∃ e ∈ exports, e.name = name) ∧
    table.length = (exports.map Export.name).toFinset.card := by
  intro exports table
  have htable : table = Table.ofList (exports.map fun e => (e.name, e.method)) :=
    SharedTable.table_after events
  have hordered : Table.Ordered table := htable ▸ Table.ordered_ofList _
  have hsome : ∀ method, table.resolve name = some method ↔
      ∃ e, LastExport exports name e ∧ method = e.method := by
    intro method
    rw [MethodTable.resolve, htable, Table.get?_ofList_eq_some_iff, lastExport_iff]
  have hnames : ∀ key, key ∈ Table.names table ↔ key ∈ exports.map Export.name := by
    intro key
    rw [htable, Table.mem_names_ofList, List.map_map]
    rfl
  refine ⟨?_, hsome, List.pairwise_map.mpr hordered, by rw [hnames, List.mem_map], ?_⟩
  · constructor
    · intro hnone e he rfl
      obtain ⟨method, hmethod⟩ := Table.exists_lastBound_iff.mpr
        (List.mem_map_of_mem (f := Prod.fst) (List.mem_map_of_mem he))
      have hfound := (hsome method).mpr (lastExport_iff.mp hmethod)
      rw [hnone] at hfound
      cases hfound
    · intro hnever
      rw [MethodTable.resolve, htable]
      exact Table.get?_ofList_of_unbound (List.forall_mem_map.mpr hnever)
  · have hset : (Table.names table).toFinset = (exports.map Export.name).toFinset := by
      ext key
      rw [List.mem_toFinset, List.mem_toFinset, hnames]
    rw [← hset, Table.names, List.toFinset_card_of_nodup hordered.nodup_names, List.length_map]

end Gatehouse.Component
