import Gatehouse.Proofs.Json.Parts

/-!
# Which objects a record accepts

Members of different names make a record if it takes each of them and none is missing that it
requires.  Conversely an object that has been accepted has no member that its record does not take.
What is no field is refused, passed over or kept, in the order of the members.
-/

namespace Gatehouse.Json

variable {α σ : Type}

namespace RecordShape

variable {shape : RecordShape σ} {origin : Notation} {s s' : σ} {seen : List String}
  {members : List (String × Document)}

/-! ## Acceptance -/

/-- The record takes a member whatever it holds so far. -/
def Takes (shape : RecordShape σ) (origin : Notation) (member : String × Document) : Prop :=
  match shape.field? member.1 with
  | some field => ∀ s, ∃ s', field.take origin s member.2 = .ok s'
  | none => shape.others ≠ .refused

def IsComplete (shape : RecordShape σ) (names : List String) : Prop :=
  ∀ field ∈ shape.fields, field.required = true → field.name ∈ names

theorem complete_eq_ok (h : shape.IsComplete seen) : shape.complete seen = .ok () := by
  have hnone : (shape.fields.find? fun f => f.required && !seen.contains f.name) = none := by
    refine List.find?_eq_none.mpr fun field hfield => ?_
    by_cases hrequired : field.required = true
    · simp [h field hfield hrequired]
    · simp [hrequired]
  rw [complete, hnone]

/-- A name is found exactly if it is the name of a field. -/
theorem field?_eq_none_iff {name : String} : shape.field? name = none ↔ name ∉ shape.names := by
  rw [field?, List.find?_eq_none, names, List.mem_map]
  constructor
  · rintro h ⟨field, hfield, rfl⟩
    exact h field hfield (beq_self_eq_true _)
  · intro h field hfield hname
    exact h ⟨field, hfield, by simpa using hname⟩

variable (shape) in
theorem takeMembers_succeeds (hnames : (members.map Prod.fst).Nodup)
    (hnew : ∀ member ∈ members, member.1 ∉ seen)
    (htakes : ∀ member ∈ members, shape.Takes origin member)
    (hcomplete : shape.IsComplete (seen ++ members.map Prod.fst)) (s : σ) :
    ∃ s', shape.takeMembers origin seen s members = .ok s' := by
  induction members generalizing seen s with
  | nil =>
      rw [List.map_nil, List.append_nil] at hcomplete
      rw [takeMembers, complete_eq_ok hcomplete]
      exact ⟨s, rfl⟩
  | cons member rest ih =>
      obtain ⟨name, value⟩ := member
      obtain ⟨hfresh, hnames⟩ := List.nodup_cons.mp hnames
      obtain ⟨hname, hnew⟩ := List.forall_mem_cons.mp hnew
      obtain ⟨htake, htakes⟩ := List.forall_mem_cons.mp htakes
      rw [Takes] at htake
      rw [takeMembers]
      cases hfield : shape.field? name with
      | some field =>
          simp only [hfield] at htake
          obtain ⟨s₁, hstep⟩ := htake s
          have hseen : ¬ seen.contains name = true := by simpa using hname
          have hlater : ∀ member ∈ rest, member.1 ∉ name :: seen := by
            intro member hmember hmem
            obtain hsame | hmem := List.mem_cons.mp hmem
            · exact hfresh (List.mem_map.mpr ⟨member, hmember, hsame⟩)
            · exact hnew member hmember hmem
          have hrest : shape.IsComplete (name :: seen ++ rest.map Prod.fst) := by
            intro field' hfield' hrequired
            have hmem := hcomplete field' hfield' hrequired
            simp only [List.map_cons, List.mem_append, List.mem_cons] at hmem ⊢
            tauto
          simp only [hseen, hstep]
          exact ih hnames hlater htakes hrest s₁
      | none =>
          simp only [hfield] at htake
          have hrest : shape.IsComplete (seen ++ rest.map Prod.fst) := by
            intro field hmem hrequired
            have hne : field.name ≠ name := fun hname =>
              field?_eq_none_iff.mp hfield (hname ▸ List.mem_map_of_mem hmem)
            have hname := hcomplete field hmem hrequired
            simp only [List.map_cons, List.mem_append, List.mem_cons] at hname ⊢
            tauto
          cases hothers : shape.others with
          | refused => exact absurd hothers htake
          | passed => exact ih hnames hnew htakes hrest s
          | kept put => exact ih hnames hnew htakes hrest _

/-! ## What has been accepted -/

/-- A record that takes no further members has taken each member into the field of its name. -/
theorem taken_of_takeMembers (hothers : shape.others = .refused)
    (htake : shape.takeMembers origin seen s members = .ok s') : ∀ member ∈ members,
      ∃ field, shape.field? member.1 = some field ∧
        ∃ before after, field.take origin before member.2 = .ok after := by
  induction members generalizing seen s with
  | nil => exact List.forall_mem_nil _
  | cons member rest ih =>
      obtain ⟨name, value⟩ := member
      rw [takeMembers] at htake
      cases hfield : shape.field? name with
      | none =>
          simp only [hfield, hothers] at htake
          cases htake
      | some field =>
          simp only [hfield] at htake
          split at htake
          · cases htake
          · obtain ⟨s₁, hstep, htake⟩ := Effect.bind_eq_ok.mp htake
            exact List.forall_mem_cons.mpr ⟨⟨field, hfield, s, s₁, hstep⟩, ih htake⟩

/-- Each item of a list has been taken into the field of its position. -/
theorem taken_of_takeItems {fields : List (Slot σ)} {position n : Nat} {items : List Document}
    {field : Slot σ} {item : Document}
    (htake : shape.takeItems origin position s fields items = .ok s')
    (hfield : fields[n]? = some field) (hitem : items[n]? = some item) :
    ∃ before after, field.take origin before item = .ok after := by
  induction fields generalizing position s items n with
  | nil => cases hfield
  | cons first fields ih =>
      cases items with
      | nil => cases hitem
      | cons head rest =>
          rw [takeItems] at htake
          obtain ⟨s₁, hstep, htake⟩ := Effect.bind_eq_ok.mp htake
          cases n with
          | zero =>
              cases hfield
              cases hitem
              exact ⟨s, s₁, hstep⟩
          | succ n => exact ih htake hfield hitem

/-- What has members has been taken member by member. -/
theorem takeMembers_of_take {start : σ} {doc : Document}
    (htake : (shape.decode start).take origin doc = .ok s)
    (hmembers : doc.members? = some members) :
    shape.takeMembers origin [] start members = .ok s := by
  cases doc with
  | table found =>
      obtain rfl := Option.some.inj hmembers
      exact htake
  | inlineTable found =>
      obtain rfl := Option.some.inj hmembers
      exact htake
  | moment written =>
      obtain rfl := Option.some.inj hmembers
      exact htake
  | _ => cases hmembers

theorem takeItems_of_take {start : σ} {items : List Document}
    (htake : (shape.decode start).take origin (.list items) = .ok s) :
    shape.takeItems origin 0 start shape.fields items = .ok s := by
  change (if shape.listed then _ else wrongType shape.title (.list items)) = _ at htake
  split at htake
  · exact htake
  · cases htake

/-- An object that has been accepted has no member of an unknown name. -/
theorem names_known (hothers : shape.others = .refused) {start : σ} {doc : Document}
    (htake : (shape.decode start).take origin doc = .ok s)
    (hmembers : doc.members? = some members) : ∀ member ∈ members, member.1 ∈ shape.names := by
  intro member hmember
  obtain ⟨field, hfield, -⟩ :=
    taken_of_takeMembers hothers (takeMembers_of_take htake hmembers) member hmember
  by_contra hunknown
  rw [field?_eq_none_iff.mpr hunknown] at hfield
  cases hfield

/-! ## Further members -/

/-- What is kept of the members is bound in their order. -/
theorem kept_of_takeMembers (get : σ → Object) {put : σ → String → Json → σ}
    (hothers : shape.others = .kept put) (hput : ∀ s name value, get (put s name value) =
      Table.insert name value (get s))
    (hkeeps : ∀ field ∈ shape.fields, field.Keeps get)
    (htake : shape.takeMembers origin seen s members = .ok s') :
    get s' = Table.extend (get s)
      ((members.filter fun member => (shape.field? member.1).isNone).map
        fun member => (member.1, member.2.toJson)) := by
  induction members generalizing seen s with
  | nil =>
      rw [takeMembers] at htake
      obtain ⟨_, -, htake⟩ := Effect.bind_eq_ok.mp htake
      cases htake
      rfl
  | cons member rest ih =>
      obtain ⟨name, value⟩ := member
      rw [takeMembers] at htake
      cases hfield : shape.field? name with
      | some field =>
          simp only [hfield] at htake
          split at htake
          · cases htake
          · obtain ⟨s₁, hstep, htake⟩ := Effect.bind_eq_ok.mp htake
            have hkept := hkeeps field (List.mem_of_find?_eq_some hfield) _ _ _ _ hstep
            rw [ih htake, hkept, List.filter_cons_of_neg (by simp [hfield])]
      | none =>
          simp only [hfield, hothers] at htake
          rw [ih htake, hput, List.filter_cons_of_pos (by simp [hfield])]
          rfl

end RecordShape

end Gatehouse.Json
