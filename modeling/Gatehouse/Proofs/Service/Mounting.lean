import Gatehouse.Proofs.Text.Split
import Gatehouse.Service.Server
import Mathlib

/-!
# Which endpoints a server has

A server is built with handlers, each at the mount that it asks for or else at the name of its
component.  Building fails only over a mount that two handlers have; the server that comes out has
one endpoint for each handler, the longest mounts first, and knows the class of each.  What requests
change is the state of endpoints and classes, so a server keeps this layout for good.
-/

namespace Gatehouse.Service

open Component (HandlerClass)

variable {σ : Type}

/-! ## Mounts -/

def IsTrimmed (written core : List Char) : Prop :=
  ∃ lead trail, written = List.replicate lead '/' ++ core ++ List.replicate trail '/' ∧
    core.head? ≠ some '/' ∧ core.getLast? ≠ some '/'

theorem isTrimmed_iff {written core : List Char} :
    IsTrimmed written core ↔
      core = Text.dropTrailing '/' (Text.dropLeading '/' written) := by
  constructor
  · rintro ⟨lead, trail, rfl, hhead, hlast⟩
    cases core with
    | nil =>
        have hall : Text.dropLeading '/' (List.replicate (lead + trail) '/' ++ []) = [] :=
          Text.dropLeading_replicate '/' _ (by simp)
        rw [List.append_nil, List.replicate_add] at hall
        rw [List.append_nil, hall]
        rfl
    | cons c core =>
        rw [List.append_assoc, Text.dropLeading_replicate '/' lead (by simpa using hhead),
          Text.dropTrailing_replicate '/' trail hlast]
  · rintro rfl
    obtain ⟨lead, hlead, hhead⟩ := Text.exists_replicate_dropLeading '/' written
    obtain ⟨trail, htrail, hlast⟩ :=
      Text.exists_replicate_dropTrailing '/' (Text.dropLeading '/' written)
    refine ⟨lead, trail, ?_, ?_, hlast⟩
    · rw [List.append_assoc, ← htrail, ← hlead]
    · rw [htrail, List.head?_append] at hhead
      intro hcore
      rw [hcore] at hhead
      exact hhead rfl

/-! ## Handlers to mount -/

/-- A handler that a server is built with. -/
structure Placement (σ : Type) where
  classId : Nat
  /-- The mount that it asks for, if any. -/
  asked : Option String
  instanceState : σ

/-- A handler's mount: what it asks for with one slash in front of it and none behind, or else the
name of its component. -/
inductive MountedAt (classes : Nat → HandlerClass σ) (p : Placement σ) : String → Prop where
  | asked {written : String} {core : List Char} (asks : p.asked = some written)
      (trimmed : IsTrimmed written.toList core) :
      MountedAt classes p (String.ofList ('/' :: core))
  | named (silent : p.asked = none) :
      MountedAt classes p ("/" ++ (classes p.classId).fullName)

namespace Placement

def endpoint (classes : Nat → HandlerClass σ) (p : Placement σ) : Endpoint σ where
  mount := (p.asked.map normalizeMount).getD s!"/{(classes p.classId).fullName}"
  classId := p.classId
  instanceState := p.instanceState

end Placement

theorem mountedAt_iff {classes : Nat → HandlerClass σ} {p : Placement σ} {mount : String} :
    MountedAt classes p mount ↔ mount = (p.endpoint classes).mount := by
  constructor
  · rintro (⟨asks, trimmed⟩ | silent)
    · rw [isTrimmed_iff.mp trimmed, Placement.endpoint, asks]
      rfl
    · rw [Placement.endpoint, silent]
      rfl
  · rintro rfl
    rcases hasked : p.asked with _ | written
    · rw [Placement.endpoint, hasked]
      exact .named hasked
    · rw [Placement.endpoint, hasked]
      exact .asked hasked (isTrimmed_iff.mpr rfl)

def Shared (classes : Nat → HandlerClass σ) (placements : List (Placement σ)) (mount : String) :
    Prop :=
  ∃ p q, List.Sublist [p, q] placements ∧ MountedAt classes p mount ∧ MountedAt classes q mount

theorem duplicate_iff_shared {classes : Nat → HandlerClass σ} {placements : List (Placement σ)}
    {mount : String} :
    List.Duplicate mount (placements.map fun p => (p.endpoint classes).mount) ↔
      Shared classes placements mount := by
  rw [List.duplicate_iff_sublist, List.sublist_map_iff]
  constructor
  · rintro ⟨pair, hpair, hmap⟩
    obtain ⟨p, q, rfl⟩ : ∃ p q, pair = [p, q] := by
      rw [← List.length_eq_two, ← List.length_map, ← hmap]
      rfl
    simp only [List.map_cons, List.map_nil, List.cons.injEq, and_true] at hmap
    exact ⟨p, q, hpair, mountedAt_iff.mpr hmap.1, mountedAt_iff.mpr hmap.2⟩
  · rintro ⟨p, q, hpair, hp, hq⟩
    refine ⟨[p, q], hpair, ?_⟩
    rw [List.map_cons, List.map_singleton, ← mountedAt_iff.mp hp, ← mountedAt_iff.mp hq]

theorem exists_shared_iff {classes : Nat → HandlerClass σ} {placements : List (Placement σ)} :
    (∃ mount, Shared classes placements mount) ↔
      ¬ (placements.map fun p => (p.endpoint classes).mount).Nodup := by
  simp only [← duplicate_iff_shared, List.exists_duplicate_iff_not_nodup]

namespace Server

/-! ## Classes -/

/-- What is known under a number is the class of the number. -/
def Knows (s : Server σ) (classes : Nat → HandlerClass σ) : Prop :=
  ∀ entry ∈ s.classes, entry.handlerClass = classes entry.classId

/-- A server knows every class that another knows, in whatever state. -/
def KnowsAll (s s' : Server σ) : Prop :=
  ∀ id entry, s.entry? id = some entry →
    ∃ entry', s'.entry? id = some entry' ∧ entry'.handlerClass = entry.handlerClass

variable {s s' : Server σ} {classes : Nat → HandlerClass σ}

theorem KnowsAll.refl (s : Server σ) : s.KnowsAll s := fun _ entry h => ⟨entry, h, rfl⟩

theorem KnowsAll.trans {t : Server σ} (h : s.KnowsAll s') (h' : s'.KnowsAll t) : s.KnowsAll t := by
  intro id entry hentry
  obtain ⟨entry', hentry', hclass⟩ := h id entry hentry
  obtain ⟨last, hlast, hclass'⟩ := h' id entry' hentry'
  exact ⟨last, hlast, hclass'.trans hclass⟩

theorem handlerClass_of_known (h : s.Knows classes) {id : Nat} {entry : ClassEntry σ}
    (hentry : s.entry? id = some entry) : entry.handlerClass = classes id := by
  have hid : entry.classId = id :=
    eq_of_beq (List.find?_some (p := fun e : ClassEntry σ => e.classId == id) hentry)
  rw [h entry (List.mem_of_find?_eq_some hentry), hid]

theorem knows_enter (h : s.Knows classes) (id : Nat) : (s.enter id (classes id)).Knows classes := by
  rw [enter]
  split
  · exact h
  · exact List.forall_mem_append.mpr ⟨h, List.forall_mem_singleton.mpr rfl⟩

theorem knowsAll_enter (s : Server σ) (id : Nat) (c : HandlerClass σ) :
    s.KnowsAll (s.enter id c) := by
  intro id' entry hentry
  rw [enter]
  split
  · exact ⟨entry, hentry, rfl⟩
  · refine ⟨entry, ?_, rfl⟩
    rw [Server.entry?, List.find?_append, ← Server.entry?, hentry, Option.some_or]

/-- A class that is entered has an entry. -/
theorem exists_entry_enter (s : Server σ) (id : Nat) (c : HandlerClass σ) :
    ∃ entry, Server.entry? (s.enter id c) id = some entry := by
  rw [enter]
  split
  · next hknown =>
      obtain ⟨entry, hmem, hid⟩ := List.any_eq_true.mp hknown
      exact Option.isSome_iff_exists.mp (List.find?_isSome.mpr ⟨entry, hmem, hid⟩)
  · have hmem : (⟨id, c, {}⟩ : ClassEntry σ) ∈ s.classes ++ [{ classId := id, handlerClass := c }] :=
      List.mem_append_right _ (List.mem_singleton.mpr rfl)
    exact Option.isSome_iff_exists.mp (List.find?_isSome.mpr ⟨_, hmem, beq_self_eq_true id⟩)

/-! ## Mounting -/

def mountAll (s : Server σ) (classes : Nat → HandlerClass σ) (placements : List (Placement σ)) :
    Server σ :=
  placements.foldl (fun s p => s.mount p.classId (classes p.classId) p.asked p.instanceState) s

theorem mount_eq (h : s.Knows classes) (p : Placement σ) :
    s.mount p.classId (classes p.classId) p.asked p.instanceState =
      { s.enter p.classId (classes p.classId) with
        endpoints := s.endpoints ++ [p.endpoint classes] } := by
  obtain ⟨entry, hentry⟩ := exists_entry_enter s p.classId (classes p.classId)
  have hclass := handlerClass_of_known (knows_enter h p.classId) hentry
  have hendpoints : (s.enter p.classId (classes p.classId)).endpoints = s.endpoints := by
    rw [enter]
    split <;> rfl
  rw [mount]
  simp only [hentry, hclass, hendpoints, Option.map_some, Option.getD_some]
  rfl

/-- Every handler gets its endpoint and every class its entry. -/
theorem mountAll_spec (h : s.Knows classes) (placements : List (Placement σ)) :
    (s.mountAll classes placements).endpoints =
      s.endpoints ++ placements.map (Placement.endpoint classes) ∧
    s.KnowsAll (s.mountAll classes placements) ∧
    ∀ p ∈ placements, ∃ entry,
      Server.entry? (s.mountAll classes placements) p.classId = some entry ∧
        entry.handlerClass = classes p.classId := by
  induction placements generalizing s with
  | nil => exact ⟨(List.append_nil _).symm, .refl s, List.forall_mem_nil _⟩
  | cons p placements ih =>
      have hknows := knows_enter h p.classId
      have hmount := mount_eq h p
      rw [mountAll, List.foldl_cons, ← mountAll, hmount]
      obtain ⟨hendpoints, hkept, hentries⟩ := ih (s := { s.enter p.classId (classes p.classId) with
        endpoints := s.endpoints ++ [p.endpoint classes] }) hknows
      refine ⟨?_, (knowsAll_enter s p.classId _).trans hkept, ?_⟩
      · rw [hendpoints, List.append_assoc, List.singleton_append, List.map_cons]
      · refine List.forall_mem_cons.mpr ⟨?_, hentries⟩
        obtain ⟨entry, hentry⟩ := exists_entry_enter s p.classId (classes p.classId)
        obtain ⟨last, hlast, hclass⟩ := hkept p.classId entry hentry
        exact ⟨last, hlast, hclass.trans (handlerClass_of_known hknows hentry)⟩

/-! ## Building -/

theorem repeated?_eq_none_iff (seen mounts : List String) :
    repeated? seen mounts = none ↔ mounts.Nodup ∧ ∀ mount ∈ mounts, mount ∉ seen := by
  induction mounts generalizing seen with
  | nil => simp [repeated?]
  | cons first mounts ih =>
      rw [repeated?]
      by_cases hseen : first ∈ seen
      · simp [hseen]
      · simp only [List.contains_iff_mem, hseen, if_false, ih, List.nodup_cons, List.mem_cons]
        grind

theorem duplicate_of_repeated? {seen mounts : List String} {mount : String}
    (h : repeated? seen mounts = some mount) :
    (mount ∈ seen ∧ mount ∈ mounts) ∨ List.Duplicate mount mounts := by
  induction mounts generalizing seen with
  | nil => cases h
  | cons first mounts ih =>
      rw [repeated?] at h
      split at h
      · next hseen =>
          cases h
          exact .inl ⟨List.contains_iff_mem.mp hseen, List.mem_cons_self⟩
      · obtain ⟨hseen, hmem⟩ | hduplicate := ih h
        · obtain rfl | hseen := List.mem_cons.mp hseen
          · exact .inr (List.Mem.duplicate_cons_self hmem)
          · exact .inl ⟨hseen, List.mem_cons_of_mem _ hmem⟩
        · exact .inr (hduplicate.duplicate_cons first)

theorem build_eq_error {mount : String} (h : s.build = .error mount) :
    List.Duplicate mount (s.endpoints.map (·.mount)) := by
  rw [build] at h
  split at h
  · next mount' hrepeated =>
      cases h
      obtain ⟨hseen, -⟩ | hduplicate := duplicate_of_repeated? hrepeated
      · cases hseen
      · exact hduplicate
  · cases h

theorem build_eq_error_iff :
    (∃ mount, s.build = .error mount) ↔ ¬ (s.endpoints.map (·.mount)).Nodup := by
  have hrepeated := repeated?_eq_none_iff [] (s.endpoints.map (·.mount))
  simp only [List.not_mem_nil, not_false_eq_true, implies_true, and_true] at hrepeated
  rw [← hrepeated, build]
  cases repeated? [] (s.endpoints.map (·.mount)) with
  | none => simp
  | some mount => simp

theorem build_eq_ok {built : Server σ} (h : s.build = .ok built) :
    (s.endpoints.map (·.mount)).Nodup ∧ built.classes = s.classes ∧
      built.endpoints.Perm s.endpoints ∧
      built.endpoints.Pairwise fun e e' => e'.mount.utf8ByteSize ≤ e.mount.utf8ByteSize := by
  have hnodup : (s.endpoints.map (·.mount)).Nodup := by
    by_contra hrepeated
    obtain ⟨mount, herror⟩ := build_eq_error_iff.mpr hrepeated
    rw [h] at herror
    cases herror
  rw [build, (repeated?_eq_none_iff _ _).mpr ⟨hnodup, fun _ _ => List.not_mem_nil⟩] at h
  cases h
  refine ⟨hnodup, rfl, List.mergeSort_perm _ _, ?_⟩
  let longer (e e' : Endpoint σ) : Bool := e'.mount.utf8ByteSize ≤ e.mount.utf8ByteSize
  have htrans : ∀ a b c, longer a b = true → longer b c = true → longer a c = true := by
    simp only [longer, decide_eq_true_eq]
    omega
  have htotal : ∀ a b, (longer a b || longer b a) = true := by
    simp only [longer, Bool.or_eq_true, decide_eq_true_eq]
    omega
  exact (List.pairwise_mergeSort htrans htotal s.endpoints).imp of_decide_eq_true

/-- Endpoints whose mounts are in order stay in that order. -/
theorem build_of_ordered {mounts : List String} (hmounts : s.endpoints.map (·.mount) = mounts)
    (hapart : mounts.Nodup) (hordered : mounts.Pairwise fun mount mount' =>
      mount'.utf8ByteSize ≤ mount.utf8ByteSize) : s.build = .ok s := by
  subst hmounts
  have hsorted := (List.pairwise_map.mp hordered).imp decide_eq_true
  rw [build, (repeated?_eq_none_iff _ _).mpr ⟨hapart, fun _ _ => List.not_mem_nil⟩]
  rw [List.mergeSort_of_pairwise hsorted]

/-- The endpoints of a server are those of handlers, the longest mounts first, and it knows their
classes. -/
structure LaidOut (s : Server σ) (classes : Nat → HandlerClass σ)
    (placements : List (Placement σ)) : Prop where
  endpoints : (s.endpoints.map fun e => (e.mount, e.classId)).Perm
    (placements.map fun p => ((p.endpoint classes).mount, p.classId))
  apart : (s.endpoints.map (·.mount)).Nodup
  longestFirst : (s.endpoints.map (·.mount)).Pairwise fun mount mount' =>
    mount'.utf8ByteSize ≤ mount.utf8ByteSize
  entries : ∀ p ∈ placements, ∃ entry, s.entry? p.classId = some entry ∧
    entry.handlerClass = classes p.classId

/-- A server that has no endpoints yet; it may know classes. -/
structure Blank (s : Server σ) (classes : Nat → HandlerClass σ) : Prop where
  endpoints : s.endpoints = []
  knows : s.Knows classes

theorem mounts_mountAll (h : s.Blank classes) (placements : List (Placement σ)) :
    (s.mountAll classes placements).endpoints.map (·.mount) =
      placements.map fun p => (p.endpoint classes).mount := by
  rw [(mountAll_spec h.knows placements).1, h.endpoints, List.nil_append, List.map_map]
  rfl

/-- Building fails exactly over a mount that two handlers have. -/
theorem build_mountAll_eq_error_iff (h : s.Blank classes) (placements : List (Placement σ)) :
    ((∃ mount, (s.mountAll classes placements).build = .error mount) ↔
      ∃ mount, Shared classes placements mount) ∧
    ∀ mount, (s.mountAll classes placements).build = .error mount →
      Shared classes placements mount := by
  have hmounts := mounts_mountAll h placements
  constructor
  · rw [build_eq_error_iff, hmounts, exists_shared_iff]
  · intro mount herror
    rw [← duplicate_iff_shared, ← hmounts]
    exact build_eq_error herror

theorem laidOut_of_build (h : s.Blank classes) {placements : List (Placement σ)}
    {built : Server σ} (hbuilt : (s.mountAll classes placements).build = .ok built) :
    built.LaidOut classes placements := by
  obtain ⟨hapart, hclasses, hperm, hsorted⟩ := build_eq_ok hbuilt
  obtain ⟨hendpoints, -, hentries⟩ := mountAll_spec h.knows placements
  rw [h.endpoints, List.nil_append] at hendpoints
  refine ⟨?_, (hperm.map _).nodup_iff.mpr hapart, List.pairwise_map.mpr hsorted, ?_⟩
  · rw [hendpoints] at hperm
    have hmapped := hperm.map fun e => (e.mount, e.classId)
    rwa [List.map_map] at hmapped
  · simpa only [Server.entry?, hclasses] using hentries

section

variable {placements placements' : List (Placement σ)}

theorem LaidOut.exists_placement (h : s.LaidOut classes placements) {e : Endpoint σ}
    (he : e ∈ s.endpoints) :
    ∃ p ∈ placements, MountedAt classes p e.mount ∧ p.classId = e.classId := by
  have hmem : (e.mount, e.classId) ∈
      placements.map fun p => ((p.endpoint classes).mount, p.classId) :=
    h.endpoints.mem_iff.mp (List.mem_map_of_mem he)
  obtain ⟨p, hp, hplace⟩ := List.mem_map.mp hmem
  obtain ⟨hmount, hclass⟩ := Prod.mk.inj hplace
  exact ⟨p, hp, mountedAt_iff.mpr hmount.symm, hclass⟩

theorem LaidOut.exists_endpoint (h : s.LaidOut classes placements) {p : Placement σ}
    (hp : p ∈ placements) {mount : String} (hmount : MountedAt classes p mount) :
    ∃ e ∈ s.endpoints, e.mount = mount := by
  have hmem : ((p.endpoint classes).mount, p.classId) ∈
      s.endpoints.map fun e => (e.mount, e.classId) :=
    h.endpoints.mem_iff.mpr (List.mem_map_of_mem hp)
  obtain ⟨e, he, hplace⟩ := List.mem_map.mp hmem
  exact ⟨e, he, (Prod.mk.inj hplace).1.trans (mountedAt_iff.mp hmount).symm⟩

/-- Handlers of which a server was built have no mount in common. -/
theorem not_shared_of_build (h : s.Blank classes) {built : Server σ}
    (hbuilt : (s.mountAll classes placements).build = .ok built) (mount : String) :
    ¬ Shared classes placements mount := by
  intro hshared
  obtain ⟨other, hother⟩ := (build_mountAll_eq_error_iff h placements).1.mpr ⟨mount, hshared⟩
  rw [hbuilt] at hother
  cases hother

/-- A server can be built of the same handlers in any order. -/
theorem exists_build_of_perm (h : s.Blank classes) {built : Server σ}
    (hbuilt : (s.mountAll classes placements).build = .ok built)
    (hperm : placements'.Perm placements) :
    ∃ built', (s.mountAll classes placements').build = .ok built' := by
  cases hbuilt' : (s.mountAll classes placements').build with
  | ok built' => exact ⟨built', rfl⟩
  | error mount =>
      have hrepeated := exists_shared_iff.mp
        ((build_mountAll_eq_error_iff h placements').1.mp ⟨mount, hbuilt'⟩)
      rw [(hperm.map _).nodup_iff] at hrepeated
      obtain ⟨other, hother⟩ := exists_shared_iff.mpr hrepeated
      exact absurd hother (not_shared_of_build h hbuilt other)

end

/-! ## A server at different times -/

/-- A server is another at another time: the same endpoints in the same order, and at least the same
classes, in whatever state they and everything else are. -/
structure SameLayout (s s' : Server σ) : Prop where
  endpoints : s'.endpoints.map (fun e => (e.mount, e.classId)) =
    s.endpoints.map fun e => (e.mount, e.classId)
  classes : s.KnowsAll s'

theorem SameLayout.refl (s : Server σ) : s.SameLayout s := ⟨rfl, .refl s⟩

theorem SameLayout.trans {t : Server σ} (h : s.SameLayout s') (h' : s'.SameLayout t) :
    s.SameLayout t :=
  ⟨h'.endpoints.trans h.endpoints, h.classes.trans h'.classes⟩

theorem SameLayout.mounts (h : s.SameLayout s') :
    s'.endpoints.map (·.mount) = s.endpoints.map (·.mount) := by
  have hmounts := congrArg (List.map Prod.fst) h.endpoints
  rwa [List.map_map, List.map_map] at hmounts

theorem LaidOut.of_sameLayout {placements : List (Placement σ)} (h : s.LaidOut classes placements)
    (hsame : s.SameLayout s') : s'.LaidOut classes placements where
  endpoints := by rw [hsame.endpoints]; exact h.endpoints
  apart := by rw [hsame.mounts]; exact h.apart
  longestFirst := by rw [hsame.mounts]; exact h.longestFirst
  entries p hp := by
    obtain ⟨entry, hentry, hclass⟩ := h.entries p hp
    obtain ⟨entry', hentry', hclass'⟩ := hsame.classes p.classId entry hentry
    exact ⟨entry', hentry', hclass'.trans hclass⟩

end Server

end Gatehouse.Service
