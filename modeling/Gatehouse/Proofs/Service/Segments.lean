import Gatehouse.Proofs.Service.Routing

/-!
# Mounts and segments

A mount claims a path by its text: the path is the mount or goes on with a slash behind it.  That is
the same as claiming the paths that begin with the segments of the mount, for every mount but one.
The root has no segments, but it is written as a slash, which is how a single empty segment is
written; so it claims the paths whose first segment is empty, where those without segments would
claim all.
-/

namespace Gatehouse.Service

open Component (HandlerClass)

variable {σ : Type}

/-! ## Segments -/

/-- The segments of a trimmed mount; a mount of slashes only has none. -/
def mountSegments (core : List Char) : List (List Char) :=
  if core = [] then [] else core.splitOn '/'

/-- A claim on a path, told by what stands between the slashes. -/
theorem claims_iff_splitOn {mount path : String} {core rest : List Char}
    (hmount : mount.toList = '/' :: core) (hpath : path.toList = '/' :: rest) :
    Claims mount path ↔ core.splitOn '/' <+: rest.splitOn '/' := by
  have hbehind : (∃ more : String, path = mount ++ "/" ++ more) ↔
      ∃ more, rest = core ++ '/' :: more := by
    constructor
    · rintro ⟨more, rfl⟩
      rw [String.toList_append, String.toList_append, hmount] at hpath
      exact ⟨more.toList, by simpa using hpath.symm⟩
    · rintro ⟨more, rfl⟩
      refine ⟨String.ofList more, String.toList_inj.mp ?_⟩
      rw [String.toList_append, String.toList_append, hmount, hpath]
      simp
  rw [Text.splitOn_prefix_iff, Claims, hbehind, ← String.toList_inj, hmount, hpath,
    List.cons_inj_right]

/-- A trimmed mount and what stands behind the first slash of a path: the segments of the mount are
the first ones of the path, and if there are none the path has an empty one in their place. -/
structure ClaimsSegments (core rest : List Char) : Prop where
  begins : mountSegments core <+: rest.splitOn '/'
  atRoot : core = [] → (rest.splitOn '/').head? = some []

theorem claims_iff_segments {mount path : String} {core rest : List Char}
    (hmount : mount.toList = '/' :: core) (hpath : path.toList = '/' :: rest) :
    Claims mount path ↔ ClaimsSegments core rest := by
  rw [claims_iff_splitOn hmount hpath]
  by_cases hcore : core = []
  · subst hcore
    have hhead : [[]] <+: rest.splitOn '/' ↔ (rest.splitOn '/').head? = some [] := by
      cases rest.splitOn '/' with
      | nil => simp
      | cons first more => simp [eq_comm]
    rw [List.splitOn_nil, hhead]
    exact ⟨fun h => ⟨List.nil_prefix, fun _ => h⟩, fun h => h.atRoot rfl⟩
  · have hsegments : mountSegments core = core.splitOn '/' := if_neg hcore
    rw [← hsegments]
    exact ⟨fun h => ⟨h, fun hempty => absurd hempty hcore⟩, fun h => h.begins⟩

/-! ## Handlers of a server -/

namespace Server

/-- A request is answered by the endpoint of a handler. -/
def AnswersAt (classes : Nat → HandlerClass σ) (s : Server σ) (p : Placement σ)
    (around : Circumstances) (request : Request) : Prop :=
  ∃ e entry, s.route request.path = some e ∧ MountedAt classes p e.mount ∧
    e.classId = p.classId ∧ s.entry? p.classId = some entry ∧
    entry.handlerClass = classes p.classId ∧
    s.dispatch around request = s.answerAt around request entry e

variable {classes : Nat → HandlerClass σ} {placements : List (Placement σ)} {s : Server σ}

/-- Where no longer mount claims a path, a handler answers there if its own mount does. -/
theorem LaidOut.answersAt_iff (h : s.LaidOut classes placements)
    (hapart : ∀ mount, ¬ Shared classes placements mount) {p : Placement σ} (hp : p ∈ placements)
    {mount : String} (hmount : MountedAt classes p mount) {request : Request}
    (hprobe : ¬ IsProbe request) (around : Circumstances)
    (hlongest : ∀ q ∈ placements, ∀ other, MountedAt classes q other →
      Claims other request.path → other.length ≤ mount.length) :
    AnswersAt classes s p around request ↔ Claims mount request.path := by
  constructor
  · rintro ⟨e, entry, hroute, hmounted, -⟩
    obtain ⟨hclaims, -⟩ := List.find?_eq_some_iff_append.mp hroute
    rw [mountedAt_iff.mp hmount, ← mountedAt_iff.mp hmounted]
    exact mountClaims_iff.mp hclaims
  · intro hclaims
    have hmine : Longest classes placements request.path p mount := ⟨hp, hmount, hclaims, hlongest⟩
    have hrouted := h.routed hprobe around
    generalize hanswer : s.dispatch around request = answer at hrouted
    cases hrouted with
    | called found longest ofHandler known ofClass =>
        obtain ⟨rfl, rfl⟩ := hmine.unique hapart longest
        exact ⟨_, _, found, hmount, ofHandler, known, ofClass, hanswer⟩
    | missing found unclaimed => exact absurd hclaims (unclaimed p hp mount hmount)

/-- A handler that asks for a mount is found for the paths that begin with the segments of its
mount, and answers them on every server where no longer mount claims them.  The exception is the
root: it is found only for the paths whose first segment is empty, and answers no others. -/
theorem mounts_claim_their_segments_below_the_root {p : Placement σ} {written : String}
    {core : List Char} (asks : p.asked = some written) (trimmed : IsTrimmed written.toList core) :
    (∀ path rest, path.toList = '/' :: rest →
      (mountClaims (p.endpoint classes).mount path = true ↔ ClaimsSegments core rest)) ∧
    (s.Blank classes → p ∈ placements → ∀ built, (s.mountAll classes placements).build = .ok built →
      ∀ now, built.SameLayout now → ∀ around request rest, ¬ IsProbe request →
        request.path.toList = '/' :: rest →
        (∀ q ∈ placements, ∀ other, MountedAt classes q other → Claims other request.path →
          other.length ≤ core.length + 1) →
        (AnswersAt classes now p around request ↔ ClaimsSegments core rest)) := by
  have hmount : MountedAt classes p (String.ofList ('/' :: core)) := .asked asks trimmed
  constructor
  · intro path rest hpath
    rw [← mountedAt_iff.mp hmount, mountClaims_iff]
    exact claims_iff_segments String.toList_ofList hpath
  · intro hblank hp built hbuilt now hnow around request rest hprobe hpath hlongest
    rw [← claims_iff_segments String.toList_ofList hpath]
    refine ((laidOut_of_build hblank hbuilt).of_sameLayout hnow).answersAt_iff
      (not_shared_of_build hblank hbuilt) hp hmount hprobe around ?_
    rwa [String.length_ofList, List.length_cons]

def shelfPlacements : List (Placement Unit) := [⟨0, some "files//", ()⟩, ⟨0, some "//", ()⟩]

def shelfServer : Server Unit := ({} : Server Unit).mountAll (fun _ => archiveClass) shelfPlacements

theorem build_shelfServer : shelfServer.build = .ok shelfServer := by
  have hmounts : shelfServer.endpoints.map (·.mount) = ["/files", "/"] := rfl
  exact build_of_ordered hmounts (by decide) (by decide)

theorem root_trimmed : IsTrimmed "//".toList [] := isTrimmed_iff.mpr rfl

/-- Beside its files the shelf has no mount but the root. -/
theorem mountedAt_shelf {path : String} (hfiles : mountClaims "/files" path = false) :
    ∀ q ∈ shelfPlacements, ∀ other, MountedAt (fun _ => archiveClass) q other →
      Claims other path → other.length ≤ 1 := by
  intro q hq other hother hclaims
  have hmounts : (shelfPlacements.map fun q => (q.endpoint fun _ => archiveClass).mount) =
      ["/files", "/"] := rfl
  have hlisted :=
    List.mem_map_of_mem (f := fun q => (q.endpoint fun _ => archiveClass).mount) hq
  rw [hmounts, ← mountedAt_iff.mp hother] at hlisted
  obtain rfl | rfl : other = "/files" ∨ other = "/" := by simpa using hlisted
  · rw [mountClaims_iff.mpr hclaims] at hfiles
    cases hfiles
  · exact Nat.le_refl _

/-- The handler at the root answers a path whose first segment is empty. -/
theorem shelfServer_answers_empty_segment :
    IsTrimmed "//".toList [] ∧ ({} : Server Unit).Blank (fun _ => archiveClass) ∧
    shelfServer.build = .ok shelfServer ∧
    AnswersAt (fun _ => archiveClass) shelfServer ⟨0, some "//", ()⟩ ⟨0, 0, "1", none⟩
      { path := "//index" } := by
  have hblank : ({} : Server Unit).Blank (fun _ => archiveClass) := ⟨rfl, List.forall_mem_nil _⟩
  have hprobe : ¬ IsProbe { path := "//index" } := fun h => absurd h.2 (by decide)
  obtain ⟨-, hanswers⟩ := @mounts_claim_their_segments_below_the_root Unit (fun _ => archiveClass)
    shelfPlacements {} ⟨0, some "//", ()⟩ "//" [] rfl root_trimmed
  refine ⟨root_trimmed, hblank, build_shelfServer, ?_⟩
  refine (hanswers hblank (by simp [shelfPlacements]) shelfServer build_shelfServer shelfServer
    (.refl shelfServer) _ _ "/index".toList hprobe rfl (mountedAt_shelf (by decide))).mpr ?_
  exact ⟨List.nil_prefix, fun _ => rfl⟩

/-- The root has no segments to be missed and no other mount claims the path, and nothing is
found. -/
theorem shelfServer_misses_path_below_root :
    IsTrimmed "//".toList [] ∧ shelfServer.build = .ok shelfServer ∧
    mountSegments [] <+: "index".toList.splitOn '/' ∧
    (∀ q ∈ shelfPlacements, ∀ other, MountedAt (fun _ => archiveClass) q other →
      Claims other "/index" → other.length ≤ "/".length) ∧
    mountClaims (normalizeMount "//") "/index" = false ∧
    shelfServer.dispatch ⟨0, 0, "1", none⟩ { path := "/index" } = shelfServer.missing := by
  have hprobe : ¬ IsProbe { path := "/index" } := fun h => absurd h.2 (by decide)
  have hroute : shelfServer.route "/index" = none := rfl
  refine ⟨root_trimmed, build_shelfServer, List.nil_prefix, mountedAt_shelf (by decide), rfl, ?_⟩
  rw [dispatch_of_not_probe hprobe]
  exact handleAt_of_no_route hroute

end Server

end Gatehouse.Service
