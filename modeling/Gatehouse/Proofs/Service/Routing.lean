import Gatehouse.Proofs.Service.Mounting
import Gatehouse.Proofs.Service.Order

/-!
# Which endpoint answers a request

Of the mounts that a path begins with, segment by segment, the longest answers, and where there is
none nothing is found.  A server tries its mounts in the order of their lengths; of two mounts that
a path begins with one begins with the other, so there is one longest and the order in which
handlers were mounted does not matter.  Requests leave the layout of a server alone, so this holds
for every request that a server ever answers.
-/

namespace Gatehouse.Service

open Component (HandlerClass)

variable {σ : Type}

/-! ## Mounts of a path -/

/-- The segments of a mount are the first ones of a path. -/
def Claims (mount path : String) : Prop := path = mount ∨ ∃ rest, path = mount ++ "/" ++ rest

theorem mountClaims_iff {mount path : String} :
    mountClaims mount path = true ↔ Claims mount path := by
  rw [mountClaims, Claims]
  constructor
  · intro h
    split at h
    · next hstrip =>
        have hpath := Text.stripLead?_eq_some hstrip
        rw [List.append_nil] at hpath
        exact .inl (String.toList_inj.mp hpath)
    · next c rest hstrip =>
        have hpath := Text.stripLead?_eq_some hstrip
        obtain rfl := beq_iff_eq.mp h
        refine .inr ⟨String.ofList rest, String.toList_inj.mp ?_⟩
        have hslash : "/".toList = ['/'] := rfl
        rw [hpath, String.toList_append, String.toList_append, hslash, String.toList_ofList,
          List.append_assoc, List.singleton_append]
    · cases h
  · rintro (rfl | ⟨rest, rfl⟩)
    · have hstrip := Text.stripLead?_append path.toList []
      rw [List.append_nil] at hstrip
      rw [hstrip]
    · have hpath : (mount ++ "/" ++ rest).toList = mount.toList ++ '/' :: rest.toList := by
        rw [String.toList_append, String.toList_append, List.append_assoc]
        rfl
      rw [hpath, Text.stripLead?_append]
      rfl

theorem Claims.isPrefix {mount path : String} (h : Claims mount path) :
    mount.toList <+: path.toList := by
  obtain rfl | ⟨rest, rfl⟩ := h
  · exact List.prefix_rfl
  · rw [String.append_assoc, String.toList_append]
    exact List.prefix_append _ _

/-- Mounts of one path that are as long as each other are the same. -/
theorem Claims.eq_of_length {mount mount' path : String} (h : Claims mount path)
    (h' : Claims mount' path) (hlength : mount.length = mount'.length) : mount = mount' := by
  rw [← String.length_toList, ← String.length_toList] at hlength
  have hinitial := List.prefix_of_prefix_length_le h.isPrefix h'.isPrefix hlength.le
  exact String.toList_inj.mp (hinitial.eq_of_length hlength)

/-- Of two mounts of one path the one with more bytes has more characters. -/
theorem Claims.length_le {mount mount' path : String} (h : Claims mount path)
    (h' : Claims mount' path) (hsize : mount'.utf8ByteSize ≤ mount.utf8ByteSize) :
    mount'.length ≤ mount.length := by
  -- One of the two begins with the other, and what it goes on with would have bytes of its own.
  obtain hinitial | hinitial := List.prefix_or_prefix_of_prefix h'.isPrefix h.isPrefix
  · rw [← String.length_toList, ← String.length_toList]
    exact hinitial.length_le
  · obtain ⟨rest, hrest⟩ := hinitial
    obtain rfl : mount ++ String.ofList rest = mount' := by
      rw [← String.toList_inj, String.toList_append, String.toList_ofList, hrest]
    rw [String.utf8ByteSize_append] at hsize
    have hempty : String.ofList rest = "" := String.utf8ByteSize_eq_zero_iff.mp (by omega)
    rw [hempty, String.append_empty]

/-- A handler's mount is the longest of those that a path begins with. -/
structure Longest (classes : Nat → HandlerClass σ) (placements : List (Placement σ))
    (path : String) (p : Placement σ) (mount : String) : Prop where
  mem : p ∈ placements
  mounted : MountedAt classes p mount
  claims : Claims mount path
  longest : ∀ q ∈ placements, ∀ other, MountedAt classes q other → Claims other path →
    other.length ≤ mount.length

variable {classes : Nat → HandlerClass σ} {placements : List (Placement σ)} {path : String}

theorem Longest.mount_unique {p q : Placement σ} {mount mount' : String}
    (h : Longest classes placements path p mount) (h' : Longest classes placements path q mount') :
    mount = mount' :=
  h.claims.eq_of_length h'.claims <| Nat.le_antisymm
    (h'.longest p h.mem mount h.mounted h.claims) (h.longest q h'.mem mount' h'.mounted h'.claims)

/-- Where handlers have no mount in common, one handler at most is the longest of a path. -/
theorem Longest.unique (hapart : ∀ mount, ¬ Shared classes placements mount) {p q : Placement σ}
    {mount mount' : String} (h : Longest classes placements path p mount)
    (h' : Longest classes placements path q mount') : p = q ∧ mount = mount' := by
  obtain rfl := h.mount_unique h'
  refine ⟨?_, rfl⟩
  have hnodup : (placements.map fun p => (p.endpoint classes).mount).Nodup := by
    by_contra hrepeated
    obtain ⟨other, hother⟩ := exists_shared_iff.mpr hrepeated
    exact hapart other hother
  have hmounts := (mountedAt_iff.mp h.mounted).symm.trans (mountedAt_iff.mp h'.mounted)
  exact List.inj_on_of_nodup_map hnodup h.mem h'.mem hmounts

/-- What is longest does not depend on the order of the handlers. -/
theorem Longest.of_perm {placements' : List (Placement σ)} (hperm : placements.Perm placements')
    {p : Placement σ} {mount : String} (h : Longest classes placements path p mount) :
    Longest classes placements' path p mount where
  mem := hperm.mem_iff.mp h.mem
  mounted := h.mounted
  claims := h.claims
  longest q hq := h.longest q (hperm.mem_iff.mpr hq)

namespace Server

variable {s : Server σ}

/-! ## Finding an endpoint -/

/-- The endpoint that is found has the longest mount of the path. -/
theorem LaidOut.longest_of_route (h : s.LaidOut classes placements) {e : Endpoint σ}
    (hroute : s.route path = some e) :
    ∃ p, Longest classes placements path p e.mount ∧ p.classId = e.classId := by
  obtain ⟨hclaims, before, behind, hendpoints, hbefore⟩ :=
    List.find?_eq_some_iff_append.mp hroute
  have he : e ∈ s.endpoints := by
    rw [hendpoints]
    exact List.mem_append_right _ List.mem_cons_self
  obtain ⟨p, hp, hmounted, hclass⟩ := h.exists_placement he
  refine ⟨p, ⟨hp, hmounted, mountClaims_iff.mp hclaims, ?_⟩, hclass⟩
  intro q hq other hother hclaimed
  obtain ⟨e', he', rfl⟩ := h.exists_endpoint hq hother
  -- What is tried before does not claim the path, and what is tried after it is not longer.
  rw [hendpoints, List.mem_append, List.mem_cons] at he'
  obtain hearlier | rfl | hlater := he'
  · have hpassed := hbefore e' hearlier
    rw [mountClaims_iff.mpr hclaimed] at hpassed
    cases hpassed
  · exact Nat.le_refl _
  · have hsorted := h.longestFirst
    rw [hendpoints, List.map_append, List.map_cons, List.pairwise_append, List.pairwise_cons]
      at hsorted
    obtain ⟨-, ⟨hshorter, -⟩, -⟩ := hsorted
    exact (mountClaims_iff.mp hclaims).length_le hclaimed
      (hshorter e'.mount (List.mem_map_of_mem hlater))

theorem LaidOut.route_eq_none (h : s.LaidOut classes placements) (hroute : s.route path = none) :
    ∀ p ∈ placements, ∀ mount, MountedAt classes p mount → ¬ Claims mount path := by
  intro p hp mount hmount hclaims
  obtain ⟨e, he, rfl⟩ := h.exists_endpoint hp hmount
  exact List.find?_eq_none.mp hroute e he (mountClaims_iff.mpr hclaims)

/-! ## Calling it -/

theorem splitAt?_eq_some {endpoints before behind : List (Endpoint σ)} {e : Endpoint σ}
    (h : splitAt? path endpoints = some (before, e, behind)) :
    endpoints = before ++ e :: behind ∧
      endpoints.find? (fun e => mountClaims e.mount path) = some e := by
  let claimed (e : Endpoint σ) : Bool := mountClaims e.mount path
  induction endpoints generalizing before with
  | nil => cases h
  | cons first rest ih =>
      rw [splitAt?] at h
      split at h
      · next hclaims =>
          cases h
          exact ⟨rfl, List.find?_cons_of_pos (p := claimed) hclaims⟩
      · next hclaims =>
          obtain ⟨⟨before, e, behind⟩, hrest, heq⟩ := Option.map_eq_some_iff.mp h
          cases heq
          obtain ⟨hsplit, hfind⟩ := ih hrest
          rw [hsplit] at hfind ⊢
          exact ⟨rfl, (List.find?_cons_of_neg (p := claimed) hclaims).trans hfind⟩

theorem splitAt?_eq_none {endpoints : List (Endpoint σ)} (h : splitAt? path endpoints = none) :
    endpoints.find? (fun e => mountClaims e.mount path) = none := by
  let claimed (e : Endpoint σ) : Bool := mountClaims e.mount path
  induction endpoints with
  | nil => rfl
  | cons first rest ih =>
      rw [splitAt?] at h
      split at h
      · cases h
      · next hclaims =>
          have hrest := ih (Option.map_eq_none_iff.mp h)
          exact (List.find?_cons_of_neg (p := claimed) hclaims).trans hrest

def visitAt (s : Server σ) (around : Circumstances) (request : Request) (entry : ClassEntry σ)
    (e : Endpoint σ) : Visit σ where
  handlerClass := entry.handlerClass
  services := s.services
  now := around.now
  request := request
  scene := {
    setting := s.settingOf entry.state e.instanceState
    context := { requestId := around.requestId, path := request.path, peer := request.peer } }

/-- The answer of an endpoint: what its handler answers, on a server in which only the endpoint, its
class and the policies have what the handler leaves. -/
def answerAt (s : Server σ) (around : Circumstances) (request : Request) (entry : ClassEntry σ)
    (e : Endpoint σ) : Answer σ :=
  let (response, scene) := (s.visitAt around request entry e).handled
  { response
    server := { s.absorb e.classId scene.setting with
      endpoints := s.endpoints.map fun other =>
        if other.mount = e.mount then { e with instanceState := scene.setting.instanceState }
        else other }
    log := scene.setting.log
    counts := scene.counts }

def missing (s : Server σ) : Answer σ :=
  ⟨envelopeWriter (.http .notFound "Not Found") none, s, [], []⟩

theorem handleAt_of_route (hapart : (s.endpoints.map (·.mount)).Nodup) {around : Circumstances}
    {request : Request} {e : Endpoint σ} {entry : ClassEntry σ}
    (hroute : s.route request.path = some e) (hentry : s.entry? e.classId = some entry) :
    s.handleAt around request = s.answerAt around request entry e := by
  rcases hsplit : splitAt? request.path s.endpoints with _ | ⟨before, e', behind⟩
  · rw [route, splitAt?_eq_none hsplit] at hroute
    cases hroute
  · obtain ⟨hendpoints, hfind⟩ := splitAt?_eq_some hsplit
    obtain rfl : e' = e := Option.some.inj (hfind.symm.trans hroute)
    have hothers : ∀ left : Endpoint σ, before ++ left :: behind =
        s.endpoints.map fun other => if other.mount = e'.mount then left else other := by
      intro left
      rw [hendpoints, List.map_append, List.map_cons, List.nodup_middle, List.nodup_cons,
        List.mem_append, not_or] at hapart
      obtain ⟨⟨hbefore, hbehind⟩, -⟩ := hapart
      have hkept : ∀ l : List (Endpoint σ), e'.mount ∉ l.map (·.mount) →
          l.map (fun other => if other.mount = e'.mount then left else other) = l := by
        intro l hl
        refine (List.map_congr_left fun other hother => if_neg ?_).trans (List.map_id l)
        exact fun heq => hl (List.mem_map.mpr ⟨other, hother, heq⟩)
      rw [hendpoints, List.map_append, List.map_cons, if_pos rfl, hkept before hbefore,
        hkept behind hbehind]
    rw [handleAt, hsplit]
    simp only [hentry, hothers]
    rfl

theorem handleAt_of_no_route {around : Circumstances} {request : Request}
    (hroute : s.route request.path = none) : s.handleAt around request = s.missing := by
  rcases hsplit : splitAt? request.path s.endpoints with _ | ⟨before, e', behind⟩
  · rw [handleAt, hsplit, errorWriter_eq]
    rfl
  · rw [route, (splitAt?_eq_some hsplit).2] at hroute
    cases hroute

/-! ## A server that answers -/

theorem knowsAll_absorb (s : Server σ) (id : Nat) (setting : Component.Setting σ)
    (endpoints : List (Endpoint σ)) : s.KnowsAll { s.absorb id setting with endpoints } := by
  intro id' entry hentry
  let update (e : ClassEntry σ) : ClassEntry σ :=
    if e.classId = id then { e with state := setting.state } else e
  have hkept : ∀ e, (update e).classId = e.classId ∧ (update e).handlerClass = e.handlerClass := by
    intro e
    by_cases h : e.classId = id
    · simp only [update, if_pos h, and_self]
    · simp only [update, if_neg h, and_self]
  have hsame : (fun e : ClassEntry σ => e.classId == id') ∘ update = (·.classId == id') := by
    funext e
    simp only [Function.comp, (hkept e).1]
  refine ⟨update entry, ?_, (hkept entry).2⟩
  calc (s.classes.map update).find? (·.classId == id')
      = (s.classes.find? ((·.classId == id') ∘ update)).map update := List.find?_map
    _ = (s.entry? id').map update := by rw [hsame, Server.entry?]
    _ = some (update entry) := by rw [hentry, Option.map_some]

/-- Answering a request keeps the layout. -/
theorem sameLayout_dispatch (s : Server σ) (around : Circumstances) (request : Request) :
    s.SameLayout (s.dispatch around request).server := by
  have hhandled : s.SameLayout (s.handleAt around request).server := by
    rw [handleAt]
    split
    · exact .refl s
    · next before e behind hsplit =>
        split
        · exact .refl s
        · next entry hentry =>
            refine ⟨?_, knowsAll_absorb s _ _ _⟩
            have hplaces : ∀ left : Endpoint σ,
                (before ++ left :: behind).map (fun e => (e.mount, e.classId)) =
                  before.map (fun e => (e.mount, e.classId)) ++ (left.mount, left.classId) ::
                    behind.map fun e => (e.mount, e.classId) :=
              fun left => by rw [List.map_append, List.map_cons]
            rw [(splitAt?_eq_some hsplit).1, hplaces]
            exact hplaces _
  rw [dispatch]
  split
  · exact .refl s
  · exact .refl s
  · exact .refl s
  · exact hhandled

/-- A server that has answered requests one after another. -/
def answering (s : Server σ) (requests : List (Circumstances × Request)) : Server σ :=
  requests.foldl (fun s (around, request) => (s.dispatch around request).server) s

theorem sameLayout_answering (s : Server σ) (requests : List (Circumstances × Request)) :
    s.SameLayout (s.answering requests) := by
  induction requests generalizing s with
  | nil => exact .refl s
  | cons first rest ih =>
      exact (s.sameLayout_dispatch first.1 first.2).trans (ih (s.dispatch first.1 first.2).server)

/-- A request that asks for the state of the server itself. -/
def IsProbe (request : Request) : Prop :=
  request.method = "GET" ∧ request.path ∈ ["/health", "/ready", "/metrics"]

theorem dispatch_of_not_probe {request : Request} (h : ¬ IsProbe request)
    (around : Circumstances) : s.dispatch around request = s.handleAt around request := by
  rw [dispatch]
  split
  · next hmethod hpath => exact absurd ⟨hmethod, by simp [hpath]⟩ h
  · next hmethod hpath => exact absurd ⟨hmethod, by simp [hpath]⟩ h
  · next hmethod hpath => exact absurd ⟨hmethod, by simp [hpath]⟩ h
  · rfl

/-- An answer comes from the endpoint with the longest mount of the path, or there is no mount for
the path and nothing is found. -/
inductive Routed (classes : Nat → HandlerClass σ) (placements : List (Placement σ))
    (s : Server σ) (around : Circumstances) (request : Request) : Answer σ → Prop where
  | called {p : Placement σ} {e : Endpoint σ} {entry : ClassEntry σ}
      (found : s.route request.path = some e)
      (longest : Longest classes placements request.path p e.mount)
      (ofHandler : e.classId = p.classId) (known : s.entry? p.classId = some entry)
      (ofClass : entry.handlerClass = classes p.classId) :
      Routed classes placements s around request (s.answerAt around request entry e)
  | missing (found : s.route request.path = none)
      (unclaimed : ∀ p ∈ placements, ∀ mount, MountedAt classes p mount →
        ¬ Claims mount request.path) :
      Routed classes placements s around request s.missing

theorem LaidOut.routed (h : s.LaidOut classes placements) {request : Request}
    (hprobe : ¬ IsProbe request) (around : Circumstances) :
    Routed classes placements s around request (s.dispatch around request) := by
  rw [dispatch_of_not_probe hprobe]
  cases hroute : s.route request.path with
  | none =>
      rw [handleAt_of_no_route hroute]
      exact .missing hroute (h.route_eq_none hroute)
  | some e =>
      obtain ⟨p, hlongest, hclass⟩ := h.longest_of_route hroute
      obtain ⟨entry, hentry, hknown⟩ := h.entries p hlongest.mem
      rw [handleAt_of_route h.apart hroute (hclass ▸ hentry)]
      exact .called hroute hlongest hclass.symm hentry hknown

/-- Servers of the same handlers find the same mount for every path. -/
theorem LaidOut.route_of_perm {s' : Server σ} {placements' : List (Placement σ)}
    (h : s.LaidOut classes placements) (h' : s'.LaidOut classes placements')
    (hperm : placements'.Perm placements) (path : String) :
    (s'.route path).map (·.mount) = (s.route path).map (·.mount) := by
  cases hroute : s.route path with
  | none =>
      cases hroute' : s'.route path with
      | none => rfl
      | some e' =>
          obtain ⟨p, hlongest, -⟩ := h'.longest_of_route hroute'
          exact absurd hlongest.claims
            (h.route_eq_none hroute p (hperm.mem_iff.mp hlongest.mem) e'.mount hlongest.mounted)
  | some e =>
      obtain ⟨p, hlongest, -⟩ := h.longest_of_route hroute
      cases hroute' : s'.route path with
      | none =>
          exact absurd hlongest.claims
            (h'.route_eq_none hroute' p (hperm.mem_iff.mpr hlongest.mem) e.mount hlongest.mounted)
      | some e' =>
          obtain ⟨q, hlongest', -⟩ := h'.longest_of_route hroute'
          exact congrArg some ((hlongest'.of_perm hperm).mount_unique hlongest)

/-- Every handler has one mount, and building fails exactly if two handlers have the same.  The
server that is built sends every request that is no probe, whatever it has answered before and
whatever state it has come to, to the endpoint with the longest mount of the path, of which there is
one at most; and the order in which the handlers were mounted makes no difference to that. -/
theorem longest_mount_answers (h : s.Blank classes) (placements : List (Placement σ)) :
    (∀ p : Placement σ, ∃! mount, MountedAt classes p mount) ∧
    ((∃ mount, (s.mountAll classes placements).build = .error mount) ↔
      ∃ mount, Shared classes placements mount) ∧
    (∀ mount, (s.mountAll classes placements).build = .error mount →
      Shared classes placements mount) ∧
    ∀ built, (s.mountAll classes placements).build = .ok built →
      (∀ path p q mount mount', Longest classes placements path p mount →
        Longest classes placements path q mount' → p = q ∧ mount = mount') ∧
      (∀ now, built.SameLayout now → ∀ earlier around request, ¬ IsProbe request →
        Routed classes placements (now.answering earlier) around request
          ((now.answering earlier).dispatch around request)) ∧
      ∀ placements' : List (Placement σ), placements'.Perm placements →
        ∃ built', (s.mountAll classes placements').build = .ok built' ∧
          ∀ path, (built'.route path).map (·.mount) = (built.route path).map (·.mount) := by
  obtain ⟨herror, hshared⟩ := build_mountAll_eq_error_iff h placements
  refine ⟨fun p => ⟨_, mountedAt_iff.mpr rfl, fun _ hmount => mountedAt_iff.mp hmount⟩, herror,
    hshared, ?_⟩
  intro built hbuilt
  have hlaid := laidOut_of_build h hbuilt
  refine ⟨fun path p q mount mount' hp hq => hp.unique (not_shared_of_build h hbuilt) hq, ?_, ?_⟩
  · intro now hnow earlier around request hprobe
    have hlater := (hlaid.of_sameLayout hnow).of_sameLayout (sameLayout_answering now earlier)
    exact hlater.routed hprobe around
  · intro placements' hperm
    obtain ⟨built', hbuilt'⟩ := exists_build_of_perm h hbuilt hperm
    exact ⟨built', hbuilt', hlaid.route_of_perm (laidOut_of_build h hbuilt') hperm⟩

def archiveClass : HandlerClass Unit where
  system := "Archive"
  handler := "Files"
  methods := []

def archivePlacements : List (Placement Unit) :=
  [⟨0, none, ()⟩, ⟨1, some "Archive/Files/v2//", ()⟩]

theorem mounts_archivePlacements :
    (archivePlacements.map fun p => (p.endpoint fun _ => archiveClass).mount) =
      ["/Archive/Files", "/Archive/Files/v2"] := rfl

theorem mountedAt_archive {p : Placement Unit} (hp : p ∈ archivePlacements) {mount : String}
    (hmount : MountedAt (fun _ => archiveClass) p mount) :
    mount = "/Archive/Files" ∨ mount = "/Archive/Files/v2" := by
  have hlisted := List.mem_map_of_mem (f := fun p => (p.endpoint fun _ => archiveClass).mount) hp
  rw [mounts_archivePlacements, ← mountedAt_iff.mp hmount] at hlisted
  simpa using hlisted

theorem longest_archive : Longest (fun _ => archiveClass) archivePlacements
    "/Archive/Files/v2/report" ⟨1, some "Archive/Files/v2//", ()⟩ "/Archive/Files/v2" where
  mem := by simp [archivePlacements]
  mounted := mountedAt_iff.mpr (rfl)
  claims := mountClaims_iff.mp (rfl)
  longest q hq other hother _ := by
    obtain rfl | rfl := mountedAt_archive hq hother
    · decide
    · exact Nat.le_refl _

/-- Below the second version the second version answers, and beside the archive nothing does. -/
theorem archive_answers_below_its_mounts :
    ({} : Server Unit).Blank (fun _ => archiveClass) ∧
    ∃ built, (({} : Server Unit).mountAll (fun _ => archiveClass) archivePlacements).build =
        .ok built ∧
      (built.route "/Archive/Files/v2/report").map (·.mount) = some "/Archive/Files/v2" ∧
      built.dispatch ⟨0, 0, "1", none⟩ { path := "/Archive/Filesystem" } = built.missing := by
  have hblank : ({} : Server Unit).Blank (fun _ => archiveClass) := ⟨rfl, List.forall_mem_nil _⟩
  obtain ⟨-, herror, -, hbuilt⟩ := longest_mount_answers hblank archivePlacements
  have hprobe : ∀ path, path ∉ ["/health", "/ready", "/metrics"] →
      ¬ IsProbe { path := path } := fun path hpath h => hpath h.2
  refine ⟨hblank, ?_⟩
  cases hbuild : (({} : Server Unit).mountAll (fun _ => archiveClass) archivePlacements).build with
  | error mount =>
      have hrepeated := exists_shared_iff.mp (herror.mp ⟨mount, hbuild⟩)
      rw [mounts_archivePlacements] at hrepeated
      exact absurd (by decide) hrepeated
  | ok built =>
      obtain ⟨hunique, hrouted, -⟩ := hbuilt built hbuild
      have hanswers : ∀ request, ¬ IsProbe request →
          Routed (fun _ => archiveClass) archivePlacements built ⟨0, 0, "1", none⟩ request
            (built.dispatch ⟨0, 0, "1", none⟩ request) :=
        fun request => hrouted built (.refl built) [] ⟨0, 0, "1", none⟩ request
      refine ⟨built, rfl, ?_, ?_⟩
      · have hanswer := hanswers { path := "/Archive/Files/v2/report" } (hprobe _ (by decide))
        generalize built.dispatch _ _ = answer at hanswer
        cases hanswer with
        | called found longest ofHandler known ofClass =>
            rw [(hunique _ _ _ _ _ longest_archive longest).2]
            exact congrArg (Option.map _) found
        | missing found unclaimed =>
            exact absurd longest_archive.claims
              (unclaimed _ longest_archive.mem _ longest_archive.mounted)
      · have hanswer := hanswers { path := "/Archive/Filesystem" } (hprobe _ (by decide))
        generalize built.dispatch _ _ = answer at hanswer ⊢
        cases hanswer with
        | called found longest ofHandler known ofClass =>
            have hclaims := mountClaims_iff.mpr longest.claims
            obtain hmount | hmount := mountedAt_archive longest.mem longest.mounted
            · rw [hmount] at hclaims
              exact absurd hclaims (by decide)
            · rw [hmount] at hclaims
              exact absurd hclaims (by decide)
        | missing found unclaimed => rfl

end Server

end Gatehouse.Service
