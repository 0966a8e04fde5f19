import Gatehouse.Proofs.Service.Routing
import Gatehouse.Proofs.Table

/-!
# When a server is ready

A readiness probe is told of every component by name, and its verdict is drawn from what it is told.
Endpoints of one component name are told of by the one that is tried last, so its setup speaks for
all of them: where each component name belongs to one class a failed setup always counts, and where
two classes share a name the failure of one may not be seen.
-/

namespace Gatehouse.Service

open Component (HandlerClass)

variable {σ : Type}

/-! ## Reports -/

theorem ReadinessReport.ready_of_iff (accepting : Bool) (components : List (String × Readiness)) :
    (ReadinessReport.of accepting components).ready = true ↔
      accepting = true ∧ ∀ name, ¬ Table.LastBound components name .failed := by
  have hmem : ∀ name state, (name, state) ∈ Table.ofList components ↔
      Table.LastBound components name state := fun name state =>
    (Table.ordered_ofList components).mem_iff.trans Table.get?_ofList_eq_some_iff
  rw [ReadinessReport.of, Bool.and_eq_true, List.all_eq_true]
  refine and_congr_right fun _ => ⟨fun h name hfailed => ?_, fun h binding hbinding => ?_⟩
  · have hnot := h (name, .failed) ((hmem name .failed).mpr hfailed)
    exact of_decide_eq_true hnot rfl
  · rw [decide_eq_true_eq]
    intro hfailed
    obtain ⟨name, state⟩ := binding
    subst hfailed
    exact h name ((hmem name .failed).mp hbinding)

namespace Server

/-! ## Endpoints and their setups -/

def setupOf (s : Server σ) (e : Endpoint σ) : Readiness :=
  .ofSetup ((s.entry? e.classId).bind (·.state.outcome?))

/-- The setup of an endpoint's class has failed. -/
def HasFailed (s : Server σ) (e : Endpoint σ) : Prop :=
  ∃ entry, s.entry? e.classId = some entry ∧ entry.state.ready = false ∧
    entry.state.failure ≠ none

theorem setupOf_eq_failed_iff {s : Server σ} {e : Endpoint σ} :
    s.setupOf e = .failed ↔ s.HasFailed e := by
  rw [setupOf, HasFailed]
  cases s.entry? e.classId with
  | none => simp [Readiness.ofSetup]
  | some entry =>
      cases hready : entry.state.ready <;> cases hfailure : entry.state.failure <;>
        simp [Component.ClassState.outcome?, Component.ClassState.hasFailed, Readiness.ofSetup,
          hready, hfailure]

theorem exists_hasFailed {s : Server σ} (h : .failed ∈ s.endpoints.map s.setupOf) :
    ∃ e ∈ s.endpoints, s.HasFailed e := by
  obtain ⟨e, he, hfailed⟩ := List.mem_map.mp h
  exact ⟨e, he, setupOf_eq_failed_iff.mp hfailed⟩

/-- No endpoint that is tried after this one has its component name. -/
def LastOfName (s : Server σ) (classes : Nat → HandlerClass σ) (e : Endpoint σ) : Prop :=
  ∃ before behind, s.endpoints = before ++ e :: behind ∧
    ∀ other ∈ behind, (classes other.classId).fullName ≠ (classes e.classId).fullName

/-- What an endpoint tells a probe: the name of its component and what is known of its setup. -/
def componentOf (s : Server σ) (classes : Nat → HandlerClass σ) (e : Endpoint σ) :
    String × Readiness :=
  ((classes e.classId).fullName, s.setupOf e)

def components (s : Server σ) (classes : Nat → HandlerClass σ) : List (String × Readiness) :=
  s.endpoints.map (s.componentOf classes)

variable {s : Server σ} {classes : Nat → HandlerClass σ} {placements : List (Placement σ)}

theorem LastOfName.mem {e : Endpoint σ} (h : s.LastOfName classes e) : e ∈ s.endpoints := by
  obtain ⟨before, behind, hendpoints, -⟩ := h
  rw [hendpoints]
  exact List.mem_append_right _ List.mem_cons_self

theorem LaidOut.readiness_eq (h : s.LaidOut classes placements) :
    s.readiness = .of s.accepting (s.components classes) := by
  rw [readiness, components, ← List.filterMap_eq_map]
  congr 1
  refine List.filterMap_congr fun e he => ?_
  obtain ⟨p, hp, -, hclass⟩ := h.exists_placement he
  obtain ⟨entry, hentry, hknown⟩ := h.entries p hp
  rw [hclass] at hentry hknown
  simp only [Function.comp, componentOf, setupOf, hentry, ← hknown]
  rfl

theorem lastBound_components_iff {name : String} {state : Readiness} :
    Table.LastBound (s.components classes) name state ↔
      ∃ e, s.LastOfName classes e ∧ (classes e.classId).fullName = name ∧ s.setupOf e = state := by
  rw [components, Table.LastBound]
  constructor
  · rintro ⟨before, after, hsplit, hafter⟩
    obtain ⟨before', rest, hendpoints, -, hrest⟩ := List.map_eq_append_iff.mp hsplit
    obtain ⟨e, behind, rfl, hpair, rfl⟩ := List.map_eq_cons_iff.mp hrest
    obtain ⟨rfl, rfl⟩ := Prod.mk.inj hpair
    refine ⟨e, ⟨before', behind, hendpoints, fun other hother => ?_⟩, rfl, rfl⟩
    exact hafter _ (List.mem_map_of_mem hother)
  · rintro ⟨e, ⟨before, behind, hendpoints, hbehind⟩, rfl, rfl⟩
    refine ⟨before.map (s.componentOf classes), behind.map (s.componentOf classes), ?_,
      fun later hlater => ?_⟩
    · rw [hendpoints, List.map_append, List.map_cons, componentOf]
    · obtain ⟨other, hother, rfl⟩ := List.mem_map.mp hlater
      exact hbehind other hother

/-- If no two classes share a component name, every endpoint is spoken for by one of its own
class. -/
theorem exists_lastOfName
    (hnames : ∀ e ∈ s.endpoints, ∀ e' ∈ s.endpoints,
      (classes e.classId).fullName = (classes e'.classId).fullName → e.classId = e'.classId)
    {e : Endpoint σ} (he : e ∈ s.endpoints) :
    ∃ last, s.LastOfName classes last ∧ last.classId = e.classId := by
  obtain ⟨state, hbound⟩ | hunbound :=
    Table.lastBound_or_unbound (s.components classes) (classes e.classId).fullName
  · obtain ⟨last, hlast, hname, -⟩ := lastBound_components_iff.mp hbound
    exact ⟨last, hlast, hnames last hlast.mem e he hname⟩
  · exact absurd rfl (hunbound _ (List.mem_map_of_mem he))

theorem LaidOut.ready_iff (h : s.LaidOut classes placements) :
    s.readiness.ready = true ↔
      s.accepting = true ∧ ∀ e, s.LastOfName classes e → ¬ s.HasFailed e := by
  rw [h.readiness_eq, ReadinessReport.ready_of_iff]
  refine and_congr_right fun _ => ⟨fun h e hlast hfailed => ?_, fun h name hbound => ?_⟩
  · refine h (classes e.classId).fullName (lastBound_components_iff.mpr ⟨e, hlast, rfl, ?_⟩)
    exact setupOf_eq_failed_iff.mpr hfailed
  · obtain ⟨e, hlast, -, hfailed⟩ := lastBound_components_iff.mp hbound
    exact h e hlast (setupOf_eq_failed_iff.mp hfailed)

theorem LaidOut.ready_iff_none_failed (h : s.LaidOut classes placements)
    (hnames : ∀ p ∈ placements, ∀ q ∈ placements,
      (classes p.classId).fullName = (classes q.classId).fullName → p.classId = q.classId) :
    s.readiness.ready = true ↔
      s.accepting = true ∧ ∀ e ∈ s.endpoints, ¬ s.HasFailed e := by
  have hclasses : ∀ e ∈ s.endpoints, ∀ e' ∈ s.endpoints,
      (classes e.classId).fullName = (classes e'.classId).fullName → e.classId = e'.classId := by
    intro e he e' he' hname
    obtain ⟨p, hp, -, hclass⟩ := h.exists_placement he
    obtain ⟨q, hq, -, hclass'⟩ := h.exists_placement he'
    rw [← hclass, ← hclass'] at hname ⊢
    exact hnames p hp q hq hname
  rw [h.ready_iff]
  refine and_congr_right fun _ => ⟨fun h e he hfailed => ?_, fun h e hlast => h e hlast.mem⟩
  -- The endpoint that is told of in place of this one is of the same class, so it has failed too.
  obtain ⟨last, hlast, hclass⟩ := exists_lastOfName hclasses he
  refine h last hlast ?_
  rwa [HasFailed, hclass]

/-- A server that was built from handlers answers a readiness probe with a report, whatever state it
and its classes are in, and stays as it is.  The report has for each component name what is known of
the endpoint of that name that is tried last.  The verdict is that the server is ready exactly if it
accepts requests and none of those endpoints has failed; and where no two classes have one component
name, exactly if it accepts requests and no endpoint has failed. -/
theorem last_of_each_name_decides (h : s.Blank classes) {built now : Server σ}
    (hbuilt : (s.mountAll classes placements).build = .ok built) (hnow : built.SameLayout now)
    (around : Circumstances) (request : Request) (hmethod : request.method = "GET")
    (hpath : request.path = "/ready") :
    ∃ report : ReadinessReport,
      now.dispatch around request =
        ⟨probe (if report.ready then .ok else .serviceUnavailable) Response.structuredType
          report.toJson.renderBytes, now, [], []⟩ ∧
      (∀ name state, Table.get? name report.components = some state ↔
        ∃ e, now.LastOfName classes e ∧ (classes e.classId).fullName = name ∧
          now.setupOf e = state) ∧
      (report.ready = true ↔
        now.accepting = true ∧ ∀ e, now.LastOfName classes e → ¬ now.HasFailed e) ∧
      ((∀ p ∈ placements, ∀ q ∈ placements,
          (classes p.classId).fullName = (classes q.classId).fullName → p.classId = q.classId) →
        (report.ready = true ↔
          now.accepting = true ∧ ∀ e ∈ now.endpoints, ¬ now.HasFailed e)) := by
  have hlaid := (laidOut_of_build h hbuilt).of_sameLayout hnow
  refine ⟨now.readiness, ?_, fun name state => ?_, hlaid.ready_iff, hlaid.ready_iff_none_failed⟩
  · rw [dispatch, hmethod, hpath]
    rfl
  · rw [hlaid.readiness_eq, ← lastBound_components_iff]
    exact Table.get?_ofList_eq_some_iff

/-- Two classes of one name, of which the first cannot be set up. -/
def twinArchives : Nat → HandlerClass Unit
  | 0 => {
      system := "Archive"
      handler := "Files"
      methods := []
      onSetup _ state := (.raised (.untyped ⟨[], "disk on fire"⟩), state) }
  | _ + 1 => { system := "Archive", handler := "Files", methods := [] }

def brokenPlacements : List (Placement Unit) := [⟨0, none, ()⟩, ⟨0, some "/archive", ()⟩]

def brokenServer : Server Unit := ({} : Server Unit).mountAll twinArchives brokenPlacements

theorem build_brokenServer : brokenServer.build = .ok brokenServer := by
  have hmounts : brokenServer.endpoints.map (·.mount) = ["/Archive/Files", "/archive"] := rfl
  exact build_of_ordered hmounts (by decide) (by decide)

def brokenServerInUse : Server Unit :=
  brokenServer.answering [(⟨0, 0, "1", none⟩, { method := "POST", path := "/archive" })]

/-- The failure of the class is that of both handlers, and the server is not ready. -/
theorem brokenServer_is_not_ready :
    ({} : Server Unit).Blank twinArchives ∧ brokenServer.build = .ok brokenServer ∧
    brokenServer.SameLayout brokenServerInUse ∧ ∃ components,
      brokenServerInUse.dispatch ⟨0, 0, "2", none⟩ { path := "/ready" } =
        ⟨probe .serviceUnavailable Response.structuredType
          (ReadinessReport.mk false components).toJson.renderBytes, brokenServerInUse, [], []⟩ := by
  have hblank : ({} : Server Unit).Blank twinArchives := ⟨rfl, List.forall_mem_nil _⟩
  have hlater : brokenServer.SameLayout brokenServerInUse := sameLayout_answering _ _
  have hclass : ∀ p ∈ brokenPlacements, p.classId = 0 := by
    simp [brokenPlacements]
  have hsetups : brokenServerInUse.endpoints.map brokenServerInUse.setupOf =
      [.failed, .failed] := rfl
  obtain ⟨e, he, hfailed⟩ := exists_hasFailed (hsetups ▸ List.mem_cons_self)
  obtain ⟨⟨ready, components⟩, hanswer, -, -, hready⟩ :=
    last_of_each_name_decides hblank build_brokenServer hlater ⟨0, 0, "2", none⟩
      { path := "/ready" } rfl rfl
  have hnot : ready = false := by
    rw [Bool.eq_false_iff]
    intro htrue
    obtain ⟨-, hnone⟩ := (hready fun p hp q hq _ => (hclass p hp).trans (hclass q hq).symm).mp htrue
    exact hnone e he hfailed
  subst hnot
  exact ⟨hblank, build_brokenServer, hlater, components, hanswer⟩

def twinServer : Server Unit :=
  ({} : Server Unit).mountAll twinArchives
    [⟨0, some "/primary/archive", ()⟩, ⟨1, some "/archive", ()⟩]

def twinServerInUse : Server Unit :=
  twinServer.answering [(⟨0, 0, "1", none⟩, { method := "POST", path := "/primary/archive" })]

/-- The failure of the first class is not seen, for an endpoint of the second is tried after it: the
server is called ready. -/
theorem twinServer_hides_a_failure :
    ({} : Server Unit).Blank twinArchives ∧ twinServer.build = .ok twinServer ∧
    twinServer.SameLayout twinServerInUse ∧ twinServerInUse.accepting = true ∧
    (∃ e ∈ twinServerInUse.endpoints, twinServerInUse.HasFailed e) ∧
    twinServerInUse.dispatch ⟨0, 0, "2", none⟩ { path := "/ready" } =
      ⟨probe .ok Response.structuredType
        (ReadinessReport.mk true [("Archive/Files", .pending)]).toJson.renderBytes,
        twinServerInUse, [], []⟩ := by
  have hmounts : twinServer.endpoints.map (·.mount) = ["/primary/archive", "/archive"] := rfl
  have hsetups : twinServerInUse.endpoints.map twinServerInUse.setupOf = [.failed, .pending] := rfl
  have hreport : twinServerInUse.readiness = ⟨true, [("Archive/Files", .pending)]⟩ := rfl
  refine ⟨⟨rfl, List.forall_mem_nil _⟩, build_of_ordered hmounts (by decide) (by decide),
    sameLayout_answering _ _, rfl, exists_hasFailed (hsetups ▸ List.mem_cons_self), ?_⟩
  have hprobe : twinServerInUse.dispatch ⟨0, 0, "2", none⟩ { path := "/ready" } =
      ⟨twinServerInUse.readyResponse, twinServerInUse, [], []⟩ := rfl
  rw [hprobe, readyResponse, hreport]
  rfl

end Server

end Gatehouse.Service
