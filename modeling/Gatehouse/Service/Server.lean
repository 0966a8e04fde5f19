import Gatehouse.Service.Handling
import Gatehouse.Service.Health
import Gatehouse.Config.Settings

/-!
# The server

A server holds the endpoints and what their classes share.  A request goes to a probe or else to the
endpoint with the longest mount that the path begins with, segment by segment.  Classes are shared:
two endpoints of one class are set up once.
-/

namespace Gatehouse.Service

open Component (ClassState HandlerClass Services Setting)
open Response (Writer)

/-! ## Mounts -/

/-- A mount as it is written in a server: one slash at the start and none at the end. -/
def normalizeMount (mount : String) : String :=
  String.ofList ('/' :: Text.dropTrailing '/' (Text.dropLeading '/' mount.toList))

/-- Whether a mount claims a path: the path is the mount or goes on with a slash. -/
def mountClaims (mount path : String) : Bool :=
  match Text.stripLead? mount.toList path.toList with
  | some [] => true
  | some (c :: _) => c == '/'
  | none => false

/-- A handler instance in its place. -/
structure Endpoint (σ : Type) where
  mount : String
  /-- The number of its class. -/
  classId : Nat
  instanceState : σ

/-- A class that has endpoints, with what they share. -/
structure ClassEntry (σ : Type) where
  classId : Nat
  handlerClass : HandlerClass σ
  state : ClassState σ := {}

/-- A server. -/
structure Server (σ : Type) where
  settings : Config.ServerSettings := {}
  serviceName : String := "hermes"
  services : Services := {}
  policies : Policy.Source := .ofSections []
  /-- The longest mounts first. -/
  endpoints : List (Endpoint σ) := []
  classes : List (ClassEntry σ) := []
  /-- Whether readiness probes are told to send requests. -/
  accepting : Bool := true

/-- What a request finds outside of the server. -/
structure Circumstances where
  /-- The time, in seconds. -/
  now : Nat
  uptimeSeconds : Nat := 0
  requestId : String
  /-- What has been counted, if anything counts. -/
  metrics : Option String := none

namespace Server

variable {σ : Type}

/-! ## Building -/

/-- The class of a number, which is entered if it is new. -/
def enter (s : Server σ) (classId : Nat) (handlerClass : HandlerClass σ) : Server σ :=
  if s.classes.any (·.classId == classId) then s
  else { s with classes := s.classes ++ [{ classId, handlerClass }] }

def entry? (s : Server σ) (classId : Nat) : Option (ClassEntry σ) :=
  s.classes.find? (·.classId == classId)

/-- Adds an endpoint of a class: at a mount of its own, or at the name of the component. -/
def mount (s : Server σ) (classId : Nat) (handlerClass : HandlerClass σ) (mount : Option String)
    (instanceState : σ) : Server σ :=
  let s := s.enter classId handlerClass
  let known := ((s.entry? classId).map (·.handlerClass)).getD handlerClass
  let mount := (mount.map normalizeMount).getD s!"/{known.fullName}"
  { s with endpoints := s.endpoints ++ [{ mount, classId, instanceState }] }

/-- The first mount that stands before. -/
def repeated? (seen : List String) : List String → Option String
  | [] => none
  | mount :: rest => if seen.contains mount then some mount else repeated? (mount :: seen) rest

/-- Puts the longest mounts first, if no two are the same; the error is one that is. -/
def build (s : Server σ) : Except String (Server σ) :=
  match repeated? [] (s.endpoints.map (·.mount)) with
  | some mount => .error mount
  | none =>
    .ok { s with endpoints :=
      s.endpoints.mergeSort fun a b => b.mount.utf8ByteSize ≤ a.mount.utf8ByteSize }

def ofSettings (settings : Config.Settings) : Server σ where
  settings := settings.server
  serviceName := settings.telemetry.serviceName
  services := {
    options := settings.options
    providers := settings.providers
    workerTimeout := some settings.server.workerMilliseconds |>.filter (· ≠ 0) }
  policies := .ofSections settings.authorization

def mounts (s : Server σ) : List String := s.endpoints.map (·.mount)

/-! ## Setting up -/

/-- What a setup of a class works on. -/
def settingOf (s : Server σ) (state : ClassState σ) (instanceState : σ) : Setting σ :=
  { state, instanceState, policies := s.policies }

/-- Takes over what a class shares after a setup or a request. -/
def absorb (s : Server σ) (classId : Nat) (setting : Setting σ) : Server σ :=
  { s with
    policies := setting.policies
    classes := s.classes.map fun e =>
      if e.classId = classId then { e with state := setting.state } else e }

/-! ## Probes -/

def probe (status : Http.Status) (contentType : String) (body : List UInt8) : Writer where
  codec := .json
  status := status
  headers := Http.Headers.empty.insert "content-type" (Text.Utf8.encode contentType)
  body := body
  finished := true

def healthResponse (s : Server σ) (around : Circumstances) : Writer :=
  probe .ok Response.structuredType
    (healthReport s.serviceName Component.version around.uptimeSeconds).renderBytes

def readiness (s : Server σ) : ReadinessReport :=
  .of s.accepting <| s.endpoints.filterMap fun e => do
    let entry ← s.entry? e.classId
    return (entry.handlerClass.fullName, .ofSetup entry.state.outcome?)

def readyResponse (s : Server σ) : Writer :=
  let report := s.readiness
  probe (if report.ready then .ok else .serviceUnavailable) Response.structuredType
    report.toJson.renderBytes

def metricsResponse (around : Circumstances) : Writer :=
  match around.metrics with
  | some text => probe .ok "text/plain; version=0.0.4" (Text.Utf8.encode text)
  | none => errorWriter (.http .notFound "Metrics are disabled") none

/-! ## Requests -/

structure Answer (σ : Type) where
  response : Writer
  server : Server σ
  log : Log := []
  counts : List RequestCount := []

/-- The endpoint of a path, with those before and behind it. -/
def splitAt? (path : String) :
    List (Endpoint σ) → Option (List (Endpoint σ) × Endpoint σ × List (Endpoint σ))
  | [] => none
  | e :: rest =>
    if mountClaims e.mount path then some ([], e, rest)
    else (splitAt? path rest).map fun (before, found, behind) => (e :: before, found, behind)

/-- The endpoint of a path. -/
def route (s : Server σ) (path : String) : Option (Endpoint σ) :=
  s.endpoints.find? fun e => mountClaims e.mount path

def handleAt (s : Server σ) (around : Circumstances) (request : Request) : Answer σ :=
  let missing : Answer σ := ⟨errorWriter (.http .notFound "Not Found") none, s, [], []⟩
  match splitAt? request.path s.endpoints with
  | none => missing
  | some (before, endpoint, behind) =>
    match s.entry? endpoint.classId with
    | none => missing
    | some entry =>
      let scene : Scene σ := {
        setting := s.settingOf entry.state endpoint.instanceState
        context := {
          requestId := around.requestId, path := request.path, peer := request.peer } }
      let (response, scene) :=
        (handle entry.handlerClass s.services around.now request).run scene
      let endpoint := { endpoint with instanceState := scene.setting.instanceState }
      { response
        server := { s.absorb endpoint.classId scene.setting with
          endpoints := before ++ endpoint :: behind }
        log := scene.setting.log
        counts := scene.counts }

/-- Answers a request: a probe, or the endpoint of its path. -/
def dispatch (s : Server σ) (around : Circumstances) (request : Request) : Answer σ :=
  match request.method, request.path with
  | "GET", "/health" => ⟨s.healthResponse around, s, [], []⟩
  | "GET", "/ready" => ⟨s.readyResponse, s, [], []⟩
  | "GET", "/metrics" => ⟨metricsResponse around, s, [], []⟩
  | _, _ => s.handleAt around request

end Server

end Gatehouse.Service
