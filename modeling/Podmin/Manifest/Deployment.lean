import Podmin.Manifest.Index
import Podmin.Manifest.Pod
import Podmin.Manifest.Service

/-!
# Deployments

`ParseDeployment` of `internal/manifest`: a stream of YAML documents with exactly one DaemonSet and
at most one Service becomes one Pod and an optional Service. A document is modelled as what strict
decoding makes of it.
-/

namespace Podmin.Manifest

open Foundation Registry

/-! ## Services -/

/-- The raw JSON of a target port. -/
inductive RawTarget where
  | null
  | number (text : String)
  | other (text : String)
  deriving DecidableEq, Countable

/-- One port of the Service wire format; an absent target port is none. -/
structure ServicePortDocument where
  name : String := ""
  protocol : String := ""
  port : Int
  targetPort : Option RawTarget := none
  deriving DecidableEq, Countable

structure ServiceDocument where
  apiVersion : String
  kind : String
  name : String
  ns : String := ""
  selector : GoMap String String
  ports : List ServicePortDocument
  deriving DecidableEq, Countable

/-- Strict decoding and encoding of one Service document. -/
abbrev ServiceCodec := Codec ServiceDocument

/-- Decode a JSON value into a 32-bit integer; `null` leaves the zero value. -/
def decodeInt32 : RawTarget → Option Int
  | .null => some 0
  | .number text =>
    match text.toInt? with
    | some value => if -2 ^ 31 ≤ value ∧ value < 2 ^ 31 then some value else none
    | none => none
  | .other _ => none

/-- Check one port. -/
def parseServicePort (wire : ServicePortDocument) : Except String ServicePort :=
  let protocol := if wire.protocol = "" then "TCP" else wire.protocol
  if protocol ≠ "TCP" ∧ protocol ≠ "UDP" then
    .error ("unsupported Service protocol \"" ++ protocol ++ "\"")
  else if wire.port < 1 ∨ 65535 < wire.port then
    .error "Service port must be an integer from 1 through 65535"
  else
    match wire.targetPort.elim (some wire.port) decodeInt32 with
    | none => .error "Service targetPort must be an integer from 1 through 65535"
    | some targetPort =>
      if targetPort < 1 ∨ 65535 < targetPort then
        .error "Service targetPort must be an integer from 1 through 65535"
      else .ok ⟨wire.name, protocol, wire.port, targetPort⟩

/-- Check every port; `parsed` are those read so far, the last one first. -/
def parseServicePorts (parsed : List ServicePort) :
    List ServicePortDocument → Except String (List ServicePort)
  | [] => .ok parsed.reverse
  | wire :: wires => do
    let port ← parseServicePort wire
    if parsed.any fun other ↦ other.protocol = port.protocol ∧ other.port = port.port then
      .error ("duplicate Service port " ++ port.protocol ++ "/" ++ toString port.port)
    else parseServicePorts (port :: parsed) wires

/-- The canonical document of an accepted Service. -/
def canonicalDocument (service : Service) : ServiceDocument where
  apiVersion := "v1"
  kind := "Service"
  name := service.name
  ns := service.ns
  selector := service.selector
  ports := service.ports.map fun port ↦
    ⟨port.name, port.protocol, port.port, some (.number (toString port.targetPort))⟩

/-- Validate a Service document. -/
def parseService (document : ServiceDocument) : Except String Service :=
  let ns := if document.ns = "" then "default" else document.ns
  if document.apiVersion ≠ "v1" ∨ document.kind ≠ "Service" then
    .error "manifest must contain one apiVersion v1 kind Service mapping"
  else if !validID document.name || !validNamespace ns then
    .error "Service metadata.name is invalid"
  else if document.selector.pairs.isEmpty || document.ports.isEmpty then
    .error "Service selector and ports must be non-empty"
  else do
    let ports ← parseServicePorts [] document.ports
    .ok ⟨document.name, ns, document.selector, ports⟩

/-- Validate one standalone Service for agent consumption, `ParseService`. -/
def parseServiceInput (codec : ServiceCodec) (input : List UInt8) : Except String Service :=
  match codec.decode input with
  | .error message => .error ("parse Service: " ++ message)
  | .ok document => parseService document

/-! ## Manifest streams -/

/-- The parts of a DaemonSet that are read; `present` are the fields its template spec mentions. -/
structure DaemonSet where
  name : String
  ns : String := ""
  annotations : GoMap String String := ∅
  spec : PodSpec
  present : List String := []
  labels : GoMap String String := ∅

/-- One document of a stream. -/
inductive Document where
  | blank
  | malformed (message : String)
  | daemonSet (decoded : Except String DaemonSet)
  | service (decoded : Except String ServiceDocument)
  | other (kind : String)

def schedulingFields : List String :=
  ["nodeName", "affinity", "schedulerName", "topologySpreadConstraints"]

def rejectSchedulingFields (daemonSet : DaemonSet) : Except String Unit :=
  match schedulingFields.find? (· ∈ daemonSet.present) with
  | some field =>
    .error ("DaemonSet Pod template scheduling field \"" ++ field ++ "\" is not supported")
  | none => .ok ()

/-- Read one document of the stream. -/
def readDocument (state : Option DaemonSet × Option ServiceDocument) (document : Document) :
    Except String (Option DaemonSet × Option ServiceDocument) :=
  match document with
  | .blank => .ok state
  | .malformed message => .error ("parse manifest stream: " ++ message)
  | .daemonSet decoded =>
    match state.1, decoded with
    | some _, _ => .error "manifest stream must contain exactly one apps/v1 DaemonSet"
    | none, .error message => .error ("parse DaemonSet: " ++ message)
    | none, .ok daemonSet => do
      rejectSchedulingFields daemonSet
      .ok (some daemonSet, state.2)
  | .service decoded =>
    match state.2, decoded with
    | some _, _ => .error "manifest stream may contain at most one Service"
    | none, .error message => .error ("parse Service: " ++ message)
    | none, .ok service => .ok (state.1, some service)
  | .other kind => .error ("unsupported kind \"" ++ kind ++ "\"")

/-- The Pod of a DaemonSet, before its transformation. -/
def DaemonSet.pod (daemonSet : DaemonSet) (ns : String) : Pod where
  name := daemonSet.name
  ns
  annotations := daemonSet.annotations
  spec := { daemonSet.spec with nodeSelector := ∅ }
  labels := daemonSet.labels

/-- Whether a template asks for scheduling other than by NodeGroup. -/
def schedules (spec : PodSpec) : Bool :=
  spec.nodeName ≠ "" || spec.affinity.isSome || spec.schedulerName ≠ "" ||
    !spec.topologySpreadConstraints.isEmpty

/-- The NodeGroup a spec selects, empty when it selects none. -/
def selectedNodeGroup (spec : PodSpec) : String :=
  (spec.nodeSelector.lookup "podmin.dev/nodegroup").getD ""

/-- The Service of a deployment, in the namespace of its Pod. -/
def deploymentService (codec : ServiceCodec) (ns : String) (document : ServiceDocument) :
    Except String (Service × List UInt8) := do
  let service ← parseService document
  if service.ns ≠ ns then
    .error ("Service namespace \"" ++ service.ns ++ "\" does not equal DaemonSet namespace \"" ++ ns
      ++ "\"")
  else .ok (service, codec.encode (canonicalDocument service))

/-- Extract exactly one DaemonSet and at most one Service. -/
def parseDeployment (parser : TagParser) (pods : PodCodec) (services : ServiceCodec)
    (documents : List Document) (images : List String)
    (revision expectedName nodeGroup : String) : Except String Deployment := do
  match ← documents.foldlM readDocument (none, none) with
  | (none, _) => .error "manifest stream must contain exactly one apps/v1 DaemonSet"
  | (some daemonSet, document) =>
    let ns := if daemonSet.ns = "" then "default" else daemonSet.ns
    let expectedName := if expectedName = "" then daemonSet.name else expectedName
    if daemonSet.name ≠ expectedName ∨ !validID daemonSet.name ∨ !validNamespace ns then
      .error "DaemonSet metadata name or namespace is invalid"
    else
      let nodeGroup := if nodeGroup = "" then selectedNodeGroup daemonSet.spec else nodeGroup
      if !validID nodeGroup ∨ daemonSet.spec.nodeSelector.pairs.length ≠ 1 ∨
          selectedNodeGroup daemonSet.spec ≠ nodeGroup then
        .error "DaemonSet Pod template nodegroup selector does not match --nodegroup"
      else if schedules daemonSet.spec then
        .error "DaemonSet Pod template contains an unsupported scheduling field"
      else
        let pod ← transformPod parser (daemonSet.pod ns) images revision
        match document with
        | none => .ok ⟨pods.encode pod, none⟩
        | some document =>
          let service ← deploymentService services ns document
          .ok ⟨pods.encode (pod.annotate "podmin.dev/service" service.1.name), some service⟩

end Podmin.Manifest
