import Podmin.Foundation.Codec
import Podmin.Foundation.Path
import Podmin.Manifest.Identifiers
import Podmin.Registry

/-!
# Pods

The parts of a typed Pod that `internal/manifest` and the agent read or change, and
`transformPod`: image overrides, image normalization and the workload identity mount. YAML is a
parameter: a codec between Pods and bytes.
-/

namespace Podmin.Manifest

open Foundation Registry

/-! ## Typed Pods -/

structure VolumeMount where
  name : String
  mountPath : String
  readOnly : Bool := false
  recursiveReadOnly : Option String := none
  subPath : String := ""
  mountPropagation : Option String := none
  subPathExpr : String := ""
  deriving DecidableEq, Countable

structure HostPath where
  path : String
  type : Option String
  deriving DecidableEq, Countable

/-- A volume source: a host path, and the names of the other kinds of source that are set. -/
structure VolumeSource where
  hostPath : Option HostPath := none
  others : List String := []
  deriving DecidableEq, Countable

structure Volume where
  name : String
  source : VolumeSource
  deriving DecidableEq, Countable

structure EnvVar where
  name : String
  value : String
  deriving DecidableEq, Countable

structure ContainerPort where
  containerPort : Int
  protocol : String
  deriving DecidableEq, Countable

inductive Probe where
  | httpGet (path : String) (port : Int) (scheme : String)
  | tcpSocket (port : Int)
  deriving DecidableEq, Countable

/-- A container; its limits are the texts of resource quantities. -/
structure Container where
  name : String
  image : String
  imagePullPolicy : String := ""
  volumeMounts : List VolumeMount := []
  env : List EnvVar := []
  ports : List ContainerPort := []
  readinessProbe : Option Probe := none
  limits : GoMap String String := ∅
  deriving DecidableEq, Countable

structure DnsConfig where
  nameservers : List String := []
  searches : List String := []
  deriving DecidableEq, Countable

structure PodSpec where
  containers : List Container
  initContainers : List Container := []
  volumes : List Volume := []
  dnsPolicy : String := ""
  dnsConfig : Option DnsConfig := none
  nodeSelector : GoMap String String := ∅
  nodeName : String := ""
  affinity : Option String := none
  schedulerName : String := ""
  topologySpreadConstraints : List String := []
  deriving DecidableEq, Countable

structure Pod where
  apiVersion : String := "v1"
  kind : String := "Pod"
  name : String
  ns : String := ""
  annotations : GoMap String String := ∅
  spec : PodSpec
  labels : GoMap String String := ∅
  deriving DecidableEq, Countable

/-- Strict decoding and encoding of one Pod document. -/
abbrev PodCodec := Codec Pod

def PodSpec.mapContainers (spec : PodSpec) (change : Container → Container) : PodSpec :=
  { spec with
    containers := spec.containers.map change
    initContainers := spec.initContainers.map change }

def Pod.annotate (pod : Pod) (key value : String) : Pod :=
  { pod with annotations := pod.annotations.insert key value }

/-- An annotation, empty when it is absent. -/
def Pod.annotation (pod : Pod) (key : String) : String :=
  (pod.annotations.lookup key).getD ""

def parsePod (codec : PodCodec) (input : List UInt8) : Except String Pod :=
  match codec.decode input with
  | .error message => .error ("parse manifest: " ++ message)
  | .ok pod =>
    if pod.apiVersion ≠ "v1" ∨ pod.kind ≠ "Pod" then
      .error "apiVersion must be v1 and kind must be Pod"
    else .ok pod

def marshalPod (codec : PodCodec) (pod : Pod) : List UInt8 :=
  codec.encode { pod with apiVersion := "v1", kind := "Pod" }

/-! ## Image overrides -/

/-- Read one `--image` value into the bare override and the named ones. -/
def readOverride (state : String × GoMap String String) (raw : String) :
    Except String (String × GoMap String String) :=
  let (bare, named) := state
  if raw.toList.contains '=' then
    let name := String.ofList (raw.toList.takeWhile (· ≠ '='))
    let image := String.ofList ((raw.toList.dropWhile (· ≠ '=')).drop 1)
    if name = "" ∨ image = "" ∨ (named.lookup name).getD "" ≠ "" then
      .error ("invalid or duplicate --image \"" ++ raw ++ "\"")
    else .ok (bare, named.insert name image)
  else if bare ≠ "" ∨ raw = "" then .error "only one bare --image is allowed"
  else .ok (raw, named)

def setImage (name image : String) (container : Container) : Container :=
  if container.name = name then { container with image := image } else container

/-- Apply one named override. -/
def overrideNamed (spec : PodSpec) (entry : String × String) : Except String PodSpec :=
  if (spec.containers ++ spec.initContainers).any (·.name = entry.1) then
    .ok (spec.mapContainers (setImage entry.1 entry.2))
  else .error ("unknown container \"" ++ entry.1 ++ "\"")

/-- Apply the bare or named overrides. -/
def overrides (spec : PodSpec) (images : List String) : Except String PodSpec := do
  let (bare, named) ← images.foldlM readOverride ("", ∅)
  if bare ≠ "" ∧ !named.pairs.isEmpty then
    .error "bare and named --image values cannot be combined"
  else if bare ≠ "" then
    match spec.containers with
    | [regular] => .ok (spec.mapContainers (setImage regular.name bare))
    | _ => .error "bare --image requires exactly one regular container"
  else named.pairs.foldlM overrideNamed spec

/-! ## The workload identity mount -/

def identityVolumeName : String := "podmin-identity"

def identityMountPath : String := "/var/run/secrets/podmin.dev/tls"

def runtimeHostRoot : String := "/run/podmin"

def workloadHostRoot : String := runtimeHostRoot ++ "/workloads"

/-- Whether a host path lies in the runtime root. -/
def reservedHostPath (path : String) : Bool :=
  let clean := Path.clean path
  clean == runtimeHostRoot || Text.hasPrefix clean (runtimeHostRoot ++ "/")

/-- Whether either path contains the other. -/
def pathsOverlap (left right : String) : Bool :=
  let contains parent child :=
    match Path.rel parent child with
    | none => false
    | some relative => relative == "." || (relative != ".." && !Text.hasPrefix relative "../")
  contains left right || contains right left

/-- Scan the volumes for the identity volume; `found` is the one seen so far. -/
def identityVolume (found : Option Volume) : List Volume → Except String (Option Volume)
  | [] => .ok found
  | volume :: volumes =>
    if volume.name = identityVolumeName then
      match found with
      | some _ => .error ("volume \"" ++ identityVolumeName ++ "\" may appear only once")
      | none => identityVolume (some volume) volumes
    else
      match volume.source.hostPath with
      | some hostPath =>
        if reservedHostPath hostPath.path then
          .error ("hostPath " ++ hostPath.path ++ " is reserved by Podmin")
        else identityVolume found volumes
      | none => identityVolume found volumes

def identitySource (pod : String) : VolumeSource where
  hostPath := some ⟨Path.join [workloadHostRoot, pod, "identity"], some "Directory"⟩

def identityMount : VolumeMount where
  name := identityVolumeName
  mountPath := identityMountPath
  readOnly := true

/-- Whether a mount touches the identity path or uses the identity volume. -/
def touchesIdentity (mount : VolumeMount) : Bool :=
  pathsOverlap (Path.clean mount.mountPath) identityMountPath || mount.name == identityVolumeName

/-- Scan mounts for the identity mount. -/
def identityMounted (found : Bool) : List VolumeMount → Except String Bool
  | [] => .ok found
  | mount :: mounts =>
    if !touchesIdentity mount then identityMounted found mounts
    else if found ∨ mount ≠ identityMount then
      .error ("mount path " ++ identityMountPath ++ " is reserved by Podmin")
    else identityMounted true mounts

def mountIdentity (container : Container) : Except String Container := do
  let found ← identityMounted false container.volumeMounts
  .ok (if found then container
    else { container with volumeMounts := container.volumeMounts ++ [identityMount] })

/-- Add or validate the identity volume. -/
def addIdentityVolume (volumes : List Volume) (pod : String) : Except String (List Volume) := do
  match ← identityVolume none volumes with
  | none => .ok (volumes ++ [⟨identityVolumeName, identitySource pod⟩])
  | some volume =>
    if volume.source ≠ identitySource pod then
      .error ("volume \"" ++ identityVolumeName ++ "\" is reserved by Podmin")
    else .ok volumes

/-- Add or validate the read-only workload identity mount. -/
def injectIdentity (spec : PodSpec) (pod : String) : Except String PodSpec := do
  let volumes ← addIdentityVolume spec.volumes pod
  let containers ← spec.containers.mapM mountIdentity
  let initContainers ← spec.initContainers.mapM mountIdentity
  .ok { spec with volumes, containers, initContainers }

/-! ## Transforming a Pod -/

/-- Container names are valid and differ; `seen` are the names so far. -/
def checkNames (seen : List String) : List Container → Except String Unit
  | [] => .ok ()
  | container :: containers =>
    if !validID container.name then .error "every container must have a valid name"
    else if container.name ∈ seen then
      .error ("duplicate container name \"" ++ container.name ++ "\"")
    else checkNames (container.name :: seen) containers

def normalizeImage (parser : TagParser) (container : Container) : Except String Container :=
  if container.image = "" then .error ("container \"" ++ container.name ++ "\" has no image")
  else
    match parse parser container.image with
    | .error message =>
      .error ("container \"" ++ container.name ++ "\" image \"" ++ container.image ++ "\": " ++ message)
    | .ok reference =>
      .ok { container with
        image := reference.name
        imagePullPolicy :=
          if container.imagePullPolicy = "" then "Always" else container.imagePullPolicy }

/-- Apply the image and identity policy to a Pod. -/
def transformPod (parser : TagParser) (pod : Pod) (images : List String) (revision : String) :
    Except String Pod := do
  if !validID pod.name then .error "metadata.name is invalid"
  else if pod.spec.containers.isEmpty then .error "spec.containers must be a non-empty sequence"
  else
    let pod := if revision ≠ "" then pod.annotate "podmin.dev/revision" revision else pod
    checkNames [] (pod.spec.containers ++ pod.spec.initContainers)
    let spec ← overrides pod.spec images
    let containers ← spec.containers.mapM (normalizeImage parser)
    let initContainers ← spec.initContainers.mapM (normalizeImage parser)
    let spec ← injectIdentity { spec with containers, initContainers } pod.name
    .ok { pod with spec }

/-- Decode and transform one Pod. -/
def transformInput (parser : TagParser) (codec : PodCodec) (input : List UInt8)
    (images : List String) (revision : String) : Except String Pod := do
  transformPod parser (← parsePod codec input) images revision

end Podmin.Manifest
