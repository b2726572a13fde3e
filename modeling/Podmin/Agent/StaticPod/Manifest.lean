import Podmin.Manifest.Deployment

/-!
# Building static Pod manifests

The agent's side of a deployment, `internal/agent/staticpod/manifest.go`: a stored Pod is checked
again, its declared secrets are fetched, and mounts, DNS settings and revisions are added before it
is written.
-/

namespace Podmin.Agent.StaticPod

open Foundation Manifest Registry

/-- Runtime configuration of the reconciler. -/
structure Config where
  cluster : String
  nodeGroup : String
  secretDir : String
  nodeDNS : String
  deriving DecidableEq

/-- What decodes, encodes and names the objects the agent handles. -/
structure Formats where
  parser : TagParser
  pods : PodCodec
  services : ServiceCodec

/-- The secret providers. -/
inductive Provider where
  | awsParameterStore
  | awsSecretsManager
  deriving DecidableEq, Repr

def Provider.name : Provider → String
  | .awsParameterStore => "aws-parameter-store"
  | .awsSecretsManager => "aws-secrets-manager"

def Provider.annotation (provider : Provider) : String :=
  "podmin.dev/" ++ provider.name

def Provider.title : Provider → String
  | .awsParameterStore => "Parameter Store"
  | .awsSecretsManager => "Secrets Manager"

def Provider.volume (provider : Provider) : String :=
  "podmin-" ++ provider.name

def Provider.mountPath (provider : Provider) : String :=
  "/var/run/podmin/" ++ provider.name

/-! ## Revisions -/

/-- A digest cut to sixteen bytes. -/
def shortDigest (bytes : List UInt8) : String :=
  Sha512.hexEncode ((Sha512.sum512 bytes).take 16)

/-- The revision of one deployment. -/
def deploymentRevision (deployment : IndexDeployment) : String :=
  shortDigest (Text.utf8Bytes (deployment.pod ++ "\n" ++ deployment.service))

/-- Annotate a manifest with the fingerprint of a certificate. -/
def identityRevision (formats : Formats) (input certificate : List UInt8) :
    Except String (List UInt8 × String) :=
  match parsePod formats.pods input with
  | .error message => .error ("parse identity manifest: " ++ message)
  | .ok pod =>
    let revision := shortDigest certificate
    .ok (marshalPod formats.pods (pod.annotate "podmin.dev/identity-revision" revision), revision)

/-! ## Declared secrets -/

/-- Read the comma-separated keys; `seen` are those read so far, the last one first. -/
def readKeys (provider : String) (seen : List String) : List String → Except String (List String)
  | [] => .ok seen.reverse
  | value :: values =>
    let key := Text.trimSpace value
    if !validID key || key ∈ seen then .error ("invalid " ++ provider ++ " key \"" ++ key ++ "\"")
    else readKeys provider (key :: seen) values

def keyLess (left right : String) : Bool :=
  decide (left < right)

/-- The sorted keys an annotation declares. -/
def annotationKeys (raw provider : String) : Except String (List String) :=
  if Text.trimSpace raw = "" then .ok []
  else do
    let keys ← readKeys provider [] (Text.split ',' raw)
    .ok (sortSlice keyLess keys)

/-- The provider name of a secret, `secrets.Name`. -/
def secretName (cluster ns pod key : String) : Except String String :=
  if !validID cluster || !validNamespace ns || !validID pod then
    .error "invalid secret cluster, namespace, or Pod name"
  else if !validID key then .error "invalid secret key"
  else .ok ("/" ++ cluster ++ "/" ++ ns ++ "/" ++ pod ++ "/" ++ key)

/-- Fetch the values of the declared keys. -/
def fetchSecrets (config : Config) (get : String → Except String (List UInt8)) (ns pod : String)
    (provider : Provider) (fetched : GoMap String (List UInt8)) :
    List String → Except String (GoMap String (List UInt8))
  | [] => .ok fetched
  | key :: keys => do
    let path ← secretName config.cluster ns pod key
    match get path with
    | .error message => .error ("fetch " ++ path ++ " from " ++ provider.name ++ ": " ++ message)
    | .ok value => fetchSecrets config get ns pod provider (fetched.insert key value) keys

/-! ## Mounting a provider -/

/-- Whether two cleaned absolute mount paths contain one another. -/
def mountPathOverlaps (left right : String) : Bool :=
  if left = "" ∨ right = "" then false
  else
    let left := Path.clean left
    let right := Path.clean right
    left == right || Text.hasPrefix left (right ++ "/") || Text.hasPrefix right (left ++ "/")

def providerMount (provider : Provider) : VolumeMount where
  name := provider.volume
  mountPath := provider.mountPath
  readOnly := true

def mountProvider (provider : Provider) (container : Container) : Except String Container :=
  if container.volumeMounts.any fun mount ↦
      mountPathOverlaps mount.mountPath provider.mountPath then
    .error ("mount path " ++ provider.mountPath ++ " is reserved by Podmin")
  else .ok { container with volumeMounts := container.volumeMounts ++ [providerMount provider] }

/-- Add one reserved read-only provider volume to every container. -/
def injectProviderMount (spec : PodSpec) (provider : Provider) (hostPath : String) :
    Except String PodSpec :=
  if spec.volumes.any fun volume ↦ volume.name = provider.volume then
    .error ("volume \"" ++ provider.volume ++ "\" is reserved by Podmin")
  else do
    let containers ← spec.containers.mapM (mountProvider provider)
    let initContainers ← spec.initContainers.mapM (mountProvider provider)
    .ok { spec with
      volumes := spec.volumes ++ [⟨provider.volume, ⟨some ⟨hostPath, some "Directory"⟩, []⟩⟩]
      containers
      initContainers }

/-! ## Candidates -/

/-- What building one candidate gives. -/
structure Built where
  name : String
  ns : String
  service : String
  manifest : List UInt8
  secrets : GoMap String (GoMap String (List UInt8))

/-- Resolve names through the node's DNS server, when there is one. -/
def resolveWith (config : Config) (ns : String) (spec : PodSpec) : PodSpec :=
  if config.nodeDNS = "" then spec
  else
    { spec with
      dnsPolicy := "None"
      dnsConfig := some
        ⟨[config.nodeDNS], [ns ++ ".svc.cluster.local", "svc.cluster.local", "cluster.local"]⟩ }

/-- One round of the provider loop: nothing for a provider without keys. -/
def addProvider (config : Config) (get : Provider → String → Except String (List UInt8))
    (ns pod : String) (state : PodSpec × GoMap String (GoMap String (List UInt8)))
    (entry : Provider × List String) :
    Except String (PodSpec × GoMap String (GoMap String (List UInt8))) :=
  let (provider, keys) := entry
  if keys.isEmpty then .ok state
  else do
    let spec ← injectProviderMount state.1 provider (Path.join [config.secretDir, pod, provider.name])
    let fetched ← fetchSecrets config (get provider) ns pod provider ∅ keys
    .ok (spec, state.2.insert provider.name fetched)

/-- Validate a stored Pod, fetch its secrets and inject its mounts. -/
def build (config : Config) (formats : Formats)
    (get : Provider → String → Except String (List UInt8)) (input : List UInt8)
    (revision : String) : Except String Built := do
  let pod ← transformInput formats.parser formats.pods input [] ""
  let ns := if pod.ns = "" then "default" else pod.ns
  let parameterKeys ← annotationKeys (pod.annotation Provider.awsParameterStore.annotation)
    Provider.awsParameterStore.title
  let secretKeys ← annotationKeys (pod.annotation Provider.awsSecretsManager.annotation)
    Provider.awsSecretsManager.title
  let (spec, secrets) ← [(Provider.awsParameterStore, parameterKeys),
    (Provider.awsSecretsManager, secretKeys)].foldlM (addProvider config get ns pod.name)
      (resolveWith config ns pod.spec, ∅)
  .ok {
    name := pod.name
    ns
    service := pod.annotation "podmin.dev/service"
    manifest := marshalPod formats.pods ({ pod with spec }.annotate "podmin.dev/revision" revision)
    secrets }

end Podmin.Agent.StaticPod
