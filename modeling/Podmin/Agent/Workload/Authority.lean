import Mathlib.Data.List.Basic
import Podmin.Agent.Workload.Material

/-!
# The workload CA

`Authority.Ensure` of `internal/agent/workload`: creating, publishing, promoting and pruning the CA
generations in `identity/ca.json`. A certificate is modelled as what parsing it gives, with times
cut to seconds; the state document is modelled decoded. Generations do not wrap.
-/

namespace Podmin.Agent.Workload

/-! ## Certificates -/

def clockSkew : Int := 5 * minute

def activationLag : Int := 10 * minute

def retention : Int := 30 * day

/-- A parsed CA certificate. -/
structure Certificate where
  size : Nat
  publicKey : List UInt8
  isCA : Bool
  basicConstraintsValid : Bool
  certSign : Bool
  selfSigned : Bool
  notBefore : Int
  notAfter : Int
  deriving DecidableEq, Repr

/-- One CA generation. -/
structure Record where
  generation : Nat
  certificate : Certificate
  publishedAt : Option Int := none
  activateAt : Option Int := none
  retiredAt : Option Int := none
  deriving DecidableEq, Repr

/-- The durable CA document. -/
structure CaState where
  version : Nat
  current : Nat
  certs : List Record
  deriving DecidableEq, Repr

/-- The holder of the CA key, and how long its encoded certificates are. -/
structure Authority where
  publicKey : List UInt8
  size : Nat
  size_pos : 0 < size
  size_le : size ≤ 8192

/-- The year a day falls in when years start in March; day zero is the first of January of year 1. -/
def marchYear (days : Int) : Int :=
  let shifted := days + 306
  let dayOfEra := shifted % 146097
  let yearOfEra := (dayOfEra - dayOfEra / 1460 + dayOfEra / 36524 - dayOfEra / 146096) / 365
  shifted / 146097 * 400 + yearOfEra

def isLeap (year : Int) : Bool :=
  year % 4 == 0 && (year % 100 != 0 || year % 400 == 0)

/-- `AddDate(1, 0, 0)` on a UTC time: 366 days if a leap day lies ahead, and 365 otherwise. -/
def addYear (now : Int) : Int :=
  now + (if isLeap (marchYear (now / day) + 1) then 366 else 365) * day

/-- Certificate times have no fractions of a second. -/
def truncate (time : Int) : Int :=
  time / second * second

/-- A self-signed CA certificate record. -/
def newRecord (authority : Authority) (generation : Nat) (now : Int) : Record where
  generation
  certificate :=
    { size := authority.size
      publicKey := authority.publicKey
      isCA := true
      basicConstraintsValid := true
      certSign := true
      selfSigned := true
      notBefore := truncate (now - 5 * minute)
      notAfter := truncate (addYear now) }

/-! ## Validating the state -/

/-- The checks on the certificate of a record. -/
def validCertificate (authority : Authority) (certificate : Certificate) : Bool :=
  certificate.publicKey == authority.publicKey && certificate.isCA &&
    certificate.basicConstraintsValid && certificate.certSign &&
    decide (certificate.notBefore < certificate.notAfter) && certificate.selfSigned

/-- When a pending generation has to become active. -/
def expectedActivation (record : Record) : Int :=
  match record.publishedAt with
  | none => record.certificate.notBefore + (clockSkew + activationLag)
  | some published => published + activationLag

/-- The lifecycle checks on one record. -/
def validateLifecycle (current : Nat) (now : Int) (requireCurrentValid : Bool) (record : Record) :
    Except String Unit :=
  if (record.activateAt.isSome && record.retiredAt.isSome) ||
      (record.publishedAt.isSome && record.activateAt.isNone) then
    .error "CA certificate lifecycle is invalid"
  else if record.generation = current then
    if record.retiredAt.isSome || record.activateAt.isSome ||
        decide (now + clockSkew < record.certificate.notBefore) ||
        (requireCurrentValid && (decide (now < record.certificate.notBefore) ||
          !decide (now < record.certificate.notAfter))) then
      .error "current CA is not usable for issuing"
    else .ok ()
  else
    match record.activateAt with
    | some activate =>
      if record.generation < current ∨ activate ≠ expectedActivation record ∨
          record.certificate.notAfter < activate ∨
          record.publishedAt.any (fun published ↦ published < record.certificate.notBefore) then
        .error "pending CA activation is invalid"
      else .ok ()
    | none =>
      match record.retiredAt with
      | none => .error "previous CA retirement is invalid"
      | some retired =>
        if current < record.generation ∨ now + clockSkew < retired then
          .error "previous CA retirement is invalid"
        else .ok ()

/-- Check the records in order; `seen` are the generations so far, the last one first. -/
def validateRecords (authority : Authority) (current : Nat) (now : Int) (requireCurrentValid : Bool)
    (seen : List Nat) : List Record → Except String Unit
  | [] => .ok ()
  | record :: records =>
    if record.generation = 0 ∨ record.generation ∈ seen ∨
        seen.head?.any (fun previous ↦ record.generation ≤ previous) ∨
        record.certificate.size = 0 ∨ 8192 < record.certificate.size then
      .error "CA certificate record is invalid"
    else if !validCertificate authority record.certificate then
      .error "CA certificate is invalid or does not match its generation"
    else
      match validateLifecycle current now requireCurrentValid record with
      | .error message => .error message
      | .ok () =>
        validateRecords authority current now requireCurrentValid (record.generation :: seen) records

/-- Authenticate a durable state. -/
def validateState (authority : Authority) (state : CaState) (now : Int)
    (requireCurrentValid : Bool) : Except String Unit :=
  if state.version ≠ 1 ∨ state.current = 0 ∨ state.certs.isEmpty ∨ 2 < state.certs.length then
    .error "CA state schema is invalid"
  else
    match validateRecords authority state.current now requireCurrentValid [] state.certs with
    | .error message => .error message
    | .ok () =>
      if state.certs.any (·.generation = state.current) then .ok ()
      else .error "current CA generation is missing"

/-! ## Rotating -/

/-- The trust bundle: every retained certificate. -/
def bundleForState (state : CaState) : List Certificate :=
  state.certs.map Record.certificate

/-- Whether a previous generation is past its overlap window. -/
def prunable (current : Nat) (now : Int) (record : Record) : Bool :=
  record.generation ≠ current &&
    record.retiredAt.any fun retired ↦ !decide (now < retired + (retention + clockSkew))

def pruneState (state : CaState) (now : Int) : CaState :=
  { state with certs := state.certs.filter fun record ↦ !prunable state.current now record }

def currentRecord (state : CaState) : Option Record :=
  state.certs.find? (·.generation = state.current)

def pendingRecord (state : CaState) : Option Record :=
  state.certs.find? (·.activateAt.isSome)

/-- Make a pending generation current and retire the prior issuer. -/
def promoteState (state : CaState) (pending : Record) (now : Int) : CaState where
  version := state.version
  current := pending.generation
  certs := state.certs.map fun record ↦
    if record.generation = state.current then { record with retiredAt := some now }
    else if record.generation = pending.generation then
      { record with publishedAt := none, activateAt := none }
    else record

/-- How publishing the trust bundle ends, and what is found published; none when it is absent. -/
structure Publication where
  publish : Except String Unit
  read : Except String (Option (List Certificate))

/-- What one attempt meets: its time, how reading the state and creating a certificate end, the
publication if one is configured, and whether its write takes effect, whatever is reported. -/
structure Attempt where
  now : Int
  read : Except String Unit
  create : Except String Unit
  publication : Option Publication
  written : Bool

def publicationReady (attempt : Attempt) (state : CaState) : Except String Bool :=
  match attempt.publication with
  | none => .ok true
  | some publication =>
    match publication.read with
    | .error message => .error ("load published CA bundle: " ++ message)
    | .ok none => .ok false
    | .ok (some published) => .ok (published = bundleForState state)

def publishBundle (attempt : Attempt) : Except String Unit :=
  match attempt.publication with
  | none => .ok ()
  | some publication => publication.publish

/-- A new generation that waits to become active. -/
def nextRecord (authority : Authority) (current : Record) (now : Int) : Record :=
  let record := newRecord authority (current.generation + 1) now
  { record with activateAt := some (record.certificate.notBefore + (clockSkew + activationLag)) }

/-- Whether a pending generation cannot take over from an expired one. -/
def unusable (pending : Option Record) (now : Int) : Bool :=
  match pending with
  | none => true
  | some record => decide (now < record.certificate.notBefore) || !decide (now < record.certificate.notAfter)

/-- The current generation has expired: replace it, with a new one unless the pending one is usable. -/
def recoverState (authority : Authority) (attempt : Attempt) (changed : Bool) (state : CaState)
    (current : Record) : Except String (Option CaState) := do
  let fresh := unusable (pendingRecord state) attempt.now
  (if fresh then attempt.create else .ok () : Except String Unit)
  let pending := if fresh then nextRecord authority current attempt.now
    else (pendingRecord state).getD (nextRecord authority current attempt.now)
  let state := if fresh then { state with certs := [current, pending] } else state
  publishBundle attempt
  let ready ← publicationReady attempt state
  if ready then .ok (some (promoteState state pending attempt.now))
  else .ok (if changed || fresh then some state else none)

/-- Record that the trust bundle with the pending generation was found published. -/
def markPublished (state : CaState) (pending : Record) (now : Int) : CaState :=
  { state with certs := state.certs.map fun record ↦
      if record.generation = pending.generation then
        { record with publishedAt := some now, activateAt := some (now + activationLag) }
      else record }

/-- A generation is pending: promote it once it is published and its time has come. -/
def advanceState (attempt : Attempt) (changed : Bool) (state : CaState) (pending : Record) :
    Except String (Option CaState) := do
  let ready ← publicationReady attempt state
  let marks := attempt.publication.isSome && ready && pending.publishedAt.isNone
  let state := if marks then markPublished state pending attempt.now else state
  let activate := if marks then attempt.now + activationLag else pending.activateAt.getD 0
  if ready && decide (activate ≤ attempt.now) then .ok (some (promoteState state pending attempt.now))
  else .ok (if changed || marks then some state else none)

/-- Whether the current generation is due for a successor. -/
def renewalDue (current : Record) (now : Int) : Bool :=
  !decide (now + retention < current.certificate.notAfter)

/-- What one attempt of `Ensure` makes of a stored state; none when nothing changed. -/
def rotateState (authority : Authority) (attempt : Attempt) (stored : CaState) :
    Except String (Option CaState) := do
  validateState authority stored attempt.now false
  let state := pruneState stored attempt.now
  let changed := state.certs.length ≠ stored.certs.length
  match currentRecord state with
  | none => .error "current CA generation is missing"
  | some current =>
    if !decide (attempt.now < current.certificate.notAfter) then
      recoverState authority attempt changed state current
    else
      match pendingRecord state with
      | some pending => advanceState attempt changed state pending
      | none =>
        if renewalDue current attempt.now then
          attempt.create
          .ok (some { state with
            certs := state.certs ++ [nextRecord authority current attempt.now] })
        else .ok (if changed then some state else none)

/-- The state one attempt of `Ensure` tries to write. -/
def ensure (authority : Authority) (attempt : Attempt) (stored : Option CaState) :
    Except String (Option CaState) := do
  attempt.read
  match stored with
  | none =>
    attempt.create
    .ok (some ⟨1, 1, [newRecord authority 1 attempt.now]⟩)
  | some state => rotateState authority attempt state

/-! ## Installing and issuing -/

/-- What `Sync` has installed on an agent; the trust bundle is that of the state. -/
structure Synced where
  ca : Record
  state : CaState
  revision : Nat
  deriving DecidableEq, Repr

/-- Validate and install the stored state; the revision counts the states installed so far. -/
def sync (authority : Authority) (stored : Option CaState) (held : Option Synced) (now : Int) :
    Except String Synced := do
  match stored with
  | none => .error "load CA state: not found"
  | some state =>
    validateState authority state now true
    match currentRecord state with
    | none => .error "current CA generation is missing"
    | some ca =>
      let revision := (held.map Synced.revision).getD 0
      .ok ⟨ca, state, if held.map Synced.state = some state then revision else revision + 1⟩

/-- A leaf certificate: the CA generation it was issued from, and its validity. -/
structure Leaf where
  issuer : Record
  notBefore : Int
  notAfter : Int
  deriving DecidableEq, Repr

/-- Issue a leaf that does not outlive the CA. -/
def issue (held : Option Synced) (now : Int) : Except String Leaf :=
  match held with
  | none => .error "CA state has not been synchronized"
  | some synced =>
    if now < synced.ca.certificate.notBefore ∨ ¬now < synced.ca.certificate.notAfter then
      .error "current CA is not currently valid"
    else
      let notAfter := if synced.ca.certificate.notAfter < now + 24 * hour
        then synced.ca.certificate.notAfter else now + 24 * hour
      if ¬now < notAfter then .error "leaf certificate validity is nonpositive"
      else .ok ⟨synced.ca, truncate (now - 5 * minute), truncate notAfter⟩

end Podmin.Agent.Workload
