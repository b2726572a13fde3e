import Podmin.Cli.Deploy

/-!
# Deployment commits are serializable

Every index body is the marshalled result of one mutation applied to the index it replaced, and a
conditional write only replaces the index its mutation was computed from. Payloads are uploaded
before the index that names them and are never replaced, so every path of every index resolves.
-/

namespace Podmin.Cli.Deploy

open Foundation CasRegister Transition Manifest

variable {objects : GoMap String (List UInt8)} {key : String} {body : List UInt8}

variable {Id Tag : Type*}

/-! ## Commits -/

/-- The commit writes its mutation of the body it replaces. -/
def Applies (base : Option Body) (commit : Commit Id) : Prop :=
  mutateIndex commit.mutation base = .ok commit.body

/-- Each commit applies to the body of the one before it. -/
def Sequential (commits : List (Commit Id)) : Prop :=
  Lawful (Applies none) (fun previous commit ↦ Applies (some previous.body) commit) commits

/-- The index after a sequence of mutations, the newest first, of the empty index. -/
def replay (mutations : List Mutation) : Index :=
  mutations.foldr Mutation.apply ∅

/-- A mutation decides the entry at its key and keeps the others. -/
theorem Mutation.lookup_apply (mutation : Mutation) (index : Index) (key : String) :
    (mutation.apply index).lookup key = if key = mutation.key then mutation.entry else index.lookup key := by
  cases mutation with
  | set changed deployment => exact GoMap.lookup_insert_eq ..
  | remove changed => exact GoMap.lookup_erase_eq ..

theorem Mutation.apply_congr (mutation : Mutation) {left right : Index}
    (hsame : ∀ key, left.lookup key = right.lookup key) (key : String) :
    (mutation.apply left).lookup key = (mutation.apply right).lookup key := by
  simp only [lookup_apply, hsame]

/-- A committed body parses, to the mutation of the index it replaced. -/
theorem Applies.parse {base : Option Body} {commit : Commit Id} (happlies : Applies base commit) :
    ∃ before after, readIndex base = .ok before ∧ parseIndex commit.body = .ok after ∧
      ValidIndex after ∧ ∀ key, after.lookup key = (commit.mutation.apply before).lookup key := by
  unfold Applies mutateIndex at happlies
  cases hread : readIndex base with
  | error message => simp [hread, bind, Except.bind] at happlies
  | ok before =>
    simp only [hread, bind, Except.bind] at happlies
    obtain ⟨hvalid, after, hparse, hlookup⟩ := marshalIndex_eq_ok happlies
    exact ⟨before, after, rfl, hparse, hvalid.congr hlookup, hlookup⟩

variable {commits : List (Commit Id)}

theorem Sequential.of_cons {commit : Commit Id} (hsequential : Sequential (commit :: commits)) :
    Applies (commits.head?.map Commit.body) commit ∧ Sequential commits := by
  refine ⟨?_, hsequential.2⟩
  have hfollows := hsequential.1
  cases hhead : commits.head? with
  | none => simpa [hhead, Follows] using hfollows
  | some previous => simpa [hhead, Follows] using hfollows

theorem Sequential.cons {commit : Commit Id} {commits : List (Commit Id)}
    (hsequential : Sequential commits) (happlies : Applies (commits.head?.map Commit.body) commit) :
    Sequential (commit :: commits) := by
  refine ⟨?_, hsequential⟩
  cases hhead : commits.head? with
  | none => simpa [hhead, Follows] using happlies
  | some previous => simpa [hhead, Follows] using happlies

/-- Reading the object after a sequence of commits gives the replayed index. -/
theorem Sequential.readIndex (hsequential : Sequential commits) :
    ∃ index, readIndex (commits.head?.map Commit.body) = .ok index ∧ ValidIndex index ∧
      ∀ key, index.lookup key = (replay (commits.map Commit.mutation)).lookup key := by
  induction commits with
  | nil =>
    refine ⟨∅, rfl, ⟨?_, ?_⟩, fun key ↦ rfl⟩
    · intro key deployment hlookup
      simp at hlookup
    · intro left right first second identity hleft
      simp at hleft
  | cons commit commits ih =>
    obtain ⟨happlies, hrest⟩ := hsequential.of_cons
    obtain ⟨index, hread, _, hindex⟩ := ih hrest
    obtain ⟨before, after, hbefore, hparse, hvalid, hlookup⟩ := happlies.parse
    have heq : before = index := Except.ok.inj (hbefore.symm.trans hread)
    subst heq
    refine ⟨after, hparse, hvalid, fun key ↦ ?_⟩
    rw [hlookup, List.map_cons, replay, List.foldr_cons]
    exact commit.mutation.apply_congr hindex key

/-! ## Payloads -/

/-- The path names a stored object with the digest in the path. -/
def Stored (objects : GoMap String (List UInt8)) (path : String) : Prop :=
  ∃ body, objects.lookup path = some body ∧ verify path body = true

/-- Every path of an entry is stored. -/
def StoredEntry (objects : GoMap String (List UInt8)) (deployment : IndexDeployment) : Prop :=
  Stored objects deployment.pod ∧ (deployment.service ≠ "" → Stored objects deployment.service)

def StoredMutation (objects : GoMap String (List UInt8)) : Mutation → Prop
  | .set _ deployment => StoredEntry objects deployment
  | .remove _ => True

/-- Every object is stored under its own digest. -/
def Verified (objects : GoMap String (List UInt8)) : Prop :=
  ∀ key body, objects.lookup key = some body → verify key body = true

theorem lookup_create {other : String} {stored : List UInt8} :
    (create objects key body).lookup other = some stored ↔
      objects.lookup other = some stored ∨
        (objects.lookup key = none ∧ other = key ∧ stored = body) := by
  unfold create
  cases hkey : objects.lookup key with
  | some existing => simp
  | none =>
    simp only [GoMap.lookup_insert_eq]
    by_cases heq : other = key
    · subst heq
      simp [hkey, eq_comm]
    · simp [heq]

theorem Stored.create {path : String} (hstored : Stored objects path) (key : String) (body : List UInt8) :
    Stored (create objects key body) path := by
  obtain ⟨stored, hlookup, hverify⟩ := hstored
  exact ⟨stored, lookup_create.mpr (.inl hlookup), hverify⟩

variable {deployment : IndexDeployment}

theorem StoredEntry.create (hstored : StoredEntry objects deployment) (key : String) (body : List UInt8) :
    StoredEntry (create objects key body) deployment :=
  ⟨hstored.1.create key body, fun hservice ↦ (hstored.2 hservice).create key body⟩

theorem StoredMutation.create {mutation : Mutation} (hstored : StoredMutation objects mutation) (key : String)
    (body : List UInt8) :
    StoredMutation (create objects key body) mutation := by
  cases mutation with
  | set changed deployment => exact StoredEntry.create hstored key body
  | remove changed => trivial

theorem Verified.create (hverified : Verified objects) (hbody : verify key body = true) :
    Verified (create objects key body) := by
  intro other stored hlookup
  rcases lookup_create.mp hlookup with hold | ⟨_, rfl, rfl⟩
  · exact hverified other stored hold
  · exact hbody

theorem Verified.stored_create (hverified : Verified objects) (hbody : verify key body = true) :
    Stored (Deploy.create objects key body) key := by
  cases hkey : objects.lookup key with
  | some existing => exact ⟨existing, lookup_create.mpr (.inl hkey), hverified key existing hkey⟩
  | none => exact ⟨body, lookup_create.mpr (.inr ⟨hkey, rfl, rfl⟩), hbody⟩

/-- The payloads of a call are uploaded under their digests. -/
theorem Call.verify_payloads {call : Call} (hpayload : (key, body) ∈ call.payloads) :
    verify key body = true := by
  cases call with
  | delete nodeGroup name => simp [Call.payloads] at hpayload
  | apply nodeGroup name deployment =>
    obtain ⟨pod, service⟩ := deployment
    rcases List.mem_cons.mp hpayload with heq | hservice
    · cases heq
      exact verify_podKey nodeGroup pod
    · cases service with
      | none => simp at hservice
      | some declared =>
        obtain ⟨service, yaml⟩ := declared
        have hpair := Prod.mk.inj (List.mem_singleton.mp hservice)
        rw [hpair.1, hpair.2]
        exact verify_serviceKey service yaml

/-- Once the payloads of a call are stored, so are the paths it commits. -/
theorem Call.storedMutation {call : Call} (hstored : ∀ payload ∈ call.payloads, Stored objects payload.1) :
    StoredMutation objects call.mutation := by
  cases call with
  | delete nodeGroup name => trivial
  | apply nodeGroup name deployment =>
    obtain ⟨pod, service⟩ := deployment
    refine ⟨hstored _ List.mem_cons_self, fun hservice ↦ ?_⟩
    cases service with
    | none => simp [indexDeployment] at hservice
    | some declared => exact hstored _ (.tail _ List.mem_cons_self)

/-- Replaying stored mutations gives an index of stored entries. -/
theorem storedEntry_replay {mutations : List Mutation}
    (hstored : ∀ mutation ∈ mutations, StoredMutation objects mutation)
    (hlookup : (replay mutations).lookup key = some deployment) :
    StoredEntry objects deployment := by
  induction mutations with
  | nil => simp [replay] at hlookup
  | cons mutation mutations ih =>
    have hrest := ih fun other hother ↦ hstored other (.tail _ hother)
    have hfirst := hstored mutation List.mem_cons_self
    rw [replay, List.foldr_cons, Mutation.lookup_apply] at hlookup
    split at hlookup
    · cases mutation with
      | set changed stored =>
        cases hlookup
        exact hfirst
      | remove changed => exact nomatch hlookup
    · exact hrest hlookup

/-! ## The invariant -/

/-- What a client knows about its current call: the payloads it has passed are stored, and a write in
flight was computed from the body its version names. -/
def ClientInvariant (tagging : Tagging Body Tag) (objects : GoMap String (List UInt8))
    (client : Client Tag) : Prop :=
  match client.task with
  | .idle => True
  | .upload call remaining =>
    (∀ payload ∈ remaining, payload ∈ call.payloads) ∧
      ∀ payload ∈ call.payloads, payload ∈ remaining ∨ Stored objects payload.1
  | .getIndex call _ => ∀ payload ∈ call.payloads, Stored objects payload.1
  | .putIndex call _ body version =>
    (∀ payload ∈ call.payloads, Stored objects payload.1) ∧
      ∃ base, version = base.map tagging.tag ∧ mutateIndex call.mutation base = .ok body

variable {tagging : Tagging Body Tag} {client : Client Tag}

theorem ClientInvariant.create (hclient : ClientInvariant tagging objects client) (key : String)
    (body : List UInt8) :
    ClientInvariant tagging (create objects key body) client := by
  rw [ClientInvariant] at hclient ⊢
  cases hcase : client.task with
  | idle => trivial
  | upload call remaining =>
    rw [hcase] at hclient
    exact ⟨hclient.1, fun payload hpayload ↦
      (hclient.2 payload hpayload).imp_right fun hstored ↦ hstored.create key body⟩
  | getIndex call attempts =>
    rw [hcase] at hclient
    exact fun payload hpayload ↦ (hclient payload hpayload).create key body
  | putIndex call attempts written version =>
    rw [hcase] at hclient
    exact ⟨fun payload hpayload ↦ (hclient.1 payload hpayload).create key body, hclient.2⟩

structure Invariant (tagging : Tagging Body Tag) (state : State Id Tag) : Prop where
  sequential : Sequential state.commits
  stored : ∀ commit ∈ state.commits, StoredMutation state.objects commit.mutation
  requested : ∀ version commit, (version, commit) ∈ state.requestedCommits →
    (∃ base, version = base.map tagging.tag ∧ Applies base commit) ∧
      StoredMutation state.objects commit.mutation
  verified : Verified state.objects
  requestedObjects : ∀ key body, (key, body) ∈ state.requestedObjects → verify key body = true
  clients : ∀ id, ClientInvariant tagging state.objects (state.clients id)

variable {state : State Id Tag}

theorem Invariant.create (hinv : Invariant tagging state) (hbody : verify key body = true) :
    Invariant tagging { state with objects := create state.objects key body } where
  sequential := hinv.sequential
  stored commit hcommit := (hinv.stored commit hcommit).create key body
  requested version commit hmem :=
    ⟨(hinv.requested version commit hmem).1, (hinv.requested version commit hmem).2.create key body⟩
  verified := hinv.verified.create hbody
  requestedObjects := hinv.requestedObjects
  clients id := (hinv.clients id).create key body

/-- An admitted write of a mutation of the body its version names extends the sequence. -/
theorem Invariant.commit (hinv : Invariant tagging state) {version : Option Tag} {commit : Commit Id}
    (hbase : ∃ base, version = base.map tagging.tag ∧ Applies base commit)
    (hstored : StoredMutation state.objects commit.mutation)
    (hadmits : Admits tagging (state.commits.map Commit.body) version) :
    Invariant tagging { state with commits := commit :: state.commits } where
  sequential := by
    obtain ⟨base, rfl, happlies⟩ := hbase
    have hhead : (state.commits.map Commit.body).head? = base := hadmits.head?_eq
    rw [List.head?_map] at hhead
    exact hinv.sequential.cons (hhead ▸ happlies)
  stored other hother := by
    rcases List.mem_cons.mp hother with rfl | hother
    · exact hstored
    · exact hinv.stored other hother
  requested := hinv.requested
  verified := hinv.verified
  requestedObjects := hinv.requestedObjects
  clients := hinv.clients

theorem Invariant.setClient [DecidableEq Id] (hinv : Invariant tagging state) {id : Id}
    (hclient : ClientInvariant tagging state.objects client) :
    Invariant tagging (state.setClient id client) where
  sequential := hinv.sequential
  stored := hinv.stored
  requested := hinv.requested
  verified := hinv.verified
  requestedObjects := hinv.requestedObjects
  clients other := by
    by_cases heq : other = id
    · subst heq
      simpa [State.setClient] using hclient
    · simpa [State.setClient, heq] using hinv.clients other

/-- A payload write that may still take effect carries its digest in its key. -/
theorem Invariant.requestObject (hinv : Invariant tagging state) (hbody : verify key body = true) :
    Invariant tagging { state with requestedObjects := (key, body) :: state.requestedObjects } where
  sequential := hinv.sequential
  stored := hinv.stored
  requested := hinv.requested
  verified := hinv.verified
  requestedObjects other stored hmem := by
    rcases List.mem_cons.mp hmem with heq | hmem
    · cases heq
      exact hbody
    · exact hinv.requestedObjects other stored hmem
  clients := hinv.clients

theorem Invariant.requestCommit (hinv : Invariant tagging state) {version : Option Tag} {commit : Commit Id}
    (hbase : ∃ base, version = base.map tagging.tag ∧ Applies base commit)
    (hstored : StoredMutation state.objects commit.mutation) :
    Invariant tagging { state with requestedCommits := (version, commit) :: state.requestedCommits } where
  sequential := hinv.sequential
  stored := hinv.stored
  requested other written hmem := by
    rcases List.mem_cons.mp hmem with heq | hmem
    · cases heq
      exact ⟨hbase, hstored⟩
    · exact hinv.requested other written hmem
  verified := hinv.verified
  requestedObjects := hinv.requestedObjects
  clients := hinv.clients

theorem Invariant.atTask (hinv : Invariant tagging state) {id : Id} {task : Task Tag}
    (htask : (state.clients id).task = task) :
    ClientInvariant tagging state.objects { state.clients id with task } :=
  htask ▸ hinv.clients id

theorem Step.invariant [DecidableEq Id] {tagging : Tagging Body Tag} {state next : State Id Tag}
    {event : Event} (hinv : Invariant tagging state) (hstep : Step tagging state event next) :
    Invariant tagging next := by
  cases hstep with
  | start id call htask =>
    apply hinv.setClient
    unfold Client.start ClientInvariant
    cases hvalid : call.valid with
    | false => simp
    | true => simpa using fun payload body hpayload ↦ .inl hpayload
  | uploaded id htask =>
    rename_i call key body remaining
    obtain ⟨hremaining, hpassed⟩ := hinv.atTask htask
    have hbody : verify key body = true := Call.verify_payloads (hremaining _ List.mem_cons_self)
    apply (hinv.create hbody).setClient
    refine ⟨fun payload hpayload ↦ hremaining payload (.tail _ hpayload), fun payload hpayload ↦ ?_⟩
    rcases hpassed payload hpayload with hmem | hstored
    · rcases List.mem_cons.mp hmem with rfl | hmem
      · exact .inr (hinv.verified.stored_create hbody)
      · exact .inl hmem
    · exact .inr (hstored.create key body)
  | uploadFailed id htask message =>
    have hbody := Call.verify_payloads ((hinv.atTask htask).1 _ List.mem_cons_self)
    exact (hinv.requestObject hbody).setClient trivial
  | uploadsDone id htask =>
    have hclient := hinv.atTask htask
    apply hinv.setClient
    intro payload hpayload
    exact (hclient.2 payload hpayload).resolve_left (by simp)
  | read id htask hbody =>
    rename_i call attempts body
    have hstored := hinv.atTask htask
    have happlies : Applies (state.commits.head?.map Commit.body) (commitOf state id call body) := hbody
    have hrequested := hinv.requestCommit ⟨_, rfl, happlies⟩ (Call.storedMutation hstored)
    exact hrequested.setClient ⟨hstored, _, rfl, hbody⟩
  | readFailed id htask message => exact hinv.setClient trivial
  | committed id htask hadmits =>
    rename_i call attempts body version
    obtain ⟨hstored, hbase⟩ := hinv.atTask htask
    have happlies : ∃ base, version = base.map tagging.tag ∧
        Applies base (commitOf state id call body) := hbase
    exact (hinv.commit happlies (Call.storedMutation hstored) hadmits).setClient trivial
  | conflicted id htask =>
    have hclient := hinv.atTask htask
    apply hinv.setClient
    split
    · exact hclient.1
    · trivial
  | commitFailed id htask message => exact hinv.setClient trivial
  | abandoned id => exact hinv.setClient trivial
  | landedCommit hrequested hadmits =>
    obtain ⟨hbase, hstored⟩ := hinv.requested _ _ hrequested
    exact hinv.commit hbase hstored hadmits
  | landedObject hrequested => exact hinv.create (hinv.requestedObjects _ _ hrequested)

theorem invariant_of_reachable [DecidableEq Id] (hreach : Reachable (system tagging) state) :
    Invariant tagging state := by
  refine Reachable.invariant ?_ ?_ hreach
  · rintro state rfl
    refine ⟨trivial, by simp, by simp, ?_, by simp, fun _ ↦ trivial⟩
    intro key body hlookup
    simp at hlookup
  · intro state event next _ hinv hstep
    exact Step.invariant hinv hstep

/-! ## What a call returned -/

/-- The serial of the call whose outcome is still open: the current one, or the next one. -/
def Client.openSerial (client : Client Tag) : Nat :=
  match client.task with
  | .idle => client.serial + 1
  | _ => client.serial

/-- What a reported step does to the client that takes it and to the commits: it returns nothing,
returns an error, or commits and returns nil. -/
inductive Effect (commits : List (Commit Id)) (id : Id) (client : Client Tag) :
    List (Commit Id) → Client Tag → Prop
  | silent {after : Client Tag} (hreturned : after.returned = client.returned)
      (hserial : client.openSerial ≤ after.openSerial) : Effect commits id client commits after
  | failed {after : Client Tag} (call : Call) (message : String)
      (hreturned : after.returned = ⟨client.openSerial, call, .error message⟩ :: client.returned)
      (hserial : after.openSerial = client.openSerial + 1) : Effect commits id client commits after
  | committed {after : Client Tag} {commit : Commit Id} (call : Call) (hid : commit.client = id)
      (hcommit : commit.serial = client.openSerial) (hmutation : commit.mutation = call.mutation)
      (hreturned : after.returned = ⟨client.openSerial, call, .ok ()⟩ :: client.returned)
      (hserial : after.openSerial = client.openSerial + 1) :
      Effect commits id client (commit :: commits) after

theorem Effect.finish_error (commits : List (Commit Id)) (id : Id) (htask : client.openSerial = client.serial)
    (call : Call) (message : String) :
    Effect commits id client commits (client.finish call (.error message)) :=
  .failed call message (by simp [Client.finish, htask]) (by rw [htask]; rfl)

variable {next : State Id Tag}

/-- A reported step touches one client. -/
theorem Step.effect [DecidableEq Id] (hstep : Step tagging state .reported next) :
    ∃ id after, next.clients = Function.update state.clients id after ∧
      Effect state.commits id (state.clients id) next.commits after := by
  cases hstep with
  | start id call htask =>
    refine ⟨id, _, rfl, ?_⟩
    have hopen : (state.clients id).openSerial = (state.clients id).serial + 1 := by
      rw [Client.openSerial, htask]
    cases hvalid : call.valid with
    | true =>
      refine .silent (by simp [Client.start, hvalid]) ?_
      simp [Client.start, Client.openSerial, hvalid, htask]
    | false =>
      refine .failed call "invalid deployment name or nodegroup ID" ?_ ?_
      · simp [Client.start, hvalid, hopen]
      · simp [Client.start, Client.openSerial, hvalid, htask]
  | uploaded id htask =>
    exact ⟨id, _, rfl, .silent rfl (by simp [Client.openSerial, htask])⟩
  | uploadFailed id htask message =>
    exact ⟨id, _, rfl, .finish_error _ _ (by simp [Client.openSerial, htask]) _ message⟩
  | uploadsDone id htask =>
    exact ⟨id, _, rfl, .silent rfl (by simp [Client.openSerial, htask])⟩
  | read id htask hbody =>
    exact ⟨id, _, rfl, .silent rfl (by simp [Client.openSerial, htask])⟩
  | readFailed id htask message =>
    exact ⟨id, _, rfl, .finish_error _ _ (by simp [Client.openSerial, htask]) _ message⟩
  | committed id htask hadmits =>
    have hopen : (state.clients id).openSerial = (state.clients id).serial := by
      simp [Client.openSerial, htask]
    refine ⟨id, _, rfl, .committed _ rfl hopen.symm rfl ?_ ?_⟩
    · simp [Client.finish, hopen]
    · rw [hopen]
      rfl
  | conflicted id htask =>
    refine ⟨id, _, rfl, ?_⟩
    split
    · exact .silent rfl (by simp [Client.openSerial, htask])
    · exact .finish_error _ _ (by simp [Client.openSerial, htask]) _ _
  | commitFailed id htask message =>
    exact ⟨id, _, rfl, .finish_error _ _ (by simp [Client.openSerial, htask]) _ message⟩
  | abandoned id =>
    refine ⟨id, _, rfl, .silent rfl ?_⟩
    unfold Client.openSerial
    dsimp only
    split <;> omega

/-- Every call that returned nil has a commit of its mutation. -/
def Recorded (commits : List (Commit Id)) (id : Id) (client : Client Tag) : Prop :=
  ∀ serial call, ⟨serial, call, .ok ()⟩ ∈ client.returned →
    ∃ commit ∈ commits, commit.client = id ∧ commit.serial = serial ∧ commit.mutation = call.mutation

variable {after : Client Tag}

theorem Recorded.effect {later : List (Commit Id)} {id : Id} (hrecorded : Recorded commits id client)
    (heffect : Effect commits id client later after) :
    Recorded later id after := by
  intro serial call hmem
  cases heffect with
  | silent hreturned hserial => exact hrecorded serial call (hreturned ▸ hmem)
  | failed _ message hreturned hserial =>
    rw [hreturned] at hmem
    exact hrecorded serial call (by simpa using hmem)
  | committed _ hid hcommit hmutation hreturned hserial =>
    rw [hreturned] at hmem
    rcases List.mem_cons.mp hmem with heq | hmem
    · cases heq
      exact ⟨_, List.mem_cons_self, hid, hcommit, hmutation⟩
    · obtain ⟨commit, hcommitted, hsame⟩ := hrecorded serial call hmem
      exact ⟨commit, .tail _ hcommitted, hsame⟩

theorem Recorded.mono {id : Id} (hrecorded : Recorded commits id client) (commit : Commit Id) :
    Recorded (commit :: commits) id client := by
  intro serial call hmem
  obtain ⟨earlier, hcommitted, hsame⟩ := hrecorded serial call hmem
  exact ⟨earlier, .tail _ hcommitted, hsame⟩

theorem Effect.later {later : List (Commit Id)} {id : Id} (heffect : Effect commits id client later after) :
    later = commits ∨ ∃ commit, later = commit :: commits ∧ commit.client = id := by
  cases heffect with
  | silent hreturned hserial => exact .inl rfl
  | failed _ message hreturned hserial => exact .inl rfl
  | committed _ hid hcommit hmutation hreturned hserial => exact .inr ⟨_, rfl, hid⟩

/-- What the effect on one client and the commits of others keep, a reported step keeps. -/
theorem Step.each [DecidableEq Id] {holds : List (Commit Id) → Id → Client Tag → Prop}
    (heffect : ∀ {commits later id client after}, holds commits id client →
      Effect commits id client later after → holds later id after)
    (hother : ∀ {commits id client commit}, holds commits id client → commit.client ≠ id →
      holds (commit :: commits) id client)
    (hstep : Step tagging state .reported next) (hholds : ∀ id, holds state.commits id (state.clients id)) :
    ∀ id, holds next.commits id (next.clients id) := by
  intro other
  obtain ⟨id, after, hclients, hafter⟩ := hstep.effect
  rw [hclients]
  by_cases heq : other = id
  · subst heq
    rw [Function.update_self]
    exact heffect (hholds other) hafter
  · rw [Function.update_of_ne heq]
    rcases hafter.later with hsame | ⟨commit, hlater, hid⟩
    · rw [hsame]
      exact hholds other
    · rw [hlater]
      exact hother (hholds other) fun hsame ↦ heq (hsame.symm.trans hid)

theorem Step.recorded [DecidableEq Id] {event : Event}
    (hrecorded : ∀ id, Recorded state.commits id (state.clients id)) (hstep : Step tagging state event next) :
    ∀ id, Recorded next.commits id (next.clients id) := by
  cases event with
  | unreported =>
    cases hstep with
    | landedCommit hrequested hadmits => exact fun other ↦ (hrecorded other).mono _
    | landedObject hrequested => exact hrecorded
  | reported => exact hstep.each Recorded.effect (fun hclient _ ↦ hclient.mono _) hrecorded

/-- With truthful reports a call that returned an error has no commit: the commits and results of a
client belong to calls before the open one. -/
structure Settled (commits : List (Commit Id)) (id : Id) (client : Client Tag) : Prop where
  committed : ∀ commit ∈ commits, commit.client = id → commit.serial < client.openSerial
  returned : ∀ entry ∈ client.returned, entry.serial < client.openSerial
  failed : ∀ serial call message, ⟨serial, call, .error message⟩ ∈ client.returned →
    ∀ commit ∈ commits, commit.client = id → commit.serial ≠ serial

theorem Settled.effect {later : List (Commit Id)} {id : Id} (hsettled : Settled commits id client)
    (heffect : Effect commits id client later after) :
    Settled later id after := by
  obtain ⟨hcommitted, hreturned, hfailed⟩ := hsettled
  cases heffect with
  | silent hsame hserial =>
    rw [← hsame] at hreturned hfailed
    exact ⟨fun commit hmem hid ↦ (hcommitted commit hmem hid).trans_le hserial,
      fun entry hmem ↦ (hreturned entry hmem).trans_le hserial, hfailed⟩
  | failed _ message hsame hserial =>
    refine ⟨fun commit hmem hid ↦ ?_, fun entry hmem ↦ ?_, fun serial call text hmem commit hin hid ↦ ?_⟩
    · exact hserial ▸ (hcommitted commit hmem hid).trans (Nat.lt_succ_self _)
    · rw [hsame] at hmem
      rw [hserial]
      rcases List.mem_cons.mp hmem with rfl | hmem
      · exact Nat.lt_succ_self _
      · exact (hreturned entry hmem).trans (Nat.lt_succ_self _)
    · rw [hsame] at hmem
      rcases List.mem_cons.mp hmem with heq | hmem
      · cases heq
        exact (hcommitted commit hin hid).ne
      · exact hfailed serial call text hmem commit hin hid
  | committed _ hid hcommit _ hsame hserial =>
    refine ⟨fun commit hmem howner ↦ ?_, fun entry hmem ↦ ?_,
      fun serial call text hmem commit hin howner ↦ ?_⟩
    · rw [hserial]
      rcases List.mem_cons.mp hmem with rfl | hmem
      · exact hcommit ▸ Nat.lt_succ_self _
      · exact (hcommitted commit hmem howner).trans (Nat.lt_succ_self _)
    · rw [hsame] at hmem
      rw [hserial]
      rcases List.mem_cons.mp hmem with rfl | hmem
      · exact Nat.lt_succ_self _
      · exact (hreturned entry hmem).trans (Nat.lt_succ_self _)
    · have hmem : ⟨serial, call, .error text⟩ ∈ client.returned := by
        rw [hsame] at hmem
        simpa using hmem
      rcases List.mem_cons.mp hin with rfl | hin
      · exact hcommit ▸ (hreturned _ hmem).ne'
      · exact hfailed serial call text hmem commit hin howner

theorem Settled.of_ne {id : Id} (hsettled : Settled commits id client) {commit : Commit Id}
    (hne : commit.client ≠ id) :
    Settled (commit :: commits) id client := by
  refine ⟨fun other hmem hid ↦ ?_, hsettled.returned, fun serial call message hfailed other hmem hid ↦ ?_⟩
  · rcases List.mem_cons.mp hmem with rfl | hmem
    · exact absurd hid hne
    · exact hsettled.committed other hmem hid
  · rcases List.mem_cons.mp hmem with rfl | hmem
    · exact absurd hid hne
    · exact hsettled.failed serial call message hfailed other hmem hid

/-! ## Whole runs -/

theorem recorded_of_reachable [DecidableEq Id] (hreach : Reachable (system tagging) state) :
    ∀ id, Recorded state.commits id (state.clients id) := by
  refine @Reachable.invariant _ _ _
    (fun state ↦ ∀ id, Recorded state.commits id (state.clients id)) ?_ ?_ _ hreach
  · rintro state rfl id serial call hmem
    simp at hmem
  · intro state event next _ hrecorded hstep
    exact Step.recorded hrecorded hstep

theorem settled_of_reachable [DecidableEq Id] (hreach : Reachable ((system tagging).guarded truthful) state) :
    ∀ id, Settled state.commits id (state.clients id) := by
  refine @Reachable.invariant _ _ _
    (fun state ↦ ∀ id, Settled state.commits id (state.clients id)) ?_ ?_ _ hreach
  · rintro state rfl id
    exact ⟨by simp, by simp, by simp⟩
  · rintro state event next _ hsettled ⟨rfl, hstep⟩
    exact Step.each Settled.effect (fun hclient hne ↦ hclient.of_ne hne) hstep hsettled

/-- The index object parses, is valid (so each Service identity has one owner) and names stored
payloads only. -/
def Resolves (objects : GoMap String (List UInt8)) (body : Body) : Prop :=
  ∃ index, parseIndex body = .ok index ∧ ValidIndex index ∧
    ∀ key deployment, index.lookup key = some deployment → StoredEntry objects deployment

theorem Sequential.of_suffix {earlier : List (Commit Id)} (hsequential : Sequential commits)
    (hsuffix : earlier <:+ commits) : Sequential earlier := by
  obtain ⟨later, rfl⟩ := hsuffix
  induction later with
  | nil => exact hsequential
  | cons commit later ih => exact ih hsequential.of_cons.2

/-- Commits are serializable: in every run the index object resolves, each write leaves the entry of its
mutation in the index it replaced and keeps the others, so that the index is what the writes so far make
of the empty one, a call that returned nil has a write of its mutation, and with truthful reports a call
that returned an error has none. -/
theorem commits_serializable [DecidableEq Id] (tagging : Tagging Body Tag) :
    (∀ state : State Id Tag, Reachable (system tagging) state →
      (∀ body, (state.commits.map Commit.body).head? = some body → Resolves state.objects body) ∧
      (∀ commits, commits <:+ state.commits →
        ∃ index, readIndex (commits.head?.map Commit.body) = .ok index ∧
          ∀ key, index.lookup key = (replay (commits.map Commit.mutation)).lookup key) ∧
      (∀ commit earlier, commit :: earlier <:+ state.commits →
        ∃ before after, readIndex (earlier.head?.map Commit.body) = .ok before ∧
          parseIndex commit.body = .ok after ∧ after.lookup commit.mutation.key = commit.mutation.entry ∧
            ∀ other, other ≠ commit.mutation.key → after.lookup other = before.lookup other) ∧
      ∀ id serial call, ⟨serial, call, .ok ()⟩ ∈ (state.clients id).returned →
        ∃ commit ∈ state.commits, commit.client = id ∧ commit.serial = serial ∧
          commit.mutation = call.mutation) ∧
    ∀ state : State Id Tag, Reachable ((system tagging).guarded truthful) state →
      ∀ id serial call message, ⟨serial, call, .error message⟩ ∈ (state.clients id).returned →
        ∀ commit ∈ state.commits, ¬(commit.client = id ∧ commit.serial = serial) := by
  refine ⟨fun state hreach ↦ ?_, fun state hreach id serial call message hfailed commit hcommit ↦ ?_⟩
  · have hinv := invariant_of_reachable hreach
    refine ⟨fun body hbody ↦ ?_, fun commits hsuffix ↦ ?_, fun commit earlier hsuffix ↦ ?_,
      recorded_of_reachable hreach⟩
    · obtain ⟨index, hread, hvalid, hindex⟩ := hinv.sequential.readIndex
      rw [← List.head?_map, hbody] at hread
      refine ⟨index, hread, hvalid, fun key deployment hlookup ↦ ?_⟩
      refine storedEntry_replay ?_ (hindex key ▸ hlookup)
      intro mutation hmutation
      obtain ⟨commit, hcommit, rfl⟩ := List.mem_map.mp hmutation
      exact hinv.stored commit hcommit
    · obtain ⟨index, hread, _, hindex⟩ := (hinv.sequential.of_suffix hsuffix).readIndex
      exact ⟨index, hread, hindex⟩
    · obtain ⟨before, after, hread, hparse, _, hlookup⟩ :=
        (hinv.sequential.of_suffix hsuffix).of_cons.1.parse
      simp only [Mutation.lookup_apply] at hlookup
      exact ⟨before, after, hread, hparse, (hlookup _).trans (if_pos rfl),
        fun other hother ↦ (hlookup other).trans (if_neg hother)⟩
  · rintro ⟨hid, hserial⟩
    exact (settled_of_reachable hreach id).failed serial call message hfailed commit hcommit hid hserial

/-! ## A first deployment -/

/-- The first commit of a Pod without a Service is marshalled. -/
theorem mutateIndex_absent {nodeGroup name : String} (hnodeGroup : validID nodeGroup = true)
    (hname : validID name = true) (pod : List UInt8) :
    ∃ body, mutateIndex (Call.apply nodeGroup name ⟨pod, none⟩).mutation none = .ok body := by
  have hentry : ValidEntry (deploymentKey nodeGroup name) (indexDeployment nodeGroup ⟨pod, none⟩) :=
    ⟨nodeGroup, name, deploymentIdentity_deploymentKey hnodeGroup hname,
      podObject_podKey hnodeGroup pod, fun hservice ↦ absurd rfl hservice⟩
  exact ⟨_, marshalIndex_of_valid hentry.single⟩

def contentTagging : Tagging Body Body :=
  ⟨id, Function.injective_id⟩

/-- A client is refused one call and commits the next. -/
theorem commits_serializable_first : ∃ state : State Unit Body,
    Reachable ((system contentTagging).guarded truthful) state ∧ state.commits.length = 1 ∧
      (state.clients ()).returned =
        [⟨2, .apply "workers" "web" ⟨[], none⟩, .ok ()⟩,
          ⟨1, .delete "" "web", .error "invalid deployment name or nodegroup ID"⟩] ∧
      (∀ body, (state.commits.map Commit.body).head? = some body → Resolves state.objects body) ∧
      (∃ commit ∈ state.commits, commit.client = () ∧ commit.serial = 2 ∧
        commit.mutation = (Call.apply "workers" "web" ⟨[], none⟩).mutation) ∧
      ∀ commit ∈ state.commits, ¬(commit.client = () ∧ commit.serial = 1) := by
  have hworkers : validID "workers" = true := by decide
  have hweb : validID "web" = true := by decide
  obtain ⟨body, hbody⟩ := mutateIndex_absent hworkers hweb []
  have hstart : Reachable ((system contentTagging).guarded truthful)
      (⟨[], ∅, [], [], fun _ ↦ {}⟩ : State Unit Body) := .init rfl
  have hrefused := Reachable.step hstart ⟨rfl, .start () (.delete "" "web") rfl⟩
  have hcalled := Reachable.step hrefused ⟨rfl, .start () (.apply "workers" "web" ⟨[], none⟩) rfl⟩
  have huploaded := Reachable.step hcalled ⟨rfl, .uploaded () rfl⟩
  have hdone := Reachable.step huploaded ⟨rfl, .uploadsDone () rfl⟩
  have hread := Reachable.step hdone ⟨rfl, .read () rfl hbody⟩
  have hcommitted := Reachable.step hread ⟨rfl, .committed () rfl rfl⟩
  have hserializable := @commits_serializable Unit Body _ contentTagging
  obtain ⟨hresolves, _, _, hrecorded⟩ := hserializable.1 _ hcommitted.of_guarded
  exact ⟨_, hcommitted, rfl, rfl, hresolves, hrecorded () 2 _ (.head _),
    hserializable.2 _ hcommitted () 1 _ _ (.tail _ (.head _))⟩

end Podmin.Cli.Deploy
