import Podmin.Agent.Coordinator.Isolation
import Podmin.Foundation.Rounds

/-!
# Rolling out new contracts

Nodes are registered with old contracts, and all their controllers have moved on to new ones. A
follower that sees its digest change closes its stream without another report, and reconnects every
second with its new contract; the leader repeats `registerLocal`. The end of a stream does not
withdraw a registration, so a `Hello` is refused as long as the old registration of another node
conflicts with it. Nodes whose contracts block each other in a circle wait for the lease to expire.
-/

namespace Podmin.Agent.Coordination

open Foundation Rounds Api Agent.Service

/-! ## The nodes and their turns -/

structure Contract where
  nodeGroup : String
  configDigest : String
  services : List Api.Service
  deriving DecidableEq, Repr

def ReceivedNode.contract (node : ReceivedNode) : Contract :=
  ⟨node.hello.nodeGroup, node.hello.configDigest, node.hello.services⟩

/-- A live node, with the contract it is registered with and the one it has changed to. -/
structure Member where
  id : String
  ipv6Prefix : String
  old : Contract
  new : Contract
  deriving DecidableEq, Repr

def Member.hello (member : Member) (cluster session : String) (contract : Contract) : Hello :=
  ⟨member.id, cluster, contract.nodeGroup, session, contract.configDigest, contract.services,
    member.ipv6Prefix⟩

/-- The old contract of one member excludes the new contract of the other. -/
def Blocks (blocker member : Member) : Prop :=
  (conflicts (blocker.hello "" "" blocker.old) (member.hello "" "" member.new)).isSome = true

instance : DecidableRel Blocks :=
  fun _ _ ↦ inferInstanceAs (Decidable (_ = true))

/-- What happens at the leader: a member connects with a new session and its new contract, or the
leader does so through `registerLocal`; or a state arrives for some session. -/
inductive Turn where
  | reconnect (member : Member) (now : Int) (session : String)
  | report (now : Int) (session : String) (sequence : Nat) (endpoints : List Endpoint)

def Turn.member : Turn → Option Member
  | .reconnect member _ _ => some member
  | .report _ _ _ _ => none

/-- `sendStates` returns instead of sending another digest than that of its `Hello`, so the states of
a session have the digest the session is registered with. -/
def sessionDigest (core : Coordinator) (session : String) : String :=
  (sessionNode core session).elim "" fun entry ↦ entry.2.hello.configDigest

/-- The message of a turn, as `handle` gets it. -/
def Turn.handled (config : Config) (core : Coordinator) : Turn → Except String Handled
  | .reconnect member now session =>
    handle config (some ⟨member.id, member.new.nodeGroup⟩) (decide (member.id = config.nodeId)) now
      (.hello (member.hello config.cluster session member.new)) core
  | .report now session sequence endpoints =>
    handle config none false now
      (.nodeState ⟨session, sequence, sessionDigest core session, endpoints⟩) core

/-- The registrations after a turn; a refused message changes nothing. -/
def Turn.run (config : Config) (core : Coordinator) (turn : Turn) : Coordinator :=
  match turn.handled config core with
  | .ok handled => handled.core core
  | .error _ => core

def runRound (config : Config) (core : Coordinator) (round : List Turn) : Coordinator :=
  round.foldl (Turn.run config) core

/-- Only members reconnect, with sessions that are not empty. -/
def Turn.Allowed (members : List Member) : Turn → Prop
  | .reconnect member _ session => member ∈ members ∧ session ≠ ""
  | .report _ _ _ _ => True

/-- A round: every member tries at least once. -/
structure Round (members : List Member) (round : List Turn) : Prop where
  allowed : ∀ turn ∈ round, turn.Allowed members
  everybody : ∀ member ∈ members, some member ∈ round.map Turn.member

/-! ## What is assumed and what is asked for -/

/-- A change from mutually consistent contracts to mutually consistent contracts, each of which its
node may register. -/
structure Rollout (config : Config) (members : List Member) : Prop where
  named : ∀ member ∈ members, member.id ≠ ""
  distinct : ∀ member ∈ members, ∀ other ∈ members, member.id = other.id → member = other
  sameNodeGroup : ∀ member ∈ members, member.old.nodeGroup = member.new.nodeGroup
  contract : ∀ member ∈ members, ValidContract config.cluster member.new.nodeGroup
    member.new.configDigest member.new.services
  range : ∀ member ∈ members, ∃ range, Netip.parsePrefix member.ipv6Prefix = some range ∧
    validDelegatedPrefix range = true ∧ (member.id = config.nodeId → range = config.ipv6Prefix)
  oldConsistent : ∀ member ∈ members, ∀ other ∈ members, member ≠ other →
    conflicts (member.hello "" "" member.old) (other.hello "" "" other.old) = none
  newConsistent : ∀ member ∈ members, ∀ other ∈ members, member ≠ other →
    conflicts (member.hello "" "" member.new) (other.hello "" "" other.new) = none

/-- The contract a node is registered with. -/
def registeredContract (core : Coordinator) (id : String) : Option Contract :=
  (core.nodes.lookup id).map ReceivedNode.contract

/-- The registered nodes are the members, with their old or new contracts. -/
structure Rolling (members : List Member) (core : Coordinator) : Prop where
  known : ∀ id contract, registeredContract core id = some contract → ∃ member ∈ members, member.id = id
  contract : ∀ member ∈ members, registeredContract core member.id = some member.old ∨
    registeredContract core member.id = some member.new

/-- Before the first turn everybody has its old contract. -/
structure Unchanged (members : List Member) (core : Coordinator) : Prop where
  known : ∀ id contract, registeredContract core id = some contract → ∃ member ∈ members, member.id = id
  contract : ∀ member ∈ members, registeredContract core member.id = some member.old

theorem Unchanged.rolling {members : List Member} {core : Coordinator} (hstart : Unchanged members core) :
    Rolling members core :=
  ⟨hstart.known, fun member hmember ↦ .inl (hstart.contract member hmember)⟩

def Converged (members : List Member) (core : Coordinator) : Prop :=
  ∀ member ∈ members, registeredContract core member.id = some member.new

/-- The members that are not registered with their new contract. -/
def pending (members : List Member) (core : Coordinator) : Finset Member :=
  members.toFinset.filter fun member ↦ registeredContract core member.id ≠ some member.new

/-! ## One turn -/

section Steps

variable {config : Config} {members : List Member} {core : Coordinator} {member : Member}

/-- Whether a `Hello` conflicts with a registration depends on the two contracts only. -/
theorem conflicts_contract {node : ReceivedNode} {contract : Contract} (hcontract : node.contract = contract)
    (other member : Member) (cluster session : String) :
    conflicts node.hello (member.hello cluster session member.new) =
      conflicts (other.hello "" "" contract) (member.hello "" "" member.new) := by
  subst hcontract
  rfl

theorem registeredContract_eq_some {id : String} {contract : Contract} :
    registeredContract core id = some contract ↔
      ∃ node, core.nodes.lookup id = some node ∧ node.contract = contract :=
  Option.map_eq_some_iff

theorem mem_pending :
    member ∈ pending members core ↔
      member ∈ members ∧ registeredContract core member.id ≠ some member.new := by
  simp [pending]

theorem pending_eq_empty : pending members core = ∅ ↔ Converged members core := by
  simp [pending, Finset.filter_eq_empty_iff, Converged]

/-- A `Hello` is refused exactly when the old registration of another pending member blocks it. -/
theorem Rolling.conflictWith_eq_none (hrolling : Rolling members core)
    (hrollout : Rollout config members) (hmember : member ∈ members) (cluster session : String) :
    conflictWith core (member.hello cluster session member.new) = none ↔
      ¬∃ other ∈ pending members core, other ≠ member ∧ Blocks other member := by
  rw [Coordination.conflictWith_eq_none]
  constructor
  · rintro hnone ⟨other, hother, hne, hblocks⟩
    obtain ⟨hother, hold⟩ := mem_pending.mp hother
    obtain ⟨node, hnode, hcontract⟩ :=
      registeredContract_eq_some.mp ((hrolling.contract other hother).resolve_right hold)
    have hid : other.id ≠ member.id := fun hsame ↦ hne (hrollout.distinct other hother member hmember hsame)
    have hconflict := hnone other.id node hnode hid
    rw [conflicts_contract hcontract other] at hconflict
    simp [Blocks, hconflict] at hblocks
  · intro hfree id node hnode hid
    obtain ⟨other, hother, rfl⟩ := hrolling.known id _ (registeredContract_eq_some.mpr ⟨node, hnode, rfl⟩)
    have hne : other ≠ member := fun hsame ↦ hid (congrArg Member.id hsame)
    by_cases hnew : registeredContract core other.id = some other.new
    · obtain ⟨peer, hpeer, hcontract⟩ := registeredContract_eq_some.mp hnew
      cases hnode.symm.trans hpeer
      rw [conflicts_contract hcontract other]
      exact hrollout.newConsistent other hother member hmember hne
    · obtain ⟨peer, hpeer, hcontract⟩ :=
        registeredContract_eq_some.mp ((hrolling.contract other hother).resolve_right hnew)
      cases hnode.symm.trans hpeer
      rw [conflicts_contract hcontract other]
      by_contra hconflict
      apply hfree
      exact ⟨other, mem_pending.mpr ⟨hother, hnew⟩, hne, Option.isSome_iff_ne_none.mpr hconflict⟩

theorem registeredContract_register (hello : Hello) (range : Netip.Prefix) (now : Int) (id : String) :
    registeredContract (register hello range now core) id =
      if id = hello.nodeId then some ⟨hello.nodeGroup, hello.configDigest, hello.services⟩
      else registeredContract core id := by
  unfold registeredContract
  have hlookup : (register hello range now core).nodes.lookup id = _ := GoMap.lookup_insert_eq _ _ _ _
  rw [hlookup]
  split <;> rfl

variable {turn : Turn}

theorem Turn.run_of_ok {handled : Handled} (hhandled : turn.handled config core = .ok handled) :
    turn.run config core = handled.core core := by
  rw [Turn.run, hhandled]

theorem Turn.run_of_error {reason : String} (hhandled : turn.handled config core = .error reason) :
    turn.run config core = core := by
  rw [Turn.run, hhandled]

/-- A member registers its new contract when no registration conflicts with it. -/
theorem Rollout.run_reconnect (hrollout : Rollout config members) (hmember : member ∈ members)
    {session : String} (hsession : session ≠ "") (now : Int)
    (hfree : conflictWith core (member.hello config.cluster session member.new) = none) :
    ∃ range, (Turn.reconnect member now session).run config core =
      register (member.hello config.cluster session member.new) range now core := by
  obtain ⟨range, hparse, hvalid, hlocal⟩ := hrollout.range member hmember
  have hnonempty : member.ipv6Prefix ≠ "" := by
    intro hempty
    rw [hempty] at hparse
    cases hparse
  have hreported : helloPrefix config (decide (member.id = config.nodeId))
      (member.hello config.cluster session member.new) = member.ipv6Prefix := by
    simp [helloPrefix, Member.hello, hnonempty]
  have hsender : helloSender config (some ⟨member.id, member.new.nodeGroup⟩)
      (decide (member.id = config.nodeId)) (member.hello config.cluster session member.new) range =
        .ok () := by
    by_cases hself : member.id = config.nodeId
    · simp [helloSender, hself, hlocal hself]
    · simp [helloSender, hself, Member.hello]
  have hhello : handleHello config (some ⟨member.id, member.new.nodeGroup⟩)
      (decide (member.id = config.nodeId)) now (member.hello config.cluster session member.new) core =
        .ok (register (member.hello config.cluster session member.new) range now core) := by
    apply handleHello_eq_ok.mpr
    refine ⟨hrollout.named member hmember, rfl, hsession, hrollout.contract member hmember, range, ?_⟩
    rw [hreported]
    exact ⟨hparse, hvalid, hsender, hfree, rfl⟩
  refine ⟨range, ?_⟩
  rw [Turn.run, Turn.handled, handle, hhello]
  rfl

/-- A `Hello` that conflicts with a registration changes nothing. -/
theorem run_reconnect_refused {session : String} {now : Int}
    (hconflict : conflictWith core (member.hello config.cluster session member.new) ≠ none) :
    (Turn.reconnect member now session).run config core = core := by
  cases hhandled : (Turn.reconnect member now session).handled config core with
  | error reason => exact Turn.run_of_error hhandled
  | ok handled =>
    obtain ⟨next, hnext, _⟩ := handle_hello hhandled
    obtain ⟨_, _, _, _, range, _, _, _, hfree, _⟩ := handleHello_eq_ok.mp hnext
    exact absurd hfree hconflict

/-- A report changes no contract. -/
theorem registeredContract_report (now : Int) (session : String) (sequence : Nat)
    (endpoints : List Endpoint) :
    registeredContract ((Turn.report now session sequence endpoints).run config core) =
      registeredContract core := by
  cases hhandled : (Turn.report now session sequence endpoints).handled config core with
  | error reason => rw [Turn.run_of_error hhandled]
  | ok handled =>
    rw [Turn.run_of_ok hhandled]
    obtain ⟨outcome, houtcome, rfl⟩ := @handle_nodeState config none false _ _ _ _ hhandled
    obtain ⟨id, old, hsession, hcases⟩ := handleNodeState_eq_ok houtcome
    rcases hcases with ⟨hchanged, _⟩ | ⟨_, _, _, ⟨rfl, _⟩ | ⟨_, rfl⟩⟩
    · -- the state has the digest of the session
      rw [sessionDigest, hsession] at hchanged
      exact absurd rfl hchanged
    · rfl
    · obtain ⟨_, _, hold, _⟩ := sessionNode_eq_some.mp hsession
      funext other
      apply (congrArg (Option.map ReceivedNode.contract) (GoMap.lookup_insert_eq _ _ _ _)).trans
      by_cases hsame : other = id
      · rw [if_pos hsame, registeredContract, hsame, hold]
        rfl
      · rw [if_neg hsame]
        rfl

theorem Rolling.of_eq (hrolling : Rolling members core) {after : Coordinator}
    (hsame : registeredContract after = registeredContract core) : Rolling members after := by
  refine ⟨?_, ?_⟩
  · rw [hsame]
    exact hrolling.known
  · rw [hsame]
    exact hrolling.contract

/-- The registrations after a member has registered its new contract. -/
theorem Rolling.register (hrolling : Rolling members core) (hrollout : Rollout config members)
    (hmember : member ∈ members) {after : Coordinator}
    (hafter : ∀ id, registeredContract after id =
      if id = member.id then some member.new else registeredContract core id) :
    Rolling members after ∧ pending members after = (pending members core).erase member := by
  have hother : ∀ other ∈ members, other ≠ member →
      registeredContract after other.id = registeredContract core other.id := by
    intro other hother hne
    rw [hafter, if_neg]
    exact fun hsame ↦ hne (hrollout.distinct other hother member hmember hsame)
  have hself : registeredContract after member.id = some member.new := by
    rw [hafter, if_pos rfl]
  refine ⟨⟨?_, ?_⟩, ?_⟩
  · intro id contract hcontract
    by_cases hid : id = member.id
    · exact ⟨member, hmember, hid.symm⟩
    · rw [hafter, if_neg hid] at hcontract
      exact hrolling.known id contract hcontract
  · intro other hmem
    by_cases hne : other = member
    · rw [hne]
      exact .inr hself
    · rw [hother other hmem hne]
      exact hrolling.contract other hmem
  · ext other
    rw [Finset.mem_erase, mem_pending, mem_pending]
    by_cases hne : other = member
    · simp [hne, hself]
    · constructor
      · rintro ⟨hmem, hpending⟩
        exact ⟨hne, hmem, hother other hmem hne ▸ hpending⟩
      · rintro ⟨_, hmem, hpending⟩
        exact ⟨hmem, (hother other hmem hne).symm ▸ hpending⟩

/-- What one turn does to the pending members. -/
theorem Rolling.run (hrolling : Rolling members core) (hrollout : Rollout config members)
    (hallowed : turn.Allowed members) :
    Rolling members (turn.run config core) ∧
      pending members (turn.run config core) =
        turn.member.elim (pending members core) (attempt Blocks (pending members core)) := by
  cases turn with
  | report now session sequence endpoints =>
    have hsame := @registeredContract_report config core now session sequence endpoints
    refine ⟨hrolling.of_eq hsame, ?_⟩
    unfold pending
    rw [hsame]
    rfl
  | reconnect member now session =>
    obtain ⟨hmember, hsession⟩ := hallowed
    have hconflict := hrolling.conflictWith_eq_none hrollout hmember config.cluster session
    by_cases hfree : conflictWith core (member.hello config.cluster session member.new) = none
    · obtain ⟨range, hrun⟩ := hrollout.run_reconnect hmember hsession now hfree
      have hregister := hrolling.register hrollout hmember
        (@registeredContract_register core (member.hello config.cluster session member.new) range now)
      rw [hrun]
      exact ⟨hregister.1, hregister.2.trans (if_neg (hconflict.mp hfree)).symm⟩
    · rw [run_reconnect_refused hfree]
      refine ⟨hrolling, ?_⟩
      exact (if_pos (not_not.mp (hfree ∘ hconflict.mpr))).symm

/-- A round is a round of attempts of the members that reconnect in it. -/
theorem Rolling.runRound (hrolling : Rolling members core) (hrollout : Rollout config members)
    {round : List Turn} (hallowed : ∀ turn ∈ round, turn.Allowed members) :
    Rolling members (runRound config core round) ∧
      pending members (runRound config core round) =
        attempts Blocks (pending members core) (round.filterMap Turn.member) := by
  induction round generalizing core with
  | nil => exact ⟨hrolling, rfl⟩
  | cons turn rest ih =>
    obtain ⟨hnext, hpending⟩ := hrolling.run hrollout (hallowed turn List.mem_cons_self)
    obtain ⟨hlast, hrest⟩ := ih hnext fun later hlater ↦ hallowed later (List.mem_cons_of_mem _ hlater)
    refine ⟨hlast, hrest.trans ?_⟩
    rw [hpending]
    cases turn <;> rfl

variable {schedule : List (List Turn)}

theorem Rolling.runRounds (hrolling : Rolling members core) (hrollout : Rollout config members)
    (hrounds : ∀ round ∈ schedule, Round members round) :
    pending members (schedule.foldl (Coordination.runRound config) core) =
      (schedule.map (List.filterMap Turn.member)).foldl (attempts Blocks) (pending members core) := by
  induction schedule generalizing core with
  | nil => rfl
  | cons round rest ih =>
    obtain ⟨hnext, hpending⟩ := hrolling.runRound hrollout (hrounds round List.mem_cons_self).allowed
    rw [List.foldl_cons, ih hnext fun later hlater ↦ hrounds later (List.mem_cons_of_mem _ hlater),
      hpending]
    rfl

/-! ## Convergence -/

/-- Only a member with a changed contract blocks another one. -/
theorem Unchanged.pending_of_blocks (hstart : Unchanged members core) (hrollout : Rollout config members)
    {other : Member} (hother : other ∈ members) (hmember : member ∈ members) (hne : other ≠ member)
    (hblocks : Blocks other member) : other ∈ pending members core := by
  refine mem_pending.mpr ⟨hother, ?_⟩
  rw [hstart.contract other hother]
  intro hsame
  have hnone := hrollout.newConsistent other hother member hmember hne
  rw [← Option.some.inj hsame] at hnone
  rw [Blocks, hnone] at hblocks
  cases hblocks

/-- The pending members of a stuck group are a stuck group. -/
theorem Unchanged.stuck_pending (hstart : Unchanged members core) (hrollout : Rollout config members)
    {group : Finset Member} (hgroup : group ⊆ members.toFinset) (hnonempty : group.Nonempty)
    (hstuck : Stuck Blocks group) :
    (group ∩ pending members core).Nonempty ∧ Stuck Blocks (group ∩ pending members core) := by
  have hblocker : ∀ member ∈ group, ∃ other ∈ group ∩ pending members core,
      other ≠ member ∧ Blocks other member := by
    intro member hmember
    obtain ⟨other, hother, hne, hblocks⟩ := hstuck member hmember
    refine ⟨other, Finset.mem_inter.mpr ⟨hother, ?_⟩, hne, hblocks⟩
    exact hstart.pending_of_blocks hrollout (List.mem_toFinset.mp (hgroup hother))
      (List.mem_toFinset.mp (hgroup hmember)) hne hblocks
  constructor
  · obtain ⟨member, hmember⟩ := hnonempty
    obtain ⟨other, hother, _⟩ := hblocker member hmember
    exact ⟨other, hother⟩
  · intro member hmember
    exact hblocker member (Finset.mem_inter.mp hmember).1

/-- With a stuck group no schedule converges. -/
theorem Unchanged.not_converged (hstart : Unchanged members core) (hrollout : Rollout config members)
    {group : Finset Member} (hgroup : group ⊆ members.toFinset) (hnonempty : group.Nonempty)
    (hstuck : Stuck Blocks group) (hrounds : ∀ round ∈ schedule, Round members round) :
    ¬Converged members (schedule.foldl (Coordination.runRound config) core) := by
  intro hconverged
  obtain ⟨hremaining, hremains⟩ := hstart.stuck_pending hrollout hgroup hnonempty hstuck
  have hsubset := hremains.subset_rounds Finset.inter_subset_right
    (schedule.map (List.filterMap Turn.member))
  rw [← hstart.rolling.runRounds hrollout hrounds, pending_eq_empty.mpr hconverged] at hsubset
  exact hremaining.ne_empty (Finset.subset_empty.mp hsubset)

/-- Everybody tries once. -/
theorem round_reconnect (members : List Member) :
    Round members (members.map fun member ↦ .reconnect member 0 "session") where
  allowed := by
    intro turn hturn
    obtain ⟨member, hmember, rfl⟩ := List.mem_map.mp hturn
    exact ⟨hmember, by decide⟩
  everybody := by
    intro member hmember
    rw [List.map_map]
    exact List.mem_map.mpr ⟨member, hmember, rfl⟩

end Steps

/-- As many rounds as there are nodes leave everybody registered with its new contract, whatever the
schedule, exactly when no group of nodes blocks itself: when in every group there is a node whose new
contract conflicts with no old contract of the others. -/
theorem rollout_converges_iff {config : Config} {members : List Member} {core : Coordinator}
    (hrollout : Rollout config members) (hstart : Unchanged members core) :
    (∀ schedule : List (List Turn), members.length ≤ schedule.length →
        (∀ round ∈ schedule, Round members round) →
        Converged members (schedule.foldl (runRound config) core)) ↔
      ∀ group ⊆ members.toFinset, group.Nonempty → ¬Stuck Blocks group := by
  constructor
  · intro hconverges group hgroup hnonempty hstuck
    let schedule := List.replicate members.length (members.map fun member ↦ Turn.reconnect member 0 "session")
    have hrounds : ∀ round ∈ schedule, Round members round := by
      intro round hround
      rw [List.eq_of_mem_replicate hround]
      exact round_reconnect members
    have hlength : members.length ≤ schedule.length := List.length_replicate.ge
    exact hstart.not_converged hrollout hgroup hnonempty hstuck hrounds
      (hconverges schedule hlength hrounds)
  · intro hfree schedule hlength hrounds
    rw [← pending_eq_empty, hstart.rolling.runRounds hrollout hrounds]
    apply rounds_eq_empty
    · calc (pending members core).card ≤ members.toFinset.card := Finset.card_filter_le _ _
        _ ≤ members.length := List.toFinset_card_le members
        _ ≤ schedule.length := hlength
        _ = (schedule.map (List.filterMap Turn.member)).length := by rw [List.length_map]
    · intro group hgroup
      exact hfree group (hgroup.trans (Finset.filter_subset _ _))
    · intro attempted hattempted member hmember
      obtain ⟨round, hround, rfl⟩ := List.mem_map.mp hattempted
      rw [List.mem_filterMap]
      exact List.mem_map.mp ((hrounds round hround).everybody member (mem_pending.mp hmember).1)

/-! ## Two nodes -/

section Members

variable (group : String → String)

/-- A node that gets the Service of its NodeGroup. -/
def webMember (id : String) : Member where
  id := id
  ipv6Prefix := "fd00::/80"
  old := ⟨group id, String.ofList (List.replicate 128 '1'), []⟩
  new := ⟨group id, plainDigest, [plainItem "cluster" (group id) (group id) [httpPort]]⟩

theorem rollout_web {ids : List String} (hids : ∀ id ∈ ids, id ≠ "")
    (hgroups : ∀ id, Manifest.validID (group id) = true) :
    Rollout workersConfig (ids.map (webMember group)) where
  named := List.forall_mem_map.mpr hids
  distinct := by
    simp only [List.forall_mem_map]
    intro id _ other _ hsame
    exact congrArg (webMember group) hsame
  sameNodeGroup := List.forall_mem_map.mpr fun _ _ ↦ rfl
  contract := List.forall_mem_map.mpr fun id _ ↦
    validContract_item "cluster" (hgroups id) (hgroups id) (by decide) (by simp)
  range := List.forall_mem_map.mpr fun _ _ ↦
    ⟨plainPrefix, parsePrefix_plain, validDelegatedPrefix_plain, fun _ ↦ rfl⟩
  oldConsistent := by
    simp only [List.forall_mem_map]
    intro id _ other _ _
    exact conflicts_eq_none.mpr ⟨fun _ ↦ ⟨rfl, rfl⟩, fun _ _ hitem ↦ nomatch hitem⟩
  newConsistent := by
    simp only [List.forall_mem_map]
    intro id _ other _ _
    refine conflicts_eq_none.mpr ⟨fun hsame ↦ ⟨rfl, ?_⟩, fun hdifferent ↦ ?_⟩
    · exact congrArg (fun nodeGroup ↦ [plainItem "cluster" nodeGroup nodeGroup [httpPort]]) hsame
    · exact List.forall_mem_singleton.mpr (List.forall_mem_singleton.mpr fun hsame ↦
        hdifferent ((String.append_right_inj _).mp hsame))

/-- The registrations of the nodes with their old contracts, as their `Hello`s leave them. -/
def registeredWeb (ids : List String) : Coordinator :=
  ids.foldr (fun id core ↦ register ((webMember group id).hello "cluster" id (webMember group id).old)
    plainPrefix 0 core) {}

theorem registeredContract_web (ids : List String) (id : String) :
    registeredContract (registeredWeb group ids) id =
      if id ∈ ids then some (webMember group id).old else none := by
  induction ids with
  | nil => rfl
  | cons first rest ih =>
    apply (registeredContract_register _ _ _ _).trans
    rw [show (rest.foldr _ _ : Coordinator) = registeredWeb group rest from rfl, ih]
    by_cases hfirst : id = first
    · simp [hfirst, webMember, Member.hello]
    · simp [hfirst, Member.hello, webMember]

theorem unchanged_web (ids : List String) :
    Unchanged (ids.map (webMember group)) (registeredWeb group ids) where
  known := by
    intro id contract hcontract
    rw [registeredContract_web] at hcontract
    split at hcontract
    · next hmem => exact ⟨webMember group id, List.mem_map.mpr ⟨id, hmem, rfl⟩, rfl⟩
    · cases hcontract
  contract := by
    simp only [List.forall_mem_map]
    intro id hid
    exact (registeredContract_web group ids id).trans (if_pos hid)

/-- Nodes block each other when they are of one NodeGroup. -/
theorem blocks_web (id other : String) :
    Blocks (webMember group id) (webMember group other) ↔ group id = group other := by
  simp [Blocks, conflicts, Member.hello, webMember, contractsOverlap]

end Members

/-- Two nodes that change together keep each other from registering, in every schedule. -/
theorem two_nodes_never_converge :
    ∃ members core, Rollout workersConfig members ∧ Unchanged members core ∧ members.length = 2 ∧
      ∀ schedule : List (List Turn), (∀ round ∈ schedule, Round members round) →
        ¬Converged members (schedule.foldl (runRound workersConfig) core) := by
  have hrollout := @rollout_web (fun _ ↦ "workers") ["node-1", "node-2"] (by decide) fun _ ↦ by decide
  have hstart := unchanged_web (fun _ ↦ "workers") ["node-1", "node-2"]
  refine ⟨_, _, hrollout, hstart, rfl, ?_⟩
  intro schedule hrounds
  refine hstart.not_converged hrollout (Finset.Subset.refl _)
    ⟨webMember (fun _ ↦ "workers") "node-1", by simp⟩ ?_ hrounds
  intro member hmember
  rw [List.mem_toFinset] at hmember
  rcases List.mem_pair.mp hmember with rfl | rfl
  · exact ⟨webMember _ "node-2", by simp, by simp [webMember], (blocks_web _ _ _).mpr rfl⟩
  · exact ⟨webMember _ "node-1", by simp, by simp [webMember], (blocks_web _ _ _).mpr rfl⟩

/-- Each node is a NodeGroup of its own. -/
def ownGroup (id : String) : String :=
  if id = "node-1" then "workers" else "edge"

/-- Two nodes of different NodeGroups change together. -/
theorem rollout_converges_iff_groups :
    Rollout workersConfig (["node-1", "node-2"].map (webMember ownGroup)) ∧
    Unchanged (["node-1", "node-2"].map (webMember ownGroup)) (registeredWeb ownGroup ["node-1", "node-2"]) ∧
    ∀ schedule : List (List Turn), 2 ≤ schedule.length →
      (∀ round ∈ schedule, Round (["node-1", "node-2"].map (webMember ownGroup)) round) →
      Converged (["node-1", "node-2"].map (webMember ownGroup))
        (schedule.foldl (runRound workersConfig) (registeredWeb ownGroup ["node-1", "node-2"])) := by
  have hrollout := @rollout_web ownGroup ["node-1", "node-2"] (by decide) fun id ↦ by
    unfold ownGroup
    split <;> decide
  have hunchanged := unchanged_web ownGroup ["node-1", "node-2"]
  refine ⟨hrollout, hunchanged, ?_⟩
  apply (rollout_converges_iff hrollout hunchanged).mpr
  rintro group hgroup ⟨member, hmember⟩ hstuck
  obtain ⟨other, hother, hne, hblocks⟩ := hstuck member hmember
  have hnodes : ∀ entry ∈ group, entry = webMember ownGroup "node-1" ∨ entry = webMember ownGroup "node-2" := by
    intro entry hentry
    simpa using hgroup hentry
  rcases hnodes member hmember with rfl | rfl <;> rcases hnodes other hother with rfl | rfl
  · exact hne rfl
  · exact absurd ((blocks_web _ _ _).mp hblocks) (by decide)
  · exact absurd ((blocks_web _ _ _).mp hblocks) (by decide)
  · exact hne rfl

end Podmin.Agent.Coordination
