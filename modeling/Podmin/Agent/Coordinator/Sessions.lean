import Podmin.Agent.Coordinator.Registrations

/-!
# Sessions

The session table of a leader is the inverse of its registrations, as long as no two nodes use one
session. A handled message changes the entries of one node, and the sequence numbers stored for a
node increase from one `Hello` to the next.
-/

namespace Podmin.Agent.Coordination

open Foundation Transition Api Agent.Service GoMap

variable {session id : String} {state : NodeState}

/-! ## The session table -/

/-- A session is in the table exactly as long as its node is registered with it. -/
def Paired (core : Coordinator) : Prop :=
  ∀ session id, core.sessions.lookup session = some id ↔
    ∃ node, core.nodes.lookup id = some node ∧ node.hello.sessionId = session

/-- Sessions are registered by the nodes they belong to. -/
def Owned (owner : String → String) (core : Coordinator) : Prop :=
  ∀ session id, core.sessions.lookup session = some id → owner session = id

section Table

variable {owner : String → String} {core : Coordinator}

theorem Paired.sessionNode (hpaired : Paired core) {node : ReceivedNode}
    (hnode : core.nodes.lookup id = some node) (hsession : node.hello.sessionId = session) (hid : id ≠ "") :
    sessionNode core session = some (id, node) :=
  sessionNode_eq_some.mpr ⟨(hpaired session id).mpr ⟨node, hnode, hsession⟩, hid, hnode, hsession⟩

theorem lookup_register_sessions (hpaired : Paired core) (hello : Hello) (range : Netip.Prefix)
    (now : Int) (session : String) :
    (register hello range now core).sessions.lookup session =
      if session = hello.sessionId then some hello.nodeId
      else if core.sessions.lookup session = some hello.nodeId then none
      else core.sessions.lookup session := by
  rw [register, lookup_insert_eq]
  congr 1
  cases hprevious : core.nodes.lookup hello.nodeId with
  | none =>
    have hfree : core.sessions.lookup session ≠ some hello.nodeId := by
      intro hsession
      obtain ⟨node, hnode, _⟩ := (hpaired session hello.nodeId).mp hsession
      rw [hprevious] at hnode
      cases hnode
    rw [if_neg hfree]
  | some previous =>
    have hold : core.sessions.lookup session = some hello.nodeId ↔
        session = previous.hello.sessionId := by
      rw [hpaired, hprevious]
      simp [eq_comm]
    simp only [lookup_erase_eq, hold]

theorem Paired.register (hpaired : Paired core) (howned : Owned owner core) {hello : Hello}
    (hown : owner hello.sessionId = hello.nodeId) (range : Netip.Prefix) (now : Int) :
    Paired (register hello range now core) := by
  intro session id
  rw [lookup_register_sessions hpaired, Coordination.register, lookup_insert_eq]
  by_cases hid : id = hello.nodeId
  · -- the node's own entry is the new session and no other
    subst hid
    simp only [if_true, Option.some.injEq, exists_eq_left']
    by_cases hsession : session = hello.sessionId
    · simp [hsession]
    · simp only [hsession, if_false, Ne.symm hsession, iff_false]
      split
      · simp
      · assumption
  · simp only [hid, if_false]
    rw [← hpaired]
    by_cases hsession : session = hello.sessionId
    · simp only [hsession, if_true, Option.some.injEq, Ne.symm hid, false_iff]
      intro hother
      exact hid ((howned _ _ hother).symm.trans (hsession ▸ hown))
    · simp only [hsession, if_false]
      split
      · next hsame =>
        rw [hsame]
        simp [Ne.symm hid]
      · rfl

theorem Owned.register (howned : Owned owner core) (hpaired : Paired core) {hello : Hello}
    (hown : owner hello.sessionId = hello.nodeId) (range : Netip.Prefix) (now : Int) :
    Owned owner (register hello range now core) := by
  intro session id hsession
  rw [lookup_register_sessions hpaired] at hsession
  split at hsession
  · next hnew =>
    rw [hnew, hown]
    exact Option.some.inj hsession
  · split at hsession
    · cases hsession
    · exact howned session id hsession

theorem Owned.unregister (howned : Owned owner core) (session id : String) :
    Owned owner (unregister session id core) := by
  intro other found hother
  rw [Coordination.unregister, lookup_erase_eq] at hother
  split at hother
  · cases hother
  · exact howned other found hother

theorem Paired.unregister (hpaired : Paired core) (hsession : core.sessions.lookup session = some id) :
    Paired (unregister session id core) := by
  intro other found
  rw [Coordination.unregister, lookup_erase_eq, lookup_erase_eq]
  by_cases hother : other = session
  · subst hother
    simp only [if_true, reduceCtorEq, false_iff, not_exists, not_and]
    intro node hnode hsame
    split at hnode
    · cases hnode
    · next hfound =>
      have hsecond := (hpaired other found).mpr ⟨node, hnode, hsame⟩
      rw [hsession] at hsecond
      exact hfound (Option.some.inj hsecond).symm
  · simp only [hother, if_false]
    rw [hpaired]
    by_cases hfound : found = id
    · subst hfound
      simp only [if_true, reduceCtorEq, false_and, exists_false, iff_false, not_exists, not_and]
      intro node hnode hsame
      obtain ⟨registered, hregistered, hregisteredSession⟩ := (hpaired session found).mp hsession
      rw [hnode] at hregistered
      cases hregistered
      exact hother (hsame.symm.trans hregisteredSession)
    · simp [hfound]

theorem lookup_expire_sessions {now : Int} :
    (expire now core).1.sessions.lookup session = some id ↔
      core.sessions.lookup session = some id ∧ ∀ other node,
        core.nodes.lookup other = some node → expired now node = true →
          node.hello.sessionId ≠ session := by
  rw [expire, lookup_foldl_erase]
  simp only [Option.ite_none_left_eq_some, List.mem_map, List.mem_filter, Prod.exists,
    mem_pairs, not_exists, not_and, and_imp]
  exact and_comm

theorem Paired.expire (hpaired : Paired core) (now : Int) : Paired (expire now core).1 := by
  intro session id
  simp only [lookup_expire_sessions, lookup_expire]
  rw [hpaired]
  constructor
  · rintro ⟨⟨node, hnode, hsession⟩, hkept⟩
    refine ⟨node, ⟨hnode, ?_⟩, hsession⟩
    by_contra hexpired
    exact hkept id node hnode (by simpa using hexpired) hsession
  · rintro ⟨node, ⟨hnode, hfresh⟩, hsession⟩
    refine ⟨⟨node, hnode, hsession⟩, ?_⟩
    intro other gone hgone hexpired hsame
    -- both registrations would have the session, so they are one
    have hfirst := (hpaired session id).mpr ⟨node, hnode, hsession⟩
    have hsecond := (hpaired session other).mpr ⟨gone, hgone, hsame⟩
    rw [hfirst] at hsecond
    cases hsecond
    rw [hnode] at hgone
    cases hgone
    rw [hexpired] at hfresh
    cases hfresh

theorem Owned.expire (howned : Owned owner core) (now : Int) : Owned owner (expire now core).1 :=
  fun session id hsession ↦ howned session id (lookup_expire_sessions.mp hsession).1

theorem lookup_drainLocal_sessions {config : Config} :
    (drainLocal config core).sessions.lookup session = some id ↔
      core.sessions.lookup session = some id ∧ id ≠ config.nodeId := by
  rw [drainLocal, lookup_filter, Option.filter_eq_some_iff]
  simp

theorem Paired.drainLocal (hpaired : Paired core) (config : Config) : Paired (drainLocal config core) := by
  -- a registered node has a session, so it leaves if it is the leader's own
  have hnodes : ∀ id, (Coordination.drainLocal config core).nodes.lookup id =
      if id = config.nodeId then none else core.nodes.lookup id := by
    intro id
    simp only [Coordination.drainLocal]
    split
    · exact lookup_erase_eq _ _ _
    · next hnone =>
      split
      · next hself =>
        cases hnode : core.nodes.lookup id with
        | none => rfl
        | some node =>
          have hsession := mem_pairs.mpr ((hpaired node.hello.sessionId id).mpr ⟨node, hnode, rfl⟩)
          exact absurd (List.any_eq_true.mpr ⟨_, hsession, by simp [hself]⟩) hnone
      · rfl
  intro session id
  rw [lookup_drainLocal_sessions, hnodes, hpaired]
  by_cases hself : id = config.nodeId <;> simp [hself]

theorem Owned.drainLocal (howned : Owned owner core) (config : Config) : Owned owner (drainLocal config core) :=
  fun session id hsession ↦ howned session id (lookup_drainLocal_sessions.mp hsession).1

/-- A session that no registered node has is absent, so a message of it finds nothing. -/
theorem Paired.lookup_eq_none (hpaired : Paired core)
    (hfree : ∀ id node, core.nodes.lookup id = some node → node.hello.sessionId ≠ session) :
    core.sessions.lookup session = none := by
  cases hsession : core.sessions.lookup session with
  | none => rfl
  | some id =>
    obtain ⟨node, hnode, hsame⟩ := (hpaired session id).mp hsession
    exact absurd hsame (hfree id node hnode)

end Table

/-! ## What a message leaves alone -/

/-- The registrations are the same. -/
def SameRegistrations (core next : Coordinator) : Prop :=
  next.nodes = core.nodes ∧ ∀ session, next.sessions.lookup session = core.sessions.lookup session

/-- Only the registration and the sessions of one node differ. -/
structure OnlyChanges (owner : String → String) (nodeId : String) (core next : Coordinator) :
    Prop where
  nodes : ∀ id, id ≠ nodeId → next.nodes.lookup id = core.nodes.lookup id
  sessions : ∀ session, owner session ≠ nodeId →
    next.sessions.lookup session = core.sessions.lookup session

section Frames

variable {owner : String → String} {core next : Coordinator}

theorem SameRegistrations.paired (hsame : SameRegistrations core next) (hpaired : Paired core) :
    Paired next := by
  intro session id
  rw [hsame.1, hsame.2]
  exact hpaired session id

theorem SameRegistrations.owned (hsame : SameRegistrations core next) (howned : Owned owner core) :
    Owned owner next := by
  intro session id hsession
  rw [hsame.2] at hsession
  exact howned session id hsession

theorem SameRegistrations.onlyChanges (hsame : SameRegistrations core next) (nodeId : String) :
    OnlyChanges owner nodeId core next where
  nodes id _ := by rw [hsame.1]
  sessions session _ := hsame.2 session

theorem register_onlyChanges (hpaired : Paired core) (howned : Owned owner core) {hello : Hello}
    (hown : owner hello.sessionId = hello.nodeId) (range : Netip.Prefix) (now : Int) :
    OnlyChanges owner hello.nodeId core (register hello range now core) where
  nodes id hid := by
    rw [register, lookup_insert_eq, if_neg hid]
  sessions session hsession := by
    have hnew : session ≠ hello.sessionId := by
      rintro rfl
      exact hsession hown
    have hold : core.sessions.lookup session ≠ some hello.nodeId := fun hlookup ↦
      hsession (howned session hello.nodeId hlookup)
    rw [lookup_register_sessions hpaired, if_neg hnew, if_neg hold]

theorem unregister_onlyChanges (hown : owner session = id) :
    OnlyChanges owner id core (unregister session id core) where
  nodes other hother := by
    rw [unregister, lookup_erase_eq, if_neg hother]
  sessions other hother := by
    have hne : other ≠ session := by
      rintro rfl
      exact hother hown
    rw [unregister, lookup_erase_eq, if_neg hne]

/-- A drain withdraws the node of its session, or finds nothing. -/
theorem handleDrain_cases (hpaired : Paired core) (hnameless : core.nodes.lookup "" = none)
    (drain : Drain) :
    (∃ id, core.sessions.lookup drain.sessionId = some id ∧
        handleDrain drain core = unregister drain.sessionId id core) ∨
      (core.sessions.lookup drain.sessionId = none ∧
        SameRegistrations core (handleDrain drain core)) := by
  unfold handleDrain
  cases hsession : core.sessions.lookup drain.sessionId with
  | none =>
    refine .inr ⟨rfl, ?_⟩
    simp only [Option.getD_none, hnameless, Option.any_none, Bool.false_eq_true, if_false]
    refine ⟨rfl, fun session ↦ ?_⟩
    rw [lookup_erase_eq]
    split
    · next hself => rw [hself, hsession]
    · rfl
  | some id =>
    obtain ⟨node, hnode, hsame⟩ := (hpaired _ id).mp hsession
    refine .inl ⟨id, rfl, ?_⟩
    simp only [Option.getD_some, hnode, Option.any_some, hsame, beq_self_eq_true, if_true]

end Frames

/-- The session a node state or a drain is about. -/
def reportSession : ClientMessage → Option String
  | .nodeState state => some state.sessionId
  | .drain drain => some drain.sessionId
  | .hello _ | .empty => none

section Handled

variable {config : Config} {owner : String → String} {sender : Option Identity} {isLocal : Bool}
  {now : Int} {message : ClientMessage} {core : Coordinator} {handled : Handled}

theorem Consistent.nameless (hcore : Consistent config.cluster core) :
    core.nodes.lookup "" = none := by
  cases hnode : core.nodes.lookup "" with
  | none => rfl
  | some node => exact absurd rfl (hcore.registered "" node hnode).nonempty

/-- What a handled message does to the two tables: it registers, withdraws or updates one node, or
nothing. -/
theorem handled_core_cases (hpaired : Paired core) (hcore : Consistent config.cluster core)
    (hhandle : handle config sender isLocal now message core = .ok handled) :
    (∃ hello entry range, message = .hello hello ∧ entry.nodeId = hello.nodeId ∧
        entry.sessionId = hello.sessionId ∧ handled.core core = register entry range now core) ∨
      (∃ session id, reportSession message = some session ∧
        core.sessions.lookup session = some id ∧
        handled.core core = unregister session id core) ∨
      (∃ state next, message = .nodeState state ∧ handled = .reported (.stored next) ∧
        handleNodeState now state core = .ok (.stored next)) ∨
      SameRegistrations core (handled.core core) := by
  rcases handle_cases hhandle with ⟨hello, next, rfl, rfl, hnext⟩ | ⟨state, next, rfl, rfl, hnext⟩ |
    ⟨state, rfl, rfl⟩ | ⟨state, next, rfl, rfl, hnext⟩ | ⟨drain, rfl, rfl⟩
  · obtain ⟨_, _, _, _, range, _, _, _, _, heq⟩ := handleHello_eq_ok.mp hnext
    exact .inl ⟨hello, { hello with ipv6Prefix := helloPrefix config isLocal hello }, range, rfl, rfl,
      rfl, heq⟩
  · obtain ⟨id, old, hsession, _, heq⟩ := handleNodeState_eq_retired hnext
    exact .inr (.inl ⟨state.sessionId, id, rfl, (sessionNode_eq_some.mp hsession).1, heq⟩)
  · exact .inr (.inr (.inr ⟨rfl, fun _ ↦ rfl⟩))
  · exact .inr (.inr (.inl ⟨state, next, rfl, rfl, hnext⟩))
  · rcases handleDrain_cases hpaired hcore.nameless drain with ⟨id, hid, heq⟩ | ⟨_, hsame⟩
    · exact .inr (.inl ⟨drain.sessionId, id, rfl, hid, heq⟩)
    · exact .inr (.inr (.inr hsame))

theorem Consistent.of_handled (hcore : Consistent config.cluster core)
    (hhandle : handle config sender isLocal now message core = .ok handled) :
    Consistent config.cluster (handled.core core) := by
  rcases handle_cases hhandle with ⟨hello, next, rfl, rfl, hnext⟩ | ⟨state, next, rfl, rfl, hnext⟩ |
    ⟨state, rfl, rfl⟩ | ⟨state, next, rfl, rfl, hnext⟩ | ⟨drain, rfl, rfl⟩
  · exact hcore.registers (.hello hnext)
  · exact hcore.registers (.retired hnext)
  · exact hcore
  · exact hcore.registers (.stored hnext)
  · exact hcore.registers (.drained drain)

/-- Storing a node state keeps the node's session, so the session table still fits. -/
theorem Paired.store {next : Coordinator} (hpaired : Paired core)
    (hnext : handleNodeState now state core = .ok (.stored next)) : Paired next := by
  obtain ⟨id, old, hsession, _, _, _, _, rfl⟩ := handleNodeState_eq_stored hnext
  obtain ⟨_, _, hold, _⟩ := sessionNode_eq_some.mp hsession
  intro session other
  rw [hpaired, lookup_insert_eq]
  by_cases hother : other = id
  · subst hother
    simp [hold]
  · simp [hother]

theorem Paired.of_handled (hpaired : Paired core) (howned : Owned owner core)
    (hcore : Consistent config.cluster core)
    (hown : ∀ hello, message = .hello hello → owner hello.sessionId = hello.nodeId)
    (hhandle : handle config sender isLocal now message core = .ok handled) :
    Paired (handled.core core) ∧ Owned owner (handled.core core) := by
  rcases handled_core_cases hpaired hcore hhandle with ⟨hello, entry, range, hhello, hid, hsession, heq⟩ |
    ⟨session, id, _, hsession, heq⟩ | ⟨state, next, _, rfl, hnext⟩ | hsame
  · have hentry : owner entry.sessionId = entry.nodeId := by
      rw [hid, hsession]
      exact hown hello hhello
    rw [heq]
    exact ⟨hpaired.register howned hentry range now, howned.register hpaired hentry range now⟩
  · rw [heq]
    exact ⟨hpaired.unregister hsession, howned.unregister session id⟩
  · refine ⟨hpaired.store hnext, ?_⟩
    obtain ⟨_, _, _, _, _, _, _, rfl⟩ := handleNodeState_eq_stored hnext
    exact howned
  · exact ⟨hsame.paired hpaired, hsame.owned howned⟩

/-- A message only changes the node it is about. -/
theorem handled_onlyChanges (hpaired : Paired core) (howned : Owned owner core)
    (hcore : Consistent config.cluster core) {nodeId : String}
    (hhello : ∀ hello, message = .hello hello →
      owner hello.sessionId = hello.nodeId ∧ hello.nodeId = nodeId)
    (hreport : ∀ session, reportSession message = some session → owner session = nodeId)
    (hhandle : handle config sender isLocal now message core = .ok handled) :
    OnlyChanges owner nodeId core (handled.core core) := by
  rcases handled_core_cases hpaired hcore hhandle with
    ⟨hello, entry, range, hmessage, hid, hsession, heq⟩ |
    ⟨session, id, hmessage, hsession, heq⟩ | ⟨state, next, hmessage, rfl, hnext⟩ | hsame
  · obtain ⟨hown, hnode⟩ := hhello hello hmessage
    rw [heq, ← hnode, ← hid]
    refine register_onlyChanges hpaired howned ?_ range now
    rw [hid, hsession, hown]
  · have hid : id = nodeId := (howned session id hsession).symm.trans (hreport session hmessage)
    rw [heq, ← hid]
    exact unregister_onlyChanges (howned session id hsession)
  · obtain ⟨id, old, hsession, _, _, _, _, rfl⟩ := handleNodeState_eq_stored hnext
    have hlookup := (sessionNode_eq_some.mp hsession).1
    have hid : id = nodeId :=
      (howned _ id hlookup).symm.trans (hreport state.sessionId (by rw [hmessage]; rfl))
    refine ⟨fun other hother ↦ ?_, fun _ _ ↦ rfl⟩
    exact (lookup_insert_eq _ _ _ _).trans (if_neg (hid ▸ hother))
  · exact hsame.onlyChanges nodeId

/-- A report of a session that is not in the table changes nothing. -/
theorem handled_of_unknown (hpaired : Paired core) (hcore : Consistent config.cluster core)
    (hreport : reportSession message = some session) (hunknown : core.sessions.lookup session = none)
    (hhandle : handle config sender isLocal now message core = .ok handled) :
    SameRegistrations core (handled.core core) := by
  rcases handled_core_cases hpaired hcore hhandle with ⟨hello, _, _, rfl, _⟩ |
    ⟨other, id, hother, hsession, _⟩ | ⟨state, next, rfl, rfl, hnext⟩ | hsame
  · cases hreport
  · cases hreport.symm.trans hother
    cases hunknown.symm.trans hsession
  · obtain ⟨id, old, hsession, _⟩ := handleNodeState_eq_stored hnext
    cases hreport
    cases hunknown.symm.trans (sessionNode_eq_some.mp hsession).1
  · exact hsame

/-- A node state of the registered contract whose sequence number is not above the stored one
changes nothing. -/
theorem handled_of_repeated {node : ReceivedNode} {stored : NodeState}
    (hsession : sessionNode core state.sessionId = some (id, node))
    (hdigest : node.hello.configDigest = state.configDigest) (hstored : node.state = some stored)
    (hsequence : state.sequence ≤ stored.sequence)
    (hhandle : handle config sender isLocal now (.nodeState state) core = .ok handled) :
    handled.core core = core := by
  obtain ⟨outcome, houtcome, rfl⟩ := handle_nodeState hhandle
  obtain ⟨found, old, hfound, hcases⟩ := handleNodeState_eq_ok houtcome
  cases hsession.symm.trans hfound
  rcases hcases with ⟨hchanged, _⟩ | ⟨_, _, _, ⟨rfl, _⟩ | ⟨hfresh, _⟩⟩
  · exact absurd hdigest hchanged
  · rfl
  · exact absurd (hfresh stored hstored) (not_lt.mpr hsequence)

end Handled

/-! ## Sequence numbers -/

/-- The sequence numbers stored since the last `Hello` increase, and the newest one is stored. -/
structure Sequenced (core : Coordinator) (sequences : String → List Nat) : Prop where
  increasing : ∀ id, (sequences id).Pairwise (· > ·)
  newest : ∀ id node, core.nodes.lookup id = some node →
    (sequences id).head? = node.state.map NodeState.sequence

section Sequences

variable {core next : Coordinator} {sequences : String → List Nat}

theorem Sequenced.of_sublist (hsequenced : Sequenced core sequences)
    (hnext : ∀ id node, next.nodes.lookup id = some node → core.nodes.lookup id = some node) :
    Sequenced next sequences where
  increasing := hsequenced.increasing
  newest id node hnode := hsequenced.newest id node (hnext id node hnode)

theorem Sequenced.register (hsequenced : Sequenced core sequences) (hello : Hello)
    (range : Netip.Prefix) (now : Int) :
    Sequenced (register hello range now core) (Function.update sequences hello.nodeId []) := by
  constructor
  · intro id
    by_cases hid : id = hello.nodeId
    · simp [hid]
    · simpa [hid] using hsequenced.increasing id
  · intro id node hnode
    rw [Coordination.register, lookup_insert_eq] at hnode
    split at hnode
    · next hid =>
      cases hnode
      simp [hid]
    · next hid => simpa [hid] using hsequenced.newest id node hnode

/-- A list that decreases from its head has no larger element. -/
theorem forall_lt_of_head {numbers : List Nat} (hnumbers : numbers.Pairwise (· > ·)) {bound : Nat}
    (hhead : ∀ first, numbers.head? = some first → first < bound) : ∀ number ∈ numbers, number < bound := by
  cases numbers with
  | nil => simp
  | cons first rest =>
    have hfirst := hhead first rfl
    intro number hnumber
    rcases List.mem_cons.mp hnumber with rfl | hrest
    · exact hfirst
    · exact ((List.pairwise_cons.mp hnumbers).1 number hrest).trans hfirst

theorem Sequenced.store {now : Int} {old : ReceivedNode} (hsequenced : Sequenced core sequences)
    (hold : core.nodes.lookup id = some old)
    (hfresh : ∀ stored, old.state = some stored → stored.sequence < state.sequence) :
    Sequenced
      { core with nodes := core.nodes.insert id { old with state := some state, received := now } }
      (Function.update sequences id (state.sequence :: sequences id)) := by
  have hbelow : ∀ number ∈ sequences id, number < state.sequence := by
    apply forall_lt_of_head (hsequenced.increasing id)
    intro first hfirst
    rw [hsequenced.newest id old hold, Option.map_eq_some_iff] at hfirst
    obtain ⟨stored, hstored, rfl⟩ := hfirst
    exact hfresh stored hstored
  constructor
  · intro other
    by_cases hother : other = id
    · subst hother
      simpa using ⟨hbelow, hsequenced.increasing other⟩
    · simpa [hother] using hsequenced.increasing other
  · intro other node hnode
    rw [lookup_insert_eq] at hnode
    split at hnode
    · next hother =>
      cases hnode
      simp [hother]
    · next hother => simpa [hother] using hsequenced.newest other node hnode

theorem Sequenced.of_handled {config : Config} {sender : Option Identity} {isLocal : Bool} {now : Int}
    {message : ClientMessage} {handled : Handled} (hsequenced : Sequenced core sequences)
    (hhandle : handle config sender isLocal now message core = .ok handled) :
    Sequenced (handled.core core) (recordSequences core message handled sequences) := by
  rcases handle_cases hhandle with ⟨hello, next, rfl, rfl, hnext⟩ | ⟨state, next, rfl, rfl, hnext⟩ |
    ⟨state, rfl, rfl⟩ | ⟨state, next, rfl, rfl, hnext⟩ | ⟨drain, rfl, rfl⟩
  · obtain ⟨_, _, _, _, range, _, _, _, _, rfl⟩ := handleHello_eq_ok.mp hnext
    exact hsequenced.register _ range now
  · obtain ⟨_, _, _, _, rfl⟩ := handleNodeState_eq_retired hnext
    exact hsequenced.of_sublist fun _ _ ↦ lookup_unregister
  · exact hsequenced
  · obtain ⟨id, old, hsession, _, _, _, hfresh, rfl⟩ := handleNodeState_eq_stored hnext
    simp only [recordSequences, hsession]
    exact hsequenced.store (sessionNode_eq_some.mp hsession).2.2.1 hfresh
  · exact hsequenced.of_sublist fun _ _ ↦ lookup_handleDrain

end Sequences

end Podmin.Agent.Coordination
