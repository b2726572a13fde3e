import Podmin.Agent.Coordinator.WrittenBodies
import Podmin.Foundation.LatestSlot

/-!
# Subscribers of a coordinator

`Subscribe` registers its channel and reads the current snapshot under the coordinator's mutex, and
puts the snapshot into the channel after it has released the mutex. `broadcast` holds the mutex while
it empties and refills every registered channel with operations that do not block. Each operation on a
channel and each region under the mutex is one step here.
-/

namespace Podmin.Agent.Coordination

open Foundation Transition LatestSlot Api

variable {hub : Hub} {channel : Nat} {snapshot : Snapshot} {rest : List Nat}

/-! ## The system -/

/-- A broadcast under way: the channels it has not come to, and the one it has just emptied. -/
structure Broadcast where
  message : Snapshot
  todo : List Nat
  drained : Option Nat

/-- The current snapshot, the registered channels, and the broadcast that holds the mutex. -/
structure Hub where
  snapshot : Option Snapshot
  subscribers : GoMap Nat (Slot Snapshot)
  broadcasting : Option Broadcast

inductive HubEvent where
  | apply (snapshot : Snapshot)
  | subscribe (channel : Nat)
  | send (channel : Nat)
  | receive (channel : Nat)
  | unsubscribe (channel : Nat)
  | broadcast (snapshot : Snapshot)
  | drain
  | fill
  | finish

def Hub.set (hub : Hub) (channel : Nat) (slot : Slot Snapshot) : Hub :=
  { hub with subscribers := hub.subscribers.insert channel slot }

inductive Hub.Step (hub : Hub) : HubEvent → Hub → Prop
  | apply (snapshot : Snapshot) (hfree : hub.broadcasting = none)
      (hnewer : upToDate hub.snapshot snapshot = false) :
      Hub.Step hub (.apply snapshot) { hub with snapshot := some snapshot }
  -- a nil snapshot gives no message, and `Subscribe` returns at once
  | subscribe (channel : Nat) (hfree : hub.broadcasting = none)
      (hnew : hub.subscribers.lookup channel = none) :
      Hub.Step hub (.subscribe channel) (hub.set channel (.opened hub.snapshot))
  | send {channel : Nat} {slot : Slot Snapshot} {message : Snapshot}
      (hslot : hub.subscribers.lookup channel = some slot) (hunsent : slot.unsent = some message)
      (hempty : slot.held = none) :
      Hub.Step hub (.send channel) (hub.set channel (slot.put message))
  -- a subscriber reads after `Subscribe` has returned
  | receive {channel : Nat} {slot : Slot Snapshot} {message : Snapshot}
      (hslot : hub.subscribers.lookup channel = some slot) (hreturned : slot.unsent = none)
      (hheld : slot.held = some message) :
      Hub.Step hub (.receive channel) (hub.set channel (slot.take message))
  | unsubscribe {channel : Nat} {slot : Slot Snapshot} (hfree : hub.broadcasting = none)
      (hslot : hub.subscribers.lookup channel = some slot) (hreturned : slot.unsent = none) :
      Hub.Step hub (.unsubscribe channel)
        { hub with subscribers := hub.subscribers.erase channel }
  -- `publish` has applied the snapshot, or a newer one was there
  | broadcast {snapshot : Snapshot} {channels : List Nat} (hfree : hub.broadcasting = none)
      (happlied : upToDate hub.snapshot snapshot = true)
      (hchannels : channels.Perm (hub.subscribers.pairs.map Prod.fst)) :
      Hub.Step hub (.broadcast snapshot) { hub with broadcasting := some ⟨snapshot, channels, none⟩ }
  | drain {snapshot : Snapshot} {channel : Nat} {rest : List Nat} {slot : Slot Snapshot}
      (hturn : hub.broadcasting = some ⟨snapshot, channel :: rest, none⟩)
      (hslot : hub.subscribers.lookup channel = some slot) :
      Hub.Step hub .drain
        { hub.set channel slot.drain with broadcasting := some ⟨snapshot, rest, some channel⟩ }
  | fill {snapshot : Snapshot} {channel : Nat} {rest : List Nat} {slot : Slot Snapshot}
      (hturn : hub.broadcasting = some ⟨snapshot, rest, some channel⟩)
      (hslot : hub.subscribers.lookup channel = some slot) :
      Hub.Step hub .fill
        { hub.set channel (slot.offer snapshot) with broadcasting := some ⟨snapshot, rest, none⟩ }
  | finish {snapshot : Snapshot} (hturn : hub.broadcasting = some ⟨snapshot, [], none⟩) :
      Hub.Step hub .finish { hub with broadcasting := none }

def hubSystem : System Hub HubEvent where
  init hub := hub.subscribers = ∅ ∧ hub.broadcasting = none
  step := Hub.Step

/-- A broadcast of the current snapshot, which comes to a channel after `Subscribe` has put its first
message there. -/
def Settled (hub : Hub) : HubEvent → Prop
  | .broadcast snapshot => hub.snapshot = some snapshot
  | .drain => ∀ snapshot channel rest slot, hub.broadcasting = some ⟨snapshot, channel :: rest, none⟩ →
      hub.subscribers.lookup channel = some slot → slot.unsent = none
  | _ => True

/-- What the subscribers rely on: a pending `Subscribe` can go on at once, nobody gets an older
snapshot after a newer one, and the last broadcast arrives. -/
structure Hub.Delivers (hub : Hub) : Prop where
  returns : ∀ channel slot, hub.subscribers.lookup channel = some slot → slot.unsent ≠ none →
    slot.held = none
  ordered : ∀ channel slot, hub.subscribers.lookup channel = some slot →
    slot.received.Pairwise fun later earlier ↦ version earlier ≤ version later
  latest : hub.broadcasting = none → ∀ channel slot, hub.subscribers.lookup channel = some slot →
    slot.Delivered

/-! ## Settled runs -/

/-- The channel the broadcast has emptied and not filled. -/
def Hub.drained (hub : Hub) : Option Nat :=
  hub.broadcasting.bind Broadcast.drained

structure Hub.Sound (hub : Hub) : Prop where
  rising : ∀ channel slot, hub.subscribers.lookup channel = some slot →
    slot.Rising version hub.snapshot
  delivered : ∀ channel slot, hub.subscribers.lookup channel = some slot →
    hub.drained ≠ some channel → slot.Delivered
  empty : ∀ channel slot, hub.subscribers.lookup channel = some slot → hub.drained = some channel →
    slot.unsent = none ∧ slot.held = none
  current : ∀ broadcast, hub.broadcasting = some broadcast → hub.snapshot = some broadcast.message

theorem Hub.Sound.delivers (hsound : hub.Sound) : hub.Delivers where
  returns channel slot hslot hunsent := ((hsound.rising channel slot hslot).unused hunsent).1
  ordered channel slot hslot := (hsound.rising channel slot hslot).ordered
  latest hfree channel slot hslot := by
    apply hsound.delivered channel slot hslot
    simp [Hub.drained, hfree]

variable {slot : Slot Snapshot}

/-- The channels of a hub in which one has been set. -/
theorem lookup_set {other : Nat} {found : Slot Snapshot}
    (hfound : (hub.set channel slot).subscribers.lookup other = some found) :
    (other = channel ∧ found = slot) ∨
      (other ≠ channel ∧ hub.subscribers.lookup other = some found) := by
  have hlookup := (GoMap.lookup_insert_eq hub.subscribers channel other slot).symm.trans hfound
  split at hlookup
  · next hsame => exact .inl ⟨hsame, (Option.some.inj hlookup).symm⟩
  · next hother => exact .inr ⟨hother, hlookup⟩

/-- A step that changes one channel, and whether the broadcast has emptied it. -/
theorem Hub.Sound.change (hsound : hub.Sound) {turn : Option Broadcast}
    (hrising : slot.Rising version hub.snapshot)
    (hdelivered : turn.bind Broadcast.drained ≠ some channel → slot.Delivered)
    (hempty : turn.bind Broadcast.drained = some channel → slot.unsent = none ∧ slot.held = none)
    (hothers : ∀ other ≠ channel, turn.bind Broadcast.drained = some other ↔ hub.drained = some other)
    (hcurrent : ∀ broadcast, turn = some broadcast → hub.snapshot = some broadcast.message) :
    Hub.Sound { hub.set channel slot with broadcasting := turn } where
  rising other found hfound := by
    rcases lookup_set hfound with ⟨_, rfl⟩ | ⟨_, hbefore⟩
    · exact hrising
    · exact hsound.rising other found hbefore
  delivered other found hfound hne := by
    rcases lookup_set hfound with ⟨rfl, rfl⟩ | ⟨hother, hbefore⟩
    · exact hdelivered hne
    · exact hsound.delivered other found hbefore (mt (hothers other hother).mpr hne)
  empty other found hfound hdrained := by
    rcases lookup_set hfound with ⟨rfl, rfl⟩ | ⟨hother, hbefore⟩
    · exact hempty hdrained
    · exact hsound.empty other found hbefore ((hothers other hother).mp hdrained)
  current := hcurrent

theorem Hub.Sound.set (hsound : hub.Sound) (hrising : slot.Rising version hub.snapshot)
    (hdelivered : slot.Delivered) (hother : hub.drained ≠ some channel) : (hub.set channel slot).Sound :=
  hsound.change hrising (fun _ ↦ hdelivered) (fun hdrained ↦ absurd hdrained hother) (fun _ _ ↦ Iff.rfl)
    hsound.current

theorem Hub.Sound.step {hub next : Hub} (hsound : hub.Sound) {event : HubEvent}
    (hsettled : Settled hub event) (hstep : hub.Step event next) : next.Sound := by
  cases hstep with
  | apply snapshot hfree hnewer =>
    refine ⟨?_, hsound.delivered, hsound.empty, ?_⟩
    · intro channel slot hslot
      refine (hsound.rising channel slot hslot).mono ?_
      intro held hheld
      rw [hheld] at hnewer
      exact (version_lt_of_newer hnewer).le
    · intro broadcast hturn
      cases hfree.symm.trans hturn
  | subscribe channel hfree hnew =>
    refine hsound.set (Slot.rising_opened hub.snapshot) (Slot.delivered_opened _) ?_
    simp [Hub.drained, hfree]
  | send hslot hunsent hempty =>
    have hrising := hsound.rising _ _ hslot
    refine hsound.set (hrising.put hunsent) (hrising.delivered_put hunsent) ?_
    -- the emptied channel has had its first message
    intro hdrained
    rw [(hsound.empty _ _ hslot hdrained).1] at hunsent
    cases hunsent
  | @receive channel slot message hslot hreturned hheld =>
    have hother : hub.drained ≠ some channel := by
      intro hdrained
      rw [(hsound.empty _ _ hslot hdrained).2] at hheld
      cases hheld
    exact hsound.set ((hsound.rising _ _ hslot).take hreturned hheld)
      ((hsound.delivered _ _ hslot hother).take hheld) hother
  | @unsubscribe channel slot hfree hslot hreturned =>
    have hbefore : ∀ other found, (hub.subscribers.erase channel).lookup other = some found →
        hub.subscribers.lookup other = some found := by
      intro other found hfound
      rw [GoMap.lookup_erase_eq] at hfound
      split at hfound
      · cases hfound
      · exact hfound
    exact ⟨fun other found hfound ↦ hsound.rising other found (hbefore other found hfound),
      fun other found hfound ↦ hsound.delivered other found (hbefore other found hfound),
      fun other found hfound ↦ hsound.empty other found (hbefore other found hfound), hsound.current⟩
  | broadcast hfree happlied hchannels =>
    have hnone : hub.drained = none := by simp [Hub.drained, hfree]
    refine ⟨hsound.rising, ?_, ?_, ?_⟩
    · intro channel slot hslot _
      exact hsound.delivered channel slot hslot (by simp [hnone])
    · rintro channel slot _ ⟨⟩
    · rintro _ ⟨rfl⟩
      exact hsettled
  | drain hturn hslot =>
    have hreturned := hsettled _ _ _ _ hturn hslot
    have hcurrent := hsound.current _ hturn
    refine hsound.change (hsound.rising _ _ hslot).drain (fun hne ↦ absurd rfl hne)
      (fun _ ↦ ⟨hreturned, rfl⟩) (fun other hne ↦ by simp [Hub.drained, hturn, hne.symm]) ?_
    rintro _ ⟨rfl⟩
    exact hcurrent
  | fill hturn hslot =>
    -- the emptied channel is still empty
    obtain ⟨hreturned, hheld⟩ := hsound.empty _ _ hslot (by simp [Hub.drained, hturn])
    have hcurrent := hsound.current _ hturn
    refine hsound.change ?_ (fun _ ↦ Slot.delivered_offer hheld) (fun hdrained ↦ nomatch hdrained)
      (fun other hne ↦ by simp [Hub.drained, hturn, hne.symm]) ?_
    · have hrising := hsound.rising _ _ hslot
      rw [hcurrent] at hrising ⊢
      exact hrising.offer hreturned hheld
    · rintro _ ⟨rfl⟩
      exact hcurrent
  | finish hturn =>
    have hnone : hub.drained = none := by simp [Hub.drained, hturn]
    refine ⟨hsound.rising, ?_, ?_, ?_⟩
    · intro channel slot hslot _
      exact hsound.delivered channel slot hslot (by simp [hnone])
    · rintro channel slot _ ⟨⟩
    · rintro _ ⟨⟩

theorem lookup_set_self (hub : Hub) (channel : Nat) (slot : Slot Snapshot) :
    (hub.set channel slot).subscribers.lookup channel = some slot :=
  (GoMap.lookup_insert_eq hub.subscribers channel channel slot).trans (if_pos rfl)

/-- A channel that is filled right after it was emptied holds the broadcast, whatever its `Subscribe`
has still to send. -/
theorem Hub.Step.filled {drained filled : Hub} (hdrain : hub.Step .drain drained)
    (hfill : drained.Step .fill filled) (hturn : hub.broadcasting = some ⟨snapshot, channel :: rest, none⟩)
    (hslot : hub.subscribers.lookup channel = some slot) :
    filled.subscribers.lookup channel = some (slot.drain.offer snapshot) := by
  cases hdrain with
  | drain hnow hfound =>
    cases hnow.symm.trans hturn
    cases hfound.symm.trans hslot
    cases hfill with
    | fill hthen hdrained =>
      cases hthen
      cases hdrained.symm.trans (lookup_set_self hub channel slot.drain)
      exact lookup_set_self _ channel _

theorem sound_of_settled (hreach : Reachable (hubSystem.guarded Settled) hub) :
    hub.Sound := by
  refine @Reachable.invariant _ _ _ Hub.Sound ?_ ?_ _ hreach
  · rintro start ⟨hnobody, hfree⟩
    have hnone : ∀ channel slot, start.subscribers.lookup channel ≠ some slot := by
      simp [hnobody]
    refine ⟨?_, ?_, ?_, ?_⟩
    · exact fun channel slot hslot ↦ absurd hslot (hnone channel slot)
    · exact fun channel slot hslot ↦ absurd hslot (hnone channel slot)
    · exact fun channel slot hslot ↦ absurd hslot (hnone channel slot)
    · intro broadcast hturn
      cases hfree.symm.trans hturn
  · intro state event next _ hsound hstep
    exact hsound.step hstep.1 hstep.2

/-- In every run in which broadcasts are of the current snapshot and come to a channel only after its
first message, the subscribers get what they rely on. A broadcast that comes to a channel earlier and
fills it leaves a `Subscribe` that cannot return. -/
theorem delivers_iff_settled {hub : Hub} (hreach : Reachable (hubSystem.guarded Settled) hub) :
    hub.Delivers ∧ ∀ drained filled, hub.Step .drain drained → drained.Step .fill filled →
      (filled.Delivers ↔ Settled hub .drain) := by
  have hsound := sound_of_settled hreach
  refine ⟨hsound.delivers, ?_⟩
  intro drained filled hdrain hfill
  constructor
  · intro hdelivers snapshot channel rest slot hturn hslot
    by_contra hunsent
    cases hdelivers.returns channel _ (hdrain.filled hfill hturn hslot) hunsent
  · intro hsettled
    exact (@Hub.Sound.step drained filled (hsound.step hsettled hdrain) .fill trivial hfill).delivers

/-! ## A broadcast that comes too early -/

/-- A hub with one channel. -/
def Hub.single (current : Snapshot) (slot : Slot Snapshot) (turn : Option Broadcast) : Hub :=
  ⟨some current, (∅ : GoMap Nat (Slot Snapshot)).insert 0 slot, turn⟩

def numbered (revision : Nat) : Snapshot :=
  ⟨1, revision, "node-1", "", []⟩

section Single

variable {current : Snapshot} {slot : Slot Snapshot} {turn : Option Broadcast}

theorem set_single (slot' : Slot Snapshot) (turn turn' : Option Broadcast) :
    { (Hub.single current slot turn).set 0 slot' with broadcasting := turn' } =
      Hub.single current slot' turn' := by
  simp [Hub.single, Hub.set]

theorem lookup_single : (Hub.single current slot turn).subscribers.lookup 0 = some slot :=
  (GoMap.lookup_insert_eq _ 0 0 slot).trans (if_pos rfl)

theorem send_single {message : Snapshot} (hunsent : slot.unsent = some message) (hempty : slot.held = none) :
    (Hub.single current slot turn).Step (.send 0) (Hub.single current (slot.put message) turn) :=
  set_single (slot.put message) turn turn ▸ Hub.Step.send lookup_single hunsent hempty

theorem broadcast_single : (Hub.single current slot none).Step (.broadcast current)
    (Hub.single current slot (some ⟨current, [0], none⟩)) :=
  .broadcast rfl (upToDate_iff.mpr le_rfl) (List.Perm.refl [0])

theorem drain_single : (Hub.single current slot (some ⟨current, [0], none⟩)).Step .drain
    (Hub.single current slot.drain (some ⟨current, [], some 0⟩)) :=
  set_single slot.drain (some ⟨current, [0], none⟩) (some ⟨current, [], some 0⟩) ▸
    Hub.Step.drain rfl lookup_single

theorem fill_single : (Hub.single current slot (some ⟨current, [], some 0⟩)).Step .fill
    (Hub.single current (slot.offer current) (some ⟨current, [], none⟩)) :=
  set_single (slot.offer current) (some ⟨current, [], some 0⟩) (some ⟨current, [], none⟩) ▸
    Hub.Step.fill rfl lookup_single

end Single

/-- A channel is registered with revision 1, and the first message is not sent before revision 2 is
broadcast: `Subscribe` is blocked. The broadcast of revision 3 lets it send revision 1, and is lost. -/
theorem early_broadcast_lost :
    Reachable hubSystem (Hub.single (numbered 2) ⟨some (numbered 1), some (numbered 2), [],
        some (numbered 2)⟩ none) ∧
      Reachable hubSystem (Hub.single (numbered 3) ⟨none, some (numbered 1), [], some (numbered 3)⟩
        none) ∧
      ¬(Hub.single (numbered 2) ⟨some (numbered 1), some (numbered 2), [], some (numbered 2)⟩
        none).Delivers ∧
      ¬(Hub.single (numbered 3) ⟨none, some (numbered 1), [], some (numbered 3)⟩ none).Delivers := by
  have hstart : Reachable hubSystem ⟨some (numbered 1), ∅, none⟩ := .init ⟨rfl, rfl⟩
  have hsubscribed : Reachable hubSystem
      (Hub.single (numbered 1) (.opened (some (numbered 1))) none) :=
    hstart.step (Hub.Step.subscribe 0 rfl rfl)
  have happlied : Reachable hubSystem (Hub.single (numbered 2) (.opened (some (numbered 1))) none) :=
    hsubscribed.step (Hub.Step.apply (numbered 2) rfl rfl)
  have hblocked : Reachable hubSystem (Hub.single (numbered 2) ⟨some (numbered 1), some (numbered 2), [],
      some (numbered 2)⟩ none) :=
    (((happlied.step broadcast_single).step drain_single).step fill_single).step (Hub.Step.finish rfl)
  have hagain : Reachable hubSystem (Hub.single (numbered 3) ⟨some (numbered 1), some (numbered 2), [],
      some (numbered 2)⟩ none) := hblocked.step (Hub.Step.apply (numbered 3) rfl rfl)
  have hdrained := (hagain.step broadcast_single).step drain_single
  have hsent := hdrained.step (send_single rfl rfl)
  have hlost := (hsent.step fill_single).step (Hub.Step.finish rfl)
  refine ⟨hblocked, hlost, ?_, ?_⟩
  · intro hdelivers
    cases hdelivers.returns 0 _ lookup_single (by simp)
  · intro hdelivers
    have hlatest := hdelivers.latest rfl 0 _ lookup_single (numbered 3) rfl
    simp [numbered] at hlatest

/-- `Subscribe` has returned when a broadcast comes, which replaces its message. -/
theorem delivers_iff_settled_broadcast :
    ∃ hub drained filled, Reachable (hubSystem.guarded Settled) hub ∧ hub.Step .drain drained ∧
      drained.Step .fill filled ∧ filled.Delivers ∧
      (Hub.single (numbered 2) ⟨none, some (numbered 2), [], some (numbered 2)⟩ none).Delivers := by
  have hstart : Reachable (hubSystem.guarded Settled) ⟨some (numbered 1), ∅, none⟩ := .init ⟨rfl, rfl⟩
  have hsubscribed : Reachable (hubSystem.guarded Settled)
      (Hub.single (numbered 1) (.opened (some (numbered 1))) none) :=
    hstart.guarded_step (Hub.Step.subscribe 0 rfl rfl) trivial
  have hsent := hsubscribed.guarded_step (send_single rfl rfl) trivial
  have happlied : Reachable (hubSystem.guarded Settled)
      (Hub.single (numbered 2) ⟨none, some (numbered 1), [], none⟩ none) :=
    hsent.guarded_step (Hub.Step.apply (numbered 2) rfl rfl) trivial
  have hbroadcast := happlied.guarded_step broadcast_single rfl
  have hsettled : Settled (Hub.single (numbered 2) ⟨none, some (numbered 1), [], none⟩
      (some ⟨numbered 2, [0], none⟩)) .drain := by
    rintro _ _ _ _ ⟨rfl⟩ hslot
    cases lookup_single.symm.trans hslot
    rfl
  have hfilled := (hbroadcast.guarded_step drain_single hsettled).guarded_step fill_single trivial
  have hfinished := hfilled.guarded_step (Hub.Step.finish rfl) trivial
  exact ⟨_, _, _, hbroadcast, drain_single, fill_single,
    ((delivers_iff_settled hbroadcast).2 _ _ drain_single fill_single).mpr hsettled,
    (delivers_iff_settled hfinished).1⟩

end Podmin.Agent.Coordination
