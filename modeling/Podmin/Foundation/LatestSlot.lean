import Mathlib.Data.List.Basic
import Mathlib.Order.Basic

/-!
# A channel with one slot that keeps the latest message

The maker of a channel puts a first message into its only slot, or none. A broadcaster replaces what
the slot holds: it takes the old message out and then offers the new one, which is dropped when the
slot has been filled in between. A reader takes messages out. When the first message is in before the
broadcaster comes, the reader gets messages of rising rank, and the last one that was offered.
-/

namespace Podmin.Foundation.LatestSlot

variable {Message Rank : Type*}

/-- A channel: what its maker has not put in yet, what the slot holds, what the reader has got, newest
first, and the last message offered. -/
structure Slot (Message : Type*) where
  unsent : Option Message
  held : Option Message
  received : List Message
  latest : Option Message

namespace Slot

def opened (first : Option Message) : Slot Message :=
  ⟨first, none, [], none⟩

/-- The maker puts the first message in. -/
def put (slot : Slot Message) (message : Message) : Slot Message :=
  { slot with unsent := none, held := some message }

/-- The reader takes a message. -/
def take (slot : Slot Message) (message : Message) : Slot Message :=
  { slot with held := none, received := message :: slot.received }

def drain (slot : Slot Message) : Slot Message :=
  { slot with held := none }

/-- The broadcaster offers a message; a full slot keeps what it holds. -/
def offer (slot : Slot Message) (message : Message) : Slot Message :=
  { slot with held := slot.held.or (some message), latest := some message }

/-- The message offered last is in the slot or has been read. -/
def Delivered (slot : Slot Message) : Prop :=
  ∀ message, slot.latest = some message → slot.held = some message ∨ message ∈ slot.received

variable [Preorder Rank] (rank : Message → Rank)

/-- The message has at most the rank of the limit. -/
def Below (limit : Option Message) (message : Message) : Prop :=
  ∃ top, limit = some top ∧ rank message ≤ rank top

/-- Ranks rise towards the slot and stay below the limit, and a channel whose first message is not in
yet has not been used. -/
structure Rising (limit : Option Message) (slot : Slot Message) : Prop where
  unused : slot.unsent ≠ none → slot.held = none ∧ slot.received = [] ∧ slot.latest = none
  first : ∀ message, slot.unsent = some message → Below rank limit message
  next : ∀ message, slot.held = some message → Below rank limit message
  read : ∀ message ∈ slot.received, Below rank limit message
  newest : ∀ message, slot.held = some message → ∀ earlier ∈ slot.received, rank earlier ≤ rank message
  ordered : slot.received.Pairwise fun later earlier ↦ rank earlier ≤ rank later

variable {rank} {limit : Option Message} {slot : Slot Message} {message : Message}

theorem Below.mono {top : Message} (hbelow : Below rank limit message)
    (htop : ∀ held, limit = some held → rank held ≤ rank top) : Below rank (some top) message := by
  obtain ⟨held, hheld, hle⟩ := hbelow
  exact ⟨top, rfl, hle.trans (htop held hheld)⟩

theorem rising_opened (limit : Option Message) : Rising rank limit (opened limit) where
  unused _ := ⟨rfl, rfl, rfl⟩
  first message hfirst := ⟨message, hfirst, le_rfl⟩
  next := by simp [opened]
  read := by simp [opened]
  newest := by simp [opened]
  ordered := .nil

theorem Rising.mono {top : Message} (hrising : Rising rank limit slot)
    (htop : ∀ held, limit = some held → rank held ≤ rank top) : Rising rank (some top) slot where
  unused := hrising.unused
  first message hfirst := (hrising.first message hfirst).mono htop
  next message hnext := (hrising.next message hnext).mono htop
  read message hread := (hrising.read message hread).mono htop
  newest := hrising.newest
  ordered := hrising.ordered

theorem Rising.put (hrising : Rising rank limit slot) (hunsent : slot.unsent = some message) :
    Rising rank limit (slot.put message) where
  unused hneq := absurd rfl hneq
  first := by simp [Slot.put]
  next := by
    rintro _ ⟨rfl⟩
    exact hrising.first message hunsent
  read := hrising.read
  newest := by
    have hunused := hrising.unused (by simp [hunsent])
    simp [Slot.put, hunused.2.1]
  ordered := hrising.ordered

theorem Rising.take (hrising : Rising rank limit slot) (hunsent : slot.unsent = none)
    (hheld : slot.held = some message) : Rising rank limit (slot.take message) where
  unused hneq := absurd hunsent hneq
  first := hrising.first
  next := by simp [Slot.take]
  read := List.forall_mem_cons.mpr ⟨hrising.next message hheld, hrising.read⟩
  newest := by simp [Slot.take]
  ordered := List.pairwise_cons.mpr ⟨hrising.newest message hheld, hrising.ordered⟩

theorem Rising.drain (hrising : Rising rank limit slot) : Rising rank limit slot.drain where
  unused hneq := ⟨rfl, (hrising.unused hneq).2⟩
  first := hrising.first
  next := by simp [Slot.drain]
  read := hrising.read
  newest := by simp [Slot.drain]
  ordered := hrising.ordered

/-- The message of the highest rank goes into an empty slot. -/
theorem Rising.offer (hrising : Rising rank (some message) slot) (hunsent : slot.unsent = none)
    (hheld : slot.held = none) : Rising rank (some message) (slot.offer message) where
  unused hneq := absurd hunsent hneq
  first := hrising.first
  next := by
    intro other hother
    rw [Slot.offer, hheld] at hother
    cases hother
    exact ⟨message, rfl, le_rfl⟩
  read := hrising.read
  newest := by
    intro other hother earlier hearlier
    rw [Slot.offer, hheld] at hother
    cases hother
    obtain ⟨top, htop, hle⟩ := hrising.read earlier hearlier
    cases htop
    exact hle
  ordered := hrising.ordered

/-! ## Delivery -/

theorem delivered_opened (first : Option Message) : (opened first).Delivered := by
  simp [Delivered, opened]

theorem Rising.delivered_put (hrising : Rising rank limit slot) (hunsent : slot.unsent = some message) :
    (slot.put message).Delivered := by
  have hunused := hrising.unused (by simp [hunsent])
  simp [Delivered, Slot.put, hunused.2.2]

theorem Delivered.take (hdelivered : slot.Delivered) (hheld : slot.held = some message) :
    (slot.take message).Delivered := by
  intro latest hlatest
  rcases hdelivered latest hlatest with hslot | hreceived
  · rw [hheld] at hslot
    exact .inr (Option.some.inj hslot ▸ List.mem_cons_self)
  · exact .inr (List.mem_cons_of_mem _ hreceived)

theorem delivered_offer (hheld : slot.held = none) : (slot.offer message).Delivered := by
  rintro latest ⟨rfl⟩
  left
  rw [Slot.offer, hheld]
  rfl

end Slot

end Podmin.Foundation.LatestSlot
