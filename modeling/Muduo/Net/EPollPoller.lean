import Muduo.Net.Channel

/-!
EPollPoller.cc: updateChannel and removeChannel, and the calls of Channel that
lead to them. Both functions touch the poller at one key only, the channel's
descriptor, so the poller is given by its slot for that descriptor: the entry of
channels_ and the entry of the kernel's interest list. epoll_ctl follows its
manual page: ADD needs an absent entry, MOD and DEL a present one.
-/
namespace Muduo
open Lib

structure Slot where
  registered : Option Nat
  interest : Option Events
  deriving DecidableEq, Repr

namespace EPollPoller

def kNew : Int := -1
def kAdded : Int := 1
def kDeleted : Int := 2

inductive CtlOp where
  | add
  | del
  | mod
  deriving DecidableEq, Repr

def operationToString : CtlOp → String
  | .add => "ADD"
  | .del => "DEL"
  | .mod => "MOD"

def epollCtl {α : Type} (event : α) : CtlOp → Option α → Option (Option α)
  | .add, none => some (some event)
  | .mod, some _ => some (some event)
  | .del, some _ => some none
  | _, _ => none

/-- A failed DEL is logged and a failed ADD or MOD is LOG_SYSFATAL, which aborts. -/
def update (operation : CtlOp) (channel : Channel) (slot : Slot) : Checked Slot :=
  match epollCtl channel.events_ operation slot.interest with
  | some interest => pure { slot with interest := interest }
  | none =>
    if operation = .del then pure slot
    else .error ("epoll_ctl op =" ++ operationToString operation ++ " fd =" ++ toString channel.fd_)

def updateChannel (channel : Channel) (slot : Slot) : Checked (Channel × Slot) := do
  if channel.index_ = kNew ∨ channel.index_ = kDeleted then
    let slot ←
      if channel.index_ = kNew then do
        assertThat (slot.registered = none) "channels_.find(fd) == channels_.end()"
        pure { slot with registered := some channel.address }
      else do
        assertThat (slot.registered ≠ none) "channels_.find(fd) != channels_.end()"
        assertThat (slot.registered = some channel.address) "channels_[fd] == channel"
        pure slot
    let channel := channel.set_index kAdded
    let slot ← update .add channel slot
    pure (channel, slot)
  else
    assertThat (slot.registered ≠ none) "channels_.find(fd) != channels_.end()"
    assertThat (slot.registered = some channel.address) "channels_[fd] == channel"
    assertThat (channel.index_ = kAdded) "index == kAdded"
    if channel.isNoneEvent then
      let slot ← update .del channel slot
      pure (channel.set_index kDeleted, slot)
    else
      let slot ← update .mod channel slot
      pure (channel, slot)

def removeChannel (channel : Channel) (slot : Slot) : Checked (Channel × Slot) := do
  assertThat (slot.registered ≠ none) "channels_.find(fd) != channels_.end()"
  assertThat (slot.registered = some channel.address) "channels_[fd] == channel"
  assertThat channel.isNoneEvent "channel->isNoneEvent()"
  assertThat (channel.index_ = kAdded ∨ channel.index_ = kDeleted)
    "index == kAdded || index == kDeleted"
  let slot := { slot with registered := none }
  let slot ← if channel.index_ = kAdded then update .del channel slot else pure slot
  pure (channel.set_index kNew, slot)

end EPollPoller

namespace Channel
open EPollPoller

/-- Channel::update, through EventLoop::updateChannel to the poller. -/
def update (ch : Channel) (slot : Slot) : Checked (Channel × Slot) :=
  updateChannel { ch with addedToLoop_ := true } slot

def enableReading (ch : Channel) : Slot → Checked (Channel × Slot) :=
  update { ch with events_ := ch.events_.union .kReadEvent }

def disableReading (ch : Channel) : Slot → Checked (Channel × Slot) :=
  update { ch with events_ := ch.events_.without .kReadEvent }

def enableWriting (ch : Channel) : Slot → Checked (Channel × Slot) :=
  update { ch with events_ := ch.events_.union .kWriteEvent }

def disableWriting (ch : Channel) : Slot → Checked (Channel × Slot) :=
  update { ch with events_ := ch.events_.without .kWriteEvent }

def disableAll (ch : Channel) : Slot → Checked (Channel × Slot) :=
  update { ch with events_ := .kNoneEvent }

/-- What EventLoop::removeChannel looks at: eventHandling_, whether the channel is
    currentActiveChannel_, and whether it is in activeChannels_. -/
structure LoopView where
  eventHandling_ : Bool
  isCurrent : Bool
  isActive : Bool
  deriving DecidableEq, Repr

def LoopView.MayRemove (v : LoopView) : Prop :=
  v.eventHandling_ = true → v.isCurrent = true ∨ v.isActive = false

instance (v : LoopView) : Decidable v.MayRemove := by
  unfold LoopView.MayRemove
  infer_instance

def remove (ch : Channel) (view : LoopView) (slot : Slot) : Checked (Channel × Slot) := do
  assertThat ch.isNoneEvent "isNoneEvent()"
  let ch := { ch with addedToLoop_ := false }
  assertThat view.MayRemove
    "currentActiveChannel_ == channel || find(activeChannels_, channel) == end"
  removeChannel ch slot

def slotOf (ch : Channel) : Slot :=
  if ch.index_ = kAdded then ⟨some ch.address, some ch.events_⟩
  else if ch.index_ = kDeleted then ⟨some ch.address, none⟩
  else ⟨none, none⟩

structure Synced (ch : Channel) (slot : Slot) : Prop where
  index : ch.index_ = kNew ∨ ch.index_ = kAdded ∨ ch.index_ = kDeleted
  slot : slot = ch.slotOf

/-- A synced channel after its interest became `events`. Without interest it stays
    in the kernel's list exactly when it was not there before: kDeleted and kNew
    both lead to an ADD. -/
def updated (ch : Channel) (events : Events) : Channel :=
  { ch with
    events_ := events
    addedToLoop_ := true
    index_ := if ch.index_ = kAdded ∧ events = .kNoneEvent then kDeleted else kAdded }

theorem kNew_ne_kAdded : kNew ≠ kAdded := by decide
theorem kNew_ne_kDeleted : kNew ≠ kDeleted := by decide
theorem kDeleted_ne_kAdded : kDeleted ≠ kAdded := by decide

theorem synced_updated (ch : Channel) (events : Events) :
    Synced (ch.updated events) (ch.updated events).slotOf := by
  constructor
  · simp only [updated]
    split
    · exact Or.inr (Or.inr rfl)
    · exact Or.inr (Or.inl rfl)
  · rfl

theorem update_spec {ch : Channel} {slot : Slot} (synced : Synced ch slot) (events : Events) :
    update { ch with events_ := events } slot =
      .ok (ch.updated events, (ch.updated events).slotOf) := by
  obtain ⟨index, rfl⟩ := synced
  rcases index with new | added | deleted
  · simp [update, updateChannel, updated, slotOf, new, kNew_ne_kAdded, kNew_ne_kDeleted,
      EPollPoller.update, epollCtl, set_index]
  · by_cases none : events = .kNoneEvent
    · simp [update, updateChannel, updated, slotOf, added, none, kNew_ne_kAdded.symm,
        kDeleted_ne_kAdded, kDeleted_ne_kAdded.symm, EPollPoller.update, epollCtl, set_index,
        isNoneEvent]
    · simp [update, updateChannel, updated, slotOf, added, none, kNew_ne_kAdded.symm,
        kDeleted_ne_kAdded.symm, EPollPoller.update, epollCtl, isNoneEvent]
  · simp [update, updateChannel, updated, slotOf, deleted, kNew_ne_kDeleted.symm,
      kDeleted_ne_kAdded, EPollPoller.update, epollCtl, set_index]

theorem remove_spec {ch : Channel} {slot : Slot} {view : LoopView} (synced : Synced ch slot)
    (none : ch.isNoneEvent) (known : ch.index_ ≠ kNew) (may : view.MayRemove) :
    remove ch view slot =
      .ok ({ ch with addedToLoop_ := false, index_ := kNew }, ⟨Option.none, Option.none⟩) := by
  obtain ⟨index, rfl⟩ := synced
  have none' : ch.events_ = .kNoneEvent := none
  rcases index with new | added | deleted
  · exact absurd new known
  · simp [remove, removeChannel, slotOf, added, isNoneEvent, none', may, EPollPoller.update,
      epollCtl, set_index]
  · simp [remove, removeChannel, slotOf, deleted, isNoneEvent, none', may, kDeleted_ne_kAdded,
      set_index]

end Channel
end Muduo
