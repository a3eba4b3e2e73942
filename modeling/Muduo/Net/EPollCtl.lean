import Muduo.Net.Pollers

/-!
EPollPoller with the kernel's side of it: the interest list by descriptor, each entry
with the epoll_event it was given, and the epoll_ctl calls in the order they were
made. A channel's index_ has to mirror channels_ and that list; then every epoll_ctl
call finds what it needs.
-/
namespace Muduo
open Lib
namespace EPollCtl
open EPollPoller (CtlOp kNew kAdded kDeleted operationToString epollCtl)
variable {calls : List Pollers.Call}

structure EpollEvent where
  events : Events
  ptr : Nat
  deriving DecidableEq, Repr

structure CtlCall where
  operation : CtlOp
  fd : Nat
  legal : Bool
  deriving DecidableEq, Repr

structure Poller where
  objects : Nat → Channel
  channels_ : Nat → Option Nat
  interestList : Nat → Option EpollEvent
  calls : List CtlCall

namespace Poller

def setObject (p : Poller) (channel : Nat) (ch : Channel) : Poller :=
  { p with objects := Function.update p.objects channel ch }

def called (p : Poller) (operation : CtlOp) (fd : Nat) (legal : Bool) : Poller :=
  { p with calls := p.calls ++ [⟨operation, fd, legal⟩] }

def update (p : Poller) (operation : CtlOp) (channel : Nat) : Checked Poller :=
  let ch := p.objects channel
  match epollCtl ⟨ch.events_, channel⟩ operation (p.interestList ch.fd_) with
  | some entry =>
    pure
      { p.called operation ch.fd_ true with
        interestList := Function.update p.interestList ch.fd_ entry }
  | none =>
    if operation = .del then pure (p.called operation ch.fd_ false)
    else .error ("epoll_ctl op =" ++ operationToString operation ++ " fd =" ++ toString ch.fd_)

def updateChannel (p : Poller) (channel : Nat) : Checked Poller := do
  let ch := p.objects channel
  if ch.index_ = kNew ∨ ch.index_ = kDeleted then
    let p ←
      if ch.index_ = kNew then do
        assertThat (p.channels_ ch.fd_ = none) "channels_.find(fd) == channels_.end()"
        pure { p with channels_ := Function.update p.channels_ ch.fd_ (some channel) }
      else do
        assertThat (p.channels_ ch.fd_ ≠ none) "channels_.find(fd) != channels_.end()"
        assertThat (p.channels_ ch.fd_ = some channel) "channels_[fd] == channel"
        pure p
    (p.setObject channel (ch.set_index kAdded)).update .add channel
  else
    assertThat (p.channels_ ch.fd_ ≠ none) "channels_.find(fd) != channels_.end()"
    assertThat (p.channels_ ch.fd_ = some channel) "channels_[fd] == channel"
    assertThat (ch.index_ = kAdded) "index == kAdded"
    if ch.isNoneEvent then
      let p ← p.update .del channel
      pure (p.setObject channel (ch.set_index kDeleted))
    else
      p.update .mod channel

def removeChannel (p : Poller) (channel : Nat) : Checked Poller := do
  let ch := p.objects channel
  assertThat (p.channels_ ch.fd_ ≠ none) "channels_.find(fd) != channels_.end()"
  assertThat (p.channels_ ch.fd_ = some channel) "channels_[fd] == channel"
  assertThat ch.isNoneEvent "channel->isNoneEvent()"
  assertThat (ch.index_ = kAdded ∨ ch.index_ = kDeleted) "index == kAdded || index == kDeleted"
  let p := { p with channels_ := Function.update p.channels_ ch.fd_ none }
  let p ← if ch.index_ = kAdded then p.update .del channel else pure p
  pure (p.setObject channel (ch.set_index kNew))

/-- The events_ that epoll_wait filled, up to numEvents. -/
def fillActiveChannels (p : Poller) : List EpollEvent → Checked (Poller × List Nat)
  | [] => pure (p, [])
  | event :: events => do
    let channel := event.ptr
    let ch := p.objects channel
    assertThat (p.channels_ ch.fd_ ≠ none) "it != channels_.end()"
    assertThat (p.channels_ ch.fd_ = some channel) "it->second == channel"
    let (p, activeChannels) ←
      (p.setObject channel (ch.set_revents event.events)).fillActiveChannels events
    pure (p, channel :: activeChannels)

def updateEvents (p : Poller) (channel : Nat) (events : Events) : Checked Poller :=
  let ch := { p.objects channel with events_ := events, addedToLoop_ := true }
  (p.setObject channel ch).updateChannel channel

def remove (p : Poller) (channel : Nat) : Checked Poller := do
  assertThat (p.objects channel).isNoneEvent "isNoneEvent()"
  let ch := { p.objects channel with addedToLoop_ := false }
  (p.setObject channel ch).removeChannel channel

end Poller

variable {p : Poller} {c d f : Nat} {events : Events}

def slot (p : Poller) (f : Nat) : Slot := ⟨p.channels_ f, (p.interestList f).map EpollEvent.events⟩

def view (p : Poller) : EPollPoller.State := ⟨p.objects, slot p⟩

inductive Mirrors (p : Poller) (c : Nat) : Prop where
  | new (index : (p.objects c).index_ = kNew) (absent : p.channels_ (p.objects c).fd_ = none)
      (unlisted : p.interestList (p.objects c).fd_ = none)
  | added (index : (p.objects c).index_ = kAdded)
      (known : p.channels_ (p.objects c).fd_ = some c)
      (listed : p.interestList (p.objects c).fd_ = some ⟨(p.objects c).events_, c⟩)
  | deleted (index : (p.objects c).index_ = kDeleted)
      (known : p.channels_ (p.objects c).fd_ = some c)
      (unlisted : p.interestList (p.objects c).fd_ = none)
      (idle : (p.objects c).events_ = .kNoneEvent)

def listedFor (c : Nat) (ch : Channel) : Option EpollEvent :=
  if ch.index_ = kAdded then some ⟨ch.events_, c⟩ else none

def updatedTo (p : Poller) (c : Nat) (events : Events) (operation : CtlOp) : Poller :=
  let ch := (p.objects c).updated events
  { objects := Function.update p.objects c ch
    channels_ := Function.update p.channels_ ch.fd_ (some c)
    interestList := Function.update p.interestList ch.fd_ (listedFor c ch)
    calls := p.calls ++ [⟨operation, ch.fd_, true⟩] }

theorem update_known (known : p.channels_ f = some c) :
    Function.update p.channels_ f (some c) = p.channels_ := by
  rw [← known, Function.update_eq_self]

theorem updateEvents_spec (mirrors : Mirrors p c) (events : Events) :
    ∃ operation, p.updateEvents c events = .ok (updatedTo p c events operation) := by
  cases mirrors with
  | new index absent unlisted =>
    refine ⟨.add, ?_⟩
    simp [Poller.updateEvents, Poller.updateChannel, Poller.update, Poller.setObject,
      Poller.called, epollCtl, index, absent, unlisted, updatedTo, Channel.updated, listedFor,
      Channel.set_index, Channel.kNew_ne_kAdded]
  | deleted index known unlisted idle =>
    refine ⟨.add, ?_⟩
    simp [Poller.updateEvents, Poller.updateChannel, Poller.update, Poller.setObject,
      Poller.called, epollCtl, index, known, unlisted, updatedTo, Channel.updated, listedFor,
      Channel.set_index, Channel.kNew_ne_kDeleted.symm, Channel.kDeleted_ne_kAdded,
      update_known known]
  | added index known listed =>
    by_cases none : events = .kNoneEvent
    · refine ⟨.del, ?_⟩
      simp [Poller.updateEvents, Poller.updateChannel, Poller.update, Poller.setObject,
        Poller.called, epollCtl, index, known, listed, updatedTo, Channel.updated, listedFor,
        Channel.set_index, Channel.isNoneEvent, none, Channel.kNew_ne_kAdded.symm,
        Channel.kDeleted_ne_kAdded, Channel.kDeleted_ne_kAdded.symm, update_known known]
    · refine ⟨.mod, ?_⟩
      simp [Poller.updateEvents, Poller.updateChannel, Poller.update, Poller.setObject,
        Poller.called, epollCtl, index, known, listed, updatedTo, Channel.updated, listedFor,
        Channel.isNoneEvent, none, Channel.kNew_ne_kAdded.symm,
        Channel.kDeleted_ne_kAdded.symm, update_known known]

def removedFrom (p : Poller) (c : Nat) (calls : List CtlCall) : Poller :=
  let ch := { p.objects c with addedToLoop_ := false, index_ := kNew }
  { objects := Function.update p.objects c ch
    channels_ := Function.update p.channels_ ch.fd_ none
    interestList := Function.update p.interestList ch.fd_ none
    calls := p.calls ++ calls }

theorem remove_spec (mirrors : Mirrors p c) (known : (p.objects c).index_ ≠ kNew)
    (idle : (p.objects c).isNoneEvent) :
    ∃ calls, p.remove c = .ok (removedFrom p c calls) ∧ ∀ call ∈ calls, call.legal = true := by
  have idle' : (p.objects c).events_ = .kNoneEvent := idle
  cases mirrors with
  | new index absent unlisted => exact absurd index known
  | added index known listed =>
    refine ⟨[⟨.del, (p.objects c).fd_, true⟩], ?_, by simp⟩
    simp [Poller.remove, Poller.removeChannel, Poller.update, Poller.setObject, Poller.called,
      epollCtl, index, known, listed, Channel.isNoneEvent, idle', removedFrom, Channel.set_index]
  | deleted index known unlisted none =>
    refine ⟨[], ?_, by simp⟩
    have same : Function.update p.interestList (p.objects c).fd_ Option.none = p.interestList := by
      rw [← unlisted, Function.update_eq_self]
    simp [Poller.remove, Poller.removeChannel, Poller.setObject, index, known,
      Channel.isNoneEvent, idle', removedFrom, Channel.set_index, Channel.kDeleted_ne_kAdded, same]

theorem mirrors_updatedTo (operation : CtlOp) : Mirrors (updatedTo p c events operation) c := by
  by_cases goes : (p.objects c).index_ = kAdded ∧ events = .kNoneEvent
  · refine .deleted ?_ ?_ ?_ ?_
    · simp [updatedTo, Channel.updated, goes]
    · simp [updatedTo]
    · simp [updatedTo, listedFor, Channel.updated, goes, Channel.kDeleted_ne_kAdded]
    · simp [updatedTo, Channel.updated, goes]
  · refine .added ?_ ?_ ?_
    · simp [updatedTo, Channel.updated, goes]
    · simp [updatedTo]
    · simp [updatedTo, listedFor, Channel.updated, goes]

theorem mirrors_removedFrom (calls : List CtlCall) : Mirrors (removedFrom p c calls) c :=
  .new (by simp [removedFrom]) (by simp [removedFrom]) (by simp [removedFrom])

theorem Mirrors.frame {q : Poller} (mirrors : Mirrors p d) (object : q.objects d = p.objects d)
    (channel : q.channels_ (p.objects d).fd_ = p.channels_ (p.objects d).fd_)
    (entry : q.interestList (p.objects d).fd_ = p.interestList (p.objects d).fd_) :
    Mirrors q d := by
  cases mirrors with
  | new index absent unlisted =>
    exact .new (by rw [object]; exact index) (by rw [object, channel]; exact absent)
      (by rw [object, entry]; exact unlisted)
  | added index known listed =>
    exact .added (by rw [object]; exact index) (by rw [object, channel]; exact known)
      (by rw [object, entry]; exact listed)
  | deleted index known unlisted idle =>
    exact .deleted (by rw [object]; exact index) (by rw [object, channel]; exact known)
      (by rw [object, entry]; exact unlisted) (by rw [object]; exact idle)

structure State where
  poller : Checked Poller
  registry : Registry

/-- removeChannel is called on a registered channel without interest. -/
def step (s : State) : Pollers.Call → Option State
  | .updateChannel c events =>
    some ⟨s.poller >>= fun p => p.updateEvents c events, s.registry.updated c events⟩
  | .removeChannel c =>
    if s.registry.registered c = true ∧ s.registry.interest c = .kNoneEvent then
      some ⟨s.poller >>= fun p => p.remove c, s.registry.without c⟩
    else none

def machine : Machine State Pollers.Call := ⟨step⟩

def start (fd : Nat → Nat) : Poller := ⟨fun c => .new c (fd c), fun _ => none, fun _ => none, []⟩

def init (fd : Nat → Nat) : State := ⟨.ok (start fd), .noChannels⟩

structure Kept (fd : Nat → Nat) (p : Poller) (r : Registry) (c : Nat) : Prop where
  number : (p.objects c).fd_ = fd c
  address : (p.objects c).address = c
  events : (p.objects c).events_ = r.interest c
  known : r.registered c = true → (p.objects c).index_ ≠ kNew
  mirrors : Mirrors p c

structure Tracks (fd : Nat → Nat) (p : Poller) (r : Registry) : Prop where
  kept : ∀ c, Kept fd p r c
  legal : ∀ call ∈ p.calls, call.legal = true

variable {fd : Nat → Nat} {r r' : Registry} {q : Poller} {s t : State}

theorem Kept.frame (kept : Kept fd p r d) (object : q.objects d = p.objects d)
    (channel : q.channels_ (fd d) = p.channels_ (fd d))
    (entry : q.interestList (fd d) = p.interestList (fd d))
    (interest : r'.interest d = r.interest d) (registered : r'.registered d = r.registered d) :
    Kept fd q r' d where
  number := by
    rw [object]
    exact kept.number
  address := by
    rw [object]
    exact kept.address
  events := by
    rw [object, interest]
    exact kept.events
  known := by
    rw [object, registered]
    exact kept.known
  mirrors := by
    rw [← kept.number] at channel entry
    exact kept.mirrors.frame object channel entry

theorem kept_updatedTo (kept : Kept fd p r c) (events : Events) (operation : CtlOp) :
    Kept fd (updatedTo p c events operation) (r.updated c events) c := by
  refine ⟨?_, ?_, ?_, ?_, mirrors_updatedTo operation⟩
  · simpa [updatedTo, Channel.updated] using kept.number
  · simpa [updatedTo, Channel.updated] using kept.address
  · simp [updatedTo, Channel.updated, Registry.updated]
  · intro _
    simp only [updatedTo, Channel.updated, Function.update_self]
    split
    · exact Channel.kNew_ne_kDeleted.symm
    · exact Channel.kNew_ne_kAdded.symm

theorem tracks_update (distinct : Function.Injective fd) (tracks : Tracks fd p r) (c : Nat)
    (events : Events) :
    ∃ q, p.updateEvents c events = .ok q ∧ Tracks fd q (r.updated c events) := by
  have kept := tracks.kept c
  obtain ⟨operation, ran⟩ := updateEvents_spec kept.mirrors events
  refine ⟨_, ran, ?_, ?_⟩
  · intro d
    by_cases same : d = c
    · rw [same]
      exact kept_updatedTo kept events operation
    · have apart : fd d ≠ (p.objects c).fd_ := by
        rw [kept.number]
        exact fun fds => same (distinct fds)
      exact (tracks.kept d).frame (Function.update_of_ne same _ _) (Function.update_of_ne apart _ _)
        (Function.update_of_ne apart _ _) (Function.update_of_ne same _ _)
        (Function.update_of_ne same _ _)
  · intro call member
    rcases List.mem_append.mp member with old | new
    · exact tracks.legal call old
    · rw [List.mem_singleton.mp new]

theorem kept_removedFrom (kept : Kept fd p r c) (calls : List CtlCall) :
    Kept fd (removedFrom p c calls) (r.without c) c := by
  refine ⟨?_, ?_, ?_, ?_, mirrors_removedFrom calls⟩
  · simpa [removedFrom] using kept.number
  · simpa [removedFrom] using kept.address
  · simpa [removedFrom, Registry.without] using kept.events
  · intro registered
    simp [Registry.without] at registered

theorem tracks_remove (distinct : Function.Injective fd) (tracks : Tracks fd p r)
    (known : r.registered c = true) (idle : r.interest c = .kNoneEvent) :
    ∃ q, p.remove c = .ok q ∧ Tracks fd q (r.without c) := by
  have kept := tracks.kept c
  obtain ⟨calls, ran, legal⟩ := remove_spec kept.mirrors (kept.known known) (kept.events.trans idle)
  refine ⟨_, ran, ?_, ?_⟩
  · intro d
    by_cases same : d = c
    · rw [same]
      exact kept_removedFrom kept calls
    · have apart : fd d ≠ (p.objects c).fd_ := by
        rw [kept.number]
        exact fun fds => same (distinct fds)
      exact (tracks.kept d).frame (Function.update_of_ne same _ _) (Function.update_of_ne apart _ _)
        (Function.update_of_ne apart _ _) rfl (Function.update_of_ne same _ _)
  · intro call member
    rcases List.mem_append.mp member with old | new
    · exact tracks.legal call old
    · exact legal call new

def Tracking (fd : Nat → Nat) (s : State) : Prop :=
  ∃ p, s.poller = .ok p ∧ Tracks fd p s.registry

theorem tracking_init (fd : Nat → Nat) : Tracking fd (init fd) := by
  refine ⟨start fd, rfl, ?_, ?_⟩
  · intro c
    refine ⟨rfl, rfl, rfl, ?_, .new rfl rfl rfl⟩
    intro known
    cases known
  · intro call member
    cases member

theorem tracking_step (distinct : Function.Injective fd) {call : Pollers.Call}
    (tracking : Tracking fd s) (taken : step s call = some t) : Tracking fd t := by
  obtain ⟨p, running, tracks⟩ := tracking
  cases call with
  | updateChannel c events =>
    simp only [step, Option.some.injEq] at taken
    subst taken
    obtain ⟨q, ran, after⟩ := tracks_update distinct tracks c events
    exact ⟨q, by rw [running]; exact ran, after⟩
  | removeChannel c =>
    simp only [step, Option.ite_none_right_eq_some, Option.some.injEq] at taken
    obtain ⟨⟨known, idle⟩, rfl⟩ := taken
    obtain ⟨q, ran, after⟩ := tracks_remove distinct tracks known idle
    exact ⟨q, by rw [running]; exact ran, after⟩

theorem tracking_run (distinct : Function.Injective fd)
    (ran : machine.run (init fd) calls = some s) : Tracking fd s :=
  machine.run_invariant (fun _ _ _ => tracking_step distinct) (tracking_init fd) ran

theorem synced_of_kept (kept : Kept fd p r c) : Channel.Synced (p.objects c) (slot p (fd c)) := by
  have number := kept.number
  cases kept.mirrors with
  | new index absent unlisted =>
    refine ⟨Or.inl index, ?_⟩
    rw [number] at absent unlisted
    simp [slot, Channel.slotOf, index, absent, unlisted, Channel.kNew_ne_kAdded,
      Channel.kNew_ne_kDeleted]
  | added index known listed =>
    refine ⟨Or.inr (Or.inl index), ?_⟩
    rw [number] at known listed
    simp [slot, Channel.slotOf, index, known, listed, kept.address]
  | deleted index known unlisted idle =>
    refine ⟨Or.inr (Or.inr index), ?_⟩
    rw [number] at known unlisted
    simp [slot, Channel.slotOf, index, known, unlisted, kept.address, Channel.kDeleted_ne_kAdded]

theorem view_place {ch : Channel} (objects : q.objects = Function.update p.objects c ch)
    (others : ∀ f, f ≠ ch.fd_ → slot q f = slot p f) :
    view q = (view p).place c (ch, slot q ch.fd_) := by
  have slots : slot q = Function.update (slot p) ch.fd_ (slot q ch.fd_) := by
    funext f
    by_cases same : f = ch.fd_
    · rw [same, Function.update_self]
    · rw [Function.update_of_ne same, others f same]
  simp only [view, EPollPoller.State.place, objects, ← slots]

theorem view_update (kept : Kept fd p r c) (events : Events) :
    (p.updateEvents c events).map view = (view p).call (.updateChannel c events) := by
  obtain ⟨operation, ran⟩ := updateEvents_spec kept.mirrors events
  have synced := synced_of_kept kept
  have place := (synced_of_kept (kept_updatedTo kept events operation)).slot
  have object : (updatedTo p c events operation).objects c = (p.objects c).updated events :=
    Function.update_self _ _ _
  have seen : view (updatedTo p c events operation) = (view p).place c
      ((p.objects c).updated events, slot (updatedTo p c events operation) (p.objects c).fd_) := by
    apply view_place rfl
    intro f other
    simp [slot, updatedTo, Function.update_of_ne other]
  rw [object, ← kept.number] at place
  rw [← kept.number] at synced
  have updates : Channel.update { (view p).objects c with events_ := events }
      ((view p).slots ((view p).objects c).fd_) = _ := Channel.update_spec synced events
  rw [ran, EPollPoller.State.call, updates, ok_bind, ← place]
  exact congrArg Except.ok seen

theorem view_remove (kept : Kept fd p r c) (known : (p.objects c).index_ ≠ kNew)
    (idle : (p.objects c).isNoneEvent) :
    (p.remove c).map view = (view p).call (.removeChannel c) := by
  obtain ⟨calls, ran, -⟩ := remove_spec kept.mirrors known idle
  have synced := synced_of_kept kept
  have outside : Channel.LoopView.MayRemove ⟨false, false, false⟩ := by
    intro handling
    cases handling
  have empty : slot (removedFrom p c calls) (p.objects c).fd_ = ⟨none, none⟩ := by
    simp [slot, removedFrom]
  have seen : view (removedFrom p c calls) = (view p).place c
      ({ p.objects c with addedToLoop_ := false, index_ := kNew },
        slot (removedFrom p c calls) (p.objects c).fd_) := by
    apply view_place rfl
    intro f other
    simp [slot, removedFrom, Function.update_of_ne other]
  rw [← kept.number] at synced
  have removes : ((view p).objects c).remove ⟨false, false, false⟩
      ((view p).slots ((view p).objects c).fd_) = _ := Channel.remove_spec synced idle known outside
  rw [ran, EPollPoller.State.call, removes, ok_bind, ← empty]
  exact congrArg Except.ok seen

theorem view_step {call : Pollers.Call} (distinct : Function.Injective fd)
    (running : s.poller = .ok p) (tracks : Tracks fd p s.registry) (taken : step s call = some t) :
    ∃ q, t.poller = .ok q ∧ Tracks fd q t.registry ∧ (view p).call call = .ok (view q) := by
  obtain ⟨q, running', tracks'⟩ := tracking_step distinct ⟨p, running, tracks⟩ taken
  refine ⟨q, running', tracks', ?_⟩
  cases call with
  | updateChannel c events =>
    obtain rfl := Option.some.inj taken
    rw [running] at running'
    have ran : p.updateEvents c events = .ok q := running'
    rw [← view_update (tracks.kept c) events, ran]
    rfl
  | removeChannel c =>
    obtain ⟨⟨known, idle⟩, ⟨⟩⟩ := Option.ite_none_right_eq_some.mp taken
    rw [running] at running'
    have ran : p.remove c = .ok q := running'
    have kept := tracks.kept c
    rw [← view_remove kept (kept.known known) (kept.events.trans idle), ran]
    rfl

theorem view_run (distinct : Function.Injective fd) (running : s.poller = .ok p)
    (tracks : Tracks fd p s.registry) (ran : machine.run s calls = some t) :
    ∃ q, t.poller = .ok q ∧ calls.foldlM EPollPoller.State.call (view p) = .ok (view q) := by
  induction calls generalizing s p with
  | nil =>
    cases ran
    exact ⟨p, running, rfl⟩
  | cons call calls ih =>
    obtain ⟨u, taken, rest⟩ := machine.run_cons_eq_some.mp ran
    obtain ⟨q, running', tracks', seen⟩ := view_step distinct running tracks taken
    obtain ⟨q', last, follows⟩ := ih running' tracks' rest
    exact ⟨q', last, by rw [List.foldlM_cons, seen, ok_bind, follows]⟩

/-- In every sequence of calls the model by descriptors, which the channels use, does what the
    whole poller does, and no assertion fails in either. -/
theorem slots_follow_poller {fd : Nat → Nat} (distinct : Function.Injective fd)
    (ran : machine.run (init fd) calls = some s) :
    ∃ p, s.poller = .ok p ∧ calls.foldlM EPollPoller.State.call (view (start fd)) = .ok (view p) := by
  obtain ⟨p, running, tracks⟩ := tracking_init fd
  obtain rfl : start fd = p := Except.ok.inj running
  exact view_run distinct running tracks ran

theorem fillActiveChannels_spec {ready : List EpollEvent}
    (known : ∀ event ∈ ready, p.channels_ (p.objects event.ptr).fd_ = some event.ptr) :
    p.fillActiveChannels ready = .ok
      (ready.foldl (fun q event =>
        q.setObject event.ptr ((q.objects event.ptr).set_revents event.events)) p,
        ready.map EpollEvent.ptr) := by
  induction ready generalizing p with
  | nil => rfl
  | cons event events ih =>
    have first := known event (by simp)
    have rest := ih (p := p.setObject event.ptr ((p.objects event.ptr).set_revents event.events)) (by
      intro other member
      have there := known other (by simp [member])
      by_cases same : other.ptr = event.ptr
      · simpa [Poller.setObject, same, Channel.set_revents] using first
      · simpa [Poller.setObject, same] using there)
    simp [Poller.fillActiveChannels, first, rest]

/-- In every sequence of calls, whatever epoll_wait then returns from the kernel's list, each event
    leads to its channel. -/
theorem epoll_wait_finds_channels {fd : Nat → Nat} (distinct : Function.Injective fd)
    (ran : machine.run (init fd) calls = some s) :
    ∃ p, s.poller = .ok p ∧ ∀ ready : List EpollEvent,
      (∀ event ∈ ready, ∃ c events, p.interestList (fd c) = some ⟨events, event.ptr⟩) →
      ∃ q, p.fillActiveChannels ready = .ok (q, ready.map EpollEvent.ptr) := by
  obtain ⟨p, running, tracks⟩ := tracking_run distinct ran
  refine ⟨p, running, fun ready returned => ⟨_, fillActiveChannels_spec ?_⟩⟩
  intro event member
  obtain ⟨c, events, entry⟩ := returned event member
  have kept := tracks.kept c
  rw [← kept.number] at entry
  cases kept.mirrors with
  | new _ _ unlisted => cases unlisted.symm.trans entry
  | added _ known listed =>
    obtain ⟨-, rfl⟩ := EpollEvent.mk.inj (Option.some.inj (listed.symm.trans entry))
    exact known
  | deleted _ _ unlisted _ => cases unlisted.symm.trans entry

/-- In every sequence of calls no assertion fails, every epoll_ctl call is legal, and
    each channel's index_ mirrors the kernel's list and channels_. -/
theorem epoll_ctl_calls_are_legal {fd : Nat → Nat} (distinct : Function.Injective fd)
    {calls : List Pollers.Call} (ran : machine.run (init fd) calls = some s) :
    ∃ p, s.poller = .ok p ∧ (∀ call ∈ p.calls, call.legal = true) ∧
      ∀ c, ((p.objects c).index_ = kAdded ↔ p.interestList (fd c) ≠ none) ∧
        ((p.objects c).index_ = kAdded →
          p.interestList (fd c) = some ⟨(p.objects c).events_, c⟩) ∧
        ((p.objects c).index_ = kNew ↔ p.channels_ (fd c) = none) ∧
        ((p.objects c).index_ = kDeleted → (p.objects c).events_ = .kNoneEvent) := by
  obtain ⟨p, running, tracks⟩ := tracking_run distinct ran
  refine ⟨p, running, tracks.legal, ?_⟩
  intro c
  have kept := tracks.kept c
  rw [← kept.number]
  cases kept.mirrors with
  | new index absent unlisted =>
    simp [index, absent, unlisted, Channel.kNew_ne_kAdded, Channel.kNew_ne_kDeleted]
  | added index known listed =>
    simp [index, known, listed, Channel.kNew_ne_kAdded.symm, Channel.kDeleted_ne_kAdded.symm]
  | deleted index known unlisted idle =>
    simp [index, known, unlisted, idle, Channel.kDeleted_ne_kAdded, Channel.kNew_ne_kDeleted.symm]

def mixedCalls : List Pollers.Call :=
  [.updateChannel 4 .kNoneEvent, .updateChannel 4 .kNoneEvent, .updateChannel 5 .kReadEvent,
    .updateChannel 4 .kWriteEvent, .updateChannel 5 .kWriteEvent, .updateChannel 4 .kNoneEvent,
    .removeChannel 4, .updateChannel 4 .kReadEvent]

def callsMade (s : State) : List CtlCall :=
  match s.poller with
  | .ok p => p.calls
  | .error _ => []

theorem mixedCalls_are_legal :
    ∃ s p, machine.run (init id) mixedCalls = some s ∧ s.poller = .ok p ∧
      p.calls.map CtlCall.operation = [.add, .del, .add, .add, .mod, .del, .add] ∧
      (∀ call ∈ p.calls, call.legal = true) ∧
      ((p.objects 4).index_ = kAdded ↔ p.interestList 4 ≠ none) := by
  have outcome : (machine.run (init id) mixedCalls).map
      (fun s => (callsMade s).map CtlCall.operation) =
      some [.add, .del, .add, .add, .mod, .del, .add] := by decide +kernel
  obtain ⟨s, reached, made⟩ := Option.map_eq_some_iff.mp outcome
  obtain ⟨p, running, legal, mirrors⟩ := epoll_ctl_calls_are_legal Function.injective_id reached
  simp only [callsMade, running] at made
  exact ⟨s, p, reached, running, made, legal, (mirrors 4).1⟩

end EPollCtl
end Muduo
