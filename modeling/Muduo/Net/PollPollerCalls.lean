import Mathlib.Data.Set.Card
import Muduo.Net.PollPollerTracks

/-!
PollPoller under any sequence of updateChannel and removeChannel, and what its poll
hands to the loop. The array pollfds_ and the map channels_ stay in bijection exactly
as long as only registered channels without interest are removed; then
fillActiveChannels finds every channel that poll(2) reports, and each one once.
-/
namespace Muduo
open Lib
namespace PollPoller

def find (p : PollPoller) (fd : Int) : Option Nat := if fd < 0 then none else p.channels_ fd.toNat

def fillFrom (p : PollPoller) : List PollFd → Nat → Checked (PollPoller × List Nat)
  | [], _ => pure (p, [])
  | pfd :: pfds, numEvents =>
    if numEvents = 0 then pure (p, [])
    else if pfd.revents = {} then p.fillFrom pfds numEvents
    else
      match p.find pfd.fd with
      | none => .error "ch != channels_.end()"
      | some channel => do
        let ch := p.objects channel
        assertThat (ch.fd_ = pfd.fd) "channel->fd() == pfd->fd"
        let (p, activeChannels) ←
          (p.setObject channel (ch.set_revents pfd.revents)).fillFrom pfds (numEvents - 1)
        pure (p, channel :: activeChannels)

def fillActiveChannels (p : PollPoller) (numEvents : Nat) : Checked (PollPoller × List Nat) :=
  p.fillFrom p.pollfds_ numEvents

/-- poll(2) stores what happened to each entry, and nothing to one with a negative
    descriptor. -/
def polled (p : PollPoller) (revents : Nat → Events) : PollPoller :=
  { p with
    pollfds_ := p.pollfds_.mapIdx fun i pfd =>
      { pfd with revents := if pfd.fd < 0 then {} else revents i } }

def numEvents (p : PollPoller) : Nat := p.pollfds_.countP fun pfd => pfd.revents ≠ {}

def yields (p : PollPoller) (pfd : PollFd) : Option (Nat × Events) :=
  if pfd.revents = {} then none else (p.find pfd.fd).map fun channel => (channel, pfd.revents)

def found (p : PollPoller) (pfds : List PollFd) : List (Nat × Events) := pfds.filterMap p.yields

def reported (p : PollPoller) (active : List (Nat × Events)) : PollPoller :=
  active.foldl (fun q a => q.setObject a.1 ((q.objects a.1).set_revents a.2)) p

variable {p q : PollPoller} {c : Nat}

theorem fillFrom_zero (pfds : List PollFd) : p.fillFrom pfds 0 = .ok (p, []) := by
  cases pfds with
  | nil => rfl
  | cons pfd pfds => rfl

theorem fd_set_revents (a : Nat × Events) (channel : Nat) :
    ((p.setObject a.1 ((p.objects a.1).set_revents a.2)).objects channel).fd_ =
      (p.objects channel).fd_ := by
  by_cases same : channel = a.1
  · simp [setObject, same, Channel.set_revents]
  · simp [setObject, same]

theorem fillFrom_spec {pfds : List PollFd}
    (known : ∀ pfd ∈ pfds, pfd.revents ≠ {} →
      ∃ channel, p.find pfd.fd = some channel ∧ (p.objects channel).fd_ = pfd.fd) :
    p.fillFrom pfds (pfds.countP fun pfd => pfd.revents ≠ {}) =
      .ok (p.reported (p.found pfds), (p.found pfds).map Prod.fst) := by
  induction pfds generalizing p with
  | nil => rfl
  | cons pfd pfds ih =>
    by_cases quiet : pfd.revents = {}
    · have rest := ih (fun other member => known other (by simp [member]))
      have count : (pfd :: pfds).countP (fun pfd => pfd.revents ≠ {}) =
          pfds.countP fun pfd => pfd.revents ≠ {} := List.countP_cons_of_neg (by simp [quiet])
      have same : p.found (pfd :: pfds) = p.found pfds := by simp [found, yields, quiet]
      rw [count, same]
      simp only [fillFrom, quiet, if_true]
      split
      case isTrue none =>
        rw [none] at rest
        exact (fillFrom_zero pfds).symm.trans rest
      case isFalse => exact rest
    · obtain ⟨channel, here, number⟩ := known pfd (by simp) quiet
      have rest := ih (p := p.setObject channel ((p.objects channel).set_revents pfd.revents)) (by
        intro other member loud
        obtain ⟨channel', here', number'⟩ := known other (by simp [member]) loud
        exact ⟨channel', here', by rw [fd_set_revents (channel, pfd.revents)]; exact number'⟩)
      have count : (pfd :: pfds).countP (fun pfd => pfd.revents ≠ {}) =
          (pfds.countP fun pfd => pfd.revents ≠ {}) + 1 :=
        List.countP_cons_of_pos (by simp [quiet])
      have first : p.found (pfd :: pfds) = (channel, pfd.revents) :: p.found pfds := by
        simp [found, yields, quiet, here]
      rw [count, first]
      simp only [fillFrom, Nat.add_eq_zero_iff, Nat.succ_ne_self, and_false, if_false, quiet, here,
        assertThat_of_true number, ok_bind, Nat.add_sub_cancel, rest]
      rfl

theorem reported_objects {active : List (Nat × Events)} (once : (active.map Prod.fst).Nodup)
    (channel : Nat) :
    (∀ revents, (channel, revents) ∈ active →
      (p.reported active).objects channel = (p.objects channel).set_revents revents) ∧
    (channel ∉ active.map Prod.fst → (p.reported active).objects channel = p.objects channel) := by
  induction active generalizing p with
  | nil => exact ⟨by simp, fun _ => rfl⟩
  | cons a active ih =>
    obtain ⟨fresh, once⟩ := List.nodup_cons.mp once
    obtain ⟨listed, unlisted⟩ := ih (p := p.setObject a.1 ((p.objects a.1).set_revents a.2)) once
    have later : p.reported (a :: active) =
        (p.setObject a.1 ((p.objects a.1).set_revents a.2)).reported active := rfl
    rw [later]
    constructor
    · intro revents member
      rcases List.mem_cons.mp member with rfl | member
      · rw [unlisted fresh]
        exact Function.update_self _ _ _
      · have apart : channel ≠ a.1 := by
          rintro rfl
          exact fresh (List.mem_map.mpr ⟨_, member, rfl⟩)
        rw [listed revents member]
        simp [setObject, apart]
    · intro absent
      simp only [List.map_cons, List.mem_cons, not_or] at absent
      rw [unlisted absent.2]
      exact Function.update_of_ne absent.1 _ _

theorem updateChannel_channels (ran : p.updateChannel c = .ok q) {f : Nat}
    (other : f ≠ (p.objects c).fd_) : q.channels_ f = p.channels_ f := by
  simp only [updateChannel] at ran
  split at ran
  · obtain ⟨_, -, rest⟩ := bind_eq_ok.mp ran
    obtain rfl := Except.ok.inj rest
    exact Function.update_of_ne other _ _
  · obtain ⟨_, -, ran⟩ := bind_eq_ok.mp ran
    obtain ⟨_, -, ran⟩ := bind_eq_ok.mp ran
    obtain ⟨_, -, ran⟩ := bind_eq_ok.mp ran
    obtain ⟨_, -, ran⟩ := bind_eq_ok.mp ran
    obtain rfl := Except.ok.inj ran
    rfl

theorem removeChannel_channels (ran : p.removeChannel c = .ok q) {f : Nat}
    (other : f ≠ (p.objects c).fd_) : q.channels_ f = p.channels_ f := by
  simp only [removeChannel] at ran
  obtain ⟨_, -, ran⟩ := bind_eq_ok.mp ran
  obtain ⟨_, -, ran⟩ := bind_eq_ok.mp ran
  obtain ⟨_, -, ran⟩ := bind_eq_ok.mp ran
  obtain ⟨_, -, ran⟩ := bind_eq_ok.mp ran
  obtain ⟨_, -, ran⟩ := bind_eq_ok.mp ran
  split at ran
  · obtain rfl := Except.ok.inj ran
    exact Function.update_of_ne other _ _
  · split at ran
    · cases ran
    · obtain rfl := Except.ok.inj ran
      exact Function.update_of_ne other _ _

end PollPoller

namespace PollCalls
open Pollers

structure State where
  poller : Checked PollPoller
  registry : Registry

/-- A channel's first update carries an interest, and a removed channel is not updated
    again. -/
def step (s : State) : Call → Option State
  | .updateChannel c events =>
    if s.registry.removed c = false ∧ (s.registry.registered c = true ∨ events ≠ .kNoneEvent) then
      some ⟨s.poller >>= fun p => p.update c events, s.registry.updated c events⟩
    else none
  | .removeChannel c => some ⟨s.poller >>= fun p => p.remove c, s.registry.without c⟩

def machine : Machine State Call := ⟨step⟩

def start (fd : Nat → Nat) : PollPoller := ⟨fun c => .new c (fd c), fun _ => none, []⟩

def init (fd : Nat → Nat) : State := ⟨.ok (start fd), .noChannels⟩

/-- removeChannel is called on a registered channel without interest. -/
def RemovesIdle (s : State) : Call → Prop
  | .updateChannel _ _ => True
  | .removeChannel c => s.registry.registered c = true ∧ s.registry.interest c = .kNoneEvent

instance (s : State) : (call : Call) → Decidable (RemovesIdle s call)
  | .updateChannel _ _ => isTrue trivial
  | .removeChannel _ => inferInstanceAs (Decidable (_ ∧ _))

def Ready (p : PollPoller) (r : Registry) (revents : Nat → Events) (c : Nat) : Prop :=
  r.registered c = true ∧ r.interest c ≠ .kNoneEvent ∧ revents (p.objects c).index_.toNat ≠ {}

structure Bijection (fd : Nat → Nat) (p : PollPoller) (r : Registry) : Prop where
  known : ∀ c, r.registered c = true ↔ p.channels_ (fd c) = some c
  sizes : Set.encard {f | p.channels_ f ≠ none} = p.pollfds_.length
  entry : ∀ c, r.registered c = true → ∃ i : Nat, (p.objects c).index_ = i ∧
    ∃ pfd, p.pollfds_[i]? = some pfd ∧ pfd.events = (p.objects c).events_ ∧
      pfd.fd = if (p.objects c).events_ ≠ .kNoneEvent then (fd c : Int) else -fd c - 1
  apart : ∀ c d, r.registered c = true → r.registered d = true →
    (p.objects c).index_ = (p.objects d).index_ → c = d
  filled : ∀ revents : Nat → Events, ∃ q active,
    (p.polled revents).fillActiveChannels (p.polled revents).numEvents = .ok (q, active) ∧
    active.Nodup ∧ (∀ c, c ∈ active ↔ Ready p r revents c) ∧
    ∀ c ∈ active, (q.objects c).revents_ = revents (p.objects c).index_.toNat

/-- PollPoller runs without a failed assertion, in bijection. -/
def InBijection (fd : Nat → Nat) (s : State) : Prop :=
  ∃ p, s.poller = .ok p ∧ Bijection fd p s.registry

structure Tracks (fd : Nat → Nat) (p : PollPoller) (r : Registry) : Prop where
  tracks : PollTracks fd p r
  others : ∀ f, (∀ c, fd c ≠ f) → p.channels_ f = none

variable {fd : Nat → Nat} {p q : PollPoller} {r : Registry} {c d f : Nat} {s t : State}
  {call : Call} {revents : Nat → Events}

theorem Tracks.known (tracks : Tracks fd p r) (c : Nat) :
    r.registered c = true ↔ p.channels_ (fd c) = some c := by
  constructor
  · exact (tracks.tracks.tracked c).known
  · intro here
    cases registered : r.registered c with
    | true => rfl
    | false => cases ((tracks.tracks.tracked c).absent registered).symm.trans here

theorem Tracks.fds (tracks : Tracks fd p r) :
    {f | p.channels_ f ≠ none} = fd '' {c | r.registered c = true} := by
  ext f
  simp only [Set.mem_ofPred_eq, Set.mem_image]
  constructor
  · intro here
    have somewhere : ∃ c, fd c = f := by
      by_contra nowhere
      exact here (tracks.others f (fun c same => nowhere ⟨c, same⟩))
    obtain ⟨c, rfl⟩ := somewhere
    refine ⟨c, ?_, rfl⟩
    cases registered : r.registered c with
    | true => rfl
    | false => exact absurd ((tracks.tracks.tracked c).absent registered) here
  · rintro ⟨c, registered, rfl⟩
    rw [(tracks.tracks.tracked c).known registered]
    simp

theorem Tracks.places (tracks : Tracks fd p r) :
    (fun c => (p.objects c).index_.toNat) '' {c | r.registered c = true} =
      ↑(Finset.range p.pollfds_.length) := by
  ext i
  simp only [Set.mem_image, Set.mem_ofPred_eq, Finset.coe_range, Set.mem_Iio]
  constructor
  · rintro ⟨c, registered, rfl⟩
    obtain ⟨j, index, entry⟩ := (tracks.tracks.tracked c).entry registered
    obtain ⟨bound, -⟩ := List.getElem?_eq_some_iff.mp entry
    rw [index]
    exact bound
  · intro bound
    obtain ⟨c, registered, index⟩ := tracks.tracks.owner i bound
    exact ⟨c, registered, by rw [index]; rfl⟩

theorem Tracks.toNat_inj (tracks : Tracks fd p r) (distinct : Function.Injective fd) :
    Set.InjOn (fun c => (p.objects c).index_.toNat) {c | r.registered c = true} := by
  intro c known d known' same
  obtain ⟨i, index, -⟩ := (tracks.tracks.tracked c).entry known
  obtain ⟨j, index', -⟩ := (tracks.tracks.tracked d).entry known'
  refine tracks.tracks.index_inj distinct known known' ?_
  simp only [index, index'] at same ⊢
  omega

theorem Tracks.sizes (tracks : Tracks fd p r) (distinct : Function.Injective fd) :
    Set.encard {f | p.channels_ f ≠ none} = p.pollfds_.length := by
  rw [tracks.fds, distinct.encard_image, ← (tracks.toNat_inj distinct).encard_image, tracks.places,
    Set.encard_coe_eq_coe_finsetCard, Finset.card_range]

theorem pollFd_hidden (ch : Channel) : (PollPoller.pollFd ch).fd < 0 ↔ ch.isNoneEvent := by
  simp only [PollPoller.pollFd]
  split
  case isTrue idle =>
    simp only [idle, iff_true]
    omega
  case isFalse interested =>
    simp only [interested, iff_false]
    omega

def heard (p : PollPoller) (revents : Nat → Events) (c : Nat) : PollFd :=
  { PollPoller.pollFd (p.objects c) with
    revents := if (p.objects c).isNoneEvent then {} else revents (p.objects c).index_.toNat }

theorem Tracks.polled_at (tracks : Tracks fd p r) (revents : Nat → Events)
    (known : r.registered c = true) {i : Nat} (index : (p.objects c).index_ = i) :
    (p.polled revents).pollfds_[i]? = some (heard p revents c) := by
  have entry := (tracks.tracks.tracked c).entry_at known index
  simp only [PollPoller.polled, List.getElem?_mapIdx, entry, Option.map_some, heard, index,
    pollFd_hidden, Int.toNat_natCast]

theorem Tracks.polled_owner (tracks : Tracks fd p r) (revents : Nat → Events) {i : Nat}
    {pfd : PollFd} (entry : (p.polled revents).pollfds_[i]? = some pfd) :
    ∃ c, r.registered c = true ∧ (p.objects c).index_ = i ∧ pfd = heard p revents c := by
  obtain ⟨bound, -⟩ := List.getElem?_eq_some_iff.mp entry
  simp only [PollPoller.polled, List.length_mapIdx] at bound
  obtain ⟨c, known, index⟩ := tracks.tracks.owner i bound
  exact ⟨c, known, index, Option.some.inj (entry.symm.trans (tracks.polled_at revents known index))⟩

theorem ready_iff (tracks : Tracks fd p r) (known : r.registered c = true) :
    Ready p r revents c ↔ (heard p revents c).revents ≠ {} := by
  simp only [Ready, known, true_and, heard, Channel.isNoneEvent, (tracks.tracks.tracked c).events]
  split
  case isTrue idle => simp [idle]
  case isFalse interested => simp [interested]

theorem find_heard (tracks : Tracks fd p r) (known : r.registered c = true)
    (loud : (heard p revents c).revents ≠ {}) :
    (p.polled revents).find (heard p revents c).fd = some c ∧
      ((p.polled revents).objects c).fd_ = (heard p revents c).fd := by
  have interested : ¬(p.objects c).isNoneEvent := by
    intro idle
    simp [heard, idle] at loud
  have shown : (heard p revents c).fd = (p.objects c).fd_ := by
    simp [heard, PollPoller.pollFd, interested]
  refine ⟨?_, shown.symm⟩
  have place := (tracks.tracks.tracked c).place known
  rw [shown, PollPoller.find, if_neg (by omega), Int.toNat_natCast]
  exact place

theorem yields_heard (tracks : Tracks fd p r) (known : r.registered c = true) {a : Nat × Events} :
    (p.polled revents).yields (heard p revents c) = some a ↔
      Ready p r revents c ∧ a = (c, revents (p.objects c).index_.toNat) := by
  rw [ready_iff tracks known]
  by_cases quiet : (heard p revents c).revents = {}
  · simp [PollPoller.yields, quiet]
  · have interested : ¬(p.objects c).isNoneEvent := by
      intro idle
      simp [heard, idle] at quiet
    simp only [PollPoller.yields, quiet, if_false, (find_heard tracks known quiet).1,
      Option.map_some, Option.some.injEq, ne_eq, not_false_eq_true, true_and]
    simp only [heard, interested, if_false]
    exact eq_comm

theorem mem_found (tracks : Tracks fd p r) {a : Nat × Events} :
    a ∈ (p.polled revents).found (p.polled revents).pollfds_ ↔
      Ready p r revents a.1 ∧ a.2 = revents (p.objects a.1).index_.toNat := by
  simp only [PollPoller.found, List.mem_filterMap]
  constructor
  · rintro ⟨pfd, member, yielded⟩
    obtain ⟨i, entry⟩ := List.mem_iff_getElem?.mp member
    obtain ⟨c, known, -, rfl⟩ := tracks.polled_owner revents entry
    obtain ⟨ready, rfl⟩ := (yields_heard tracks known).mp yielded
    exact ⟨ready, rfl⟩
  · rintro ⟨ready, same⟩
    obtain ⟨i, index, -⟩ := (tracks.tracks.tracked a.1).entry ready.1
    refine ⟨_, List.mem_of_getElem? (tracks.polled_at revents ready.1 index), ?_⟩
    exact (yields_heard tracks ready.1).mpr ⟨ready, Prod.ext rfl same⟩

variable (revents) in
theorem found_once (tracks : Tracks fd p r) :
    (((p.polled revents).found (p.polled revents).pollfds_).map Prod.fst).Nodup := by
  simp only [PollPoller.found, List.map_filterMap, List.Nodup, List.pairwise_filterMap,
    Option.map_eq_some_iff]
  apply List.pairwise_iff_getElem.mpr
  rintro i j bound bound' before _ ⟨a, first, rfl⟩ _ ⟨b, second, rfl⟩ same
  obtain ⟨c, known, index, here⟩ := tracks.polled_owner revents (List.getElem?_eq_getElem bound)
  obtain ⟨d, known', index', there⟩ := tracks.polled_owner revents (List.getElem?_eq_getElem bound')
  rw [here] at first
  rw [there] at second
  obtain ⟨-, rfl⟩ := (yields_heard tracks known).mp first
  obtain ⟨-, rfl⟩ := (yields_heard tracks known').mp second
  obtain rfl : c = d := same
  omega

theorem Tracks.filled (tracks : Tracks fd p r) (revents : Nat → Events) :
    ∃ q active,
      (p.polled revents).fillActiveChannels (p.polled revents).numEvents = .ok (q, active) ∧
      active.Nodup ∧ (∀ c, c ∈ active ↔ Ready p r revents c) ∧
      ∀ c ∈ active, (q.objects c).revents_ = revents (p.objects c).index_.toNat := by
  have heard : ∀ pfd ∈ (p.polled revents).pollfds_, pfd.revents ≠ {} →
      ∃ channel, (p.polled revents).find pfd.fd = some channel ∧
        ((p.polled revents).objects channel).fd_ = pfd.fd := by
    intro pfd member loud
    obtain ⟨i, entry⟩ := List.mem_iff_getElem?.mp member
    obtain ⟨c, known, -, rfl⟩ := tracks.polled_owner revents entry
    exact ⟨c, find_heard tracks known loud⟩
  have ran := PollPoller.fillFrom_spec heard
  have once := found_once revents tracks
  refine ⟨_, _, ran, once, ?_, ?_⟩
  · intro c
    simp only [List.mem_map, mem_found tracks]
    constructor
    · rintro ⟨a, ⟨ready, -⟩, rfl⟩
      exact ready
    · intro ready
      exact ⟨(c, revents (p.objects c).index_.toNat), ⟨ready, rfl⟩, rfl⟩
  · intro c member
    obtain ⟨a, found, rfl⟩ := List.mem_map.mp member
    rw [(PollPoller.reported_objects once a.1).1 a.2 found]
    exact ((mem_found tracks).mp found).2

theorem bijection_of_tracks (tracks : Tracks fd p r) (distinct : Function.Injective fd) :
    Bijection fd p r where
  known := tracks.known
  sizes := tracks.sizes distinct
  entry c known := by
    have tracked := tracks.tracks.tracked c
    obtain ⟨i, index, entry⟩ := tracked.entry known
    refine ⟨i, index, _, entry, rfl, ?_⟩
    simp only [PollPoller.pollFd, Channel.isNoneEvent, tracked.number]
    split
    case isTrue idle => simp [idle]
    case isFalse interested => simp
  apart c d := tracks.tracks.index_inj distinct
  filled := tracks.filled

theorem others_update (tracks : Tracks fd p r) {events : Events}
    (ran : p.update c events = .ok q) (f : Nat) (nowhere : ∀ c, fd c ≠ f) :
    q.channels_ f = none := by
  have other : f ≠ ((p.setObject c (asking p c events)).objects c).fd_ := by
    rw [setObject_asking, asking, (tracks.tracks.tracked c).number]
    exact (nowhere c).symm
  exact (PollPoller.updateChannel_channels ran other).trans (tracks.others f nowhere)

theorem others_remove (tracks : Tracks fd p r) (idle : (p.objects c).isNoneEvent)
    (ran : p.remove c = .ok q) (f : Nat) (nowhere : ∀ c, fd c ≠ f) : q.channels_ f = none := by
  rw [remove_eq idle] at ran
  have other : f ≠ ((p.setObject c (leaving p c)).objects c).fd_ := by
    rw [setObject_leaving, leaving, (tracks.tracks.tracked c).number]
    exact (nowhere c).symm
  exact (PollPoller.removeChannel_channels ran other).trans (tracks.others f nowhere)

def Tracking (fd : Nat → Nat) (s : State) : Prop :=
  ∃ p, s.poller = .ok p ∧ Tracks fd p s.registry

theorem tracking_init (fd : Nat → Nat) : Tracking fd (init fd) :=
  ⟨start fd, rfl, pollTracks_init fd, fun _ _ => rfl⟩

theorem tracking_step (distinct : Function.Injective fd) (tracking : Tracking fd s)
    (allowed : RemovesIdle s call) (taken : step s call = some t) : Tracking fd t := by
  obtain ⟨p, running, tracks⟩ := tracking
  cases call with
  | updateChannel c events =>
    simp only [step, Option.ite_none_right_eq_some, Option.some.injEq] at taken
    obtain ⟨⟨kept, first⟩, rfl⟩ := taken
    have ran : ∃ q, p.update c events = .ok q ∧ PollTracks fd q (s.registry.updated c events) := by
      cases known : s.registry.registered c with
      | true => exact poll_update_known tracks.tracks distinct known events
      | false =>
        refine poll_update_new tracks.tracks distinct known kept ?_
        exact first.resolve_left (by simp [known])
    obtain ⟨q, ran, after⟩ := ran
    exact ⟨q, by rw [running]; exact ran, after, others_update tracks ran⟩
  | removeChannel c =>
    simp only [step, Option.some.injEq] at taken
    subst taken
    obtain ⟨known, idle⟩ := allowed
    obtain ⟨q, ran, after⟩ := poll_remove tracks.tracks distinct known idle
    have none : (p.objects c).isNoneEvent := (tracks.tracks.tracked c).events.trans idle
    exact ⟨q, by rw [running]; exact ran, after, others_remove tracks none ran⟩

theorem removal_fails (tracking : Tracking fd s) (refused : ¬RemovesIdle s call)
    (taken : step s call = some t) : ¬InBijection fd t := by
  obtain ⟨p, running, tracks⟩ := tracking
  rintro ⟨q, ok, -⟩
  apply refused
  cases call with
  | updateChannel c events => trivial
  | removeChannel c =>
    simp only [step, Option.some.injEq] at taken
    subst taken
    rw [running, ok_bind] at ok
    have tracked := tracks.tracks.tracked c
    have idle : (p.objects c).isNoneEvent := by
      obtain ⟨_, asserted, -⟩ := bind_eq_ok.mp ok
      exact assertThat_eq_ok.mp asserted
    rw [remove_eq idle] at ok
    obtain ⟨_, asserted, -⟩ := bind_eq_ok.mp ok
    have present := assertThat_eq_ok.mp asserted
    rw [setObject_leaving] at present
    refine ⟨?_, tracked.events.symm.trans idle⟩
    cases known : s.registry.registered c with
    | true => rfl
    | false =>
      refine absurd ?_ present
      simp only [leaving, tracked.number]
      exact tracked.absent known

/-- In every sequence of calls in which a channel's first update carries an interest and
    a removed channel is not updated again, no assertion fails and the array and the map
    are in bijection after every call, exactly when only registered channels without
    interest are removed. -/
theorem poll_array_in_bijection_iff {fd : Nat → Nat} (distinct : Function.Injective fd)
    {calls : List Call} (ran : machine.run (init fd) calls = some s) :
    machine.Always (InBijection fd) (init fd) calls ↔
      machine.Within RemovesIdle (init fd) calls := by
  have holds : ∀ s, Tracking fd s → InBijection fd s := by
    rintro s ⟨p, running, tracks⟩
    exact ⟨p, running, bijection_of_tracks tracks distinct⟩
  have start := tracking_init fd
  refine machine.always_iff_within RemovesIdle (Tracking fd) (InBijection fd) ?_ ?_ start
    (holds _ start) ran
  · intro s call t tracking _ allowed taken
    have after := tracking_step distinct tracking allowed taken
    exact ⟨after, holds t after⟩
  · intro s call t tracking _ refused taken
    exact removal_fails tracking refused taken

def swappingCalls : List Call :=
  [.updateChannel 7 .kReadEvent, .updateChannel 0 .kWriteEvent, .updateChannel 3 .kReadEvent,
    .updateChannel 3 .kNoneEvent, .updateChannel 0 .kNoneEvent, .removeChannel 0,
    .updateChannel 3 .kWriteEvent, .updateChannel 7 .kNoneEvent]

theorem swappingCalls_keep_bijection :
    ∃ s, machine.run (init id) swappingCalls = some s ∧ s.registry.registered 3 = true ∧
      machine.Always (InBijection id) (init id) swappingCalls := by
  have outcome : (machine.run (init id) swappingCalls).map (fun s => s.registry.registered 3) =
      some true := by decide +kernel
  have within : machine.checkWithin RemovesIdle (init id) swappingCalls = true := by
    decide +kernel
  obtain ⟨s, reached, known⟩ := Option.map_eq_some_iff.mp outcome
  exact ⟨s, reached, known,
    (poll_array_in_bijection_iff Function.injective_id reached).mpr (machine.within_of_check within)⟩

/-- A channel that was never updated is removed. -/
theorem removal_of_unknown_channel_fails :
    ∃ s, machine.run (init id) [.removeChannel 0] = some s ∧
      s.poller = .error "channels_.find(channel->fd()) != channels_.end()" ∧
      ¬machine.Always (InBijection id) (init id) [.removeChannel 0] := by
  have failed : (PollCalls.start id).remove 0 =
      .error "channels_.find(channel->fd()) != channels_.end()" := rfl
  refine ⟨_, rfl, failed, ?_⟩
  rintro ⟨-, after⟩
  obtain ⟨p, running, -⟩ := after _ rfl
  cases failed.symm.trans running

end PollCalls
end Muduo
