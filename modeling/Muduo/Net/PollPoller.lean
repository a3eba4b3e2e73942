import Muduo.Net.Channel
import Muduo.Lib.Window

/-!
PollPoller.cc: updateChannel and removeChannel, and the calls of Channel that lead
to them. channels_ maps a descriptor to the address of its channel, and index_ of a
channel is its place in pollfds_, so both functions work on the whole poller and on
the channel objects that it can reach. poll itself is left out, and
fillActiveChannels stands with the sequences of calls; nothing here writes revents
other than by clearing it.
-/
namespace Muduo
open Lib

structure PollFd where
  fd : Int
  events : Events
  revents : Events
  deriving DecidableEq, Repr

structure PollPoller where
  objects : Nat → Channel
  channels_ : Nat → Option Nat
  pollfds_ : List PollFd

namespace PollPoller

def setObject (p : PollPoller) (address : Nat) (ch : Channel) : PollPoller :=
  { p with objects := Function.update p.objects address ch }

/-- The entry of a channel: its descriptor is hidden from poll(2) when it has no
    interest. -/
def pollFd (ch : Channel) : PollFd :=
  ⟨if ch.isNoneEvent then -ch.fd_ - 1 else ch.fd_, ch.events_, {}⟩

def updateChannel (p : PollPoller) (channel : Nat) : Checked PollPoller := do
  let ch := p.objects channel
  if ch.index_ < 0 then
    assertThat (p.channels_ ch.fd_ = none) "channels_.find(channel->fd()) == channels_.end()"
    let pollfds := p.pollfds_ ++ [⟨ch.fd_, ch.events_, {}⟩]
    let idx : Int := pollfds.length - 1
    pure
      { objects := Function.update p.objects channel (ch.set_index idx)
        channels_ := Function.update p.channels_ ch.fd_ (some channel)
        pollfds_ := pollfds }
  else
    assertThat (p.channels_ ch.fd_ ≠ none) "channels_.find(channel->fd()) != channels_.end()"
    assertThat (p.channels_ ch.fd_ = some channel) "channels_[channel->fd()] == channel"
    let idx := ch.index_
    assertThat (0 ≤ idx ∧ idx < p.pollfds_.length)
      "0 <= idx && idx < static_cast<int>(pollfds_.size())"
    let pfd := p.pollfds_.getD idx.toNat ⟨0, {}, {}⟩
    assertThat (pfd.fd = ch.fd_ ∨ pfd.fd = -ch.fd_ - 1)
      "pfd.fd == channel->fd() || pfd.fd == -channel->fd()-1"
    pure { p with pollfds_ := p.pollfds_.set idx.toNat (pollFd ch) }

def removeChannel (p : PollPoller) (channel : Nat) : Checked PollPoller := do
  let ch := p.objects channel
  assertThat (p.channels_ ch.fd_ ≠ none) "channels_.find(channel->fd()) != channels_.end()"
  assertThat (p.channels_ ch.fd_ = some channel) "channels_[channel->fd()] == channel"
  assertThat ch.isNoneEvent "channel->isNoneEvent()"
  let idx := ch.index_
  assertThat (0 ≤ idx ∧ idx < p.pollfds_.length)
    "0 <= idx && idx < static_cast<int>(pollfds_.size())"
  let pfd := p.pollfds_.getD idx.toNat ⟨0, {}, {}⟩
  assertThat (pfd.fd = -ch.fd_ - 1 ∧ pfd.events = ch.events_)
    "pfd.fd == -channel->fd()-1 && pfd.events == channel->events()"
  let channels := Function.update p.channels_ ch.fd_ none
  if idx.toNat = p.pollfds_.length - 1 then
    pure { p with channels_ := channels, pollfds_ := p.pollfds_.dropLast }
  else
    let back := p.pollfds_.getD (p.pollfds_.length - 1) ⟨0, {}, {}⟩
    let channelAtEnd := if back.fd < 0 then -back.fd - 1 else back.fd
    let pollfds := iterSwap p.pollfds_ idx.toNat (p.pollfds_.length - 1)
    match channels channelAtEnd.toNat with
    | none => .error "channels_[channelAtEnd]->set_index(idx)"
    | some other =>
      pure
        { objects := Function.update p.objects other ((p.objects other).set_index idx)
          channels_ := channels
          pollfds_ := pollfds.dropLast }

def update (p : PollPoller) (channel : Nat) (events : Events) : Checked PollPoller :=
  let ch := { p.objects channel with events_ := events, addedToLoop_ := true }
  (p.setObject channel ch).updateChannel channel

def remove (p : PollPoller) (channel : Nat) : Checked PollPoller := do
  assertThat (p.objects channel).isNoneEvent "isNoneEvent()"
  let ch := { p.objects channel with addedToLoop_ := false }
  (p.setObject channel ch).removeChannel channel

/-- What poll(2) is asked to watch: it skips entries with a negative descriptor. -/
def Watches (p : PollPoller) (fd : Nat) (events : Events) : Prop :=
  ∃ pfd ∈ p.pollfds_, pfd.fd = fd ∧ pfd.events = events

variable {p : PollPoller} {c i : Nat} {pfd : PollFd}

theorem updateChannel_new (fresh : (p.objects c).index_ = -1)
    (absent : p.channels_ (p.objects c).fd_ = none) :
    p.updateChannel c = .ok
      { objects := Function.update p.objects c ((p.objects c).set_index p.pollfds_.length)
        channels_ := Function.update p.channels_ (p.objects c).fd_ (some c)
        pollfds_ := p.pollfds_ ++ [⟨(p.objects c).fd_, (p.objects c).events_, {}⟩] } := by
  simp [updateChannel, fresh, absent]

theorem updateChannel_known (index : (p.objects c).index_ = i)
    (known : p.channels_ (p.objects c).fd_ = some c) (entry : p.pollfds_[i]? = some pfd)
    (mine : pfd.fd = (p.objects c).fd_ ∨ pfd.fd = -(p.objects c).fd_ - 1) :
    p.updateChannel c =
      .ok { p with pollfds_ := p.pollfds_.set i (pollFd (p.objects c)) } := by
  obtain ⟨bound, -⟩ := List.getElem?_eq_some_iff.mp entry
  have placed : ¬(i : Int) < 0 := by omega
  have inside : (0 : Int) ≤ i ∧ (i : Int) < p.pollfds_.length := by omega
  simp only [updateChannel, index, placed, if_false, known, ne_eq, reduceCtorEq, not_false_eq_true,
    assertThat_of_true, inside, and_self, ok_bind, Int.toNat_natCast, List.getD_eq_getElem?_getD,
    entry, Option.getD_some, mine, pure_eq_ok]

theorem updateChannel_removed (index : 0 ≤ (p.objects c).index_)
    (absent : p.channels_ (p.objects c).fd_ = none) :
    p.updateChannel c = .error "channels_.find(channel->fd()) != channels_.end()" := by
  have placed : ¬(p.objects c).index_ < 0 := by omega
  simp [updateChannel, placed, absent]

theorem pollFd_none {ch : Channel} (none : ch.isNoneEvent) :
    (pollFd ch).fd = -ch.fd_ - 1 ∧ (pollFd ch).events = ch.events_ := by
  simp [pollFd, none]

theorem removeChannel_last (index : (p.objects c).index_ = i)
    (known : p.channels_ (p.objects c).fd_ = some c) (none : (p.objects c).isNoneEvent)
    (entry : p.pollfds_[i]? = some (pollFd (p.objects c))) (last : i + 1 = p.pollfds_.length) :
    p.removeChannel c = .ok
      { p with
        channels_ := Function.update p.channels_ (p.objects c).fd_ Option.none
        pollfds_ := p.pollfds_.dropLast } := by
  have inside : (0 : Int) ≤ i ∧ (i : Int) < p.pollfds_.length := by omega
  have length : p.pollfds_.length - 1 = i := by omega
  simp only [removeChannel, index, known, ne_eq, reduceCtorEq, not_false_eq_true,
    assertThat_of_true, none, inside, and_self, ok_bind, Int.toNat_natCast,
    List.getD_eq_getElem?_getD, entry, Option.getD_some, pollFd_none none, length, if_true,
    pure_eq_ok]

theorem removeChannel_middle {d last : Nat} (index : (p.objects c).index_ = i)
    (known : p.channels_ (p.objects c).fd_ = some c) (none : (p.objects c).isNoneEvent)
    (entry : p.pollfds_[i]? = some (pollFd (p.objects c))) (size : p.pollfds_.length = last + 1)
    (before : i < last) (other : p.channels_ (p.objects d).fd_ = some d)
    (apart : (p.objects d).fd_ ≠ (p.objects c).fd_)
    (back : p.pollfds_[last]? = some (pollFd (p.objects d))) :
    p.removeChannel c = .ok
      { objects := Function.update p.objects d ((p.objects d).set_index i)
        channels_ := Function.update p.channels_ (p.objects c).fd_ Option.none
        pollfds_ := (iterSwap p.pollfds_ i last).dropLast } := by
  have inside : (0 : Int) ≤ i ∧ (i : Int) < p.pollfds_.length := by omega
  have length : p.pollfds_.length - 1 = last := by omega
  have middle : ¬i = last := by omega
  have decoded : (if (pollFd (p.objects d)).fd < 0 then -(pollFd (p.objects d)).fd - 1
      else (pollFd (p.objects d)).fd).toNat = (p.objects d).fd_ := by
    simp only [pollFd]
    split <;> split <;> omega
  have still : Function.update p.channels_ (p.objects c).fd_ Option.none (p.objects d).fd_ =
      some d := by
    rw [Function.update_of_ne apart]
    exact other
  simp only [removeChannel, index, known, ne_eq, reduceCtorEq, not_false_eq_true,
    assertThat_of_true, none, inside, and_self, ok_bind, Int.toNat_natCast,
    List.getD_eq_getElem?_getD, entry, Option.getD_some, pollFd_none none, length, middle, if_false,
    back, decoded, still, pure_eq_ok]

end PollPoller
end Muduo
