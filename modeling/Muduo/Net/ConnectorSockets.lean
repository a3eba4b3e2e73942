import Mathlib.Data.List.Count
import Mathlib.Data.List.Range
import Muduo.Net.Connector

/-!
What becomes of the sockets. While the connector is connecting, its one open socket is
that of channel_; in every other state all sockets have been closed or handed over. The
exception is a restart while connecting: it forgets the socket, and goes on with another.
-/
namespace Muduo
open Lib
namespace Connector
variable {s t : Connector} {l : Label} {savedErrno : Errno} {channel : Channel}

/-! What the functions do, said once. -/

/-- The results of connect(2) that go on to connecting. -/
def Errno.opens : Errno → Bool
  | .zero | .EINPROGRESS | .EINTR | .EISCONN => true
  | _ => false

inductive Started (s : Connector) (savedErrno : Errno) : Connector → Prop where
  | skipped (off : s.connect_ = false) : Started s savedErrno s
  | connecting (vacant : s.channel_ = none) : Started s savedErrno { s with
      created := s.created + 1, state_ := .kConnecting, channel_ := some ⟨s.created, true⟩ }
  | refused {delay : Nat} (shuts : savedErrno.opens = false) : Started s savedErrno { s with
      created := s.created + 1, closed := s.closed ++ [s.created], state_ := .kDisconnected
      timers := s.timers ++ [s.retryDelayMs_], retryDelayMs_ := delay }
  | failed (shuts : savedErrno.opens = false) : Started s savedErrno { s with
      created := s.created + 1, closed := s.closed ++ [s.created] }

def removed (s : Connector) (channel : Channel) : Connector :=
  { s with channel_ := some { channel with addedToLoop_ := false } }.queueInLoop .resetChannel

inductive Left (s : Connector) (channel : Channel) : Connector → Prop where
  | retried {timers : List Nat} {delay : Nat}
      (count : timers.length = s.timers.length + s.connect_.toNat) :
      Left s channel { removed s channel with
        closed := s.closed ++ [channel.fd], state_ := .kDisconnected, timers
        retryDelayMs_ := delay }
  | handed : Left s channel { removed s channel with
      handed := s.handed ++ [channel.fd], state_ := .kConnected, connection := .fresh }
  | dropped : Left s channel { removed s channel with
      closed := s.closed ++ [channel.fd], state_ := .kConnected }

theorem retry_eq (s : Connector) (sockfd : Nat) : ∃ timers delay,
    timers.length = s.timers.length + s.connect_.toNat ∧ s.retry sockfd = { s with
      closed := s.closed ++ [sockfd], state_ := .kDisconnected, timers, retryDelayMs_ := delay } := by
  unfold retry close
  cases wanted : s.connect_ with
  | false => exact ⟨s.timers, s.retryDelayMs_, rfl, rfl⟩
  | true => exact ⟨s.timers ++ [s.retryDelayMs_], _, List.length_append, rfl⟩

theorem retry_of_wanted (wanted : s.connect_ = true) (sockfd : Nat) :
    s.retry sockfd = { s with
      closed := s.closed ++ [sockfd], state_ := .kDisconnected
      timers := s.timers ++ [s.retryDelayMs_]
      retryDelayMs_ := min (s.retryDelayMs_ * 2) kMaxRetryDelayMs } := by
  simp [retry, close, wanted]

theorem connecting_spec (s : Connector) (sockfd : Nat) :
    (s.channel_ ≠ none ∧ s.connecting sockfd = .error "!channel_") ∨
      (s.channel_ = none ∧ s.connecting sockfd = .ok { s with
        state_ := .kConnecting, channel_ := some ⟨sockfd, true⟩ }) := by
  cases held : s.channel_ with
  | none => exact Or.inr ⟨rfl, by simp [Connector.connecting, held]⟩
  | some channel => exact Or.inl ⟨by simp, by simp [Connector.connecting, held]⟩

theorem connect_spec (wanted : s.connect_ = true) (savedErrno : Errno) :
    (savedErrno.opens = true ∧ s.channel_ ≠ none ∧ s.connect savedErrno = .error "!channel_") ∨
      ∃ t, s.connect savedErrno = .ok t ∧ Started s savedErrno t := by
  have opens := connecting_spec { s with created := s.created + 1 } s.created
  have retries : { s with created := s.created + 1 }.retry s.created = _ :=
    retry_of_wanted (s := { s with created := s.created + 1 }) wanted s.created
  cases savedErrno with
  | zero | EINPROGRESS | EINTR | EISCONN =>
    rcases opens with ⟨held, failed⟩ | ⟨vacant, opened⟩
    · exact Or.inl ⟨rfl, held, failed⟩
    · exact Or.inr ⟨_, opened, .connecting vacant⟩
  | EAGAIN | EADDRINUSE | EADDRNOTAVAIL | ECONNREFUSED | ENETUNREACH =>
    exact Or.inr ⟨_, congrArg Except.ok retries, .refused rfl⟩
  | EACCES | EPERM | EAFNOSUPPORT | EALREADY | EBADF | EFAULT | ENOTSOCK | unexpected =>
    exact Or.inr ⟨_, rfl, .failed rfl⟩

theorem startInLoop_spec (rest : s.state_ = .kDisconnected) (savedErrno : Errno) :
    (s.connect_ = true ∧ savedErrno.opens = true ∧ s.channel_ ≠ none ∧
        s.startInLoop savedErrno = .error "!channel_") ∨
      ∃ t, s.startInLoop savedErrno = .ok t ∧ Started s savedErrno t := by
  simp only [startInLoop, assertThat_of_true rest, ok_bind]
  cases wanted : s.connect_ with
  | false => exact Or.inr ⟨s, rfl, .skipped wanted⟩
  | true =>
    rcases connect_spec wanted savedErrno with ⟨opens, held, failed⟩ | ⟨t, ran, started⟩
    · exact Or.inl ⟨rfl, opens, held, failed⟩
    · exact Or.inr ⟨t, ran, started⟩

theorem startInLoop_cases (ran : s.startInLoop savedErrno = .ok t) :
    s.state_ = .kDisconnected ∧ Started s savedErrno t := by
  obtain ⟨_, asserted, -⟩ := bind_eq_ok.mp ran
  have rest := assertThat_eq_ok.mp asserted
  refine ⟨rest, ?_⟩
  rcases startInLoop_spec rest savedErrno with ⟨-, -, -, failed⟩ | ⟨t', ran', started⟩
  · rw [failed] at ran
    cases ran
  · exact Except.ok.inj (ran'.symm.trans ran) ▸ started

theorem removeAndResetChannel_eq (held : s.channel_ = some channel) :
    s.removeAndResetChannel = .ok (removed s channel, channel.fd) := by
  simp only [removeAndResetChannel, held]
  rfl

theorem retry_removed (s : Connector) (channel : Channel) :
    Left s channel ((removed s channel).retry channel.fd) := by
  obtain ⟨timers, delay, count, same⟩ := retry_eq (removed s channel) channel.fd
  rw [same]
  exact .retried count

theorem handleError_left (held : s.channel_ = some channel) (connecting : s.state_ = .kConnecting) :
    ∃ t, s.handleError = .ok t ∧ Left s channel t ∧ t.state_ = .kDisconnected := by
  simp only [handleError, if_pos connecting, removeAndResetChannel_eq held, ok_bind]
  obtain ⟨timers, delay, -, same⟩ := retry_eq (removed s channel) channel.fd
  exact ⟨_, rfl, retry_removed s channel, by rw [same]⟩

theorem handleWrite_left (held : s.channel_ = some channel) (connecting : s.state_ = .kConnecting)
    (soError selfConnect : Bool) :
    ∃ t, s.handleWrite soError selfConnect = .ok t ∧ Left s channel t := by
  simp only [handleWrite, if_pos connecting, removeAndResetChannel_eq held, ok_bind]
  cases soError with
  | true => exact ⟨_, rfl, retry_removed s channel⟩
  | false =>
    cases selfConnect with
    | true => exact ⟨_, rfl, retry_removed s channel⟩
    | false =>
      simp only [Bool.false_eq_true, if_false]
      split
      · exact ⟨_, rfl, .handed⟩
      · exact ⟨_, rfl, .dropped⟩

theorem stopInLoop_left (held : s.channel_ = some channel) (connecting : s.state_ = .kConnecting) :
    ∃ t, s.stopInLoop = .ok t ∧ Left s channel t := by
  have held' : { s with state_ := .kDisconnected }.channel_ = some channel := held
  simp only [stopInLoop, if_pos connecting, removeAndResetChannel_eq held', ok_bind]
  obtain ⟨timers, delay, count, same⟩ :=
    retry_eq (removed { s with state_ := .kDisconnected } channel) channel.fd
  refine ⟨_, rfl, ?_⟩
  rw [same]
  exact .retried count

/-! The account of the sockets. -/

structure Tidy (s : Connector) : Prop where
  connecting : s.state_ = .kConnecting ↔ s.channel_.any Channel.addedToLoop_ = true
  resets : s.queue.waiting.count .resetChannel =
    (s.channel_.any fun channel => !channel.addedToLoop_).toNat
  idle : s.phase = .events → s.queue.batch = []

def live (s : Connector) : List Nat :=
  if s.state_ = .kConnecting then s.channel_.toList.map Channel.fd else []

/-- Every socket has been closed or handed over once, but for the one of channel_ while
    connecting. -/
def Balanced (s : Connector) : Prop :=
  (s.closed ++ s.handed ++ live s).Perm (List.range s.created)

structure Sound (s : Connector) : Prop where
  tidy : Tidy s
  balanced : Balanced s

theorem channel_of_connecting (tidy : Tidy s) (connecting : s.state_ = .kConnecting) :
    ∃ channel, s.channel_ = some channel ∧ channel.addedToLoop_ = true := by
  have added := tidy.connecting.mp connecting
  cases held : s.channel_ with
  | none => simp [held] at added
  | some channel => exact ⟨channel, rfl, by simpa [held] using added⟩

theorem settled_of_balanced (balanced : Balanced s) (rest : s.state_ ≠ .kConnecting) :
    (s.closed ++ s.handed).Perm (List.range s.created) := by
  simpa only [Balanced, live, if_neg rest, List.append_nil] using balanced

theorem append_between (xs ys : List Nat) (n : Nat) :
    (xs ++ [n] ++ ys).Perm (xs ++ ys ++ [n]) := by
  rw [List.append_assoc, List.append_assoc]
  exact List.Perm.append_left xs List.perm_append_comm

theorem range_close {closed handed : List Nat} {n : Nat}
    (settled : (closed ++ handed).Perm (List.range n)) :
    (closed ++ [n] ++ handed).Perm (List.range (n + 1)) := by
  rw [List.range_succ]
  exact (append_between closed handed n).trans (settled.append_right [n])

theorem started_sound (sound : Sound s) (rest : s.state_ = .kDisconnected)
    (started : Started s savedErrno t) : Sound t := by
  obtain ⟨⟨connecting, resets, idle⟩, balanced⟩ := sound
  have settled := settled_of_balanced balanced (by simp [rest])
  cases started with
  | skipped => exact ⟨⟨connecting, resets, idle⟩, balanced⟩
  | connecting vacant =>
    refine ⟨⟨by simp, ?_, idle⟩, ?_⟩
    · simpa [vacant] using resets
    · rw [Balanced, List.range_succ]
      exact settled.append_right [s.created]
  | refused =>
    refine ⟨⟨?_, resets, idle⟩, ?_⟩
    · rw [← connecting, rest]
    · simpa [Balanced, live] using range_close settled
  | failed =>
    refine ⟨⟨connecting, resets, idle⟩, ?_⟩
    simpa [Balanced, live, rest] using range_close settled

theorem left_sound (sound : Sound s) (connecting : s.state_ = .kConnecting)
    (held : s.channel_ = some channel) (left : Left s channel t) : Sound t := by
  obtain ⟨⟨registered, resets, idle⟩, balanced⟩ := sound
  have added : channel.addedToLoop_ = true := by
    simpa [held] using registered.mp connecting
  have one : (removed s channel).queue.waiting.count .resetChannel = 1 := by
    simp only [held, Option.any_some, added, Bool.not_true, Bool.toNat_false] at resets
    simp [removed, queueInLoop, resets]
  have account : (s.closed ++ s.handed ++ [channel.fd]).Perm (List.range s.created) := by
    simpa [Balanced, live, connecting, held] using balanced
  have closes : (s.closed ++ [channel.fd] ++ s.handed).Perm (List.range s.created) :=
    (append_between _ _ _).trans account
  cases left with
  | retried | dropped =>
    refine ⟨⟨by simp [removed, queueInLoop], one, idle⟩, ?_⟩
    simpa [Balanced, live, removed, queueInLoop] using closes
  | handed =>
    refine ⟨⟨by simp [removed, queueInLoop], one, idle⟩, ?_⟩
    simpa [Balanced, live, removed, queueInLoop] using account

theorem handleError_sound (sound : Sound s) : ∃ t, s.handleError = .ok t ∧ Sound t := by
  by_cases connecting : s.state_ = .kConnecting
  · obtain ⟨channel, held, -⟩ := channel_of_connecting sound.tidy connecting
    obtain ⟨t, ran, left, -⟩ := handleError_left held connecting
    exact ⟨t, ran, left_sound sound connecting held left⟩
  · exact ⟨s, by simp only [handleError, if_neg connecting, pure_eq_ok], sound⟩

theorem handleWrite_sound {soError selfConnect : Bool} (sound : Sound s)
    (ran : s.handleWrite soError selfConnect = .ok t) : Sound t := by
  by_cases connecting : s.state_ = .kConnecting
  · obtain ⟨channel, held, -⟩ := channel_of_connecting sound.tidy connecting
    obtain ⟨u, ran', left⟩ := handleWrite_left held connecting soError selfConnect
    obtain rfl : u = t := Except.ok.inj (ran'.symm.trans ran)
    exact left_sound sound connecting held left
  · simp only [handleWrite, if_neg connecting] at ran
    obtain ⟨_, -, rest⟩ := bind_eq_ok.mp ran
    exact Except.ok.inj rest ▸ sound

theorem handleEvent_sound {error write soError selfConnect : Bool} (sound : Sound s)
    (ran : s.handleEvent error write soError selfConnect = .ok t) : Sound t := by
  obtain ⟨u, first, second⟩ := bind_eq_ok.mp ran
  have sound' : Sound u := by
    cases error with
    | false => exact Except.ok.inj first ▸ sound
    | true =>
      obtain ⟨u', ran', sound'⟩ := handleError_sound sound
      exact Except.ok.inj (ran'.symm.trans first) ▸ sound'
  cases write with
  | false => exact Except.ok.inj second ▸ sound'
  | true => exact handleWrite_sound sound' second

theorem startInLoop_sound (sound : Sound s) (ran : s.startInLoop savedErrno = .ok t) : Sound t := by
  obtain ⟨rest, started⟩ := startInLoop_cases ran
  exact started_sound sound rest started

theorem stopInLoop_sound (sound : Sound s) (ran : s.stopInLoop = .ok t) : Sound t := by
  by_cases connecting : s.state_ = .kConnecting
  · obtain ⟨channel, held, -⟩ := channel_of_connecting sound.tidy connecting
    obtain ⟨u, ran', left⟩ := stopInLoop_left held connecting
    obtain rfl : u = t := Except.ok.inj (ran'.symm.trans ran)
    exact left_sound sound connecting held left
  · simp only [stopInLoop, if_neg connecting, pure_eq_ok] at ran
    exact Except.ok.inj ran ▸ sound

theorem queueInLoop_sound {f : Functor} (sound : Sound s) (other : f ≠ .resetChannel) :
    Sound (s.queueInLoop f) := by
  obtain ⟨⟨connecting, resets, idle⟩, balanced⟩ := sound
  refine ⟨⟨connecting, ?_, idle⟩, balanced⟩
  simpa [queueInLoop, List.count_append, other] using resets

theorem runFunctor_sound {f : Functor} {queue : Batch Functor} (sound : Sound s)
    (phase : s.phase = .functors) (next : s.queue.next = some (f, queue))
    (ran : { s with queue }.runFunctor savedErrno f = .ok t) : Sound t := by
  obtain ⟨⟨connecting, resets, -⟩, balanced⟩ := sound
  rw [Batch.waiting_next next] at resets
  have idle : s.phase = .events → queue.batch = [] := by simp [phase]
  cases f with
  | startInLoop =>
    rw [List.count_cons_of_ne (by decide)] at resets
    have sound : Sound { s with queue } := ⟨⟨connecting, resets, idle⟩, balanced⟩
    exact startInLoop_sound sound ran
  | stopInLoop =>
    rw [List.count_cons_of_ne (by decide)] at resets
    have sound : Sound { s with queue } := ⟨⟨connecting, resets, idle⟩, balanced⟩
    exact stopInLoop_sound sound ran
  | resetChannel =>
    obtain ⟨_, asserted, rest⟩ := bind_eq_ok.mp ran
    have out := assertThat_eq_ok.mp asserted
    have rested : s.state_ ≠ .kConnecting := by
      rw [ne_eq, connecting]
      simpa using out
    have count : queue.waiting.count .resetChannel = 0 := by
      have atMost := Bool.toNat_le (s.channel_.any fun channel => !channel.addedToLoop_)
      rw [List.count_cons_self] at resets
      omega
    obtain rfl := Except.ok.inj rest
    refine ⟨⟨by simp [rested], count, idle⟩, ?_⟩
    have settled := settled_of_balanced balanced rested
    simpa [Balanced, live] using settled

/-- A restart while connecting does not forget the socket, since it fails in connecting. -/
def KeepsSocket (s : Connector) : Label → Prop
  | .restart savedErrno => s.state_ = .kConnecting → savedErrno.opens = true
  | _ => True

instance (s : Connector) (l : Label) : Decidable (KeepsSocket s l) :=
  match l with
  | .restart savedErrno =>
    inferInstanceAs (Decidable (s.state_ = .kConnecting → savedErrno.opens = true))
  | .start .. | .stop | .poll _ | .event .. | .timer .. | .swap | .functor _ | .connectionClosed =>
    isTrue trivial

theorem restart_sound (sound : Sound s) (keeps : s.state_ = .kConnecting → savedErrno.opens = true)
    (ran : s.restart savedErrno = .ok t) : Sound t := by
  obtain ⟨⟨connecting, resets, idle⟩, balanced⟩ := sound
  by_cases busy : s.state_ = .kConnecting
  · obtain ⟨channel, held, -⟩ := channel_of_connecting ⟨connecting, resets, idle⟩ busy
    obtain ⟨-, started⟩ := startInLoop_cases ran
    have opens := keeps busy
    cases started with
    | skipped off => cases off
    | connecting vacant => simp [held] at vacant
    | refused shuts => simp [opens] at shuts
    | failed shuts => simp [opens] at shuts
  · have settled := settled_of_balanced balanced busy
    have out : ¬s.channel_.any Channel.addedToLoop_ = true := mt connecting.mpr busy
    have sound' : Sound { s with
        state_ := .kDisconnected, retryDelayMs_ := kInitRetryDelayMs, connect_ := true
        connection := .absent } := by
      refine ⟨⟨?_, resets, idle⟩, ?_⟩
      · exact iff_of_false (by simp) out
      · simpa [Balanced, live] using settled
    exact startInLoop_sound sound' ran

theorem perform_sound (sound : Sound s) (keeps : KeepsSocket s l)
    (ran : s.perform l = some (.ok t)) : Sound t := by
  have ⟨⟨connecting, resets, idle⟩, balanced⟩ := sound
  cases l with
  | start inLoopThread savedErrno =>
    have ran : s.start inLoopThread savedErrno = .ok t := Option.some.inj ran
    have sound' : Sound { s with connect_ := true } := ⟨⟨connecting, resets, idle⟩, balanced⟩
    cases inLoopThread with
    | true => exact startInLoop_sound sound' ran
    | false => exact Except.ok.inj ran ▸ queueInLoop_sound sound' (by decide)
  | stop =>
    have sound' : Sound { s with connect_ := false } := ⟨⟨connecting, resets, idle⟩, balanced⟩
    exact Except.ok.inj (Option.some.inj ran) ▸ queueInLoop_sound sound' (by decide)
  | restart savedErrno => exact restart_sound sound keeps (Option.some.inj ran)
  | poll ready =>
    simp only [perform] at ran
    split at ran
    · rename_i ended
      cases ran
      exact ⟨⟨connecting, resets, fun _ => ended.2⟩, balanced⟩
    · cases ran
  | event error write soError selfConnect =>
    simp only [perform] at ran
    split at ran
    · have sound' : Sound { s with active := false } := ⟨⟨connecting, resets, idle⟩, balanced⟩
      exact handleEvent_sound sound' (Option.some.inj ran)
    · cases ran
  | timer i savedErrno =>
    simp only [perform] at ran
    split at ran
    · have sound' : Sound { s with timers := s.timers.eraseIdx i } :=
        ⟨⟨connecting, resets, idle⟩, balanced⟩
      exact startInLoop_sound sound' (Option.some.inj ran)
    · cases ran
  | swap =>
    simp only [perform] at ran
    split at ran
    · rename_i handled
      cases ran
      refine ⟨⟨connecting, ?_, by simp⟩, balanced⟩
      rw [← resets, Batch.waiting_swap (idle handled.1)]
    · cases ran
  | functor savedErrno =>
    simp only [perform] at ran
    split at ran
    · rename_i phase
      obtain ⟨⟨f, queue⟩, next, ran⟩ := Option.map_eq_some_iff.mp ran
      exact runFunctor_sound sound phase next ran
    · cases ran
  | connectionClosed =>
    simp only [perform] at ran
    split at ran
    · cases ran
      exact ⟨⟨connecting, resets, idle⟩, balanced⟩
    · cases ran

theorem restart_unbalanced (sound : Sound s) (busy : s.state_ = .kConnecting)
    (shuts : savedErrno.opens = false) (stepped : machine.step s (.restart savedErrno) = some t) :
    ¬Balanced t := by
  obtain ⟨channel, held, -⟩ := channel_of_connecting sound.tidy busy
  have size : s.closed.length + (s.handed.length + 1) = s.created := by
    have account := sound.balanced.length_eq
    simpa [live, busy, held] using account
  have started : Started { s with
      state_ := .kDisconnected, retryDelayMs_ := kInitRetryDelayMs, connect_ := true
      connection := .absent } savedErrno t := by
    obtain ⟨-, performed⟩ := faults.step_cases stepped
    have spec := startInLoop_spec (s := { s with
      state_ := .kDisconnected, retryDelayMs_ := kInitRetryDelayMs, connect_ := true
      connection := .absent }) rfl savedErrno
    rcases spec with ⟨-, opens, -⟩ | ⟨u, ran, started⟩
    · simp [shuts] at opens
    · rcases performed with same | ⟨e, failed, -⟩
      · exact Except.ok.inj (ran.symm.trans (Option.some.inj same)) ▸ started
      · exact absurd (ran.symm.trans (Option.some.inj failed)) (by simp)
  intro balanced
  have account := balanced.length_eq
  cases started with
  | skipped off => cases off
  | connecting vacant => simp [held] at vacant
  | refused | failed =>
    simp only [live, List.length_append, List.length_singleton, List.length_range, reduceCtorEq,
      if_false, List.length_nil] at account
    omega

theorem sound_init : Sound init := by
  refine ⟨⟨by decide, rfl, fun _ => rfl⟩, ?_⟩
  exact List.Perm.refl []

/-- In every state of a run each socket that was created has been closed or handed over
    exactly once, but for the socket of channel_ while connecting, exactly when no restart
    comes while connecting whose connect(2) does not lead to connecting again; such a
    restart leaves the first socket open, and any other stops at the assertion. -/
theorem sockets_balanced_iff {labels : List Label} (ran : machine.run init labels = some s) :
    machine.Always Balanced init labels ↔ machine.Within KeepsSocket init labels := by
  refine machine.always_iff_within KeepsSocket Sound Balanced ?_ ?_ sound_init sound_init.balanced ran
  · intro s l t sound _ keeps stepped
    obtain ⟨-, performed | ⟨e, -, rfl⟩⟩ := faults.step_cases stepped
    · have sound' := perform_sound sound keeps performed
      exact ⟨sound', sound'.balanced⟩
    · obtain ⟨⟨connecting, resets, idle⟩, balanced⟩ := sound
      exact ⟨⟨⟨connecting, resets, idle⟩, balanced⟩, balanced⟩
  · intro s l t sound _ forgets stepped
    cases l with
    | restart savedErrno =>
      simp only [KeepsSocket, not_forall] at forgets
      obtain ⟨busy, shuts⟩ := forgets
      exact restart_unbalanced sound busy (Bool.eq_false_iff.mpr shuts) stepped
    | _ => exact absurd trivial forgets

def retriedRun : List Label :=
  [.start true .EINPROGRESS, .poll true, .event true true true false, .swap, .functor .zero,
    .poll false, .timer 0 .EINPROGRESS, .swap, .poll true, .event false true false false, .swap,
    .functor .zero, .connectionClosed, .restart .ECONNREFUSED]

theorem sockets_balanced_of_retried :
    ∃ s, machine.run init retriedRun = some s ∧ s.created = 3 ∧ s.closed = [0, 2] ∧
      s.handed = [1] ∧ machine.Always Balanced init retriedRun := by
  have shown : (machine.run init retriedRun).map (fun s => (s.created, s.closed, s.handed)) =
      some (3, [0, 2], [1]) := by
    decide +kernel
  obtain ⟨s, ran, same⟩ := Option.map_eq_some_iff.mp shown
  simp only [Prod.mk.injEq] at same
  have within : machine.Within KeepsSocket init retriedRun :=
    machine.within_of_check (by decide +kernel)
  exact ⟨s, ran, same.1, same.2.1, same.2.2, (sockets_balanced_iff ran).mpr within⟩

/-- The first socket is neither closed nor handed over, and the connector is not
    connecting. -/
theorem restart_leaks_socket :
    ∃ s, machine.run init [.start true .EINPROGRESS, .restart .ECONNREFUSED] = some s ∧
      s.fault = none ∧ s.state_ = .kDisconnected ∧ s.created = 2 ∧ s.closed = [1] ∧
      s.handed = [] := by
  have shown : (machine.run init [.start true .EINPROGRESS, .restart .ECONNREFUSED]).map
      (fun s => (s.fault, s.state_, s.created, s.closed, s.handed)) =
      some (none, .kDisconnected, 2, [1], []) := by
    decide +kernel
  obtain ⟨s, ran, same⟩ := Option.map_eq_some_iff.mp shown
  simp only [Prod.mk.injEq] at same
  exact ⟨s, ran, same⟩

end Connector
end Muduo
