import Muduo.Lib.Ownership
import Muduo.Net.Acceptor

/-!
What the acceptor holds. Its descriptors are the listening socket, the reserve idleFd_
outside the stretches in which it is given up, and a connection that it has in hand. It
closes no other, and the destructor leaves it none. The reserve is there to the end if the
other threads leave a descriptor free while it is given up; then every call of handleRead
takes a connection, and a full table does not keep the loop busy.
-/
namespace Muduo
open Lib
namespace Acceptor

inductive Stepped (s : Acceptor) : Label → Acceptor → Prop where
  | connect (there : s.point ≠ .destroyed) :
      Stepped s .connect { s with backlog := s.backlog + 1, arrived := s.arrived + 1 }
  | reset (waits : 0 < s.backlog) :
      Stepped s .reset { s with backlog := s.backlog - 1, reset := s.reset + 1 }
  | opens {fd : Nat} (free : s.Free fd) : Stepped s (.opens fd) (s.take fd .others)
  | closes {fd : Nat} (theirs : s.held fd = some .others) :
      Stepped s (.closes fd) { s with held := Function.update s.held fd none }
  | setNewConnectionCallback (point : s.point = .rest) :
      Stepped s .setNewConnectionCallback { s with newConnectionCallback_ := true }
  | listen (point : s.point = .rest) : Stepped s .listen { s with listening_ := true }
  | accepted {connfd : Nat} {errno : Errno} (point : s.point = .rest) (waits : 0 < s.backlog)
      (free : s.Free connfd) :
      Stepped s (.handleRead ⟨some connfd, errno⟩)
        { s.accept connfd with calls := s.calls + 1, point := .accepted connfd }
  | failed {errno : Errno} (point : s.point = .rest) :
      Stepped s (.handleRead ⟨none, errno⟩)
        { s with calls := s.calls + 1, point := .failed }
  | aborted {errno : Errno} (point : s.point = .rest) (fatal : errno.expected = false) :
      Stepped s (.handleRead ⟨none, errno⟩)
        { s with calls := s.calls + 1, point := .aborted }
  | delivered {a : Answer} {connfd : Nat} (point : s.point = .accepted connfd) :
      Stepped s (.handleRead a) (s.deliver connfd)
  | gives_up {a : Answer} (point : s.point = .failed) (other : a.errno ≠ .EMFILE) :
      Stepped s (.handleRead a) { s with point := .rest }
  | makes_room {a : Answer} (point : s.point = .failed) (full : a.errno = .EMFILE) :
      Stepped s (.handleRead a) { s with point := .closing }
  | closing {a : Answer} (point : s.point = .closing) :
      Stepped s (.handleRead a) { s.close s.idleFd_ with point := .accepting }
  | took {fd : Nat} {errno : Errno} (point : s.point = .accepting) (waits : 0 < s.backlog)
      (free : s.Free fd) :
      Stepped s (.handleRead ⟨some fd, errno⟩)
        { s.accept fd with idleFd_ := some fd, point := .dropping }
  | missed {errno : Errno} (point : s.point = .accepting) (none_ : errno = .EMFILE → s.Full) :
      Stepped s (.handleRead ⟨none, errno⟩) { s with idleFd_ := none, point := .dropping }
  | dropping {a : Answer} (point : s.point = .dropping) :
      Stepped s (.handleRead a) { s.close s.idleFd_ with
        dropped := s.dropped + s.idleFd_.toList.length, point := .opening }
  | reopened {fd : Nat} {errno : Errno} (point : s.point = .opening) (free : s.Free fd) :
      Stepped s (.handleRead ⟨some fd, errno⟩)
        { s.take fd .acceptor with idleFd_ := some fd, point := .rest }
  | lost {errno : Errno} (point : s.point = .opening) (none_ : errno = .EMFILE → s.Full) :
      Stepped s (.handleRead ⟨none, errno⟩) { s with idleFd_ := none, point := .rest }
  | destroy (point : s.point = .rest) : Stepped s .destroy s.destroy

section
variable {s t : Acceptor} {l : Label} {a : Answer}

theorem handleRead_spec (ran : s.handleRead a = some t) : Stepped s (.handleRead a) t := by
  obtain ⟨fd, errno⟩ := a
  unfold handleRead at ran
  split at ran
  · next point =>
    obtain ⟨⟨-, allowed⟩, ran⟩ := Option.ite_none_right_eq_some.mp ran
    cases fd with
    | some connfd =>
      cases ran
      exact .accepted point allowed.1 allowed.2
    | none =>
      cases ran
      cases expected : errno.expected with
      | true => exact .failed point
      | false => exact .aborted point expected
  · next connfd point =>
    cases ran
    exact .delivered point
  · next point =>
    cases ran
    by_cases full : errno = .EMFILE
    · simp only [if_pos full]
      exact .makes_room point full
    · simp only [if_neg full]
      exact .gives_up point full
  · next point =>
    cases ran
    exact .closing point
  · next point =>
    obtain ⟨allowed, ran⟩ := Option.ite_none_right_eq_some.mp ran
    cases fd with
    | some fd =>
      cases ran
      exact .took point allowed.1 allowed.2
    | none =>
      cases ran
      exact .missed point allowed.1
  · next point =>
    cases ran
    exact .dropping point
  · next point =>
    obtain ⟨allowed, ran⟩ := Option.ite_none_right_eq_some.mp ran
    cases fd with
    | some fd =>
      cases ran
      exact .reopened point allowed
    | none =>
      cases ran
      exact .lost point allowed
  · cases ran
  · cases ran

theorem step_spec (stepped : machine.step s l = some t) : Stepped s l t := by
  simp only [machine, step] at stepped
  obtain ⟨-, stepped⟩ := Option.ite_none_left_eq_some.mp stepped
  cases l with
  | connect =>
    obtain ⟨there, ⟨⟩⟩ := Option.ite_none_right_eq_some.mp stepped
    exact .connect there.2
  | reset =>
    obtain ⟨waits, ⟨⟩⟩ := Option.ite_none_right_eq_some.mp stepped
    exact .reset waits
  | opens fd =>
    obtain ⟨free, ⟨⟩⟩ := Option.ite_none_right_eq_some.mp stepped
    exact .opens free
  | closes fd =>
    obtain ⟨theirs, ⟨⟩⟩ := Option.ite_none_right_eq_some.mp stepped
    exact .closes theirs
  | setNewConnectionCallback =>
    obtain ⟨point, ⟨⟩⟩ := Option.ite_none_right_eq_some.mp stepped
    exact .setNewConnectionCallback point
  | listen =>
    obtain ⟨point, ⟨⟩⟩ := Option.ite_none_right_eq_some.mp stepped
    exact .listen point
  | handleRead a => exact handleRead_spec stepped
  | destroy =>
    obtain ⟨point, ⟨⟩⟩ := Option.ite_none_right_eq_some.mp stepped
    exact .destroy point

end

def mine (s : Acceptor) : List Nat :=
  match s.point with
  | .accepted connfd => connfd :: (s.idleFd_.toList ++ [s.acceptSocket_])
  | .accepting | .opening => [s.acceptSocket_]
  | .destroyed => []
  | _ => s.idleFd_.toList ++ [s.acceptSocket_]

def inHand (s : Acceptor) : Nat :=
  match s.point with
  | .accepted _ => 1
  | .dropping => s.idleFd_.toList.length
  | _ => 0

structure Tidy (s : Acceptor) : Prop where
  stray : s.stray = []
  owns : Owns s.held .acceptor (mine s)
  below : ∀ fd ∈ mine s, fd < s.limit
  counted : s.arrived = s.backlog + s.reset + s.given + s.dropped + inHand s

section
variable {s t : Acceptor} {l : Label} {fd : Nat} {rest : List Nat}

theorem Tidy.at_ {p : Point} (tidy : Tidy s) (point : s.point = p) : Tidy { s with point := p } := by
  subst point
  exact tidy

theorem close_owns (o : Option Nat) (owns : Owns s.held .acceptor (o.toList ++ rest)) :
    (s.close o).stray = s.stray ∧ Owns (s.close o).held .acceptor rest := by
  cases o with
  | none => exact ⟨List.append_nil _, owns⟩
  | some fd =>
    have held : s.held fd = some .acceptor := owns.held_of_mem List.mem_cons_self
    constructor
    · simp [close, held]
    · exact owns.release (by simp)

theorem accept_owns (owns : Owns s.held .acceptor rest) (free : s.Free fd) :
    Owns (s.accept fd).held .acceptor (fd :: rest) :=
  owns.acquire (by simp [free.2])

theorem deliver_tidy (tidy : Tidy s) (point : s.point = .accepted fd) : Tidy (s.deliver fd) := by
  obtain ⟨stray, owns, below, counted⟩ := tidy.at_ point
  have below' := (List.forall_mem_cons.mp below).2
  simp only [inHand] at counted
  unfold deliver
  split
  · refine ⟨stray, owns.release (by simp), below', ?_⟩
    simp only [inHand, take]
    omega
  · obtain ⟨same, owns'⟩ := close_owns (some fd) owns
    refine ⟨same.trans stray, owns', below', ?_⟩
    simp only [inHand, close]
    omega

theorem destroy_tidy (tidy : Tidy s) (point : s.point = .rest) : Tidy s.destroy := by
  obtain ⟨stray, owns, -, counted⟩ := tidy.at_ point
  obtain ⟨same, owns'⟩ := close_owns s.idleFd_ owns
  obtain ⟨same', owns''⟩ := close_owns (some s.acceptSocket_) owns'
  refine ⟨(same'.trans same).trans stray, owns'', ?_, counted⟩
  intro fd listed
  cases listed

theorem tidy_step (tidy : Tidy s) (stepped : Stepped s l t) : Tidy t := by
  have ⟨stray, owns, below, counted⟩ := tidy
  cases stepped with
  | connect there =>
    refine ⟨stray, owns, below, ?_⟩
    change s.arrived + 1 = s.backlog + 1 + s.reset + s.given + s.dropped + inHand s
    omega
  | reset waits =>
    refine ⟨stray, owns, below, ?_⟩
    change s.arrived = s.backlog - 1 + (s.reset + 1) + s.given + s.dropped + inHand s
    omega
  | opens free => exact ⟨stray, owns.frame (by simp [free.2]) (by simp), below, counted⟩
  | closes theirs => exact ⟨stray, owns.frame (by simp [theirs]) (by simp), below, counted⟩
  | setNewConnectionCallback | listen => exact ⟨stray, owns, below, counted⟩
  | accepted point waits free =>
    obtain ⟨-, owns, below, counted⟩ := tidy.at_ point
    refine ⟨stray, accept_owns owns free, List.forall_mem_cons.mpr ⟨free.1, below⟩, ?_⟩
    simp only [inHand] at counted
    simp only [inHand, accept, take]
    omega
  | failed point | aborted point | gives_up point | makes_room point | missed point | lost point =>
    obtain ⟨-, owns, below, counted⟩ := tidy.at_ point
    exact ⟨stray, owns, below, counted⟩
  | delivered point => exact deliver_tidy tidy point
  | closing point =>
    obtain ⟨-, owns, below, counted⟩ := tidy.at_ point
    obtain ⟨same, owns'⟩ := close_owns s.idleFd_ owns
    exact ⟨same.trans stray, owns', (List.forall_mem_append.mp below).2, counted⟩
  | took point waits free =>
    obtain ⟨-, owns, below, counted⟩ := tidy.at_ point
    refine ⟨stray, accept_owns owns free, List.forall_mem_cons.mpr ⟨free.1, below⟩, ?_⟩
    simp only [inHand] at counted
    simp only [inHand, accept, take, Option.toList_some, List.length_singleton]
    omega
  | dropping point =>
    obtain ⟨-, owns, below, counted⟩ := tidy.at_ point
    obtain ⟨same, owns'⟩ := close_owns s.idleFd_ owns
    refine ⟨same.trans stray, owns', (List.forall_mem_append.mp below).2, ?_⟩
    simp only [inHand] at counted
    simp only [inHand, close]
    omega
  | reopened point free =>
    obtain ⟨-, owns, below, counted⟩ := tidy.at_ point
    exact ⟨stray, owns.acquire (by simp [free.2]), List.forall_mem_cons.mpr ⟨free.1, below⟩,
      counted⟩
  | destroy point => exact destroy_tidy tidy point

end

structure Opened (limit : Nat) (held : Nat → Option Owner) (acceptSocket_ : Nat)
    (idleFd_ : Option Nat) : Prop where
  theirs : ∀ fd, held fd ≠ some .acceptor
  socket : acceptSocket_ < limit ∧ held acceptSocket_ = none
  idle : ∀ fd ∈ idleFd_, fd < limit ∧ held fd = none ∧ fd ≠ acceptSocket_

section
variable {limit acceptSocket_ : Nat} {held : Nat → Option Owner} {idleFd_ : Option Nat}
  {s t : Acceptor} {l : Label} {labels : List Label}

theorem new_eq_ok (created : new limit held acceptSocket_ idleFd_ = .ok s) :
    ∃ fd, idleFd_ = some fd ∧ s = {
      limit, acceptSocket_, idleFd_ := some fd
      held := Function.update (Function.update held acceptSocket_ (some .acceptor)) fd
        (some .acceptor) } := by
  obtain ⟨_, asserted, result⟩ := bind_eq_ok.mp created
  cases result
  cases idleFd_ with
  | none => cases asserted
  | some fd => exact ⟨fd, rfl, rfl⟩

theorem new_tidy (opened : Opened limit held acceptSocket_ idleFd_)
    (created : new limit held acceptSocket_ idleFd_ = .ok s) : Tidy s := by
  obtain ⟨fd, rfl, rfl⟩ := new_eq_ok created
  obtain ⟨theirs, socket, idle⟩ := opened
  obtain ⟨below, free, other⟩ := idle fd rfl
  have nothing : Owns held .acceptor [] := ⟨List.nodup_nil, by simp [theirs]⟩
  have one := nothing.acquire (theirs acceptSocket_)
  have two : Owns _ Owner.acceptor [fd, acceptSocket_] := one.acquire (h := fd) (by
    rw [Function.update_of_ne other, free]
    simp)
  refine ⟨rfl, two, ?_, rfl⟩
  intro k listed
  simp only [mine, Option.toList_some, List.cons_append, List.nil_append, List.mem_cons,
    List.not_mem_nil, or_false] at listed
  rcases listed with rfl | rfl
  · exact below
  · exact socket.1

theorem tidy_run (tidy : Tidy s) (ran : machine.run s labels = some t) : Tidy t :=
  machine.run_invariant (fun _ _ _ tidy stepped => tidy_step tidy (step_spec stepped)) tidy ran

/-- In every interleaving with threads that open and close descriptors of their own, the
    acceptor closes only what it holds, and each descriptor once; its list of them is right
    at every step and empty after the destructor. Every connection that arrived is still
    waiting, was reset, was given to the callback or was closed, or is in hand. -/
theorem acceptor_closes_its_own (opened : Opened limit held acceptSocket_ idleFd_)
    (created : new limit held acceptSocket_ idleFd_ = .ok s)
    (ran : machine.run s labels = some t) :
    t.stray = [] ∧ Owns t.held .acceptor (mine t) ∧
    (t.point = .destroyed → ∀ fd, t.held fd ≠ some .acceptor) ∧
    t.arrived = t.backlog + t.reset + t.given + t.dropped + inHand t := by
  have tidy := tidy_run (new_tidy opened created) ran
  have owns := tidy.owns
  refine ⟨tidy.stray, owns, ?_, tidy.counted⟩
  intro destroyed fd
  simp only [mine, destroyed] at owns
  intro kept
  cases (owns.mem_iff fd).mp kept

/-! The reserve. -/

/-- The other threads leave a descriptor free while the reserve is given up, accept and open
    fail only for want of one, and errno outlives the line that is logged. -/
def Polite (s : Acceptor) : Label → Prop
  | .opens fd => s.point = .accepting ∨ s.point = .opening →
    ∃ other, other < s.limit ∧ other ≠ fd ∧ s.held other = none
  | .handleRead a => a.fd = none ∨ s.point = .failed → a.errno = .EMFILE
  | _ => True

def Reserved (s : Acceptor) : Prop :=
  match s.point with
  | .accepting | .opening => ∃ fd, s.Free fd
  | .destroyed => True
  | _ => s.idleFd_ ≠ none

def due (s : Acceptor) : Nat :=
  match s.point with
  | .accepted _ | .failed | .closing | .accepting | .dropping => 1
  | .rest | .opening | .destroyed | .aborted => 0

structure Ready (s : Acceptor) : Prop where
  tidy : Tidy s
  reserved : Reserved s
  taken : s.calls = s.given + s.dropped + due s

theorem Ready.at_ {p : Point} (ready : Ready s) (point : s.point = p) :
    Ready { s with point := p } := by
  subst point
  exact ready

theorem Reserved.of_free {s' : Acceptor} (reserved : Reserved s) (point : s'.point = s.point)
    (idle : s'.idleFd_ = s.idleFd_)
    (free : s.point = .accepting ∨ s.point = .opening → (∃ fd, s.Free fd) → ∃ fd, s'.Free fd) :
    Reserved s' := by
  unfold Reserved at reserved ⊢
  rw [point, idle]
  cases at_ : s.point with
  | accepting =>
    rw [at_] at reserved
    exact free (Or.inl at_) reserved
  | opening =>
    rw [at_] at reserved
    exact free (Or.inr at_) reserved
  | _ =>
    rw [at_] at reserved
    exact reserved

theorem free_of_close {rest : List Nat}
    (below : ∀ fd ∈ s.idleFd_.toList ++ rest, fd < s.limit) (some_ : s.idleFd_ ≠ none) :
    ∃ fd, (s.close s.idleFd_).Free fd ∧ s.idleFd_ = some fd := by
  obtain ⟨fd, idle⟩ := Option.ne_none_iff_exists'.mp some_
  rw [idle] at below
  refine ⟨fd, ⟨below fd List.mem_cons_self, ?_⟩, idle⟩
  simp [close, idle]

theorem not_full {fd : Nat} (free : s.Free fd) : ¬s.Full :=
  fun full => full fd free.1 free.2

theorem deliver_due {connfd : Nat} (taken : s.calls = s.given + s.dropped + 1) :
    (s.deliver connfd).calls = (s.deliver connfd).given + (s.deliver connfd).dropped +
      due (s.deliver connfd) := by
  unfold deliver
  split
  · simp only [due, take]
    omega
  · simp only [due, close]
    omega

theorem deliver_reserved {connfd : Nat} (reserved : s.idleFd_ ≠ none) :
    Reserved (s.deliver connfd) := by
  unfold deliver
  split
  · exact reserved
  · exact reserved

theorem ready_step (ready : Ready s) (polite : Polite s l) (stepped : Stepped s l t) :
    Ready t := by
  have ⟨tidy, reserved, taken⟩ := ready
  have tidy' := tidy_step tidy stepped
  cases stepped with
  | connect | reset | setNewConnectionCallback | listen => exact ⟨tidy', reserved, taken⟩
  | @opens fd free =>
    refine ⟨tidy', reserved.of_free rfl rfl ?_, taken⟩
    intro given_up _
    obtain ⟨other, below, ne, none_⟩ := polite given_up
    exact ⟨other, below, (Function.update_of_ne ne _ _).trans none_⟩
  | @closes fd theirs =>
    refine ⟨tidy', reserved.of_free rfl rfl ?_, taken⟩
    intro _ ⟨other, below, none_⟩
    have ne : other ≠ fd := by
      intro same
      rw [same, theirs] at none_
      cases none_
    exact ⟨other, below, (Function.update_of_ne ne _ _).trans none_⟩
  | accepted point | failed point =>
    obtain ⟨-, reserved, taken⟩ := ready.at_ point
    exact ⟨tidy', reserved, congrArg (· + 1) taken⟩
  | aborted point fatal =>
    have full := polite (Or.inl rfl)
    dsimp only at full
    rw [full] at fatal
    cases fatal
  | delivered point =>
    obtain ⟨-, reserved, taken⟩ := ready.at_ point
    exact ⟨tidy', deliver_reserved reserved, deliver_due taken⟩
  | gives_up point other => exact absurd (polite (Or.inr point)) other
  | makes_room point =>
    obtain ⟨-, reserved, taken⟩ := ready.at_ point
    exact ⟨tidy', reserved, taken⟩
  | closing point =>
    obtain ⟨tidy, reserved, taken⟩ := ready.at_ point
    obtain ⟨fd, free, -⟩ := free_of_close tidy.below reserved
    exact ⟨tidy', ⟨fd, free⟩, taken⟩
  | took point | reopened point =>
    obtain ⟨-, -, taken⟩ := ready.at_ point
    exact ⟨tidy', by simp [Reserved], taken⟩
  | missed point none_ | lost point none_ =>
    obtain ⟨-, ⟨fd, free⟩, -⟩ := ready.at_ point
    exact absurd (none_ (polite (Or.inl rfl))) (not_full free)
  | dropping point =>
    obtain ⟨tidy, reserved, taken⟩ := ready.at_ point
    obtain ⟨fd, free, idle⟩ := free_of_close tidy.below reserved
    refine ⟨tidy', ⟨fd, free⟩, ?_⟩
    have taken : s.calls = s.given + s.dropped + 1 := taken
    have idle : s.idleFd_ = some fd := idle
    simp only [idle, due, close, Option.toList_some, List.length_singleton]
    omega
  | destroy point =>
    obtain ⟨-, -, taken⟩ := ready.at_ point
    exact ⟨tidy', trivial, taken⟩

theorem new_ready (opened : Opened limit held acceptSocket_ idleFd_)
    (created : new limit held acceptSocket_ idleFd_ = .ok s) : Ready s := by
  have tidy := new_tidy opened created
  obtain ⟨fd, rfl, rfl⟩ := new_eq_ok created
  exact ⟨tidy, by simp [Reserved], rfl⟩

/-- The reserve outlasts any number of full tables, and no call of handleRead returns without
    having taken a connection. -/
theorem reserve_lasts (opened : Opened limit held acceptSocket_ idleFd_)
    (created : new limit held acceptSocket_ idleFd_ = .ok s)
    (within : machine.Within Polite s labels) (ran : machine.run s labels = some t)
    (resting : t.point = .rest) :
    (∃ fd, t.idleFd_ = some fd ∧ t.held fd = some .acceptor) ∧
      t.calls = t.given + t.dropped := by
  have ready : Ready t := by
    apply machine.within_invariant Polite Ready _ (new_ready opened created) within ran
    intro s l t ready polite stepped
    exact ready_step ready polite (step_spec stepped)
  obtain ⟨tidy, reserved, taken⟩ := ready
  simp only [Reserved, resting] at reserved
  simp only [due, resting] at taken
  have owns := tidy.owns
  simp only [mine, resting] at owns
  obtain ⟨fd, idle⟩ := Option.ne_none_iff_exists'.mp reserved
  refine ⟨⟨fd, idle, owns.held_of_mem ?_⟩, taken⟩
  rw [idle]
  exact List.mem_cons_self

end

def threeHeld (fd : Nat) : Option Owner := if fd = 0 then some .others else none

theorem opened_three : Opened 3 threeHeld 1 (some 2) where
  theirs := by
    intro fd
    unfold threeHeld
    split <;> simp
  socket := by decide
  idle := by
    intro fd held
    cases held
    decide

def three : Acceptor :=
  { limit := 3, acceptSocket_ := 1, idleFd_ := some 2
    held := Function.update (Function.update threeHeld 1 (some .acceptor)) 2 (some .acceptor) }

theorem new_three : new 3 threeHeld 1 (some 2) = .ok three := rfl

def fullTable : List Label :=
  let full : Answer := ⟨none, .EMFILE⟩
  [.listen, .connect, .handleRead full, .handleRead full, .handleRead full, .connect,
    .handleRead ⟨some 2, .EAGAIN⟩, .handleRead full, .handleRead ⟨some 2, .EAGAIN⟩]

theorem acceptor_closes_its_own_when_full :
    ∃ t, machine.run three (fullTable ++ [.destroy]) = some t ∧ t.dropped = 1 ∧ t.stray = [] ∧
      ∀ fd, t.held fd ≠ some .acceptor := by
  have shown : (machine.run three (fullTable ++ [.destroy])).map
      (fun t => (t.point, t.dropped)) = some (.destroyed, 1) := by decide +kernel
  obtain ⟨t, ran, same⟩ := Option.map_eq_some_iff.mp shown
  obtain ⟨point, dropped⟩ := Prod.mk.inj same
  have result := acceptor_closes_its_own opened_three new_three ran
  exact ⟨t, ran, dropped, result.1, result.2.2.1 point⟩

instance (s : Acceptor) (l : Label) : Decidable (Polite s l) :=
  match l with
  | .opens fd => inferInstanceAs (Decidable (s.point = .accepting ∨ s.point = .opening →
      ∃ other, other < s.limit ∧ other ≠ fd ∧ s.held other = none))
  | .handleRead a =>
    inferInstanceAs (Decidable (a.fd = none ∨ s.point = .failed → a.errno = .EMFILE))
  | .connect | .reset | .closes _ | .setNewConnectionCallback | .listen | .destroy =>
    instDecidableTrue

theorem reserve_lasts_when_full :
    ∃ t, machine.run three fullTable = some t ∧ t.dropped = 1 ∧
      (∃ fd, t.idleFd_ = some fd ∧ t.held fd = some .acceptor) ∧
      t.calls = t.given + t.dropped := by
  have shown : (machine.run three fullTable).map (fun t => (t.point, t.dropped)) =
      some (.rest, 1) := by decide +kernel
  obtain ⟨t, ran, same⟩ := Option.map_eq_some_iff.mp shown
  obtain ⟨point, dropped⟩ := Prod.mk.inj same
  have within : machine.Within Polite three fullTable :=
    machine.within_of_check (by decide +kernel)
  exact ⟨t, ran, dropped, reserve_lasts opened_three new_three within ran point⟩

example : (let full : Label := .handleRead ⟨none, .EMFILE⟩
    machine.run three ([.listen, .connect, full, full, full, .opens 2] ++ List.replicate 9 full)).map
      (fun t => (t.point, t.idleFd_, t.backlog, t.calls, t.given + t.dropped)) =
    some (.rest, none, 1, 2, 0) := by decide +kernel

end Acceptor
end Muduo
