import Muduo.Net.TcpConnectionLife

/-!
Two results about whole lives of a connection. When its owner lets it go only
after the close callback, the callbacks come once each and in order and no
assertion fails. When TcpServer's destructor tears it down, connectDestroyed
gets through exactly when state_ is not kDisconnecting and the loop may remove
the channel. connectionCallback_ counts as UP when connectEstablished calls it
and as DOWN when handleClose or connectDestroyed does.
-/
namespace Muduo
open Lib
namespace TcpConnection
variable {s t : State} {l : Label} {rest : List Frame}

/-- kConnecting, kConnected, kDisconnecting, kDisconnected, in this order. -/
def StateE.rank : StateE → Nat
  | .kConnecting => 0
  | .kConnected => 1
  | .kDisconnecting => 2
  | .kDisconnected => 3

theorem rank_alive {c : Conn} (alive : c.alive) : 1 ≤ c.state_.rank ∧ c.state_.rank ≤ 2 := by
  rcases alive with up | closing
  · rw [up]
    decide
  · rw [closing]
    decide

theorem rank_le (state : StateE) : state.rank ≤ 3 := by
  cases state <;> decide

theorem asked_rank {caller : Caller} {c : Call} {r : Option Request} (asked : Asked s caller c t r) :
    s.conn.state_.rank ≤ t.conn.state_.rank := by
  cases asked with
  | shutdown up => exact (rank_alive (Or.inl up)).2
  | forceClose alive => exact (rank_alive alive).2
  | forceCloseWithDelay alive => exact (rank_alive alive).2
  | send | startRead | stopRead | refused => exact Nat.le_refl _

theorem rank_step (sound : s.conn.Sound) (taken : step s l = some t) :
    s.conn.state_.rank ≤ t.conn.state_.rank := by
  obtain ⟨-, stepped⟩ := stepped sound taken
  cases stepped with
  | threadCall _ asked =>
    have forward := asked_rank asked
    exact forward
  | threadPush => simp only [threadPush_conn, Nat.le_refl]
  | introduce _ ran => simp only [ownerRan_conn ran, Nat.le_refl]
  | ownerTearsDown _ _ ran => simp only [ownerRan_conn ran, Nat.le_refl]
  | fireTimer _ _ _ asked =>
    have forward := asked_rank asked
    exact forward
  | call _ asked =>
    have forward := asked_rank asked
    exact forward
  | exec _ did =>
    rcases did_state did with same | ⟨down, -⟩ | ⟨up, connecting⟩
    · simp only [same, Nat.le_refl]
    · rw [down]
      exact rank_le _
    · rw [up, show s.conn.state_ = .kConnecting from connecting]
      decide
  | queueTask | ownerRemoves | pollNone | pollSome | otherCode | dispatch | endHandling
  | nextFunctor | endFunctors | ret | failed => exact Nat.le_refl _

/-- The runs of a connection that its owner lets go only after the close callback. -/
def Label.lifeCycle (l : Label) : Bool := l.calm && l ≠ .ownerTearsDown

theorem torn_step (sound : s.conn.Sound) (whole : s.torn = false) (spared : l ≠ .ownerTearsDown)
    (taken : step s l = some t) : t.torn = false := by
  obtain ⟨-, stepped⟩ := stepped sound taken
  cases stepped with
  | threadCall _ asked => cases asked <;> exact whole
  | @threadPush n f _ =>
    obtain ⟨returned, pushed⟩ := threadPush_eq s n f
    rw [pushed]
    exact whole
  | introduce _ ran => cases ran <;> exact whole
  | ownerTearsDown => exact absurd rfl spared
  | fireTimer _ _ _ asked => cases asked <;> exact whole
  | call _ asked => cases asked <;> exact whole
  | exec _ did =>
    obtain ⟨pushed, executed, -⟩ := did_executed did
    exact executed.torn.trans whole
  | queueTask | ownerRemoves | pollNone | pollSome | otherCode | dispatch | endHandling
  | nextFunctor | endFunctors | ret | failed => exact whole

theorem down_of_whole (lawful : Lawful s) (whole : s.torn = false)
    (top : s.stack = .run .connectDestroyed :: rest) : s.conn.state_ = .kDisconnected := by
  obtain ⟨-, free, -⟩ := lawful.ledger.destroying_facts lawful.flow top
  rcases lawful.ledger.disowned free with torn | some
  · rw [whole] at torn
    cases torn
  · refine lawful.ledger.closed_down ?_
    by_contra open_
    have closing := lawful.ledger.closing
    rw [Bool.eq_false_iff.mpr open_, Bool.toNat_false] at closing
    omega

theorem gate_of_whole (lawful : Lawful s) (whole : s.torn = false) : Gate s l := by
  intro w r _ head
  obtain ⟨rest, top⟩ := List.head?_eq_some_iff.mp head
  have down := down_of_whole lawful whole top
  have functors : s.phase = .functors := by
    rcases lawful.ledger.destroying (by rw [top]; exact List.mem_cons_self) with torn | functors
    · rw [whole] at torn
      cases torn
    · exact functors
  refine ⟨by rw [down]; nofun, ?_⟩
  simp [Channel.LoopView.MayRemove, loopView, functors]

def Paired (s : State) : Prop := .connectionCallback .down ∈ s.stack → .closeCallback ∈ s.stack

theorem paired_step (lawful : Lawful s) (whole : s.torn = false) (inv : Paired s)
    (taken : step s l = some t) : Paired t := by
  intro tells
  cases restacked lawful.sound taken with
  | put stack entries =>
    rw [stack] at tells ⊢
    rcases List.mem_append.mp tells with new | old
    · cases entries _ new
    · exact List.mem_append_right _ (inv old)
  | returned stack =>
    have inside := inv (by rw [stack]; exact List.mem_cons_of_mem _ tells)
    rw [stack] at inside
    simpa using inside
  | @executed w r frame rest label top did =>
    have nothing_below : .connectionCallback .down ∉ rest := by
      intro member
      cases lawful.flow.below top _ member
    cases did with
    | close => simp [closedBy, enter]
    | destroy up =>
      have down := down_of_whole lawful whole top
      rw [show s.conn.state_ = .kConnected from up] at down
      cases down
    | halfClose =>
      unfold shutdownInLoop at tells
      split at tells <;> exact absurd tells nothing_below
    | @write c out drained _ =>
      cases drained <;> simp [enter, deliver, nothing_below] at tells
    | nothing | user | send | startRead | stopRead | addTimer | establish | destroyRest
    | queueForceClose | eventDone | callback | closeCallback | remove =>
      simp [enter, deliver, pushFunctor, nothing_below] at tells

structure Orderly (s : State) : Prop where
  lawful : Lawful s
  order : InOrder s
  life : Life s
  whole : s.torn = false
  paired : Paired s

theorem orderly_run {setup : Setup} {ls : List Label}
    (ran : machine.run (init setup) ls = some s) (labels : ∀ l ∈ ls, l.lifeCycle = true) :
    Orderly s := by
  refine machine.within_invariant (fun _ l => l.lifeCycle = true) Orderly ?_
    ⟨lawful_init setup, inOrder_init setup, life_init setup, rfl, nofun⟩
    (machine.within_of_labels labels) ran
  intro s l t inv allowed taken
  simp only [Label.lifeCycle, Bool.and_eq_true, decide_eq_true_eq] at allowed
  exact ⟨lawful_step inv.lawful taken, inOrder_step inv.lawful.sound inv.order taken,
    life_step inv.lawful inv.order inv.life allowed.1 (gate_of_whole inv.lawful inv.whole) taken,
    torn_step inv.lawful.sound inv.whole allowed.2 taken,
    paired_step inv.lawful inv.whole inv.paired taken⟩

theorem told_prefix (inv : Ledger s) : s.hist.told <+: [.up, .down] := by
  have shorter : expected s.conn.state_ <+: [.up, .down] := by
    cases s.conn.state_ <;> decide
  rw [← inv.told] at shorter
  exact (List.prefix_append _ _).trans shorter

theorem told_settled (inv : Ledger s) (quiet : ∀ told, .connectionCallback told ∉ s.stack) :
    s.hist.told = expected s.conn.state_ := by
  have silent : s.stack.flatMap Frame.tells = [] := by
    rw [List.flatMap_eq_nil_iff]
    intro frame member
    cases frame with
    | connectionCallback told => exact absurd member (quiet told)
    | _ => rfl
  rw [← inv.told, silent, List.append_nil]

theorem closes_of_down (inv : Ledger s) (whole : s.torn = false) :
    s.hist.closes + s.stack.count .closeCallback = (expected s.conn.state_).count .down := by
  rw [inv.closing]
  cases closed : s.hist.closed with
  | true =>
    rw [inv.closed_down closed]
    rfl
  | false =>
    have not_down : s.conn.state_ ≠ .kDisconnected := by
      intro down
      rcases inv.down down with was | torn
      · rw [closed] at was
        cases was
      · rw [whole] at torn
        cases torn
    cases state : s.conn.state_ with
    | kDisconnected => exact absurd state not_down
    | _ => rfl

/-- The life cycle: in every state of every run, whatever is still under way. -/
theorem life_cycle_is_orderly (setup : Setup) {ls : List Label}
    (ran : machine.run (init setup) ls = some s) (labels : ∀ l ∈ ls, l.lifeCycle = true) :
    (∀ l t, step s l = some t → s.conn.state_.rank ≤ t.conn.state_.rank) ∧
      s.fault = none ∧
      s.hist.told <+: [.up, .down] ∧
      ((∀ told, .connectionCallback told ∉ s.stack) → s.hist.told = expected s.conn.state_) ∧
      s.hist.closes ≤ 1 ∧ s.hist.closes ≤ s.hist.told.count .down ∧
      (.closeCallback ∉ s.stack → s.hist.closes = s.hist.told.count .down) ∧
      (s.stack.head? = some (.run .connectDestroyed) →
        s.conn.channel_.isNoneEvent ∧ s.conn.slot.interest = none) := by
  have inv := orderly_run ran labels
  have ledger := inv.lawful.ledger
  have counted : s.hist.closes + s.stack.count .closeCallback =
      s.hist.told.count .down + (s.stack.flatMap Frame.tells).count .down := by
    rw [closes_of_down ledger inv.whole, ← ledger.told, List.count_append]
  have once : s.hist.closes ≤ 1 := by
    have closing := ledger.closing
    have := Bool.toNat_le s.hist.closed
    omega
  have settled : .closeCallback ∉ s.stack → s.hist.closes = s.hist.told.count .down := by
    intro called
    have untold : .down ∉ s.stack.flatMap Frame.tells := by
      intro member
      obtain ⟨frame, inside, told⟩ := List.mem_flatMap.mp member
      cases frame <;> simp [Frame.tells] at told
      subst told
      exact called (inv.paired inside)
    rw [List.count_eq_zero.mpr called, List.count_eq_zero.mpr untold] at counted
    exact counted
  refine ⟨fun l t => rank_step inv.lawful.sound, inv.life.running, told_prefix ledger,
    told_settled ledger, once, ?_, settled, ?_⟩
  · by_cases called : .closeCallback ∈ s.stack
    · have waiting := List.count_pos_iff.mpr called
      have closing := ledger.closing
      have := Bool.toNat_le s.hist.closed
      omega
    · exact Nat.le_of_eq (settled called)
  · intro head
    obtain ⟨rest, top⟩ := List.head?_eq_some_iff.mp head
    have interest := inv.life.interest
    rw [down_of_whole inv.lawful inv.whole top] at interest
    refine ⟨interest.1, ?_⟩
    cases registered : s.conn.slot.interest with
    | none => rfl
    | some events =>
      have added := (slotOf_interest inv.lawful.sound.synced registered).1
      rw [interest.2.1] at added
      split at added
      · exact absurd added Channel.kDeleted_ne_kAdded
      · exact absurd added Channel.kNew_ne_kAdded

def closeRun : List Label :=
  [.introduce, .poll none, .endHandling, .nextFunctor, .exec (.written 0) .data,
    .exec (.written 0) .data, .call .forceClose, .threadCall 7 .shutdown, .exec (.written 0) .data,
    .ret, .endFunctors, .poll none, .endHandling, .nextFunctor, .exec (.written 0) .data,
    .exec (.written 0) .data, .ret, .exec (.written 0) .data, .ownerRemoves, .endFunctors,
    .poll none, .endHandling, .nextFunctor]

theorem life_cycle_of_closeRun :
    ∃ s, machine.run (init { home := false }) closeRun = some s ∧
      (∀ l ∈ closeRun, l.lifeCycle = true) ∧ s.hist.told = [.up, .down] ∧ s.hist.closes = 1 ∧
      s.fault = none ∧ s.conn.channel_.isNoneEvent := by
  have outcome : (machine.run (init { home := false }) closeRun).map (fun s =>
      (s.hist.told, s.hist.closes, s.stack)) =
        some ([.up, .down], 1, [.run .connectDestroyed]) := by decide +kernel
  have labels : ∀ l ∈ closeRun, l.lifeCycle = true := by decide
  obtain ⟨s, reached, facts⟩ := Option.map_eq_some_iff.mp outcome
  simp only [Prod.mk.injEq] at facts
  obtain ⟨told, closes, stack⟩ := facts
  obtain ⟨-, running, -, -, -, -, -, destroying⟩ :=
    life_cycle_is_orderly { home := false } reached labels
  exact ⟨s, reached, labels, told, closes, running, (destroying (by rw [stack]; rfl)).1⟩

theorem destroyed_step (sound : s.conn.Sound) (taken : step s l = some t) :
    destroyed t = destroyed s ∨
      ∃ w r, l = .exec w r ∧ s.stack.head? = some (.run .connectDestroyed) := by
  cases restacked sound taken with
  | @put pushed stack entries removals =>
    left
    have silent : pushed.count .removeChannel = 0 := by
      rw [List.count_eq_zero]
      intro new
      cases entries _ new
    simp [destroyed, stack, removals, List.count_append, silent]
  | returned stack removals =>
    left
    simp [destroyed, stack, removals]
  | executed label top did =>
    rcases did_destroyed top did with same | starts
    · exact Or.inl same
    · exact Or.inr ⟨_, _, label, by rw [top, starts]; rfl⟩

theorem destroying_step {w : WriteResult} {r : ReadResult} (sound : s.conn.Sound)
    (head : s.stack.head? = some (.run .connectDestroyed)) (taken : step s (.exec w r) = some t) :
    destroyed t = destroyed s + 1 := by
  obtain ⟨rest, top⟩ := List.head?_eq_some_iff.mp head
  obtain ⟨-, stepped⟩ := stepped sound taken
  cases stepped with
  | @exec w r frame rest' t top' did =>
    obtain ⟨rfl, rfl⟩ := List.cons.inj (top'.symm.trans top)
    rcases did.of_connectDestroyed with ⟨-, rfl⟩ | ⟨-, rfl⟩
    · simp [destroyed, enter, deliver, top]
      omega
    · simp [destroyed, enter, top]
      omega
  | failed top' why =>
    obtain ⟨rfl, rfl⟩ := List.cons.inj (top'.symm.trans top)
    cases why with
    | close origin => rcases origin with ⟨impossible, -⟩ | ⟨impossible, -⟩ <;> cases impossible

structure Intact (s : State) : Prop where
  lawful : Lawful s
  order : InOrder s
  life : destroyed s = 0 → Life s

theorem intact_run {setup : Setup} {ls : List Label}
    (ran : machine.run (init setup) ls = some s) (labels : ∀ l ∈ ls, l.calm = true) : Intact s := by
  refine machine.within_invariant (fun _ l => l.calm = true) Intact ?_
    ⟨lawful_init setup, inOrder_init setup, fun _ => life_init setup⟩
    (machine.within_of_labels labels) ran
  intro s l t inv calm taken
  have lawful := lawful_step inv.lawful taken
  refine ⟨lawful, inOrder_step inv.lawful.sound inv.order taken, ?_⟩
  intro not_gone
  by_cases starts : ∃ w r, l = .exec w r ∧ s.stack.head? = some (.run .connectDestroyed)
  · obtain ⟨w, r, rfl, head⟩ := starts
    have one := destroying_step inv.lawful.sound head taken
    omega
  · have same := (destroyed_step inv.lawful.sound taken).resolve_right starts
    refine life_step inv.lawful inv.order (inv.life (same ▸ not_gone)) calm ?_ taken
    intro w r label head
    exact absurd ⟨w, r, label, head⟩ starts

structure Removed (s : State) : Prop where
  state : s.conn.state_ = .kDisconnected
  none : s.conn.channel_.isNoneEvent
  index : s.conn.channel_.index_ = EPollPoller.kNew
  unlinked : s.conn.channel_.addedToLoop_ = false
  slot : s.conn.slot = ⟨Option.none, Option.none⟩
  told : s.hist.told = [.up, .down]

theorem Life.removed (inv : Life s) (lawful : Lawful s) (some : 0 < s.hist.removals) : Removed s := by
  have down := inv.gone (by unfold destroyed; omega)
  have interest := inv.interest
  rw [down] at interest
  obtain ⟨none, index, unlinked⟩ := interest
  rw [if_neg (Nat.pos_iff_ne_zero.mp some)] at index
  have told := lawful.ledger.told
  rw [inv.silenced some, down, List.append_nil] at told
  refine ⟨down, none, index, unlinked some, ?_, told⟩
  rw [lawful.sound.synced.slot]
  simp [Channel.slotOf, index, Channel.kNew_ne_kAdded, Channel.kNew_ne_kDeleted]

/-- connectDestroyed, started now and followed by anything: it can finish, no
    assertion fails, and once the channel is removed all is as it should be. -/
def CleansUp (s : State) : Prop :=
  (∃ w r ks t, (∀ k ∈ ks, k.calm = true) ∧ machine.run s (.exec w r :: ks) = some t ∧
    0 < t.hist.removals) ∧
  ∀ w r ks t, (∀ k ∈ ks, k.calm = true) → machine.run s (.exec w r :: ks) = some t →
    t.fault = none ∧ (0 < t.hist.removals → Removed t)

theorem exec_step {w : WriteResult} {r : ReadResult} {frame : Frame} (running : s.fault = none)
    (top : s.stack = frame :: rest) (code : frame ≠ .userCode)
    (possible : w.Possible (writeLength s frame)) :
    step s (.exec w r) = some (settle s (execFrame { s with stack := rest } w r frame)) := by
  simp only [step, running, top]
  cases frame <;> simp_all

theorem callback_path {told : Told} (running : s.fault = none)
    (top : s.stack = .connectionCallback told :: rest) :
    machine.run s [.exec (.written 0) .data, .ret] =
      some { s with stack := rest, hist := { s.hist with told := s.hist.told ++ [told] } } := by
  have called := exec_step (w := .written 0) (r := .data) running top nofun (Nat.zero_le _)
  simp only [Machine.run, machine, called, Option.bind_some, settle, execFrame, pure_eq_ok]
  simp [step, enter, running]

theorem destroy_path (sound : s.conn.Sound) (running : s.fault = none)
    (top : s.stack = .run .connectDestroyed :: rest) :
    ∃ ks u, (∀ k ∈ ks, k.calm = true) ∧
      machine.run s (.exec (.written 0) .data :: ks) = some u ∧
      u.stack = .removeChannel :: rest ∧ loopView u = loopView s ∧ u.fault = none ∧
      (s.conn.state_ ≠ .kConnected → u.conn = s.conn) := by
  have first := exec_step (w := .written 0) (r := .data) running top nofun (Nat.zero_le _)
  by_cases up : s.conn.state_ = .kConnected
  · have did : execFrame { s with stack := rest } (.written 0) .data (.run .connectDestroyed) =
        .ok (enter (deliver { s with stack := rest } (s.conn.disconnected, { updates := 1 }))
          [.connectionCallback .down, .removeChannel]) := by
      simp [execFrame, runFunctor, connectDestroyed, up, disconnect_spec sound]
    rw [did] at first
    refine ⟨[.exec (.written 0) .data, .ret], _, by decide,
      (machine.run_cons_eq_some).mpr ⟨_, first, callback_path running rfl⟩, rfl, rfl, running,
      fun not_up => absurd up not_up⟩
  · have did : execFrame { s with stack := rest } (.written 0) .data (.run .connectDestroyed) =
        .ok (enter { s with stack := rest } [.removeChannel]) := by
      simp [execFrame, runFunctor, connectDestroyed, up]
    rw [did] at first
    exact ⟨[], _, by simp, (machine.run_cons_eq_some).mpr ⟨_, first, rfl⟩, rfl, rfl, running,
      fun _ => rfl⟩

theorem life_after_start {ks : List Label} (lawful : Lawful s) (order : InOrder s) (inv : Life s)
    (started : 0 < destroyed s) (labels : ∀ k ∈ ks, k.calm = true)
    (ran : machine.run s ks = some t) : Lawful t ∧ Life t := by
  have kept := machine.within_invariant (fun _ l => l.calm = true)
    (fun s => Lawful s ∧ InOrder s ∧ Life s ∧ 0 < destroyed s) ?_
    ⟨lawful, order, inv, started⟩ (machine.within_of_labels labels) ran
  · exact ⟨kept.1, kept.2.2.1⟩
  · rintro s l t ⟨lawful, order, inv, started⟩ calm taken
    have closed : ∀ w r, l = .exec w r → s.stack.head? ≠ some (.run .connectDestroyed) := by
      intro w r _ head
      obtain ⟨rest, top⟩ := List.head?_eq_some_iff.mp head
      have := (lawful.ledger.destroying_facts lawful.flow top).2.2.1
      omega
    refine ⟨lawful_step lawful taken, inOrder_step lawful.sound order taken,
      life_step lawful order inv calm ?_ taken, ?_⟩
    · intro w r label head
      exact absurd head (closed w r label)
    · rcases destroyed_step lawful.sound taken with same | ⟨w, r, label, head⟩
      · omega
      · exact absurd head (closed w r label)

def tearDownRun (calls : List Label) : List Label :=
  [.introduce, .poll none, .endHandling, .nextFunctor, .exec (.written 0) .data,
    .exec (.written 0) .data] ++ calls ++
    [.ret, .endFunctors, .ownerTearsDown, .poll none, .endHandling, .nextFunctor]

end TcpConnection
end Muduo
