import Mathlib.Data.List.Nodup
import Muduo.Net.TcpConnectionSteps

/-!
The output stream of a connection over whole runs. `Whole` says that what the
socket took, followed by what outputBuffer_ holds, is what sendInLoop was given;
`InOrder` follows every message from the send() call through a thread's queue
entry, pendingFunctors_ and the stack of the loop thread. Nothing is claimed
about bytes after state_ became kDisconnected or a write failed for good.
-/
namespace Muduo
open Lib
namespace TcpConnection
variable {s t : State} {caller : Caller} {c : Conn} {frame : Frame} {f : Functor}
  {r : Option Request}

def Whole (c : Conn) (h : History) : Prop :=
  c.state_ ≠ .kDisconnected → h.broken = false →
    c.Coupled ∧ h.accepted ++ c.outputBuffer_.readable = (h.ran.map Message.bytes).flatten

theorem whole_of_up {c' : Conn} {h : History} (whole : Whole c h) (up : c.state_ ≠ .kDisconnected)
    (writing : c'.channel_.isWriting = c.channel_.isWriting)
    (buffer : c'.outputBuffer_ = c.outputBuffer_) : Whole c' h := by
  intro _ unbroken
  obtain ⟨coupled, stream⟩ := whole up unbroken
  unfold Conn.Coupled at *
  rw [writing, buffer]
  exact ⟨coupled, stream⟩

theorem asked_whole {c : Call} (asked : Asked s caller c t r) (whole : Whole s.conn s.hist) :
    Whole t.conn t.hist := by
  cases asked with
  | send | startRead | stopRead | refused => exact whole
  | shutdown up =>
    intro _ unbroken
    exact whole (by rw [up]; decide) unbroken
  | forceClose alive | forceCloseWithDelay alive =>
    intro _ unbroken
    exact whole (alive_up alive) unbroken

theorem sent_whole {m : Message} {out : Output} (whole : Whole s.conn s.hist)
    (spec : SendSpec s.conn m.bytes c out) :
    Whole c (noteRan (deliver s (c, out)).hist m) := by
  intro up unbroken
  rw [spec.state] at up
  simp only [noteRan, deliver, Bool.or_eq_false_iff] at unbroken
  obtain ⟨coupled, stream⟩ := whole up unbroken.1
  obtain ⟨coupled', moved⟩ := spec.stream up unbroken.2 coupled
  refine ⟨coupled', ?_⟩
  simp only [noteRan, deliver, List.map_append, List.flatten_append, List.append_assoc, moved]
  rw [← List.append_assoc, stream]
  simp

theorem wrote_whole {out : Output} {drained : Bool} (whole : Whole s.conn s.hist)
    (spec : DrainSpec s.conn c out drained) : Whole c (deliver s (c, out)).hist := by
  intro up unbroken
  rw [spec.state] at up
  simp only [deliver, Bool.or_eq_false_iff] at unbroken
  obtain ⟨coupled, stream⟩ := whole up unbroken.1
  refine ⟨spec.coupled coupled, ?_⟩
  simp only [deliver, List.append_assoc, spec.stream]
  exact stream

theorem reread_whole (whole : Whole s.conn s.hist)
    (state : s.conn.state_ = .kDisconnected → c.state_ = .kDisconnected)
    (writing : c.channel_.isWriting = s.conn.channel_.isWriting)
    (buffer : c.outputBuffer_ = s.conn.outputBuffer_) :
    Whole c (deliver s (c, { updates := 1 })).hist := by
  intro up unbroken
  simp only [deliver, Bool.or_false] at unbroken
  have up' : s.conn.state_ ≠ .kDisconnected := by
    intro down
    exact up (state down)
  obtain ⟨coupled, stream⟩ := whole_of_up whole up' writing buffer up unbroken
  exact ⟨coupled, by simpa [deliver] using stream⟩

theorem did_whole (did : Did s frame t) (whole : Whole s.conn s.hist) :
    Whole t.conn t.hist := by
  cases did with
  | send spec => exact sent_whole whole spec
  | write spec => exact wrote_whole whole spec
  | halfClose =>
    unfold shutdownInLoop
    split <;> exact whole
  | close | destroy =>
    intro up
    exact absurd rfl up
  | startRead =>
    exact reread_whole whole id (Conn.isWriting_congr (Conn.pollout_union_read _)) rfl
  | stopRead =>
    exact reread_whole whole id (Conn.isWriting_congr (Conn.pollout_without_read _)) rfl
  | establish connecting =>
    refine reread_whole whole ?_ (Conn.isWriting_congr (Conn.pollout_union_read _)) rfl
    intro down
    rw [connecting] at down
    cases down
  | nothing | user | addTimer | destroyRest | queueForceClose | eventDone | callback
  | closeCallback | remove => exact whole

theorem threadPush_whole (n : Nat) (f : Functor) (whole : Whole s.conn s.hist) :
    Whole (threadPush s n f).conn (threadPush s n f).hist := by
  cases f <;> exact whole

theorem ownerRan_hist (ran : OwnerRan s f t) : t.hist = s.hist := by
  cases ran <;> rfl

theorem whole_step {l : Label} (sound : s.conn.Sound) (whole : Whole s.conn s.hist)
    (taken : step s l = some t) : Whole t.conn t.hist := by
  obtain ⟨-, stepped⟩ := stepped sound taken
  cases stepped with
  | threadCall _ asked =>
    have kept := asked_whole asked whole
    exact kept
  | threadPush => exact threadPush_whole _ _ whole
  | introduce _ ran | ownerTearsDown _ _ ran =>
    rw [ownerRan_conn ran, ownerRan_hist ran]
    exact whole
  | fireTimer _ _ _ asked =>
    have kept := asked_whole asked whole
    exact kept
  | call _ asked =>
    have kept := asked_whole asked whole
    exact kept
  | exec _ did => exact did_whole did whole
  | queueTask | ownerRemoves | pollNone | pollSome | otherCode | dispatch | endHandling
  | nextFunctor | endFunctors | ret | failed => exact whole

def Functor.messages : Functor → List Message
  | .sendInLoop m => [m]
  | _ => []

def Frame.messages : Frame → List Message
  | .run f => f.messages
  | _ => []

def onStack (s : State) : List Message := s.stack.flatMap Frame.messages

def inQueue (s : State) : List Message := s.queue.waiting.flatMap Functor.messages

/-- The message of a thread between its test of state_ and its push. -/
def atEntry (s : State) : Caller → List Message
  | .loop => []
  | .other n => (s.threads n).toList.flatMap Functor.messages

def ofCaller (caller : Caller) (ms : List Message) : List Message :=
  ms.filter fun m => m.caller = caller

@[simp] theorem ofCaller_nil (caller : Caller) : ofCaller caller [] = [] := rfl

@[simp] theorem ofCaller_append (caller : Caller) (xs ys : List Message) :
    ofCaller caller (xs ++ ys) = ofCaller caller xs ++ ofCaller caller ys := by
  simp [ofCaller]

theorem ofCaller_other {ms : List Message} (all : ∀ m ∈ ms, m.caller ≠ caller) :
    ofCaller caller ms = [] := by
  simpa [ofCaller] using all

structure InOrder (s : State) : Prop where
  order : ∀ caller, ofCaller caller s.hist.called =
    ofCaller caller (s.hist.ran ++ onStack s ++ inQueue s ++ atEntry s caller)
  below : s.stack.tail.flatMap Frame.messages = []
  foreign : ofCaller .loop (inQueue s) = []
  entries : ∀ n, ∀ m ∈ atEntry s (.other n), m.caller = .other n
  batch : s.phase ≠ .functors → s.queue.batch = []
  ids : ∀ m ∈ s.hist.called, m.id < s.sends
  distinct : s.hist.called.Nodup

theorem inOrder_moved (inv : InOrder s) (called : t.hist.called = s.hist.called)
    (sends : t.sends = s.sends) (threads : t.threads = s.threads)
    (moved : t.hist.ran ++ onStack t ++ inQueue t = s.hist.ran ++ onStack s ++ inQueue s)
    (below : t.stack.tail.flatMap Frame.messages = []) (foreign : ofCaller .loop (inQueue t) = [])
    (batch : t.phase ≠ .functors → t.queue.batch = []) : InOrder t := by
  have entry : ∀ caller, atEntry t caller = atEntry s caller := by
    intro caller
    cases caller with
    | loop => rfl
    | other n => simp only [atEntry, threads]
  constructor
  · intro caller
    rw [called, inv.order caller, moved, entry]
  · exact below
  · exact foreign
  · intro n
    rw [entry]
    exact inv.entries n
  · exact batch
  · rw [called, sends]
    exact inv.ids
  · rw [called]
    exact inv.distinct

structure Carried (s : State) (frame : Frame) (t : State) : Prop where
  called : t.hist.called = s.hist.called
  sends : t.sends = s.sends
  threads : t.threads = s.threads
  ran : t.hist.ran = s.hist.ran ++ frame.messages
  stack : onStack t = onStack s
  queue : inQueue t = inQueue s
  batch : t.queue.batch = s.queue.batch
  phase : t.phase = s.phase

theorem callsBack_messages {fs : List Functor} (calls : ∀ f ∈ fs, f.callsBack) :
    fs.flatMap Functor.messages = [] := by
  rw [List.flatMap_eq_nil_iff]
  intro f member
  rcases calls f member with rfl | ⟨n, rfl⟩ <;> rfl

theorem inQueue_deliver {out : Output} (calls : ∀ f ∈ out.queued, f.callsBack) :
    inQueue (deliver s (c, out)) = inQueue s := by
  simp only [inQueue, deliver, Batch.waiting_foldl_push, List.flatMap_append,
    callsBack_messages calls, List.append_nil]

theorem mayIdle_messages (idle : frame.mayIdle = true) : frame.messages = [] := by
  cases frame with
  | run f =>
    cases f with
    | sendInLoop m => cases idle
    | _ => rfl
  | _ => rfl

theorem callsUser_messages (calls : frame.callsUser = true) :
    frame.messages = [] := by
  cases frame with
  | run f =>
    cases f with
    | sendInLoop m => cases calls
    | _ => rfl
  | _ => rfl

theorem closing_messages {ev : Events}
    (origin : ClosesFrom ev frame ∨ frame = .run .forceCloseInLoop) : frame.messages = [] := by
  rcases origin with (⟨rfl, -⟩ | ⟨rfl, -⟩) | rfl <;> rfl

theorem carried_quiet (silent : frame.messages = []) (called : t.hist.called = s.hist.called)
    (ran : t.hist.ran = s.hist.ran) (stack : onStack t = onStack s) (queue : inQueue t = inQueue s)
    (batch : t.queue.batch = s.queue.batch) (sends : t.sends = s.sends)
    (threads : t.threads = s.threads) (phase : t.phase = s.phase) : Carried s frame t :=
  ⟨called, sends, threads, by rw [silent, ran, List.append_nil], stack, queue, batch, phase⟩

theorem did_carried (did : Did s frame t) : Carried s frame t := by
  cases did with
  | nothing idle => exact carried_quiet (mayIdle_messages idle) rfl rfl rfl rfl rfl rfl rfl rfl
  | user calls => exact carried_quiet (callsUser_messages calls) rfl rfl rfl rfl rfl rfl rfl rfl
  | send spec =>
    constructor
    · rfl
    · rfl
    · rfl
    · rfl
    · rfl
    · exact inQueue_deliver spec.queued
    · exact Batch.batch_foldl_push _ _
    · rfl
  | halfClose tested =>
    have silent : frame.messages = [] := by
      rcases tested with rfl | ⟨rfl, -⟩ <;> rfl
    unfold shutdownInLoop
    split <;> exact carried_quiet silent rfl rfl rfl rfl rfl rfl rfl rfl
  | close origin => exact carried_quiet (closing_messages origin) rfl rfl rfl rfl rfl rfl rfl rfl
  | write spec =>
    refine carried_quiet rfl rfl rfl ?_ (inQueue_deliver spec.queued)
      (Batch.batch_foldl_push _ _) rfl rfl rfl
    simp only [onStack, enter, deliver]
    split <;> rfl
  | queueForceClose =>
    refine carried_quiet rfl rfl rfl rfl ?_ rfl rfl rfl rfl
    simp [inQueue, pushFunctor, Functor.messages]
  | startRead | stopRead | addTimer | establish | destroy | destroyRest | eventDone | callback
  | closeCallback | remove => exact carried_quiet rfl rfl rfl rfl rfl rfl rfl rfl rfl

def requested (r : Option Request) : List Message :=
  (r.map Request.functor).toList.flatMap Functor.messages

theorem requested_frames (r : Option Request) :
    (r.map Request.frame).toList.flatMap Frame.messages = requested r := by
  cases r with
  | none => rfl
  | some q => cases q <;> rfl

structure Entered (s : State) (caller : Caller) (t : State) (r : Option Request) : Prop where
  called : t.hist.called = s.hist.called ++ requested r
  made : ∀ m ∈ requested r, m.caller = caller ∧ m.id = s.sends ∧ t.sends = s.sends + 1
  single : (requested r).Nodup
  sends : s.sends ≤ t.sends
  ran : t.hist.ran = s.hist.ran
  stack : t.stack = s.stack
  queue : t.queue = s.queue
  threads : t.threads = s.threads
  phase : t.phase = s.phase

theorem asked_entered {c : Call} (asked : Asked s caller c t r) : Entered s caller t r := by
  cases asked with
  | send =>
    refine ⟨rfl, ?_, by simp [requested, Request.functor, Functor.messages], Nat.le_succ _,
      rfl, rfl, rfl, rfl, rfl⟩
    intro m member
    have only : m = ⟨caller, s.sends, _⟩ := List.mem_singleton.mp member
    subst only
    exact ⟨rfl, rfl, rfl⟩
  | shutdown | forceClose | forceCloseWithDelay | startRead | stopRead | refused =>
    exact ⟨(List.append_nil _).symm, by simp [requested, Request.functor, Functor.messages],
      by simp [requested, Request.functor, Functor.messages], Nat.le_refl _,
      rfl, rfl, rfl, rfl, rfl⟩

theorem Entered.ids (entered : Entered s caller t r) (inv : InOrder s) :
    ∀ m ∈ t.hist.called, m.id < t.sends := by
  intro m member
  rw [entered.called, List.mem_append] at member
  rcases member with old | new
  · exact Nat.lt_of_lt_of_le (inv.ids m old) entered.sends
  · obtain ⟨-, id, sends⟩ := entered.made m new
    omega

theorem Entered.distinct (entered : Entered s caller t r) (inv : InOrder s) :
    t.hist.called.Nodup := by
  rw [entered.called]
  refine List.nodup_append.mpr ⟨inv.distinct, entered.single, ?_⟩
  intro m old m' new same
  have below := inv.ids m old
  obtain ⟨-, id, -⟩ := entered.made m' new
  rw [same] at below
  omega

theorem inOrder_threadCall {n : Nat} {c : Call} (inv : InOrder s) (idle : s.threads n = none)
    (asked : Asked s (.other n) c t r) :
    InOrder { t with threads := Function.update s.threads n (r.map Request.functor) } := by
  have entered := asked_entered asked
  have own : ∀ m ∈ requested r, m.caller = .other n := fun m member => (entered.made m member).1
  have stack : onStack t = onStack s := by simp only [onStack, entered.stack]
  have queue : inQueue t = inQueue s := by simp only [inQueue, entered.queue]
  constructor
  · intro caller
    have before := inv.order caller
    have after : onStack { t with threads := Function.update s.threads n (r.map Request.functor) } =
        onStack s := stack
    have after' : inQueue { t with threads := Function.update s.threads n (r.map Request.functor) } =
        inQueue s := queue
    simp only [entered.called, entered.ran, after, after', ofCaller_append] at before ⊢
    rw [before, List.append_assoc]
    congr 1
    by_cases mine : caller = .other n
    · subst mine
      simp [atEntry, idle, requested]
    · have none_new : ofCaller caller (requested r) = [] :=
        ofCaller_other fun m member => by rw [own m member]; exact Ne.symm mine
      rw [none_new, List.append_nil]
      cases caller with
      | loop => rfl
      | other k =>
        have differs : k ≠ n := fun same => mine (by rw [same])
        simp [atEntry, Function.update_of_ne differs]
  · simpa only [entered.stack] using inv.below
  · have same : inQueue { t with threads := Function.update s.threads n (r.map Request.functor) } =
        inQueue s := queue
    rw [same]
    exact inv.foreign
  · intro k m member
    by_cases mine : k = n
    · subst mine
      simp only [atEntry, Function.update_self] at member
      exact own m member
    · simp only [atEntry, Function.update_of_ne mine] at member
      exact inv.entries k m member
  · simpa only [entered.phase, entered.queue] using inv.batch
  · exact entered.ids inv
  · exact entered.distinct inv

theorem inOrder_loopCall {c : Call} (inv : InOrder s) (clear : onStack s = [])
    (asked : Asked s .loop c t r) :
    InOrder { t with stack := (r.map Request.frame).toList ++ t.stack } := by
  have entered := asked_entered asked
  have stack : onStack { t with stack := (r.map Request.frame).toList ++ t.stack } =
      requested r := by
    have rest : t.stack.flatMap Frame.messages = [] := by rw [entered.stack]; exact clear
    simp only [onStack, List.flatMap_append, requested_frames, rest, List.append_nil]
  have queue : inQueue { t with stack := (r.map Request.frame).toList ++ t.stack } =
      inQueue s := by simp only [inQueue, entered.queue]
  have entry : ∀ caller, atEntry { t with stack := (r.map Request.frame).toList ++ t.stack }
      caller = atEntry s caller := by
    intro caller
    cases caller with
    | loop => rfl
    | other k => simp only [atEntry, entered.threads]
  constructor
  · intro caller
    have before := inv.order caller
    rw [stack, queue, entry]
    simp only [entered.called, entered.ran, clear, ofCaller_append, List.append_nil] at before ⊢
    rw [before]
    by_cases mine : caller = .loop
    · subst mine
      simp [inv.foreign, atEntry]
    · have none_new : ofCaller caller (requested r) = [] :=
        ofCaller_other fun m member => by rw [(entered.made m member).1]; exact Ne.symm mine
      simp [none_new]
  · have rest : t.stack.flatMap Frame.messages = [] := by rw [entered.stack]; exact clear
    cases r with
    | none => simpa [entered.stack] using inv.below
    | some q => simpa using rest
  · rw [queue]
    exact inv.foreign
  · intro n
    rw [entry]
    exact inv.entries n
  · simpa only [entered.phase, entered.queue] using inv.batch
  · exact entered.ids inv
  · exact entered.distinct inv

theorem inOrder_threadPush {n : Nat} (inv : InOrder s) (busy : s.threads n = some f) :
    InOrder (threadPush s n f) := by
  have mine : atEntry s (.other n) = f.messages := by simp [atEntry, busy]
  have own : ∀ m ∈ f.messages, m.caller = .other n := by
    intro m member
    exact inv.entries n m (mine ▸ member)
  obtain ⟨returned, pushed⟩ := threadPush_eq s n f
  rw [pushed]
  constructor
  · intro caller
    have before := inv.order caller
    simp only [onStack, inQueue, Batch.waiting_push, List.flatMap_append, List.flatMap_cons,
      List.flatMap_nil, List.append_nil, ofCaller_append] at before ⊢
    rw [before]
    by_cases same : caller = .other n
    · subst same
      rw [mine]
      simp [atEntry]
    · have none_new : ofCaller caller f.messages = [] :=
        ofCaller_other fun m member => by rw [own m member]; exact Ne.symm same
      rw [none_new, List.append_nil]
      congr 1
      cases caller with
      | loop => rfl
      | other k =>
        have differs : k ≠ n := fun eq => same (by rw [eq])
        simp [atEntry, Function.update_of_ne differs]
  · exact inv.below
  · have none_loop : ofCaller .loop f.messages = [] :=
      ofCaller_other fun m member => by rw [own m member]; nofun
    have before := inv.foreign
    simp only [inQueue, Batch.waiting_push, List.flatMap_append, List.flatMap_cons,
      List.flatMap_nil, List.append_nil, ofCaller_append, none_loop] at before ⊢
    exact before
  · intro k m member
    by_cases same : k = n
    · subst same
      simp [atEntry] at member
    · simp only [atEntry, Function.update_of_ne same] at member
      exact inv.entries k m member
  · exact inv.batch
  · exact inv.ids
  · exact inv.distinct

theorem inOrder_pushFunctor (inv : InOrder s) (silent : f.messages = []) :
    InOrder (pushFunctor s f) := by
  have queue : inQueue (pushFunctor s f) = inQueue s := by
    simp [inQueue, pushFunctor, silent]
  refine inOrder_moved inv rfl rfl rfl ?_ inv.below ?_ inv.batch
  · rw [queue]
    rfl
  · rw [queue]
    exact inv.foreign

theorem tail_silent {frames : List Frame} (silent : frames.flatMap Frame.messages = []) :
    frames.tail.flatMap Frame.messages = [] := by
  rw [List.flatMap_eq_nil_iff] at silent ⊢
  intro frame member
  exact silent frame (List.mem_of_mem_tail member)

theorem InOrder.clear {rest : List Frame} (inv : InOrder s) (top : s.stack = .userCode :: rest) :
    onStack s = [] := by
  have below := inv.below
  rw [top] at below
  simpa [onStack, top, Frame.messages] using below

theorem inOrder_enter {frames : List Frame} (inv : InOrder s)
    (silent : frames.flatMap Frame.messages = []) (clear : onStack s = []) :
    InOrder (enter s frames) := by
  have stack : onStack (enter s frames) = [] := by
    simp only [onStack, enter, List.flatMap_append, silent, List.nil_append]
    exact clear
  refine inOrder_moved inv rfl rfl rfl ?_ ?_ inv.foreign inv.batch
  · rw [stack, clear]
    rfl
  · exact tail_silent stack

theorem inOrder_ownerRan (ran : OwnerRan s f t) (inv : InOrder s) (silent : f.messages = []) :
    InOrder t := by
  cases ran with
  | here _ top => exact inOrder_enter inv (by simp [Frame.messages, silent]) (inv.clear top)
  | away => exact inOrder_pushFunctor inv silent

theorem inOrder_exec {rest : List Frame} (inv : InOrder s) (top : s.stack = frame :: rest)
    (did : Did { s with stack := rest } frame t) : InOrder t := by
  have carried := did_carried did
  have clear : rest.flatMap Frame.messages = [] := by
    have below := inv.below
    rwa [top] at below
  have stack : onStack t = [] := carried.stack.trans clear
  have queue : inQueue t = inQueue s := carried.queue
  refine inOrder_moved inv carried.called carried.sends carried.threads ?_ ?_ ?_ ?_
  · rw [carried.ran, stack, queue]
    simp [onStack, top, clear]
  · exact tail_silent stack
  · rw [queue]
    exact inv.foreign
  · rw [carried.phase, carried.batch]
    exact inv.batch

theorem inOrder_step {l : Label} (sound : s.conn.Sound) (inv : InOrder s)
    (taken : step s l = some t) : InOrder t := by
  obtain ⟨-, stepped⟩ := stepped sound taken
  cases stepped with
  | threadCall idle asked => exact inOrder_threadCall inv idle asked
  | threadPush busy => exact inOrder_threadPush inv busy
  | queueTask => exact inOrder_pushFunctor inv rfl
  | introduce _ ran | ownerTearsDown _ _ ran =>
    exact inOrder_ownerRan ran
      (inOrder_moved inv rfl rfl rfl rfl inv.below inv.foreign inv.batch) rfl
  | ownerRemoves =>
    have kept : InOrder { s with owned := false } :=
      inOrder_moved inv rfl rfl rfl rfl inv.below inv.foreign inv.batch
    exact inOrder_pushFunctor kept rfl
  | pollNone polling | pollSome polling =>
    refine inOrder_moved inv rfl rfl rfl rfl inv.below inv.foreign ?_
    intro _
    exact inv.batch (by rw [polling]; decide)
  | otherCode _ empty | dispatch _ empty =>
    refine inOrder_enter
      (inOrder_moved inv rfl rfl rfl rfl inv.below inv.foreign inv.batch) rfl ?_
    simp [onStack, empty]
  | fireTimer _ empty _ asked =>
    have kept : InOrder { s with timers := s.timers - 1, current := false } :=
      inOrder_moved inv rfl rfl rfl rfl inv.below inv.foreign inv.batch
    exact inOrder_loopCall kept (by simp [onStack, empty]) asked
  | endHandling handling _ _ =>
    have idle := inv.batch (by rw [handling]; decide)
    have queue : s.queue.swap.waiting = s.queue.waiting := Batch.waiting_swap idle
    refine inOrder_moved inv rfl rfl rfl ?_ inv.below ?_ ?_
    · simp only [inQueue, queue]
      rfl
    · simpa only [inQueue, queue] using inv.foreign
    · intro working
      exact absurd rfl working
  | nextFunctor functors empty next =>
    have before := Batch.waiting_next next
    refine inOrder_moved inv rfl rfl rfl ?_ ?_ ?_ ?_
    · simp [onStack, inQueue, enter, empty, before, Frame.messages]
    · simp [enter, empty]
    · have foreign := inv.foreign
      simp only [inQueue, before, List.flatMap_cons, ofCaller_append,
        List.append_eq_nil_iff] at foreign
      exact foreign.2
    · intro idle
      exact absurd functors idle
  | endFunctors _ _ done =>
    exact inOrder_moved inv rfl rfl rfl rfl inv.below inv.foreign fun _ => done
  | call top asked =>
    exact inOrder_loopCall inv (inv.clear top) asked
  | ret top =>
    have below := inv.below
    rw [top] at below
    refine inOrder_moved inv rfl rfl rfl ?_ ?_ inv.foreign inv.batch
    · simp [onStack, inQueue, top, Frame.messages]
    · exact tail_silent below
  | exec top did => exact inOrder_exec inv top did
  | failed => exact inOrder_moved inv rfl rfl rfl rfl inv.below inv.foreign inv.batch

theorem inOrder_init (setup : Setup) : InOrder (init setup) := by
  constructor
  · intro caller
    cases caller <;> rfl
  · rfl
  · rfl
  · intro n m member
    cases member
  · intro _
    rfl
  · intro m member
    cases member
  · exact List.nodup_nil

theorem whole_init (setup : Setup) : Whole (init setup).conn (init setup).hist := by
  have empty : (init setup).conn.outputBuffer_.readable = [] := window_empty _ (Nat.le_refl _)
  intro _ _
  refine ⟨?_, ?_⟩
  · unfold Conn.Coupled
    rw [empty]
    simp [init, Conn.new, Channel.new, Conn.isWriting_eq]
  · rw [empty]
    rfl

structure Streamed (s : State) : Prop where
  sound : s.conn.Sound
  whole : Whole s.conn s.hist
  order : InOrder s

theorem streamed_run {setup : Setup} {ls : List Label}
    (ran : machine.run (init setup) ls = some s) : Streamed s := by
  refine machine.run_invariant ?_ ⟨sound_init setup, whole_init setup, inOrder_init setup⟩ ran
  intro s l t inv taken
  exact ⟨sound_step inv.sound taken, whole_step inv.sound inv.whole taken,
    inOrder_step inv.sound inv.order taken⟩

theorem InOrder.prefix_of_caller (inv : InOrder s) (caller : Caller) :
    ofCaller caller s.hist.ran <+: ofCaller caller s.hist.called := by
  rw [inv.order caller]
  simp only [List.append_assoc, ofCaller_append]
  exact List.prefix_append _ _

theorem InOrder.ran_nodup (inv : InOrder s) : s.hist.ran.Nodup := by
  rw [List.nodup_iff_count_le_one]
  intro m
  have mine : ∀ ms, (ofCaller m.caller ms).count m = ms.count m := by
    intro ms
    exact List.count_filter (by simp)
  calc s.hist.ran.count m = (ofCaller m.caller s.hist.ran).count m := (mine _).symm
    _ ≤ (ofCaller m.caller s.hist.called).count m :=
      (inv.prefix_of_caller m.caller).sublist.count_le m
    _ = s.hist.called.count m := mine _
    _ ≤ 1 := List.nodup_iff_count_le_one.mp inv.distinct m

/-- A send() of the loop thread that the kernel cuts short, while another thread is
    between its test of state_ and its push. -/
def shortWriteRun : List Label :=
  [.introduce, .poll none, .endHandling, .nextFunctor, .exec (.written 0) .data,
    .threadCall 7 (.send [3]), .exec (.written 0) .data, .call (.send [1, 2]), .threadPush 7,
    .exec (.written 1) .data, .ret, .endFunctors]

end TcpConnection
end Muduo
