import Mathlib.Data.Int.CardIntervalMod
import Muduo.Net.TcpServerTable

/-!
How the connections are spread over the I/O loops. getNextLoop goes round the pool, once for
each connection that is accepted and whatever becomes of those before it.
-/
namespace Muduo
open Lib
namespace TcpServer
variable {s t : State} {n c : Nat}

/-- The loop of connection c, with n loops in the pool. -/
def turnOf (n c : Nat) : Nat := if n = 0 then baseLoop else c % n + 1

theorem getNextLoop_spec {pool : EventLoopThreadPool}
    (loops : pool.loops_ = (List.range n).map (· + 1)) (some_ : n ≠ 0) :
    pool.getNextLoop.1 = pool.next_ + 1 ∧ pool.getNextLoop.2.loops_ = pool.loops_ ∧
      pool.getNextLoop.2.next_ = (pool.next_ + 1) % n := by
  obtain ⟨loops_, next_, valid⟩ := pool
  subst loops
  have some : (List.range n).map (· + 1) ≠ [] := by simpa using some_
  have bound : next_ < n := by simpa using valid some
  simp only [EventLoopThreadPool.getNextLoop, dif_pos some, List.getElem_map, List.getElem_range,
    List.length_map, List.length_range, true_and]
  split
  · rw [show next_ + 1 = n by omega, Nat.mod_self]
  · rw [Nat.mod_eq_of_lt (by omega)]

structure Spread (n : Nat) (s : State) : Prop where
  loops : s.server.threadPool_.loops_ = (List.range n).map (· + 1)
  next : n ≠ 0 → s.server.threadPool_.next_ = s.sessions.length % n
  given : ∀ (c : Nat) e, s.sessions[c]? = some e → e.loop_ = turnOf n c

theorem spread_accept {session : Session} (spread : Spread n s)
    (pool : t.server.threadPool_ = s.server.threadPool_.getNextLoop.2)
    (sessions : t.sessions = s.sessions ++ [session])
    (loop : session.loop_ = s.server.threadPool_.getNextLoop.1) : Spread n t := by
  obtain ⟨loops, next, given⟩ := spread
  have last : session.loop_ = turnOf n s.sessions.length ∧
      t.server.threadPool_.loops_ = (List.range n).map (· + 1) ∧
      (n ≠ 0 → t.server.threadPool_.next_ = t.sessions.length % n) := by
    rw [loop, pool, sessions, List.length_append, List.length_singleton]
    by_cases none_ : n = 0
    · subst none_
      have base : s.server.threadPool_.getNextLoop = (baseLoop, s.server.threadPool_) := by
        simp [EventLoopThreadPool.getNextLoop, loops]
      rw [base]
      exact ⟨rfl, loops, fun some_ => absurd rfl some_⟩
    · obtain ⟨first, same, after⟩ := getNextLoop_spec loops none_
      rw [first, same, after, next none_, Nat.mod_add_mod, turnOf, if_neg none_]
      exact ⟨rfl, loops, fun _ => rfl⟩
  refine ⟨last.2.1, last.2.2, ?_⟩
  intro c e found
  rw [sessions] at found
  rcases session_accepted found with old | ⟨rfl, rfl⟩
  · exact given c e old
  · exact last.1

theorem spread_step {l : Label} (inv : Housed s) (books : Books s) (spread : Spread n s)
    (taken : step s l = some t) : Spread n t := by
  obtain ⟨-, _, _, _, turn, account⟩ := moved inv taken
  have others (pool : t.server.threadPool_ = s.server.threadPool_)
      (counter : t.server.nextConnId_ = s.server.nextConnId_) : Spread n t := by
    refine ⟨pool ▸ spread.loops, ?_, ?_⟩
    · rw [pool, turn.length_sessions counter]
      exact spread.next
    · intro c e found
      obtain ⟨e', before, grown⟩ := turn.session_before counter found
      exact grown.loop.trans (spread.given c e' before)
  cases account with
  | accept _ _ _ _ _ server sessions => exact spread_accept spread (by rw [server]) sessions rfl
  | plain same | event same | establish same | close same | closeCallback same | destroy same
  | tearDown same => exact others (by rw [same.server]) (by rw [same.server])
  | lateCallback server | lateRemoval server | begin server | finish server | erase _ _ _ server =>
    exact others (by rw [server]) (by rw [server])
  | missed found absent => exact absurd (lost_listed inv books turn found) absent

theorem spread_run {setup : Setup} {ls : List Label} (ran : machine.run (init setup) ls = some s) :
    Spread setup.numThreads s := by
  have kept : ∀ s l t, (Housed s ∧ Books s) ∧ Spread setup.numThreads s →
      machine.step s l = some t → (Housed t ∧ Books t) ∧ Spread setup.numThreads t := by
    rintro s l t ⟨⟨inv, books⟩, spread⟩ taken
    obtain ⟨-, _, _, _, turn, -⟩ := moved inv taken
    exact ⟨⟨housed_turn turn inv, books_step inv books taken⟩, spread_step inv books spread taken⟩
  have start : Spread setup.numThreads (init setup) :=
    ⟨rfl, fun _ => (Nat.zero_mod _).symm, by simp [init]⟩
  exact (machine.run_invariant kept ⟨⟨housed_init setup, books_init setup⟩, start⟩ ran).2

theorem count_turns {i : Nat} (less : i < n) (k : Nat) :
    ((List.range k).map (turnOf n)).count (i + 1) = k / n + if i < k % n then 1 else 0 := by
  have positive : 0 < n := Nat.zero_lt_of_lt less
  have counted : ((List.range k).map (turnOf n)).count (i + 1) = k.count (· ≡ i [MOD n]) := by
    induction k with
    | zero => rfl
    | succ k ih =>
      rw [List.range_succ, List.map_append, List.count_append, ih, Nat.count_succ]
      simp [turnOf, positive.ne', Nat.ModEq, Nat.mod_eq_of_lt less, List.count_singleton]
  rw [counted, Nat.count_modEq_card k positive, Nat.mod_eq_of_lt less]

/-- The connections go to the loops of the pool in turn, or all to the base loop, whatever else
    happens in between; so the numbers that two loops have been given differ by one at most. -/
theorem connections_spread_evenly (setup : Setup) {ls : List Label}
    (ran : machine.run (init setup) ls = some s) :
    (∀ (c : Nat) e, s.sessions[c]? = some e → e.loop_ = turnOf setup.numThreads c) ∧
      ∀ i < setup.numThreads, (s.sessions.map Session.loop_).count (i + 1) =
        s.sessions.length / setup.numThreads +
          if i < s.sessions.length % setup.numThreads then 1 else 0 := by
  have spread := spread_run ran
  have all : s.sessions.map Session.loop_ =
      (List.range s.sessions.length).map (turnOf setup.numThreads) := by
    apply List.ext_getElem
    · simp
    · intro c inside _
      have found := List.getElem?_eq_getElem (by simpa using inside : c < s.sessions.length)
      simpa using spread.given c _ found
  refine ⟨spread.given, ?_⟩
  intro i less
  rw [all, count_turns less]

theorem connections_spread_evenly_of_removalRun :
    ∃ s, machine.run (init twoLoops) removalRun = some s ∧ s.sessions.length = 2 ∧
      (s.sessions.map Session.loop_).count 1 = 1 ∧ (s.sessions.map Session.loop_).count 2 = 1 := by
  have outcome : (machine.run (init twoLoops) removalRun).map (fun s => s.sessions.length) =
      some 2 := by decide +kernel
  obtain ⟨s, reached, two⟩ := Option.map_eq_some_iff.mp outcome
  have even := (connections_spread_evenly twoLoops reached).2
  rw [two] at even
  exact ⟨s, reached, two, even 0 (by decide), even 1 (by decide)⟩

end TcpServer
end Muduo
