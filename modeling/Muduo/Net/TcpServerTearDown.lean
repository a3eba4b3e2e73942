import Muduo.Net.TcpServerTable

/-!
~TcpServer against closes in other loops. The destructor hands connectDestroyed
to each connection's loop and returns; closeCallback_ stays bound to the server.
A close that is on its way when the destructor starts, or that happens later,
therefore reaches a server that is gone. Without such closes the tear-down is in
order, and every connection is destroyed once.
-/
namespace Muduo
open Lib
namespace TcpServer
variable {s t : State} {lost : Option (Nat × Frame)} {gained : List (Nat × Frame)}
  {notes : List Moment} {l : Label} {left : List Nat} {c i : Nat}

def Label.destroys : Label → Bool
  | .destroy => true
  | _ => false

/-- The condition on a step: the destructor is called only while no close callback and
    no removal is due, and from then on no connection that is up is closed by its peer
    or by forceClose(). -/
structure Orderly (s : State) (l : Label) : Prop where
  start : l.destroys = true → ∀ c < s.sessions.length, ∀ e ∈ s.sessions[c]?,
    owed s e.loop_ (closing c) = 0 ∧ owed s baseLoop (.removeConnectionInLoop c) = 0
  later : s.life ≠ .alive → Closes s l = false

instance (s : State) (l : Label) : Decidable (Orderly s l) :=
  decidable_of_iff
    ((l.destroys = true → ∀ c < s.sessions.length, ∀ e ∈ s.sessions[c]?,
        owed s e.loop_ (closing c) = 0 ∧ owed s baseLoop (.removeConnectionInLoop c) = 0) ∧
      (s.life ≠ .alive → Closes s l = false))
    ⟨fun ⟨start, later⟩ => ⟨start, later⟩, fun o => ⟨o.start, o.later⟩⟩

structure Calm (s : State) : Prop where
  closing : s.life ≠ .alive → ∀ i c, owed s i (closing c) = 0
  removal : s.life ≠ .alive → ∀ i c, owed s i (.removeConnectionInLoop c) = 0
  late : s.late = 0

def listed (s : State) : List Nat := s.server.connections_.entries.map Sigma.snd

theorem mem_listed (books : Books s) :
    c ∈ listed s ↔ (∃ e, s.sessions[c]? = some e) ∧ .erased c ∉ s.journal := by
  have entry : ∀ name, ⟨name, c⟩ ∈ s.server.connections_.entries ↔
      Bears s c name ∧ .erased c ∉ s.journal := by
    intro name
    rw [← AList.mem_lookup_iff]
    exact books.exact name c
  constructor
  · intro member
    obtain ⟨⟨name, d⟩, there, rfl⟩ := List.mem_map.mp member
    obtain ⟨⟨e, found, -⟩, unerased⟩ := (entry name).mp there
    exact ⟨⟨e, found⟩, unerased⟩
  · rintro ⟨⟨e, found⟩, unerased⟩
    exact List.mem_map.mpr ⟨⟨e.name_, c⟩, (entry e.name_).mpr ⟨⟨e, found, rfl⟩, unerased⟩, rfl⟩

theorem nodup_listed (books : Books s) : (listed s).Nodup := by
  refine List.Nodup.map_on ?_ (List.Nodup.of_map Sigma.fst s.server.connections_.nodupKeys)
  rintro ⟨name, c⟩ there ⟨name', d⟩ there' same
  obtain rfl : c = d := same
  obtain ⟨⟨e, found, rfl⟩, -⟩ := (books.exact name c).mp (AList.mem_lookup_iff.mpr there)
  obtain ⟨⟨e', found', rfl⟩, -⟩ := (books.exact name' c).mp (AList.mem_lookup_iff.mpr there')
  rw [found] at found'
  cases found'
  rfl

theorem count_listed {e : Session} (books : Books s) (found : s.sessions[c]? = some e) :
    s.journal.count (.erased c) + (listed s).count c = 1 := by
  have leaving := (books.balanced c e found).leaving
  simp only [tally] at leaving
  by_cases erased : .erased c ∈ s.journal
  · have unlisted : c ∉ listed s := fun member => ((mem_listed books).mp member).2 erased
    have once := List.count_pos_iff.mpr erased
    rw [List.count_eq_zero.mpr unlisted]
    omega
  · have member : c ∈ listed s := (mem_listed books).mpr ⟨⟨e, found⟩, erased⟩
    rw [List.count_eq_zero.mpr erased, List.count_eq_one_of_mem (nodup_listed books) member]

theorem gained_closing (account : Account s l t lost gained notes)
    (member : (i, closing c) ∈ gained) : Closes s l = true := by
  cases account with
  | plain _ _ _ on | event _ _ _ on | establish _ _ on | destroy _ _ on => cases on _ _ member
  | close _ _ closes => exact closes
  | _ => simp [establishing, closing, destroying] at member

theorem called_due (turn : Turn s t lost gained notes) (account : Account s l t lost gained notes)
    (member : .closeCallback c ∈ notes) :
    ∃ i, 0 < owed s i (closing c) := by
  cases account with
  | closeCallback =>
    obtain rfl := Moment.closeCallback.inj (List.mem_singleton.mp member)
    obtain ⟨n, due, -⟩ := turn.due (by simp [closing])
    exact ⟨_, Nat.lt_of_lt_of_eq (Nat.succ_pos n) due.symm⟩
  | lateCallback =>
    obtain rfl := Moment.closeCallback.inj (List.mem_singleton.mp member)
    obtain ⟨n, due, -⟩ := turn.due (by simp)
    exact ⟨_, Nat.lt_of_lt_of_eq (Nat.succ_pos n) due.symm⟩
  | _ => simp at member

theorem calm_kept (calm : Calm s) (orderly : Orderly s l) (turn : Turn s t lost gained notes)
    (account : Account s l t lost gained notes) (gone : s.life ≠ .alive) :
    (∀ i c, owed t i (closing c) = 0) ∧ ∀ i c, owed t i (.removeConnectionInLoop c) = 0 := by
  constructor
  · intro i c
    by_contra due
    rcases turn.owed_before (Nat.pos_of_ne_zero due) with before | asked
    · exact absurd (calm.closing gone i c) (by omega)
    · have closes := gained_closing account asked
      rw [orderly.later gone] at closes
      cases closes
  · intro i c
    by_contra due
    rcases turn.owed_before (Nat.pos_of_ne_zero due) with before | asked
    · exact absurd (calm.removal gone i c) (by omega)
    · obtain ⟨j, before⟩ := called_due turn account (gained_removal account asked)
      exact absurd (calm.closing gone j c) (by omega)

theorem calm_begun (inv : Housed s) (orderly : Orderly s .destroy)
    (turn : Turn s t none [(baseLoop, .destructor left)] []) :
    (∀ i c, owed t i (closing c) = 0) ∧ ∀ i c, owed t i (.removeConnectionInLoop c) = 0 := by
  have none_due : ∀ (c : Nat) (e : Session), s.sessions[c]? = some e →
      owed s e.loop_ (closing c) = 0 ∧ owed s baseLoop (.removeConnectionInLoop c) = 0 := by
    intro c e found
    exact orderly.start rfl c (List.getElem?_eq_some_iff.mp found).1 e found
  constructor
  · intro i c
    rw [turn.kept (by simp) (by simp [closing])]
    by_contra due
    obtain ⟨⟨e, found, rfl⟩, -⟩ := inv.placed i (closing c) (Nat.pos_of_ne_zero due)
    exact due (none_due c e found).1
  · intro i c
    rw [turn.kept (by simp) (by simp)]
    by_contra due
    obtain ⟨rfl, -, e, found⟩ :=
      inv.placed i (.removeConnectionInLoop c) (Nat.pos_of_ne_zero due)
    exact due (none_due c e found).2

theorem late_kept (inv : Housed s) (books : Books s) (calm : Calm s)
    (turn : Turn s t lost gained notes) (account : Account s l t lost gained notes) : t.late = 0 := by
  cases account with
  | plain same | event same | establish same | close same | closeCallback same | destroy same
  | tearDown same => exact same.late.trans calm.late
  | accept _ _ _ late | erase _ _ _ _ _ late | begin _ _ _ late | finish _ _ late =>
    exact late.trans calm.late
  | missed found absent => exact absurd (lost_listed inv books turn found) absent
  | lateCallback _ _ dead =>
    obtain ⟨n, due, -⟩ := turn.due (by simp)
    rw [calm.closing (by rw [dead]; simp)] at due
    cases due
  | lateRemoval _ _ dead =>
    obtain ⟨n, due, -⟩ := turn.due (by simp)
    rw [calm.removal (by rw [dead]; simp)] at due
    cases due

def Shares (s : State) (left : List Nat) : Prop :=
  ∀ (c : Nat) (e : Session), s.sessions[c]? = some e →
    s.journal.count (.erased c) + s.journal.count (.tornDown c) + left.count c = 1

inductive Destruction (s : State) : Prop where
  | before (living : Undestroyed s)
  | during {left : List Nat} (life : s.life = .destructing)
      (frame : ∀ i y, owed s i (.destructor y) = if i = baseLoop ∧ y = left then 1 else 0)
      (shares : Shares s left)
  | after (life : s.life = .dead) (idle : ∀ i y, owed s i (.destructor y) = 0)
      (shares : Shares s [])

theorem shares_same (shares : Shares s left) (turn : Turn s t lost gained notes)
    (served : Served s t lost gained notes) (gone : s.life ≠ .alive)
    (unerased : ∀ c, .erased c ∉ notes) (untorn : ∀ c, .tornDown c ∉ notes) : Shares t left := by
  have counter : t.server.nextConnId_ = s.server.nextConnId_ := by
    cases served with
    | same server | erase _ server => rw [server]
    | accept alive => exact absurd alive gone
  intro c e' found'
  obtain ⟨e, found, -⟩ := turn.session_before counter found'
  rw [turn.unwritten (unerased c), turn.unwritten (untorn c)]
  exact shares c e found

theorem lost_frame {y : List Nat} (turn : Turn s t (some (i, .destructor y)) gained notes)
    (frame : ∀ i y, owed s i (.destructor y) = if i = baseLoop ∧ y = left then 1 else 0)
    (absent : (i, .destructor y) ∉ gained) : i = baseLoop ∧ y = left := by
  obtain ⟨n, due, -⟩ := turn.due absent
  by_contra other
  rw [frame, if_neg other] at due
  cases due

theorem count_destructor (i : Nat) (y left : List Nat) :
    [(baseLoop, Frame.destructor left)].count (i, .destructor y) =
      if i = baseLoop ∧ y = left then 1 else 0 := by
  by_cases same : i = baseLoop ∧ y = left
  · obtain ⟨rfl, rfl⟩ := same
    simp
  · rw [if_neg same]
    refine List.count_eq_zero.mpr ?_
    intro member
    simp only [List.mem_singleton, Prod.mk.injEq, Frame.destructor.injEq] at member
    exact same member

theorem destruction_begun (living : Undestroyed s) (books : Books s)
    (turn : Turn s t none [(baseLoop, .destructor (listed s))] [])
    (life : t.life = .destructing) (sessions : t.sessions = s.sessions) : Destruction t := by
  have frame : ∀ i y, owed t i (.destructor y) =
      if i = baseLoop ∧ y = listed s then 1 else 0 := by
    intro i y
    have balance := turn.owed i (.destructor y)
    rw [living.idle, count_destructor] at balance
    simpa using balance
  refine .during life frame ?_
  intro c e found
  rw [sessions] at found
  rw [turn.unwritten (by simp), turn.unwritten (by simp), List.count_eq_zero.mpr (living.untorn c)]
  exact count_listed books found

theorem destruction_tornDown (turn : Turn s t (some (baseLoop, .destructor left))
      [(baseLoop, .destructor (left.erase c)), (i, destroying c)] [.tornDown c])
    (frame : ∀ i y, owed s i (.destructor y) = if i = baseLoop ∧ y = left then 1 else 0)
    (shares : Shares s left) (member : c ∈ left) (life : t.life = .destructing)
    (sessions : t.sessions = s.sessions) : Destruction t := by
  have frame' : ∀ j y, owed t j (.destructor y) =
      if j = baseLoop ∧ y = left.erase c then 1 else 0 := by
    intro j y
    have balance := turn.owed j (.destructor y)
    rw [frame, Option.toList_some, count_destructor, ← List.singleton_append, List.count_append,
      count_destructor, List.count_eq_zero.mpr (by simp [destroying])] at balance
    omega
  refine .during life frame' ?_
  intro d e found
  rw [sessions] at found
  have share := shares d e found
  have erased : t.journal.count (.erased d) = s.journal.count (.erased d) :=
    turn.unwritten (by simp)
  by_cases same : d = c
  · subst same
    have there := List.count_pos_iff.mpr member
    rw [erased, turn.wrote, List.count_erase_self]
    omega
  · have torn : t.journal.count (.tornDown d) = s.journal.count (.tornDown d) :=
      turn.unwritten (by simpa using same)
    rw [erased, torn, List.count_erase_of_ne same]
    exact share

theorem destruction_finished (turn : Turn s t (some (i, .destructor [])) [] [])
    (frame : ∀ i y, owed s i (.destructor y) = if i = baseLoop ∧ y = left then 1 else 0)
    (shares : Shares s left) (life : t.life = .dead) (sessions : t.sessions = s.sessions) :
    Destruction t := by
  obtain ⟨rfl, rfl⟩ := lost_frame turn frame (by simp)
  refine .after life ?_ ?_
  · intro j y
    have balance := turn.owed j (.destructor y)
    rw [frame, Option.toList_some, count_destructor] at balance
    simpa using balance
  · intro c e found
    rw [sessions] at found
    rw [turn.unwritten (by simp), turn.unwritten (by simp)]
    exact shares c e found

theorem destruction_step (inv : Housed s) (books : Books s) (calm : Calm s)
    (destruction : Destruction s) (turn : Turn s t lost gained notes)
    (account : Account s l t lost gained notes) : Destruction t := by
  have stage := staged inv books turn account
  have served := served inv books turn account
  have unerased : s.life ≠ .alive → ∀ c, .erased c ∉ notes := by
    intro gone c member
    have due := erased_due inv turn account member
    rw [calm.removal gone] at due
    cases due
  cases destruction with
  | before living =>
    cases stage with
    | begin _ life sessions => exact destruction_begun living books turn life sessions
    | quiet life off on untorn => exact .before (undestroyed_quiet living turn life off on untorn)
    | tearDown _ _ member =>
      exact (no_destructor turn living.idle (by simp [destroying, erase_ne member])).elim
    | finish => exact (no_destructor turn living.idle (by simp)).elim
  | during life frame shares =>
    have gone : s.life ≠ .alive := by rw [life]; simp
    cases stage with
    | quiet same off on untorn =>
      refine .during (same.trans life) ?_
        (shares_same shares turn served gone (unerased gone) untorn)
      intro i y
      rw [turn.kept (off i y) (on i y)]
      exact frame i y
    | begin alive => exact absurd alive gone
    | tearDown same _ member sessions =>
      obtain ⟨-, rfl⟩ := lost_frame turn frame (by simp [destroying, erase_ne member])
      exact destruction_tornDown turn frame shares member (same.trans life) sessions
    | finish dead sessions => exact destruction_finished turn frame shares dead sessions
  | after life idle shares =>
    have gone : s.life ≠ .alive := by rw [life]; simp
    cases stage with
    | quiet same off on untorn =>
      refine .after (same.trans life) ?_
        (shares_same shares turn served gone (unerased gone) untorn)
      intro i y
      rw [turn.kept (off i y) (on i y)]
      exact idle i y
    | begin alive => exact absurd alive gone
    | tearDown _ _ member =>
      exact (no_destructor turn idle (by simp [destroying, erase_ne member])).elim
    | finish => exact (no_destructor turn idle (by simp)).elim

theorem calm_step (inv : Housed s) (books : Books s) (calm : Calm s) (destruction : Destruction s)
    (orderly : Orderly s l) (turn : Turn s t lost gained notes)
    (account : Account s l t lost gained notes) : Calm t := by
  have late := late_kept inv books calm turn account
  have kept := calm_kept calm orderly turn account
  cases staged inv books turn account with
  | quiet life | tearDown life =>
    rw [← life] at kept
    exact ⟨fun gone => (kept gone).1, fun gone => (kept gone).2, late⟩
  | begin =>
    obtain ⟨closing, removal⟩ := calm_begun inv orderly turn
    exact ⟨fun _ => closing, fun _ => removal, late⟩
  | finish =>
    have gone : s.life ≠ .alive := by
      intro alive
      cases destruction with
      | before living => exact no_destructor turn living.idle (by simp)
      | during life | after life =>
        rw [life] at alive
        cases alive
    exact ⟨fun _ => (kept gone).1, fun _ => (kept gone).2, late⟩

theorem tearDown_run {setup : Setup} {ls : List Label}
    (orderly : machine.Within Orderly (init setup) ls)
    (ran : machine.run (init setup) ls = some s) : Books s ∧ Calm s ∧ Destruction s := by
  have kept : ∀ s l t, Housed s ∧ Books s ∧ Calm s ∧ Destruction s → Orderly s l →
      machine.step s l = some t → Housed t ∧ Books t ∧ Calm t ∧ Destruction t := by
    rintro s l t ⟨inv, books, calm, destruction⟩ orderly taken
    obtain ⟨-, _, _, _, turn, account⟩ := moved inv taken
    exact ⟨housed_turn turn inv, books_step inv books taken,
      calm_step inv books calm destruction orderly turn account,
      destruction_step inv books calm destruction turn account⟩
  have start : Calm (init setup) := ⟨fun gone => absurd rfl gone, fun gone => absurd rfl gone, rfl⟩
  exact (machine.within_invariant Orderly _ kept
    ⟨housed_init setup, books_init setup, start, .before (undestroyed_init setup)⟩ orderly ran).2

/-- In every run whose steps meet the condition the server is not used after its
    destructor, connectDestroyed is due or done at most once for each connection, and
    exactly once when the destructor has run. -/
theorem tear_down_is_safe (setup : Setup) {ls : List Label}
    (orderly : machine.Within Orderly (init setup) ls)
    (ran : machine.run (init setup) ls = some s) :
    s.late = 0 ∧
      ∀ (c : Nat) (e : Session), s.sessions[c]? = some e →
        owed s e.loop_ (destroying c) + s.journal.count (.destroyed c) ≤ 1 ∧
          (s.life = .dead →
            owed s e.loop_ (destroying c) + s.journal.count (.destroyed c) = 1) := by
  obtain ⟨books, calm, destruction⟩ := tearDown_run orderly ran
  refine ⟨calm.late, ?_⟩
  intro c e found
  obtain ⟨-, leaving, balance⟩ := books.balanced c e found
  simp only [tally] at leaving balance
  cases destruction with
  | before living =>
    rw [List.count_eq_zero.mpr (living.untorn c)] at balance
    refine ⟨by omega, ?_⟩
    intro dead
    rw [living.alive] at dead
    cases dead
  | during life _ shares =>
    have share := shares c e found
    refine ⟨by omega, ?_⟩
    intro dead
    rw [life] at dead
    cases dead
  | after _ _ shares =>
    have share := shares c e found
    rw [List.count_nil] at share
    exact ⟨by omega, fun _ => by omega⟩

def tearDownRun : List Label :=
  let exec (i : Nat) : Label := .exec i (.written 0) .data
  removalRun ++
    [.endFunctors 0, .poll 0 [], .otherCode 0, .destroy, .tearDown 1, exec 0, .ret 0,
      .poll 2 [], .endHandling 2, .nextFunctor 2, exec 2, exec 2, .ret 2, .nextFunctor 2, exec 2,
      exec 2, .ret 2, exec 2]

theorem tear_down_of_tearDownRun :
    ∃ s, machine.run (init twoLoops) tearDownRun = some s ∧ s.life = .dead ∧
      s.sessions.length = 2 ∧ s.late = 0 ∧
      ∀ (c : Nat) (e : Session), s.sessions[c]? = some e →
        owed s e.loop_ (destroying c) + s.journal.count (.destroyed c) = 1 := by
  have outcome : (machine.run (init twoLoops) tearDownRun).map (fun s =>
      (s.life, s.sessions.length)) = some (.dead, 2) := by decide +kernel
  have orderly : machine.checkWithin Orderly (init twoLoops) tearDownRun = true := by
    decide +kernel
  obtain ⟨s, reached, facts⟩ := Option.map_eq_some_iff.mp outcome
  simp only [Prod.mk.injEq] at facts
  obtain ⟨dead, two⟩ := facts
  obtain ⟨late, once⟩ := tear_down_is_safe twoLoops (machine.within_of_check orderly) reached
  exact ⟨s, reached, dead, two, late, fun c e found => (once c e found).2 dead⟩

def acceptRun : List Label :=
  [.poll 0 [], .accept { home := false }, .poll 1 [], .endHandling 1, .nextFunctor 1,
    .exec 1 (.written 0) .data, .exec 1 (.written 0) .data, .ret 1, .endFunctors 1]

def peerCloses : List Label :=
  [.poll 1 [(0, { pollin := true })], .dispatch 1, .exec 1 (.written 0) .data,
    .exec 1 (.written 0) .data, .exec 1 (.written 0) .endOfFile, .exec 1 (.written 0) .data,
    .ret 1, .exec 1 (.written 0) .data]

def destroyServer : List Label :=
  [.otherCode 0, .destroy, .tearDown 0, .exec 0 (.written 0) .data, .ret 0]

def oneLoop : Setup := ⟨"s".toList, .ipv4 0 0 0 0 80, 1⟩

/-- A close before the destructor leaves removeConnectionInLoop in the base loop's
    queue, which the destructor does not empty; a close after it calls
    removeConnection on the destroyed server. -/
theorem close_reaches_destroyed_server :
    (∃ s, machine.run (init oneLoop) (acceptRun ++ peerCloses ++ destroyServer ++
        [.endHandling 0, .nextFunctor 0, .exec 0 (.written 0) .data]) = some s ∧
      s.life = .dead ∧ s.late = 1 ∧
      s.journal = [.established 0, .event 0, .closeCallback 0, .tornDown 0]) ∧
    ∃ s, machine.run (init oneLoop) (acceptRun ++ destroyServer ++ peerCloses) = some s ∧
      s.life = .dead ∧ s.late = 1 ∧
      s.journal = [.established 0, .tornDown 0, .event 0, .closeCallback 0] := by
  have queued : (machine.run (init oneLoop) (acceptRun ++ peerCloses ++ destroyServer ++
      [.endHandling 0, .nextFunctor 0, .exec 0 (.written 0) .data])).map (fun s =>
        (s.life, s.late, s.journal)) =
      some (.dead, 1, [.established 0, .event 0, .closeCallback 0, .tornDown 0]) := by
    decide +kernel
  have direct : (machine.run (init oneLoop) (acceptRun ++ destroyServer ++ peerCloses)).map
      (fun s => (s.life, s.late, s.journal)) =
      some (.dead, 1, [.established 0, .tornDown 0, .event 0, .closeCallback 0]) := by
    decide +kernel
  obtain ⟨s, reached, facts⟩ := Option.map_eq_some_iff.mp queued
  obtain ⟨t, reached', facts'⟩ := Option.map_eq_some_iff.mp direct
  simp only [Prod.mk.injEq] at facts facts'
  exact ⟨⟨s, reached, facts⟩, t, reached', facts'⟩

end TcpServer
end Muduo
