import Muduo.Net.TcpClientRuns

/-!
stop() is final until the next connect(): whatever is under way, no socket is handed over any
more. Two readings of connect_ can come before a stop() and act after it: a handleWrite then
makes its one connection, and a removeConnection restarts the connector. Connector::startInLoop
and retry read connect_ too, but what they begin comes to a handleWrite that reads it again.
-/
namespace Muduo
open Lib
namespace TcpClient
variable {s t : TcpClient} {l : Label}

def Label.connects : Label → Bool
  | .connect .. => true
  | _ => false

structure Stopped (s : TcpClient) : Prop where
  sane : Sane s
  off : s.connect_ = false
  connector : s.connector_.connect_ = false
  idle : s.restarting = false
  stopping : s.connector_.state_ = .kConnecting → .stopInLoop ∈ s.connector_.queue.waiting

theorem stopped_stop (sane : Sane s) (idle : s.restarting = false) (alive : s.alive = true) :
    Stopped s.stop where
  sane := stop_sane sane alive
  off := rfl
  connector := rfl
  idle := idle
  stopping := by simp [stop, Connector.stop, Connector.queueInLoop]

/-- No socket was handed over; one that was on its way may have become a connection. -/
structure NoMore (s t : TcpClient) : Prop where
  made : t.connections.length + t.handing.toNat = s.connections.length + s.handing.toNat
  handing : s.handing = false → t.handing = false

theorem NoMore.trans {u : TcpClient} (first : NoMore s t) (second : NoMore t u) : NoMore s u :=
  ⟨second.made.trans first.made, fun none_ => second.handing (first.handing none_)⟩

theorem NoMore.of_length (length : t.connections.length = s.connections.length)
    (handing : t.handing = s.handing) : NoMore s t := by
  refine ⟨by rw [length, handing], ?_⟩
  intro none_
  exact handing.trans none_

theorem settle_cases (settled : s.settle = .ok t) : s = t := by
  obtain ⟨_, -, rest⟩ := bind_eq_ok.mp settled
  exact Except.ok.inj rest

theorem handleClose_stopped {i : Nat} {c : Connection} (h : Stopped s) (sane : Sane t)
    (closed : s.handleClose i c = .ok t) : Stopped t ∧ NoMore s t := by
  unfold handleClose at closed
  split at closed
  · obtain rfl := Except.ok.inj closed
    exact ⟨{ h with sane }, .of_length (List.length_modify ..) rfl⟩
  · obtain ⟨_, -, rest⟩ := bind_eq_ok.mp closed
    obtain ⟨_, -, rest⟩ := bind_eq_ok.mp rest
    obtain rfl := Except.ok.inj rest
    refine ⟨{ h with sane, idle := ?_ }, .of_length (List.length_modify ..) rfl⟩
    simp [setState, h.off]

theorem perform_stopped (h : Stopped s) (orderly : Orderly s l) (other : l.connects = false)
    (performed : s.perform l = some (.ok t)) : Stopped t ∧ NoMore s t := by
  obtain ⟨u, same, sane⟩ := perform_sane h.sane orderly performed
  obtain rfl := Except.ok.inj same
  cases l with
  | connect => cases other
  | disconnect =>
    obtain ⟨-, ⟨⟩⟩ := Option.ite_none_right_eq_some.mp performed
    exact ⟨{ h with sane, off := rfl }, .of_length (length_shutdown ..) rfl⟩
  | stop =>
    obtain ⟨alive, ⟨⟩⟩ := Option.ite_none_right_eq_some.mp performed
    exact ⟨stopped_stop h.sane h.idle alive, .of_length rfl rfl⟩
  | enableRetry =>
    obtain ⟨-, ⟨⟩⟩ := Option.ite_none_right_eq_some.mp performed
    exact ⟨{ h with sane }, .of_length rfl rfl⟩
  | loop l =>
    obtain ⟨⟨idle, loop⟩, enabled⟩ := Option.ite_none_right_eq_some.mp performed
    obtain ⟨acted, enabled, rest⟩ := Option.map_eq_some_iff.mp enabled
    obtain ⟨_, -, rest⟩ := bind_eq_ok.mp rest
    obtain ⟨connector, rfl, follows⟩ := bind_eq_ok.mp rest
    have taken := Connector.perform_loopStep h.sane.calm loop enabled
    obtain ⟨handed, connect, -, stopping⟩ :=
      Connector.quiet_loopStep taken (.inl h.connector) h.stopping
    obtain rfl := settle_cases follows
    refine ⟨{ h with sane, connector := connect.trans h.connector, stopping }, .of_length rfl ?_⟩
    simp [handed, (busy_eq_false.mp idle).1]
  | newConnection peer =>
    obtain ⟨handing, ran⟩ := Option.ite_none_right_eq_some.mp performed
    obtain ⟨_, -, rest⟩ := bind_eq_ok.mp (Option.some.inj ran)
    obtain rfl := Except.ok.inj rest
    exact ⟨{ h with sane }, by simp [handing], fun _ => rfl⟩
  | close i =>
    simp only [perform] at performed
    split at performed
    · obtain ⟨-, ran⟩ := Option.ite_none_right_eq_some.mp performed
      exact handleClose_stopped h sane (Option.some.inj ran)
    · cases performed
  | restart savedErrno =>
    obtain ⟨restarting, -⟩ := Option.ite_none_right_eq_some.mp performed
    simp [h.idle] at restarting
  | connectDestroyed =>
    simp only [perform] at performed
    split at performed
    · obtain ⟨-, ⟨⟩⟩ := Option.ite_none_left_eq_some.mp performed
      exact ⟨{ h with sane }, .of_length (List.length_modify ..) rfl⟩
    · cases performed
  | destroy unique =>
    obtain ⟨-, ran⟩ := Option.ite_none_right_eq_some.mp performed
    have ran := Option.some.inj ran
    unfold destroy at ran
    split at ran
    · obtain rfl := settle_cases ran
      exact ⟨{ h with sane }, .of_length (List.length_modify ..) rfl⟩
    · obtain rfl := settle_cases ran
      refine ⟨{ h with sane, connector := rfl, stopping := ?_ }, .of_length rfl rfl⟩
      simp [Connector.stop, Connector.queueInLoop]
  | release =>
    obtain ⟨-, ran⟩ := Option.ite_none_right_eq_some.mp performed
    obtain rfl := settle_cases (Option.some.inj ran)
    exact ⟨{ h with sane }, .of_length rfl rfl⟩

theorem run_stopped {ls : List Label} (h : Stopped s) (within : machine.Within Orderly s ls)
    (other : ∀ l ∈ ls, l.connects = false) (ran : machine.run s ls = some t) :
    Stopped t ∧ NoMore s t := by
  induction ls generalizing s with
  | nil =>
    obtain rfl := Option.some.inj ran
    exact ⟨h, .of_length rfl rfl⟩
  | cons l ls ih =>
    obtain ⟨u, taken, rest⟩ := machine.run_cons_eq_some.mp ran
    have first : Stopped u ∧ NoMore s u := by
      obtain ⟨-, performed | ⟨e, failed, -⟩⟩ := faults.step_cases taken
      · exact perform_stopped h within.1 (other l (by simp)) performed
      · obtain ⟨v, same, -⟩ := perform_sane h.sane within.1 failed
        cases same
    obtain ⟨last, more⟩ := ih first.1 (within.2 u taken)
      (fun k member => other k (List.mem_cons_of_mem _ member)) rest
    exact ⟨last, first.2.trans more⟩

def stoppedRun : List Label × List Label :=
  ([.enableRetry, .connect true .EINPROGRESS, .loop (.poll true)],
    [.loop (.event false true false false), .loop .swap, .loop (.functor .zero),
      .loop (.functor .zero)])

example : (machine.run (init "client".toList) (reconnectedRun.take 9 ++ [.stop,
      .restart .EINPROGRESS])).any (fun s => !s.connect_ && s.connector_.connect_) = true ∧
    (machine.run (init "client".toList) (reconnectedRun.take 4 ++ [.stop,
      .newConnection []])).any (fun s => !s.connect_ && s.connections.length = 1) = true := by
  decide +kernel

end TcpClient
end Muduo
