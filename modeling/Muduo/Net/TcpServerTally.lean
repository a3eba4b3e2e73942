import Muduo.Net.TcpServerSteps

/-!
The counts of one connection: the frames that loops still owe it together with
the entries of the journal about it. A turn is a balance between them, every
step takes off and adds one of a few combinations, whether or not the destructor
runs, and each of these keeps the counts in order.
-/
namespace Muduo
open Lib
namespace TcpServer
variable {s t : State} {lost : Option (Nat × Frame)} {gained : List (Nat × Frame)}
  {notes : List Moment} {x : Frame} {i : Nat}

@[ext]
structure Tally where
  establishing : Nat := 0
  established : Nat := 0
  closing : Nat := 0
  removal : Nat := 0
  erased : Nat := 0
  tornDown : Nat := 0
  destroying : Nat := 0
  destroyed : Nat := 0

def Tally.plus (a b : Tally) : Tally :=
  { establishing := a.establishing + b.establishing
    established := a.established + b.established
    closing := a.closing + b.closing
    removal := a.removal + b.removal
    erased := a.erased + b.erased
    tornDown := a.tornDown + b.tornDown
    destroying := a.destroying + b.destroying
    destroyed := a.destroyed + b.destroyed }

def tally (s : State) (i c : Nat) : Tally :=
  { establishing := owed s i (establishing c)
    established := s.journal.count (.established c)
    closing := owed s i (closing c)
    removal := owed s baseLoop (.removeConnectionInLoop c)
    erased := s.journal.count (.erased c)
    tornDown := s.journal.count (.tornDown c)
    destroying := owed s i (destroying c)
    destroyed := s.journal.count (.destroyed c) }

def counts (frames : List (Nat × Frame)) (notes : List Moment) (i c : Nat) : Tally :=
  { establishing := frames.count (i, establishing c)
    established := notes.count (.established c)
    closing := frames.count (i, closing c)
    removal := frames.count (baseLoop, .removeConnectionInLoop c)
    erased := notes.count (.erased c)
    tornDown := notes.count (.tornDown c)
    destroying := frames.count (i, destroying c)
    destroyed := notes.count (.destroyed c) }

theorem tally_turn (turn : Turn s t lost gained notes) (i c : Nat) :
    (tally t i c).plus (counts lost.toList [] i c) = (tally s i c).plus (counts gained notes i c) := by
  have entries : ∀ m : Moment, t.journal.count m + 0 = s.journal.count m + notes.count m := by
    intro m
    rw [turn.journal, List.count_append, Nat.add_zero]
  exact Tally.ext (turn.owed _ _) (entries _) (turn.owed _ _) (turn.owed _ _) (entries _)
    (entries _) (turn.owed _ _) (entries _)

inductive Change (e e' : Session) : Tally → Tally → Prop where
  | same : Change e e' {} {}
  | establish : Change e e' { establishing := 1 } { established := 1 }
  | close (before : e.conn.alive) (after : e'.conn.state_ = .kDisconnected) :
      Change e e' {} { closing := 1 }
  | callback : Change e e' { closing := 1 } { removal := 1 }
  | lateCallback : Change e e' { closing := 1 } {}
  | erase : Change e e' { removal := 1 } { erased := 1, destroying := 1 }
  | dropped : Change e e' { removal := 1 } {}
  | destroy : Change e e' { destroying := 1 } { destroyed := 1 }
  | tearDown : Change e e' {} { tornDown := 1, destroying := 1 }

/-- connectEstablished is owed or done, once; the connection leaves once; and
    connectDestroyed is owed or done once for each who asked for it. -/
structure Tally.Balanced (a : Tally) : Prop where
  once : a.established + a.establishing = 1
  leaving : a.closing + a.removal + a.erased ≤ 1
  destroying : a.destroying + a.destroyed = a.erased + a.tornDown

def Tally.left (a : Tally) : Nat := a.closing + a.removal + a.erased

section Change
variable {e e' : Session} {a b off on : Tally}

theorem Change.of_eq {off' on' : Tally} (change : Change e e' off on) (same : off' = off)
    (same' : on' = on) : Change e e' off' on' := by
  rw [same, same']
  exact change

theorem balanced_change (change : Change e e' off on) (balance : b.plus off = a.plus on)
    (inv : a.Balanced) (still : e.conn.alive → a.left = 0) : b.Balanced := by
  obtain ⟨once, leaving, destroying⟩ := inv
  unfold Tally.left at still
  cases change with
  | close before =>
    have none_left := still before
    simp only [Tally.plus, Tally.mk.injEq] at balance
    constructor <;> omega
  | _ =>
    simp only [Tally.plus, Tally.mk.injEq] at balance
    constructor <;> omega

theorem left_change (change : Change e e' off on) (balance : b.plus off = a.plus on)
    (grown : e.Grown e') (down : 0 < a.left → e.conn.state_ = .kDisconnected) (gone : 0 < b.left) :
    e'.conn.state_ = .kDisconnected := by
  unfold Tally.left at *
  cases change with
  | close _ after => exact after
  | _ =>
    simp only [Tally.plus, Tally.mk.injEq] at balance
    exact grown.down (down (by omega))

end Change

def Frame.counted : Frame → Option Nat
  | .connection c (.run .connectEstablished) | .connection c (.run .connectDestroyed) => some c
  | .connection c .closeCallback | .removeConnectionInLoop c => some c
  | _ => none

def Moment.counted : Moment → Option Nat
  | .established c | .erased c | .tornDown c | .destroyed c => some c
  | .event _ | .closeCallback _ => none

theorem counted_minor (minor : x.vital = false) : x.counted = none := by
  cases x with
  | userCode => rfl
  | connection c f =>
    cases f with
    | run h => cases h <;> first | rfl | cases minor
    | closeCallback => cases minor
    | _ => rfl
  | removeConnectionInLoop c => cases minor
  | destructor left => rfl

section Counts
variable {frames : List (Nat × Frame)} {i c : Nat}

theorem counts_frames (other : ∀ j x, (j, x) ∈ frames → x.counted ≠ some c) :
    counts frames notes i c = counts [] notes i c := by
  have absent : ∀ j x, x.counted = some c → frames.count (j, x) = 0 := by
    intro j x mine
    refine List.count_eq_zero.mpr ?_
    intro member
    exact other j x member mine
  exact Tally.ext (absent _ _ rfl) rfl (absent _ _ rfl) (absent _ _ rfl) rfl rfl (absent _ _ rfl) rfl

theorem counts_notes (other : ∀ m ∈ notes, m.counted ≠ some c) : counts [] notes i c = {} := by
  have absent : ∀ m : Moment, m.counted = some c → notes.count m = 0 := by
    intro m mine
    refine List.count_eq_zero.mpr ?_
    intro member
    exact other m member mine
  exact Tally.ext rfl (absent _ rfl) rfl rfl (absent _ rfl) (absent _ rfl) rfl (absent _ rfl)

theorem uncounted {x : Frame} (minor : x.vital = false) : x.counted ≠ some c := by
  rw [counted_minor minor]
  exact (Option.some_ne_none c).symm

theorem counts_minor (minor : ∀ j x, (j, x) ∈ frames → x.vital = false) :
    counts frames notes i c = counts [] notes i c :=
  counts_frames fun j x member => uncounted (minor j x member)

theorem change_none {e e' : Session} (off : ∀ j x, lost = some (j, x) → x.counted ≠ some c)
    (on : ∀ j x, (j, x) ∈ gained → x.counted ≠ some c) (noted : ∀ m ∈ notes, m.counted ≠ some c) :
    Change e e' (counts lost.toList [] i c) (counts gained notes i c) := by
  have off : counts lost.toList [] i c = {} :=
    counts_frames fun j x member => off j x (Option.mem_toList.mp member)
  have on : counts gained notes i c = {} := (counts_frames on).trans (counts_notes noted)
  rw [off, on]
  exact Change.same

theorem change_of {e e' : Session} (d : Nat)
    (mine : d = c → Change e e' (counts lost.toList [] i c) (counts gained notes i c))
    (off : ∀ j x, lost = some (j, x) → x.counted = none ∨ x.counted = some d)
    (on : ∀ j x, (j, x) ∈ gained → x.counted = none ∨ x.counted = some d)
    (noted : ∀ m ∈ notes, m.counted = none ∨ m.counted = some d) :
    Change e e' (counts lost.toList [] i c) (counts gained notes i c) := by
  by_cases same : d = c
  · exact mine same
  have differs : ∀ o : Option Nat, o = none ∨ o = some d → o ≠ some c := by
    rintro o (rfl | rfl) equal
    · cases equal
    · exact same (Option.some.inj equal)
  exact change_none (fun j x pair => differs _ (off j x pair))
    (fun j x member => differs _ (on j x member)) (fun m member => differs _ (noted m member))

theorem counted_pair {d j k : Nat} {x y : Frame} (first : x.counted = none ∨ x.counted = some d)
    (second : y.counted = none ∨ y.counted = some d) :
    ∀ i z, (i, z) ∈ [(j, x), (k, y)] → z.counted = none ∨ z.counted = some d := by
  intro i z member
  simp only [List.mem_cons, Prod.mk.injEq, List.not_mem_nil, or_false] at member
  rcases member with ⟨-, rfl⟩ | ⟨-, rfl⟩
  · exact first
  · exact second

theorem counts_removal {notes : List Moment} :
    counts [(baseLoop, .removeConnectionInLoop c)] notes i c =
      { counts [] notes i c with removal := 1 } := by
  simp [counts, establishing, closing, destroying]

theorem counts_closing : counts [(i, closing c)] [] i c = { closing := 1 } := by
  simp [counts, establishing, closing, destroying]

end Counts

theorem Turn.due (turn : Turn s t (some (i, x)) gained notes) (absent : (i, x) ∉ gained) :
    ∃ n, TcpServer.owed s i x = n + 1 ∧ TcpServer.owed t i x = n := by
  have balance := turn.owed i x
  simp only [Option.toList_some, List.count_singleton_self, List.count_eq_zero.mpr absent] at balance
  exact ⟨_, by omega, rfl⟩

theorem Turn.kept (turn : Turn s t lost gained notes) (off : lost ≠ some (i, x))
    (on : (i, x) ∉ gained) :
    TcpServer.owed t i x = TcpServer.owed s i x := by
  have balance := turn.owed i x
  have absent : (i, x) ∉ lost.toList := fun member => off (Option.mem_toList.mp member)
  rw [List.count_eq_zero.mpr on, List.count_eq_zero.mpr absent] at balance
  exact balance

theorem Turn.unwritten {m : Moment} (turn : Turn s t lost gained notes) (other : m ∉ notes) :
    t.journal.count m = s.journal.count m := by
  rw [turn.journal, List.count_append, List.count_eq_zero.mpr other, Nat.add_zero]

theorem Turn.wrote {m : Moment} (turn : Turn s t lost gained [m]) :
    t.journal.count m = s.journal.count m + 1 := by
  rw [turn.journal, List.count_append, List.count_singleton_self]

theorem vital_absent (on : ∀ j y, (j, y) ∈ gained → y.vital = false) (vital : x.vital = true) :
    (i, x) ∉ gained := by
  intro member
  rw [on i x member] at vital
  cases vital

theorem lost_placed (inv : Housed s) (turn : Turn s t (some (i, x)) gained notes)
    (absent : (i, x) ∉ gained) : Placed s i x := by
  obtain ⟨n, due, -⟩ := turn.due absent
  exact inv.placed i x (by omega)

theorem home_of_lost {c : Nat} {f : TcpConnection.Frame} {e : Session} (inv : Housed s)
    (turn : Turn s t (some (i, .connection c f)) gained notes)
    (absent : (i, .connection c f) ∉ gained) (found : s.sessions[c]? = some e) : i = e.loop_ := by
  obtain ⟨⟨e₀, found₀, rfl⟩, -⟩ := lost_placed inv turn absent
  rw [found] at found₀
  cases found₀
  rfl

theorem base_of_lost {c : Nat} (inv : Housed s)
    (turn : Turn s t (some (i, .removeConnectionInLoop c)) gained notes)
    (absent : (i, .removeConnectionInLoop c) ∉ gained) : i = baseLoop :=
  (lost_placed inv turn absent).1

theorem changed {l : Label} {c : Nat} {e e' : Session} (inv : Housed s)
    (turn : Turn s t lost gained notes) (account : Account s l t lost gained notes)
    (found : s.sessions[c]? = some e) (found' : t.sessions[c]? = some e') :
    Change e e' (counts lost.toList [] e.loop_ c) (counts gained notes e.loop_ c) := by
  cases account with
  | plain _ _ off on =>
    exact change_none (fun j x pair => uncounted (off j x pair))
      (fun j x member => uncounted (on j x member)) (by simp)
  | accept =>
    have older : s.sessions.length ≠ c := by
      have there := (List.getElem?_eq_some_iff.mp found).1
      omega
    exact change_of s.sessions.length (fun same => absurd same older) (by simp)
      (by simp [establishing, Frame.counted]) (by simp)
  | event _ _ _ on =>
    exact change_none (by simp) (fun j x member => uncounted (on j x member))
      (by simp [Moment.counted])
  | @establish _ _ i d _ _ _ on =>
    refine change_of d ?_ (by simp [establishing, Frame.counted])
      (fun j x member => Or.inl (counted_minor (on j x member))) (by simp [Moment.counted])
    rintro rfl
    obtain rfl := home_of_lost inv turn (vital_absent on rfl) found
    rw [counts_minor on]
    refine Change.establish.of_eq ?_ ?_ <;> simp [counts, establishing, closing, destroying]
  | @destroy _ _ i d _ _ _ on =>
    refine change_of d ?_ (by simp [destroying, Frame.counted])
      (fun j x member => Or.inl (counted_minor (on j x member))) (by simp [Moment.counted])
    rintro rfl
    obtain rfl := home_of_lost inv turn (vital_absent on rfl) found
    rw [counts_minor on]
    refine Change.destroy.of_eq ?_ ?_ <;> simp [counts, establishing, closing, destroying]
  | @close _ _ i d x _ _ _ minor before after =>
    refine change_of d ?_ ?_ (counted_pair (Or.inl rfl) (Or.inr rfl)) (by simp)
    · rintro rfl
      obtain ⟨e₀, found₀, alive⟩ := before
      obtain ⟨e₁, found₁, down⟩ := after
      obtain ⟨⟨e₂, found₂, rfl⟩, -⟩ := turn.placed i (closing d) (by simp)
      obtain ⟨e₃, found₃, grown, -⟩ := turn.old d e found
      rw [found] at found₀
      rw [found'] at found₁ found₂ found₃
      cases found₀
      cases found₁
      cases found₂
      cases found₃
      rw [Option.toList_some, counts_minor (by simpa using minor)]
      refine (Change.close alive down).of_eq rfl ?_
      simp [counts, grown.loop, establishing, closing, destroying]
    · rintro j y ⟨⟩
      exact Or.inl (counted_minor minor)
  | @closeCallback _ _ i d _ _ _ =>
    refine change_of d ?_ (by simp [closing, Frame.counted]) (by simp [Frame.counted])
      (by simp [Moment.counted])
    rintro rfl
    obtain rfl := home_of_lost inv turn (by simp) found
    rw [Option.toList_some, counts_closing, counts_removal]
    exact Change.callback
  | @lateCallback _ _ i d _ _ _ _ _ =>
    refine change_of d ?_ (by simp [closing, Frame.counted]) (by simp) (by simp [Moment.counted])
    rintro rfl
    obtain rfl := home_of_lost inv turn (by simp) found
    rw [Option.toList_some, counts_closing]
    exact Change.lateCallback
  | @erase _ _ i d e₀ found₀ _ _ _ _ _ _ =>
    obtain rfl := base_of_lost inv turn (by simp [destroying])
    refine change_of d ?_ (by simp [Frame.counted]) (by simp [destroying, Frame.counted])
      (by simp [Moment.counted])
    rintro rfl
    rw [found] at found₀
    cases found₀
    rw [Option.toList_some, counts_removal]
    refine Change.erase.of_eq rfl ?_
    simp [counts, establishing, closing, destroying]
  | @missed _ _ i d _ _ _ | @lateRemoval _ _ i d _ _ _ _ _ =>
    obtain rfl := base_of_lost inv turn (by simp)
    refine change_of d ?_ (by simp [Frame.counted]) (by simp) (by simp)
    rintro rfl
    rw [Option.toList_some, counts_removal]
    exact Change.dropped
  | begin => exact change_none (by simp) (by simp [Frame.counted]) (by simp)
  | @tearDown _ d e₀ left _ _ found₀ _ _ =>
    refine change_of d ?_ (by simp [Frame.counted]) (counted_pair (Or.inl rfl) (Or.inr rfl))
      (by simp [Moment.counted])
    rintro rfl
    rw [found] at found₀
    cases found₀
    refine Change.tearDown.of_eq ?_ ?_ <;> simp [counts, establishing, closing, destroying]
  | finish => exact change_none (by simp [Frame.counted]) (by simp) (by simp)

end TcpServer
end Muduo
