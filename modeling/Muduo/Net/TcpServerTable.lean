import Muduo.Lib.Precedes
import Muduo.Net.TcpServerTally

/-!
TcpServer's connection table over whole runs. The counter and a buffer that is
long enough keep the names apart, so no entry is overwritten and every erase
finds its entry. What is said here holds in every run, whether or not the
destructor runs, except where a run without it is asked for.
-/
namespace Muduo
open Lib
namespace TcpServer
variable {s t : State} {lost : Option (Nat × Frame)} {gained : List (Nat × Frame)}
  {notes : List Moment} {l : Label} {c i : Nat} {e e' : Session}

section Names
variable {name ipPort : List Char} {id id' : Nat}

theorem connName_whole (short : ipPort.length ≤ 47) (int : id < 2 ^ 31) :
    connName name ipPort id = name ++ ('-' :: ipPort ++ '#' :: decimal id) := by
  have digits : (decimal id).length ≤ 10 := length_decimal_le (by decide) (by omega)
  rw [connName, snprintf_fits]
  simp only [List.cons_append, List.length_cons, List.length_append]
  omega

theorem connName_injective (short : ipPort.length ≤ 47) (int : id < 2 ^ 31) (int' : id' < 2 ^ 31)
    (same : connName name ipPort id = connName name ipPort id') : id = id' := by
  rw [connName_whole short int, connName_whole short int', List.append_cancel_left_eq,
    List.append_cancel_left_eq, List.cons.injEq] at same
  exact decimal_injective same.2

end Names

def Moment.connection : Moment → Nat
  | .established c | .event c | .closeCallback c | .erased c | .tornDown c | .destroyed c => c

structure Named (s : State) : Prop where
  short : s.server.ipPort_.length ≤ 47
  counter : s.server.nextConnId_ = s.sessions.length + 1
  int : s.server.nextConnId_ < 2 ^ 31
  names : ∀ (c : Nat) (e : Session), s.sessions[c]? = some e →
    e.name_ = connName s.server.name_ s.server.ipPort_ (c + 1)

theorem Named.distinct {d : Nat} (inv : Named s) (found : s.sessions[c]? = some e)
    (found' : s.sessions[d]? = some e') (same : e.name_ = e'.name_) : c = d := by
  have int := inv.int
  have counter := inv.counter
  have inside := (List.getElem?_eq_some_iff.mp found).1
  have inside' := (List.getElem?_eq_some_iff.mp found').1
  rw [inv.names c e found, inv.names d e' found'] at same
  have numbers := connName_injective inv.short (by omega) (by omega) same
  omega

def Bears (s : State) (c : Nat) (name : List Char) : Prop :=
  ∃ e, s.sessions[c]? = some e ∧ e.name_ = name

/-- The entries are the connections that have not been erased, each under its name. -/
def Exact (s : State) : Prop :=
  ∀ name c, s.server.connections_.lookup name = some c ↔ Bears s c name ∧ .erased c ∉ s.journal

structure Books (s : State) : Prop where
  named : Named s
  exact : Exact s
  balanced : ∀ (c : Nat) (e : Session), s.sessions[c]? = some e → (tally s e.loop_ c).Balanced
  down : ∀ (c : Nat) (e : Session), s.sessions[c]? = some e → 0 < (tally s e.loop_ c).left →
    e.conn.state_ = .kDisconnected
  known : ∀ m ∈ s.journal, ∃ e, s.sessions[m.connection]? = some e
  called : ∀ c, 0 < owed s baseLoop (.removeConnectionInLoop c) ∨ .erased c ∈ s.journal →
    .closeCallback c ∈ s.journal
  events : ∀ c, Precedes (· = .established c) (.event c) s.journal
  erasures : ∀ c, Precedes (· = .closeCallback c) (.erased c) s.journal
  destructions : ∀ c, Precedes (fun m => m = .erased c ∨ m = .tornDown c) (.destroyed c) s.journal
  asserted : ∀ e, s.fault ≠ some (.server e)

inductive Served (s t : State) (lost : Option (Nat × Frame)) (gained : List (Nat × Frame))
    (notes : List Moment) : Prop where
  | same (server : t.server = s.server) (unerased : ∀ c, .erased c ∉ notes)
  | accept {session : Session} (alive : s.life = .alive) (few : s.server.nextConnId_ < 2 ^ 31 - 1)
      (name : session.name_ = connName s.server.name_ s.server.ipPort_ s.server.nextConnId_)
      (server : t.server =
        { s.server with
          threadPool_ := s.server.threadPool_.getNextLoop.2
          nextConnId_ := s.server.nextConnId_ + 1
          connections_ := s.server.connections_.insert session.name_ s.sessions.length })
      (sessions : t.sessions = s.sessions ++ [session]) (silent : notes = [])
      (free : lost = none) (due : gained = [(session.loop_, establishing s.sessions.length)])
  | erase {c : Nat} {e : Session} (found : s.sessions[c]? = some e)
      (server : t.server = { s.server with connections_ := s.server.connections_.erase e.name_ })
      (noted : notes = [.erased c])

theorem removal_listed (books : Books s) (found : s.sessions[c]? = some e)
    (due : 0 < owed s baseLoop (.removeConnectionInLoop c)) :
    e.name_ ∈ s.server.connections_ := by
  have leaving := (books.balanced c e found).leaving
  simp only [tally] at leaving
  have unerased : .erased c ∉ s.journal := List.count_eq_zero.mp (by omega)
  have listed := (books.exact e.name_ c).mpr ⟨⟨e, found, rfl⟩, unerased⟩
  exact AList.lookup_isSome.mp (by rw [listed]; rfl)

theorem lost_listed (inv : Housed s) (books : Books s)
    (turn : Turn s t (some (i, .removeConnectionInLoop c)) [] [])
    (found : s.sessions[c]? = some e) :
    e.name_ ∈ s.server.connections_ := by
  obtain rfl := base_of_lost inv turn (by simp)
  obtain ⟨n, due, -⟩ := turn.due (by simp)
  exact removal_listed books found (by omega)

theorem served (inv : Housed s) (books : Books s) (turn : Turn s t lost gained notes)
    (account : Account s l t lost gained notes) : Served s t lost gained notes := by
  cases account with
  | plain same => exact .same same.server (by simp)
  | accept alive few _ _ _ server sessions => exact .accept alive few rfl server sessions rfl rfl rfl
  | event same | establish same | close same | closeCallback same | destroy same | tearDown same =>
    exact .same same.server (by simp)
  | lateCallback server | lateRemoval server | begin server | finish server =>
    exact .same server (by simp)
  | erase found _ _ server => exact .erase found server rfl
  | missed found absent => exact absurd (lost_listed inv books turn found) absent

theorem account_asserted (inv : Housed s) (books : Books s) (running : s.fault = none)
    (turn : Turn s t lost gained notes) (account : Account s l t lost gained notes)
    (text : String) :
    t.fault ≠ some (.server text) := by
  cases account with
  | plain _ fault => exact fault text
  | accept _ _ _ _ fault | event _ fault | establish _ fault | close _ fault
  | closeCallback _ fault | destroy _ fault | tearDown _ fault | erase _ _ _ _ _ _ fault
  | begin _ _ _ _ fault | finish _ _ _ fault =>
    rw [fault, running]
    simp
  | lateCallback _ _ _ _ fault | lateRemoval _ _ _ _ fault =>
    rw [fault]
    simp
  | missed found absent => exact absurd (lost_listed inv books turn found) absent

theorem Turn.session_before (turn : Turn s t lost gained notes)
    (counter : t.server.nextConnId_ = s.server.nextConnId_) (found' : t.sessions[c]? = some e') :
    ∃ e, s.sessions[c]? = some e ∧ e.Grown e' := by
  cases found : s.sessions[c]? with
  | none =>
    obtain ⟨-, -, advanced⟩ := turn.new c e' found found'
    omega
  | some e =>
    obtain ⟨e₀, found₀, grown, -⟩ := turn.old c e found
    rw [found'] at found₀
    cases found₀
    exact ⟨e, rfl, grown⟩

theorem Turn.length_sessions (turn : Turn s t lost gained notes)
    (counter : t.server.nextConnId_ = s.server.nextConnId_) :
    t.sessions.length = s.sessions.length := by
  refine le_antisymm ?_ ?_
  · by_contra more
    have inside : s.sessions.length < t.sessions.length := by omega
    obtain ⟨e, found, -⟩ := turn.session_before counter (List.getElem?_eq_getElem inside)
    simp at found
  · by_contra fewer
    have inside : t.sessions.length < s.sessions.length := by omega
    obtain ⟨e', found', -⟩ := turn.old _ _ (List.getElem?_eq_getElem inside)
    simp at found'

theorem Turn.bears_iff {name : List Char} (turn : Turn s t lost gained notes)
    (counter : t.server.nextConnId_ = s.server.nextConnId_) : Bears t c name ↔ Bears s c name := by
  constructor
  · rintro ⟨e', found', named⟩
    obtain ⟨e, found, grown⟩ := turn.session_before counter found'
    exact ⟨e, found, grown.name.symm.trans named⟩
  · rintro ⟨e, found, named⟩
    obtain ⟨e', found', grown, -⟩ := turn.old c e found
    exact ⟨e', found', grown.name.trans named⟩

theorem Named.bears {name : List Char} (inv : Named s) (bears : Bears s c name) :
    name = connName s.server.name_ s.server.ipPort_ (c + 1) := by
  obtain ⟨e, found, rfl⟩ := bears
  exact inv.names c e found

theorem session_accepted {session : Session} (found : (s.sessions ++ [session])[c]? = some e) :
    s.sessions[c]? = some e ∨ (c = s.sessions.length ∧ e = session) := by
  rw [List.getElem?_append] at found
  split at found
  · exact Or.inl found
  · rw [List.getElem?_singleton] at found
    split at found
    · exact Or.inr ⟨by omega, (Option.some.inj found).symm⟩
    · cases found

theorem named_step (inv : Named s) (turn : Turn s t lost gained notes)
    (served : Served s t lost gained notes) : Named t := by
  have kept : t.server.ipPort_ = s.server.ipPort_ → t.server.name_ = s.server.name_ →
      t.server.nextConnId_ = s.server.nextConnId_ → Named t := by
    intro ipPort name counter
    refine ⟨by rw [ipPort]; exact inv.short, ?_, by rw [counter]; exact inv.int, ?_⟩
    · rw [counter, turn.length_sessions counter]
      exact inv.counter
    · intro c e' found'
      rw [ipPort, name]
      exact inv.bears ((turn.bears_iff counter).mp ⟨e', found', rfl⟩)
  cases served with
  | same server | erase _ server => exact kept (by rw [server]) (by rw [server]) (by rw [server])
  | @accept session _ few name server sessions =>
    have counter := inv.counter
    refine ⟨by rw [server]; exact inv.short, ?_, ?_, ?_⟩
    · rw [server, sessions, List.length_append, List.length_singleton, ← counter]
    · rw [server]
      exact show s.server.nextConnId_ + 1 < 2 ^ 31 by omega
    · intro c e found
      rw [sessions] at found
      rw [server]
      rcases session_accepted found with old | ⟨rfl, rfl⟩
      · exact inv.names c e old
      · rw [name, counter]

theorem exact_step (books : Books s) (turn : Turn s t lost gained notes)
    (served : Served s t lost gained notes) : Exact t := by
  have named := named_step books.named turn served
  intro name d
  have earlier : .erased d ∉ notes → (.erased d ∈ t.journal ↔ .erased d ∈ s.journal) := by
    intro unerased
    rw [turn.journal, List.mem_append]
    exact or_iff_left unerased
  cases served with
  | same server unerased =>
    rw [server, turn.bears_iff (by rw [server]), earlier (unerased d)]
    exact books.exact name d
  | @erase c e found server noted =>
    have bears : Bears t d name ↔ Bears s d name := turn.bears_iff (by rw [server])
    rw [server, bears]
    by_cases same : name = e.name_
    · subst same
      rw [AList.lookup_erase]
      refine ⟨(by simp), ?_⟩
      rintro ⟨⟨e', found', same⟩, there⟩
      obtain rfl := books.named.distinct found' found same
      refine absurd ?_ there
      rw [turn.journal, noted]
      exact List.mem_append_right _ (List.mem_singleton_self _)
    · rw [AList.lookup_erase_ne same, books.exact name d]
      refine and_congr_right ?_
      rintro ⟨e', found', rfl⟩
      have other : d ≠ c := by
        rintro rfl
        rw [found] at found'
        cases found'
        exact same rfl
      rw [earlier (by rw [noted]; simpa using other)]
  | @accept session _ _ fresh server sessions silent =>
    have last : t.sessions[s.sessions.length]? = some session := by
      rw [sessions]
      exact List.getElem?_concat_length
    rw [earlier (by rw [silent]; simp)]
    by_cases same : name = session.name_
    · subst same
      rw [server, AList.lookup_insert]
      constructor
      · rintro ⟨⟩
        refine ⟨⟨session, last, rfl⟩, ?_⟩
        intro erased
        obtain ⟨e, found⟩ := books.known _ erased
        simp [Moment.connection] at found
      · rintro ⟨⟨e, found, same⟩, -⟩
        rw [named.distinct found last same]
    · rw [server, AList.lookup_insert_ne same, books.exact name d]
      refine and_congr_left fun _ => ⟨?_, ?_⟩
      · rintro ⟨e, found, rfl⟩
        obtain ⟨e', found', grown, -⟩ := turn.old d e found
        exact ⟨e', found', grown.name⟩
      · rintro ⟨e, found, rfl⟩
        rw [sessions] at found
        rcases session_accepted found with old | ⟨-, rfl⟩
        · exact ⟨e, old, rfl⟩
        · exact absurd rfl same

theorem tally_absent (inv : Housed s) (books : Books s) (absent : s.sessions[c]? = none) (i : Nat) :
    tally s i c = {} := by
  have unowed : ∀ f, owed s i (.connection c f) = 0 := by
    intro f
    by_contra due
    obtain ⟨⟨e, found, -⟩, -⟩ := inv.placed i (.connection c f) (by omega)
    rw [absent] at found
    cases found
  have unremoved : owed s baseLoop (.removeConnectionInLoop c) = 0 := by
    by_contra due
    obtain ⟨-, -, e, found⟩ := inv.placed baseLoop (.removeConnectionInLoop c) (by omega)
    rw [absent] at found
    cases found
  have unwritten : ∀ m : Moment, m.connection = c → s.journal.count m = 0 := by
    intro m about
    refine List.count_eq_zero.mpr ?_
    intro member
    obtain ⟨e, found⟩ := books.known m member
    rw [about, absent] at found
    cases found
  simp only [tally, establishing, closing, destroying, unowed, unremoved, unwritten (.established c) rfl,
    unwritten (.erased c) rfl, unwritten (.tornDown c) rfl, unwritten (.destroyed c) rfl]

theorem balanced_accepted (inv : Housed s) (books : Books s) (turn : Turn s t lost gained notes)
    (served : Served s t lost gained notes) (absent : s.sessions[c]? = none)
    (found : t.sessions[c]? = some e) :
    (tally t e.loop_ c).Balanced ∧ (tally t e.loop_ c).left = 0 := by
  obtain ⟨-, -, advanced⟩ := turn.new c e absent found
  cases served with
  | same server =>
    rw [server] at advanced
    omega
  | erase _ server =>
    rw [server] at advanced
    exact absurd advanced (Nat.succ_ne_self _).symm
  | accept _ _ _ _ sessions silent free due =>
    subst silent free due
    rw [sessions] at found
    rcases session_accepted found with old | ⟨rfl, rfl⟩
    · rw [absent] at old
      cases old
    · have balance := tally_turn turn e.loop_ s.sessions.length
      have on : counts [(e.loop_, establishing s.sessions.length)] [] e.loop_ s.sessions.length =
          { establishing := 1 } := by
        simp [counts, establishing, closing, destroying]
      rw [tally_absent inv books absent, on] at balance
      have shape : tally t e.loop_ s.sessions.length = { establishing := 1 } := balance
      rw [shape]
      exact ⟨⟨rfl, Nat.zero_le _, rfl⟩, rfl⟩

theorem balanced_step (inv : Housed s) (books : Books s) (turn : Turn s t lost gained notes)
    (account : Account s l t lost gained notes) (found' : t.sessions[c]? = some e') :
    (tally t e'.loop_ c).Balanced ∧
      (0 < (tally t e'.loop_ c).left → e'.conn.state_ = .kDisconnected) := by
  cases found : s.sessions[c]? with
  | none =>
    obtain ⟨balanced, none_left⟩ :=
      balanced_accepted inv books turn (served inv books turn account) found found'
    exact ⟨balanced, fun left => by omega⟩
  | some e =>
    obtain ⟨e₀, found₀, grown, -⟩ := turn.old c e found
    rw [found'] at found₀
    cases found₀
    have change := changed inv turn account found found'
    have balance := tally_turn turn e.loop_ c
    have down := books.down c e found
    have still : e.conn.alive → (tally s e.loop_ c).left = 0 := by
      intro alive
      by_contra left
      exact TcpConnection.alive_up alive (down (by omega))
    rw [grown.loop]
    exact ⟨balanced_change change balance (books.balanced c e found) still,
      left_change change balance grown down⟩

theorem noted_known (inv : Housed s) (books : Books s) (turn : Turn s t lost gained notes)
    (account : Account s l t lost gained notes) :
    ∀ m ∈ notes, ∃ e, s.sessions[m.connection]? = some e := by
  have of_lost : ∀ i c f, lost = some (i, .connection c f) → (i, .connection c f) ∉ gained →
      ∃ e, s.sessions[c]? = some e := by
    rintro i c f rfl absent
    obtain ⟨⟨e, found, -⟩, -⟩ := lost_placed inv turn absent
    exact ⟨e, found⟩
  intro m member
  cases account with
  | plain | accept | close | missed | lateRemoval | begin | finish => cases member
  | event _ _ started =>
    rw [List.mem_singleton.mp member]
    exact books.known (.established _) started
  | establish _ _ on | destroy _ _ on =>
    rw [List.mem_singleton.mp member]
    exact of_lost _ _ _ rfl (vital_absent on rfl)
  | closeCallback | lateCallback =>
    rw [List.mem_singleton.mp member]
    exact of_lost _ _ _ rfl (by simp)
  | erase found | tearDown _ _ found =>
    rw [List.mem_singleton.mp member]
    exact ⟨_, found⟩

theorem gained_removal (account : Account s l t lost gained notes)
    (member : (i, .removeConnectionInLoop c) ∈ gained) : .closeCallback c ∈ notes := by
  cases account with
  | plain _ _ _ on | event _ _ _ on | establish _ _ on | destroy _ _ on => cases on _ _ member
  | closeCallback =>
    simp only [List.mem_singleton, Prod.mk.injEq, Frame.removeConnectionInLoop.injEq] at member
    rw [member.2]
    exact List.mem_singleton_self _
  | _ => simp [establishing, closing, destroying] at member

theorem erased_due (inv : Housed s) (turn : Turn s t lost gained notes)
    (account : Account s l t lost gained notes) (member : .erased c ∈ notes) :
    0 < owed s baseLoop (.removeConnectionInLoop c) := by
  cases account with
  | erase =>
    obtain rfl := Moment.erased.inj (List.mem_singleton.mp member)
    obtain rfl := base_of_lost inv turn (by simp [destroying])
    obtain ⟨n, due, -⟩ := turn.due (by simp [destroying])
    omega
  | _ => simp at member

theorem destroyed_due (inv : Housed s) (books : Books s) (turn : Turn s t lost gained notes)
    (account : Account s l t lost gained notes) (member : .destroyed c ∈ notes) :
    .erased c ∈ s.journal ∨ .tornDown c ∈ s.journal := by
  cases account with
  | destroy _ _ on =>
    obtain rfl := Moment.destroyed.inj (List.mem_singleton.mp member)
    obtain ⟨⟨e, found, rfl⟩, -⟩ := lost_placed inv turn (vital_absent on rfl)
    obtain ⟨n, due, -⟩ := turn.due (vital_absent on rfl)
    have balance := (books.balanced c e found).destroying
    simp only [tally] at balance
    by_contra neither
    rw [not_or] at neither
    rw [List.count_eq_zero.mpr neither.1, List.count_eq_zero.mpr neither.2] at balance
    omega
  | _ => simp at member

theorem books_step (inv : Housed s) (books : Books s) (taken : step s l = some t) :
    Books t := by
  obtain ⟨running, lost, gained, notes, turn, account⟩ := moved inv taken
  have served := served inv books turn account
  constructor
  case named => exact named_step books.named turn served
  case exact => exact exact_step books turn served
  case balanced =>
    intro c e found
    exact (balanced_step inv books turn account found).1
  case down =>
    intro c e found
    exact (balanced_step inv books turn account found).2
  case known =>
    intro m member
    rw [turn.journal, List.mem_append] at member
    rcases member with old | new
    · exact turn.known (books.known m old)
    · exact turn.known (noted_known inv books turn account m new)
  case called =>
    intro c reason
    rw [turn.journal, List.mem_append]
    rw [turn.journal, List.mem_append] at reason
    rcases reason with due | old | new
    · rcases turn.owed_before due with before | asked
      · exact Or.inl (books.called c (Or.inl before))
      · exact Or.inr (gained_removal account asked)
    · exact Or.inl (books.called c (Or.inr old))
    · exact Or.inl (books.called c (Or.inl (erased_due inv turn account new)))
  case events =>
    intro c
    rw [turn.journal]
    refine precedes_append (books.events c) ?_
    intro member
    cases account with
    | event _ _ started =>
      obtain rfl := Moment.event.inj (List.mem_singleton.mp member)
      exact ⟨_, started, rfl⟩
    | _ => simp at member
  case erasures =>
    intro c
    rw [turn.journal]
    refine precedes_append (books.erasures c) ?_
    intro member
    exact ⟨_, books.called c (Or.inl (erased_due inv turn account member)), rfl⟩
  case destructions =>
    intro c
    rw [turn.journal]
    refine precedes_append (books.destructions c) ?_
    intro member
    rcases destroyed_due inv books turn account member with erased | torn
    · exact ⟨_, erased, Or.inl rfl⟩
    · exact ⟨_, torn, Or.inr rfl⟩
  case asserted => exact account_asserted inv books running turn account

theorem books_init (setup : Setup) : Books (init setup) := by
  have short := setup.listenAddr.length_toIpPort
  constructor
  case named =>
    refine ⟨short, rfl, show 1 < 2 ^ 31 by omega, ?_⟩
    intro c e found
    simp [init] at found
  case exact =>
    intro name c
    simp [init, Bears]
  case balanced | down =>
    intro c e found
    simp [init] at found
  case known => simp [init]
  case called =>
    rintro c (due | erased)
    · rw [owed_init] at due
      cases due
    · cases erased
  case events | erasures | destructions =>
    intro c
    exact precedes_nil _ _
  case asserted => simp [init]

theorem books_run {setup : Setup} {ls : List Label} (ran : machine.run (init setup) ls = some s) :
    Housed s ∧ Books s := by
  have kept : ∀ s l t, Housed s ∧ Books s → machine.step s l = some t → Housed t ∧ Books t := by
    rintro s l t ⟨inv, books⟩ taken
    obtain ⟨-, _, _, _, turn, -⟩ := moved inv taken
    exact ⟨housed_turn turn inv, books_step inv books taken⟩
  exact machine.run_invariant kept ⟨housed_init setup, books_init setup⟩ ran

inductive Staged (s : State) : Label → State → Option (Nat × Frame) → List (Nat × Frame) →
    List Moment → Prop where
  | quiet {l : Label} {t : State} {lost : Option (Nat × Frame)} {gained : List (Nat × Frame)}
      {notes : List Moment} (life : t.life = s.life)
      (off : ∀ i left, lost ≠ some (i, .destructor left))
      (on : ∀ i left, (i, .destructor left) ∉ gained) (untorn : ∀ c, .tornDown c ∉ notes) :
      Staged s l t lost gained notes
  | begin {t : State} (alive : s.life = .alive) (life : t.life = .destructing)
      (sessions : t.sessions = s.sessions) :
      Staged s .destroy t none
        [(baseLoop, .destructor (s.server.connections_.entries.map Sigma.snd))] []
  | tearDown {t : State} {c : Nat} {e : Session} {left : List Nat} (life : t.life = s.life)
      (found : s.sessions[c]? = some e) (member : c ∈ left) (sessions : t.sessions = s.sessions) :
      Staged s (.tearDown c) t (some (baseLoop, .destructor left))
        [(baseLoop, .destructor (left.erase c)), (e.loop_, destroying c)] [.tornDown c]
  | finish {l : Label} {t : State} {i : Nat} (life : t.life = .dead)
      (sessions : t.sessions = s.sessions) : Staged s l t (some (i, .destructor [])) [] []

theorem staged (inv : Housed s) (books : Books s) (turn : Turn s t lost gained notes)
    (account : Account s l t lost gained notes) : Staged s l t lost gained notes := by
  cases account with
  | plain same _ off on =>
    refine .quiet same.life ?_ (fun i left => vital_absent on rfl) (by simp)
    intro i left pair
    cases off i _ pair
  | event same _ _ on =>
    exact .quiet same.life (by simp) (fun i left => vital_absent on rfl) (by simp)
  | establish same _ on =>
    exact .quiet same.life (by simp [establishing]) (fun i left => vital_absent on rfl) (by simp)
  | destroy same _ on =>
    exact .quiet same.life (by simp [destroying]) (fun i left => vital_absent on rfl) (by simp)
  | close same _ _ off =>
    refine .quiet same.life ?_ (by simp [closing]) (by simp)
    rintro i left ⟨⟩
    cases off
  | accept _ _ life => exact .quiet life (by simp) (by simp [establishing]) (by simp)
  | closeCallback same => exact .quiet same.life (by simp [closing]) (by simp) (by simp)
  | lateCallback _ life => exact .quiet life (by simp [closing]) (by simp) (by simp)
  | lateRemoval _ life => exact .quiet life (by simp) (by simp) (by simp)
  | erase _ _ _ _ life => exact .quiet life (by simp) (by simp [destroying]) (by simp)
  | missed found absent => exact absurd (lost_listed inv books turn found) absent
  | begin _ alive life _ _ sessions => exact .begin alive life sessions
  | tearDown same _ found member sessions => exact .tearDown same.life found member sessions
  | finish _ life _ _ sessions => exact .finish life sessions

structure Undestroyed (s : State) : Prop where
  alive : s.life = .alive
  idle : ∀ i left, owed s i (.destructor left) = 0
  untorn : ∀ c, .tornDown c ∉ s.journal

theorem undestroyed_init (setup : Setup) : Undestroyed (init setup) :=
  ⟨rfl, fun i _ => owed_init setup i _, fun _ => List.not_mem_nil⟩

theorem undestroyed_quiet (inv : Undestroyed s) (turn : Turn s t lost gained notes)
    (life : t.life = s.life) (off : ∀ i left, lost ≠ some (i, .destructor left))
    (on : ∀ i left, (i, .destructor left) ∉ gained) (untorn : ∀ c, .tornDown c ∉ notes) :
    Undestroyed t := by
  refine ⟨life.trans inv.alive, ?_, ?_⟩
  · intro i left
    rw [turn.kept (off i left) (on i left)]
    exact inv.idle i left
  · intro c
    rw [turn.journal, List.mem_append, not_or]
    exact ⟨inv.untorn c, untorn c⟩

theorem erase_ne {left : List Nat} (member : c ∈ left) : left ≠ left.erase c := by
  intro same
  have shorter := List.length_erase_of_mem member
  have some_left := List.length_pos_of_mem member
  rw [← same] at shorter
  omega

theorem no_destructor {left : List Nat} (turn : Turn s t (some (i, .destructor left)) gained notes)
    (idle : ∀ i left, owed s i (.destructor left) = 0) (absent : (i, .destructor left) ∉ gained) :
    False := by
  obtain ⟨n, due, -⟩ := turn.due absent
  rw [idle] at due
  cases due

theorem undestroyed_staged (inv : Undestroyed s) (turn : Turn s t lost gained notes)
    (staged : Staged s l t lost gained notes) (other : l ≠ .destroy) : Undestroyed t := by
  cases staged with
  | quiet life off on untorn => exact undestroyed_quiet inv turn life off on untorn
  | begin => exact absurd rfl other
  | tearDown _ _ member =>
    exact (no_destructor turn inv.idle (by simp [destroying, erase_ne member])).elim
  | finish => exact (no_destructor turn inv.idle (by simp)).elim

theorem undestroyed_run {setup : Setup} {ls : List Label}
    (ran : machine.run (init setup) ls = some s) (labels : ∀ l ∈ ls, l ≠ .destroy) :
    Undestroyed s := by
  have kept : ∀ s l t, Housed s ∧ Books s ∧ Undestroyed s → l ≠ .destroy →
      machine.step s l = some t → Housed t ∧ Books t ∧ Undestroyed t := by
    rintro s l t ⟨inv, books, living⟩ other taken
    obtain ⟨-, _, _, _, turn, account⟩ := moved inv taken
    exact ⟨housed_turn turn inv, books_step inv books taken,
      undestroyed_staged living turn (staged inv books turn account) other⟩
  exact (machine.within_invariant (fun _ l => l ≠ .destroy) _ kept
    ⟨housed_init setup, books_init setup, undestroyed_init setup⟩
    (machine.within_of_labels labels) ran).2.2

theorem Books.next_name (books : Books s) :
    connName s.server.name_ s.server.ipPort_ s.server.nextConnId_ ∉ s.server.connections_ := by
  intro taken
  obtain ⟨c, found⟩ := Option.isSome_iff_exists.mp (AList.lookup_isSome.mpr taken)
  obtain ⟨⟨e, there, name⟩, -⟩ := (books.exact _ c).mp found
  have inside := (List.getElem?_eq_some_iff.mp there).1
  have int := books.named.int
  have counter := books.named.counter
  rw [books.named.names c e there] at name
  have same := connName_injective books.named.short (by omega) int name
  omega

/-- connections_ holds the accepted connections whose removeConnectionInLoop has not
    run, under distinct names; connectEstablished is run once, by the connection's own
    loop and before its events; connectDestroyed is run at most once, after the close
    callback and the erase. -/
theorem connection_table_is_exact (setup : Setup) {ls : List Label}
    (ran : machine.run (init setup) ls = some s) (labels : ∀ l ∈ ls, l ≠ .destroy) :
    (∀ name c, s.server.connections_.lookup name = some c ↔
        (∃ e, s.sessions[c]? = some e ∧ e.name_ = name) ∧ .erased c ∉ s.journal) ∧
      (∀ (c d : Nat) (e e' : Session), s.sessions[c]? = some e → s.sessions[d]? = some e' →
        e.name_ = e'.name_ → c = d) ∧
      connName s.server.name_ s.server.ipPort_ s.server.nextConnId_ ∉ s.server.connections_ ∧
      s.fault ≠ some (.server "n == 1") ∧
      ∀ (c : Nat) (e : Session), s.sessions[c]? = some e →
        s.journal.count (.established c) + owed s e.loop_ (establishing c) = 1 ∧
          Precedes (· = .established c) (.event c) s.journal ∧
          s.journal.count (.destroyed c) ≤ 1 ∧
          Precedes (· = .closeCallback c) (.destroyed c) s.journal ∧
          Precedes (· = .erased c) (.destroyed c) s.journal := by
  obtain ⟨-, books⟩ := books_run ran
  have living := undestroyed_run ran labels
  refine ⟨books.exact, ?_, books.next_name, books.asserted _, ?_⟩
  · intro c d e e' found found'
    exact books.named.distinct found found'
  · intro c e found
    obtain ⟨once, leaving, destroying⟩ := books.balanced c e found
    simp only [tally] at once leaving destroying
    rw [List.count_eq_zero.mpr (living.untorn c)] at destroying
    have erased_first : Precedes (· = .erased c) (.destroyed c) s.journal := by
      intro before after split
      obtain ⟨m, member, rfl | rfl⟩ := books.destructions c before after split
      · exact ⟨_, member, rfl⟩
      · refine absurd ?_ (living.untorn c)
        rw [split]
        exact List.mem_append_left _ member
    exact ⟨once, books.events c, by omega, precedes_trans (books.erasures c) erased_first,
      erased_first⟩

def removalRun : List Label :=
  let exec (i : Nat) : Label := .exec i (.written 0) .data
  [.poll 0 [], .accept { home := false }, .accept { home := false },
    .poll 1 [], .endHandling 1, .nextFunctor 1, exec 1, exec 1, .ret 1, .endFunctors 1,
    .poll 1 [(0, { pollin := true })], .dispatch 1, exec 1, exec 1,
    .exec 1 (.written 0) .endOfFile, exec 1, .ret 1, exec 1, exec 1, exec 1, .endHandling 1,
    .endHandling 0, .nextFunctor 0, exec 0, .endFunctors 1,
    .poll 1 [], .endHandling 1, .nextFunctor 1, exec 1, exec 1]

def twoLoops : Setup := ⟨"s".toList, .ipv4 0 0 0 0 80, 2⟩

theorem connection_table_of_removalRun :
    ∃ s, machine.run (init twoLoops) removalRun = some s ∧
      s.journal = [.established 0, .event 0, .closeCallback 0, .erased 0, .destroyed 0] ∧
      s.server.connections_.keys = ["s-0.0.0.0:80#2".toList] ∧
      s.fault ≠ some (.server "n == 1") ∧
      s.server.connections_.lookup "s-0.0.0.0:80#1".toList ≠ some 0 := by
  have outcome : (machine.run (init twoLoops) removalRun).map (fun s =>
      (s.journal, s.server.connections_.keys)) =
        some ([.established 0, .event 0, .closeCallback 0, .erased 0, .destroyed 0],
          ["s-0.0.0.0:80#2".toList]) := by decide +kernel
  obtain ⟨s, reached, facts⟩ := Option.map_eq_some_iff.mp outcome
  simp only [Prod.mk.injEq] at facts
  obtain ⟨journal, keys⟩ := facts
  obtain ⟨table, -, -, asserted, -⟩ :=
    connection_table_is_exact twoLoops reached (by simp [removalRun])
  refine ⟨s, reached, journal, keys, asserted, ?_⟩
  intro found
  refine absurd ?_ ((table _ 0).mp found).2
  rw [journal]
  simp

end TcpServer
end Muduo
