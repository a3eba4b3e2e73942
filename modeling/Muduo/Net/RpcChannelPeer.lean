import Mathlib.Data.List.Nodup
import Muduo.Net.RpcChannelRuns

/-!
One channel whose peer sends whatever it likes: any type, any id and any of the optional
fields. The messages of the peer are numbered in the order of their receipt. The channel may
call methods itself in between, and its services complete at any time. What it sends is
what arrives on the other side. The connection is conn_, and a registered service is not
null.
-/
namespace Muduo
open Lib
namespace Rpc
variable {services_ : Option Services}

/-- The channel is side true of the system; what it has sent is with the other side. -/
structure Exposed where
  system : System := {}
  heard : List RpcMessage := []

namespace Exposed

def server (s : Exposed) : Server := (s.system.side true).server

def sent (s : Exposed) : List Packet := (s.system.side (!true)).inbox

end Exposed

inductive Act where
  | number (c : Call)
  | register (k : Nat)
  | send (k : Nat)
  | done (i : Nat) (response : List UInt8)
  | hears (message : RpcMessage)

variable (services : Bool → Option Services)

def own (s : Exposed) (l : Label) : Option Exposed :=
  ((machine services).step s.system l).map fun system => { s with system }

def hear (s : Exposed) (message : RpcMessage) : Option Exposed :=
  if s.system.fault.isSome then none
  else match onRpcMessage services s.system true ⟨s.heard.length, message⟩ with
    | .error e => some ⟨{ s.system with fault := some e }, s.heard ++ [message]⟩
    | .ok system => some ⟨system, s.heard ++ [message]⟩

def act (s : Exposed) : Act → Option Exposed
  | .number c => own services s (.number true c)
  | .register k => own services s (.register true k)
  | .send k => own services s (.send true k)
  | .done i response => own services s (.done true i response)
  | .hears message => hear services s message

def exposed : Machine Exposed Act := ⟨act services⟩

def answersTo (sent : List Packet) (n : Nat) : List RpcMessage :=
  (sent.filter fun p => p.call = n ∧ p.message.type = .RESPONSE).map Packet.message

def refusal (message : RpcMessage) (error : ErrorCode) : RpcMessage :=
  { type := .RESPONSE, id := message.id, error := some error }

def completion (message : RpcMessage) (response : List UInt8) : RpcMessage :=
  { type := .RESPONSE, id := message.id, response := some response }

inductive Applies (services_ : Option Services) (m : RpcMessage) : ErrorCode → Prop where
  | noServices (without : services_ = none) : Applies services_ m .NO_SERVICE
  | noService {services : Services} (given : services_ = some services)
      (missing : services.service (m.service.getD "") = false) : Applies services_ m .NO_SERVICE
  | noMethod {services : Services} (given : services_ = some services)
      (service : services.service (m.service.getD "") = true)
      (missing : services.method (m.service.getD "") (m.method.getD "") = false) :
      Applies services_ m .NO_METHOD
  | invalidRequest {services : Services} (given : services_ = some services)
      (service : services.service (m.service.getD "") = true)
      (method : services.method (m.service.getD "") (m.method.getD "") = true)
      (broken : services.parses (m.service.getD "") (m.method.getD "") (m.request.getD []) = false) :
      Applies services_ m .INVALID_REQUEST
  | noError {services : Services} (given : services_ = some services)
      (service : services.service (m.service.getD "") = true)
      (method : services.method (m.service.getD "") (m.method.getD "") = true)
      (parsed : services.parses (m.service.getD "") (m.method.getD "") (m.request.getD []) = true) :
      Applies services_ m .NO_ERROR

inductive Fate (services_ : Option Services) (v : Server) (sent : List Packet) (n : Nat)
    (m : RpcMessage) : Prop where
  | other (type : m.type ≠ .REQUEST) (silent : answersTo sent n = [])
  | refused {error : ErrorCode} (type : m.type = .REQUEST) (refuses : error ≠ .NO_ERROR)
      (applies : Applies services_ m error) (answered : answersTo sent n = [refusal m error])
  | running (type : m.type = .REQUEST) (found : Applies services_ m .NO_ERROR)
      (executing : ⟨n, m⟩ ∈ v.executions) (silent : answersTo sent n = [])
  | finished {response : List UInt8} (type : m.type = .REQUEST)
      (found : Applies services_ m .NO_ERROR) (completed : (⟨n, m⟩, response) ∈ v.finished)
      (gone : n ∉ v.executions.map Execution.call)
      (answered : answersTo sent n = [completion m response])

structure Kept (services_ : Option Services) (v : Server) (sent : List Packet)
    (heard : List RpcMessage) : Prop where
  once : (v.executions.map Execution.call).Nodup
  genuine : ∀ e ∈ v.executions, heard[e.call]? = some e.request
  started : ∀ e ∈ v.executions, e.request.type = .REQUEST ∧ Applies services_ e.request .NO_ERROR
  fate : ∀ n m, heard[n]? = some m → Fate services_ v sent n m
  later : ∀ n, heard.length ≤ n → answersTo sent n = []

section
variable {services_ : Option Services} {v : Server} {sent : List Packet} {heard : List RpcMessage}
  {m message : RpcMessage} {n : Nat}

theorem Applies.lookup_eq {error : ErrorCode} (applies : Applies services_ m error) :
    lookup services_ m = error := by
  unfold lookup
  cases applies with
  | noServices without => simp [without]
  | noService given missing => simp [given, missing]
  | noMethod given service missing => simp [given, service, missing]
  | invalidRequest given service method broken => simp [given, service, method, broken]
  | noError given service method parsed => simp [given, service, method, parsed]

theorem applies_lookup (services_ : Option Services) (m : RpcMessage) :
    Applies services_ m (lookup services_ m) := by
  unfold lookup
  cases given : services_ with
  | none => exact .noServices rfl
  | some services =>
    by_cases service : services.service (m.service.getD "")
    · by_cases method : services.method (m.service.getD "") (m.method.getD "")
      · by_cases parsed : services.parses (m.service.getD "") (m.method.getD "") (m.request.getD [])
        · simpa [service, method, parsed] using Applies.noError rfl service method parsed
        · have broken := eq_false_of_ne_true parsed
          simpa [service, method, broken] using Applies.invalidRequest rfl service method broken
      · have missing := eq_false_of_ne_true method
        simpa [service, missing] using Applies.noMethod rfl service missing
    · have missing := eq_false_of_ne_true service
      simpa [missing] using Applies.noService rfl missing

theorem kept_start : Kept services_ {} [] [] where
  once := List.nodup_nil
  genuine := by simp
  started := by simp
  fate := by simp
  later := fun _ _ => rfl

theorem answersTo_append (sent more : List Packet) (n : Nat) :
    answersTo (sent ++ more) n = answersTo sent n ++ answersTo more n := by
  simp only [answersTo, List.filter_append, List.map_append]

theorem answersTo_reply_here (type : message.type = .RESPONSE) :
    answersTo (sent ++ [⟨n, message⟩]) n = answersTo sent n ++ [message] := by
  rw [answersTo_append]
  simp [answersTo, type]

theorem answersTo_reply_elsewhere {call : Nat} (other : call ≠ n) :
    answersTo (sent ++ [⟨call, message⟩]) n = answersTo sent n := by
  rw [answersTo_append]
  simp [answersTo, other]

theorem answersTo_request {call : Nat} (type : message.type = .REQUEST) :
    answersTo [⟨call, message⟩] n = [] := by
  simp [answersTo, type]

theorem Fate.frame {v' : Server} {sent' : List Packet} (fate : Fate services_ v sent n m)
    (answers : answersTo sent' n = answersTo sent n)
    (executing : ⟨n, m⟩ ∈ v.executions → ⟨n, m⟩ ∈ v'.executions)
    (gone : n ∉ v.executions.map Execution.call → n ∉ v'.executions.map Execution.call)
    (completed : ∀ x ∈ v.finished, x ∈ v'.finished) : Fate services_ v' sent' n m := by
  cases fate with
  | other type silent => exact .other type (answers.trans silent)
  | refused type refuses applies answered =>
    exact .refused type refuses applies (answers.trans answered)
  | running type found there silent =>
    exact .running type found (executing there) (answers.trans silent)
  | finished type found completed' gone' answered =>
    exact .finished type found (completed _ completed') (gone gone') (answers.trans answered)

theorem Kept.send (kept : Kept services_ v sent heard) {p : Packet}
    (type : p.message.type = .REQUEST) : Kept services_ v (sent ++ [p]) heard := by
  have same : ∀ n, answersTo (sent ++ [p]) n = answersTo sent n := by
    intro n
    obtain ⟨call, message⟩ := p
    rw [answersTo_append, answersTo_request type, List.append_nil]
  refine ⟨kept.once, kept.genuine, kept.started, ?_, ?_⟩
  · intro n m there
    exact (kept.fate n m there).frame (same n) id id (fun _ mem => mem)
  · intro n late
    rw [same, kept.later n late]

theorem getElem?_snoc {n : Nat} (there : (heard ++ [message])[n]? = some m) :
    heard[n]? = some m ∧ n ≠ heard.length ∨ n = heard.length ∧ m = message := by
  rcases append_eq_some.mp there with old | ⟨rfl, rfl⟩
  · have bound := (List.getElem?_eq_some_iff.mp old).1
    exact Or.inl ⟨old, Nat.ne_of_lt bound⟩
  · exact Or.inr ⟨rfl, rfl⟩

theorem Kept.heard_lt (kept : Kept services_ v sent heard) {e : Execution}
    (mem : e ∈ v.executions) : e.call < heard.length :=
  (List.getElem?_eq_some_iff.mp (kept.genuine e mem)).1

theorem Kept.fresh (kept : Kept services_ v sent heard) :
    heard.length ∉ v.executions.map Execution.call := by
  intro mem
  obtain ⟨e, there, same⟩ := List.mem_map.mp mem
  have bound := kept.heard_lt there
  omega

theorem Kept.genuine_snoc (kept : Kept services_ v sent heard) (message : RpcMessage) :
    ∀ e ∈ v.executions, (heard ++ [message])[e.call]? = some e.request := by
  intro e mem
  exact append_eq_some.mpr (Or.inl (kept.genuine e mem))

theorem Kept.other (kept : Kept services_ v sent heard) (type : message.type ≠ .REQUEST) :
    Kept services_ v sent (heard ++ [message]) := by
  refine ⟨kept.once, kept.genuine_snoc message, kept.started, ?_, ?_⟩
  · intro n m there
    rcases getElem?_snoc there with ⟨old, -⟩ | ⟨rfl, rfl⟩
    · exact kept.fate n m old
    · exact .other type (kept.later _ (Nat.le_refl _))
  · intro n late
    rw [List.length_append, List.length_singleton] at late
    exact kept.later n (by omega)

theorem Kept.request (kept : Kept services_ v sent heard) (type : message.type = .REQUEST) :
    Kept services_ (v.onRequest services_ heard.length message).1
      (sent ++ (v.onRequest services_ heard.length message).2) (heard ++ [message]) := by
  by_cases found : lookup services_ message = .NO_ERROR
  · simp only [Server.onRequest, found, if_true, List.append_nil]
    have applies : Applies services_ message .NO_ERROR := found ▸ applies_lookup services_ message
    refine ⟨?_, ?_, ?_, ?_, ?_⟩
    · rw [List.map_append, List.map_singleton, ← List.concat_eq_append]
      exact List.Nodup.concat kept.fresh kept.once
    · intro e mem
      rcases List.mem_append.mp mem with old | new
      · exact kept.genuine_snoc message e old
      · obtain rfl := List.mem_singleton.mp new
        exact append_eq_some.mpr (Or.inr ⟨rfl, rfl⟩)
    · intro e mem
      rcases List.mem_append.mp mem with old | new
      · exact kept.started e old
      · obtain rfl := List.mem_singleton.mp new
        exact ⟨type, applies⟩
    · intro n m there
      rcases getElem?_snoc there with ⟨old, differs⟩ | ⟨rfl, rfl⟩
      · refine (kept.fate n m old).frame rfl (List.mem_append_left _) ?_ (fun _ mem => mem)
        intro gone
        simp [gone, differs]
      · exact .running type applies (List.mem_append_right _ (List.mem_singleton.mpr rfl))
          (kept.later _ (Nat.le_refl _))
    · intro n late
      rw [List.length_append, List.length_singleton] at late
      exact kept.later n (by omega)
  · simp only [Server.onRequest, if_neg found, Server.reply]
    refine ⟨kept.once, kept.genuine_snoc message, kept.started, ?_, ?_⟩
    · intro n m there
      rcases getElem?_snoc there with ⟨old, differs⟩ | ⟨rfl, rfl⟩
      · exact (kept.fate n m old).frame (answersTo_reply_elsewhere (Ne.symm differs)) id id
          (fun _ mem => mem)
      · refine .refused type found (applies_lookup services_ _)
          ((answersTo_reply_here rfl).trans ?_)
        rw [kept.later _ (Nat.le_refl _), List.nil_append, refusal]
    · intro n late
      rw [List.length_append, List.length_singleton] at late
      exact (answersTo_reply_elsewhere (by omega)).trans (kept.later n (by omega))

theorem Kept.done (kept : Kept services_ v sent heard) {i : Nat} {e : Execution}
    (running : v.executions[i]? = some e) (response : List UInt8) :
    Kept services_ (v.doneCallback i e response).1 (sent ++ [(v.doneCallback i e response).2])
      heard := by
  obtain ⟨bound, here⟩ := List.getElem?_eq_some_iff.mp running
  have member : e ∈ v.executions := List.mem_of_getElem? running
  have erased : (e.call :: (v.executions.eraseIdx i).map Execution.call).Perm
      (v.executions.map Execution.call) :=
    here ▸ (List.getElem_cons_eraseIdx_perm bound).map Execution.call
  obtain ⟨left, once⟩ := List.nodup_cons.mp (erased.nodup_iff.mpr kept.once)
  simp only [Server.doneCallback, Server.reply]
  refine ⟨once, ?_, ?_, ?_, ?_⟩
  · intro x mem
    exact kept.genuine x (List.mem_of_mem_eraseIdx mem)
  · intro x mem
    exact kept.started x (List.mem_of_mem_eraseIdx mem)
  · intro n m there
    by_cases same : e.call = n
    · subst same
      obtain rfl : e.request = m := Option.some.inj ((kept.genuine e member).symm.trans there)
      obtain ⟨request, found⟩ := kept.started e member
      cases kept.fate e.call e.request there with
      | other type silent => exact absurd request type
      | refused type refuses applies answered =>
        exact absurd (applies.lookup_eq.symm.trans found.lookup_eq) refuses
      | finished type found completed gone answered =>
        exact absurd (List.mem_map_of_mem member) gone
      | running type found executing silent =>
        refine .finished type found (List.mem_append_right _ (List.mem_singleton.mpr rfl)) left ?_
        exact (answersTo_reply_here rfl).trans (by rw [silent, List.nil_append, completion])
    · refine (kept.fate n m there).frame (answersTo_reply_elsewhere same) ?_ ?_
        (fun x mem => List.mem_append_left _ mem)
      · intro executing
        have moved : ⟨n, m⟩ ∈ e :: v.executions.eraseIdx i :=
          (here ▸ List.getElem_cons_eraseIdx_perm bound).mem_iff.mpr executing
        rcases List.mem_cons.mp moved with rfl | rest
        · exact absurd rfl same
        · exact rest
      · intro gone mem
        exact gone (erased.subset (List.mem_cons_of_mem _ mem))
  · intro n late
    have bound := kept.heard_lt member
    exact (answersTo_reply_elsewhere (by omega)).trans (kept.later n late)

end

/-! ### Steps and runs -/

def RpcMessage.Answers (m : RpcMessage) : Prop :=
  m.type = .RESPONSE → m.response.isSome ∨ m.error.isSome

def Act.WellFormed : Act → Prop
  | .hears m => m.Answers
  | _ => True

instance (m : RpcMessage) : Decidable m.Answers :=
  inferInstanceAs (Decidable (m.type = .RESPONSE → m.response.isSome ∨ m.error.isSome))

instance : (a : Act) → Decidable a.WellFormed
  | .hears m => inferInstanceAs (Decidable m.Answers)
  | .number _ | .register _ | .send _ | .done _ _ => inferInstanceAs (Decidable True)

inductive Took (services_ : Option Services) (s : Exposed) : Act → Exposed → Prop where
  | number {c : Call} {caller : Caller} :
      Took services_ s (.number c) { s with system := s.system.setCaller true caller }
  | register {k : Nat} {caller : Caller} :
      Took services_ s (.register k) { s with system := s.system.setCaller true caller }
  | send {k : Nat} {caller : Caller} {p : Packet} (type : p.message.type = .REQUEST) :
      Took services_ s (.send k)
        { s with system := (s.system.setCaller true caller).deliver true [p] }
  | done {i : Nat} {e : Execution} {response : List UInt8}
      (running : s.server.executions[i]? = some e) :
      Took services_ s (.done i response)
        ⟨(s.system.setServer true (s.server.doneCallback i e response).1).deliver true
          [(s.server.doneCallback i e response).2], s.heard⟩
  | request {m : RpcMessage} (type : m.type = .REQUEST) :
      Took services_ s (.hears m)
        ⟨(s.system.setServer true (s.server.onRequest services_ s.heard.length m).1).deliver true
          (s.server.onRequest services_ s.heard.length m).2, s.heard ++ [m]⟩
  | response {m : RpcMessage} {caller : Caller} (type : m.type = .RESPONSE) (answers : m.Answers) :
      Took services_ s (.hears m) ⟨s.system.setCaller true caller, s.heard ++ [m]⟩
  | trips {m : RpcMessage} {e : String} (type : m.type = .RESPONSE) (broken : ¬m.Answers) :
      Took services_ s (.hears m) ⟨{ s.system with fault := some e }, s.heard ++ [m]⟩
  | error {m : RpcMessage} (type : m.type = .ERROR) :
      Took services_ s (.hears m) ⟨s.system, s.heard ++ [m]⟩

section
variable {services} {s t : Exposed} {a : Act}

theorem performed_of_own {l : Label} (elsewhere : ∀ b, l ≠ .receive b)
    (taken : own services s l = some t) : s.system.fault = none ∧
      ∃ system, perform services s.system l = some (.ok system) ∧ t = { s with system } := by
  obtain ⟨system, stepped, rfl⟩ := Option.map_eq_some_iff.mp taken
  obtain ⟨running, performed | ⟨e, failed, -⟩⟩ := faults.step_cases stepped
  · exact ⟨running, system, performed, rfl⟩
  · -- only the handling of a message can fail
    cases l with
    | receive b => exact absurd rfl (elsewhere b)
    | number b c => cases failed
    | register b k => grind [perform]
    | send b k => grind [perform]
    | done b i response => grind [perform]

theorem onResponse_eq_ok {c : Caller} {m : RpcMessage} (type : m.type = .RESPONSE) :
    (∃ c', c.onResponse m = .ok c') ↔ m.Answers := by
  unfold Caller.onResponse RpcMessage.Answers
  by_cases answers : m.response.isSome ∨ m.error.isSome
  · rw [assertThat_of_true answers, ok_bind]
    refine ⟨fun _ _ => answers, fun _ => ?_⟩
    split
    · exact ⟨_, rfl⟩
    · exact ⟨_, rfl⟩
  · rw [assertThat_of_false answers, error_bind]
    refine ⟨fun ⟨c', impossible⟩ => ?_, fun claimed => absurd (claimed type) answers⟩
    cases impossible

theorem took_of_hear {m : RpcMessage} (taken : hear services s m = some t) :
    s.system.fault = none ∧ Took (services true) s (.hears m) t := by
  unfold hear at taken
  split at taken
  · cases taken
  · next unfailed =>
    refine ⟨by simpa using unfailed, ?_⟩
    cases type : m.type with
    | REQUEST =>
      simp only [onRpcMessage, type, pure_eq_ok, Option.some.injEq] at taken
      obtain rfl := taken
      exact .request type
    | ERROR =>
      simp only [onRpcMessage, type, pure_eq_ok, Option.some.injEq] at taken
      obtain rfl := taken
      exact .error type
    | RESPONSE =>
      simp only [onRpcMessage, type] at taken
      cases handled : (s.system.side true).caller.onResponse m with
      | ok caller =>
        rw [handled, ok_bind, pure_eq_ok] at taken
        obtain rfl := Option.some.inj taken
        exact .response type ((onResponse_eq_ok type).mp ⟨_, handled⟩)
      | error e =>
        rw [handled, error_bind] at taken
        obtain rfl := Option.some.inj taken
        refine .trips type fun answers => ?_
        obtain ⟨c', ok⟩ := (onResponse_eq_ok type).mpr answers
        cases handled.symm.trans ok

theorem took_of_act (taken : act services s a = some t) :
    s.system.fault = none ∧ Took (services true) s a t := by
  cases a with
  | hears m => exact took_of_hear taken
  | number c =>
    obtain ⟨unfailed, system, performed, rfl⟩ := performed_of_own (by simp) taken
    obtain rfl := Except.ok.inj (Option.some.inj performed)
    exact ⟨unfailed, .number⟩
  | register k =>
    obtain ⟨unfailed, system, performed, rfl⟩ := performed_of_own (by simp) taken
    refine ⟨unfailed, ?_⟩
    simp only [perform] at performed
    split at performed
    · split at performed
      · obtain rfl := Except.ok.inj (Option.some.inj performed)
        exact .register
      · cases performed
    · cases performed
  | send k =>
    obtain ⟨unfailed, system, performed, rfl⟩ := performed_of_own (by simp) taken
    refine ⟨unfailed, ?_⟩
    simp only [perform] at performed
    split at performed
    · split at performed
      · obtain rfl := Except.ok.inj (Option.some.inj performed)
        exact .send rfl
      · cases performed
    · cases performed
  | done i response =>
    obtain ⟨unfailed, system, performed, rfl⟩ := performed_of_own (by simp) taken
    refine ⟨unfailed, ?_⟩
    simp only [perform] at performed
    split at performed
    · next e running =>
      obtain rfl := Except.ok.inj (Option.some.inj performed)
      exact .done running
    · cases performed

end

def Exposed.Kept (services_ : Option Services) (s : Exposed) : Prop :=
  Rpc.Kept services_ s.server s.sent s.heard

variable {s : Exposed}

theorem Took.kept {t : Exposed} {a : Act} (took : Took services_ s a t) (kept : s.Kept services_) :
    t.Kept services_ := by
  cases took with
  | number | register => exact kept
  | send type => exact kept.send type
  | done running => exact kept.done running _
  | request type => exact kept.request type
  | response type | trips type | error type => exact kept.other (by simp [type])

theorem Took.unfailed_iff {t : Exposed} {a : Act} (took : Took services_ s a t)
    (unfailed : s.system.fault = none) :
    t.system.fault = none ↔ a.WellFormed := by
  cases took with
  | number | register | send | done => exact iff_of_true unfailed trivial
  | request type | error type =>
    exact iff_of_true unfailed fun response => by simp [type] at response
  | response type answers => exact iff_of_true unfailed answers
  | trips type broken => exact iff_of_false (by simp) broken

/-- Every RESPONSE that was sent answers a REQUEST, and every REQUEST is answered once: at
    once when an error applies to it, and otherwise when its service completes. -/
structure Exposed.Answered (services_ : Option Services) (s : Exposed) : Prop where
  fate : ∀ n m, s.heard[n]? = some m → Fate services_ s.server s.sent n m
  asked : ∀ p ∈ s.sent, p.message.type = .RESPONSE →
    ∃ m, s.heard[p.call]? = some m ∧ m.type = .REQUEST ∧ p.message.id = m.id
  complete : s.server.executions = [] → ∀ n m, s.heard[n]? = some m → m.type = .REQUEST →
    ∃ r, answersTo s.sent n = [r] ∧ r.id = m.id

theorem mem_answersTo {sent : List Packet} {p : Packet} (mem : p ∈ sent)
    (type : p.message.type = .RESPONSE) : p.message ∈ answersTo sent p.call := by
  apply List.mem_map_of_mem
  simp [mem, type]

theorem Exposed.Kept.answered (kept : s.Kept services_) :
    s.Answered services_ where
  fate := Rpc.Kept.fate kept
  asked := by
    intro p mem type
    have member := mem_answersTo mem type
    cases found : s.heard[p.call]? with
    | none =>
      rw [Rpc.Kept.later kept _ (List.getElem?_eq_none_iff.mp found)] at member
      cases member
    | some m =>
      refine ⟨m, rfl, ?_⟩
      cases Rpc.Kept.fate kept _ _ found with
      | other type silent => simp [silent] at member
      | running type found executing silent => simp [silent] at member
      | refused type refuses applies answered | finished type found completed gone answered =>
        rw [answered, List.mem_singleton] at member
        exact ⟨type, by rw [member]; rfl⟩
  complete := by
    intro idle n m there type
    cases Rpc.Kept.fate kept n m there with
    | other notRequest silent => exact absurd type notRequest
    | running type found executing silent => simp [idle] at executing
    | refused type refuses applies answered => exact ⟨_, answered, rfl⟩
    | finished type found completed gone answered => exact ⟨_, answered, rfl⟩

theorem kept_of_run {acts : List Act} (ran : (exposed services).run {} acts = some s) :
    s.Kept (services true) := by
  have kept : ∀ s a t, Exposed.Kept (services true) s → (exposed services).step s a = some t →
      Exposed.Kept (services true) t :=
    fun s a t kept taken => (took_of_act taken).2.kept kept
  have start : Exposed.Kept (services true) {} := kept_start
  exact (exposed services).run_invariant kept start ran

theorem answers_each_request_once {acts : List Act} {s : Exposed}
    (ran : (exposed services).run {} acts = some s) :
    ((exposed services).Always (fun s => s.system.fault = none) {} acts ↔
      (exposed services).Within (fun _ a => a.WellFormed) {} acts) ∧
    s.Answered (services true) := by
  refine ⟨?_, (kept_of_run services ran).answered⟩
  refine (exposed services).always_iff_within _ (fun _ => True) _ ?_ ?_ trivial rfl ran
  · intro s a t _ unfailed allowed taken
    exact ⟨trivial, ((took_of_act taken).2.unfailed_iff unfailed).mpr allowed⟩
  · intro s a t _ unfailed refused taken
    exact mt ((took_of_act taken).2.unfailed_iff unfailed).mp refused

def mixedActs : List Act :=
  [.hears { type := .REQUEST, id := 7 },
   .hears { type := .REQUEST, id := 7, service := some "Echo", method := some "echo" },
   .hears { type := .ERROR, id := 7 },
   .hears { type := .RESPONSE, id := 9, error := some .TIMEOUT },
   .done 0 [1]]

theorem answers_each_request_once_of_mixed : ∃ s,
    (exposed echoServices).run {} mixedActs = some s ∧
    (exposed echoServices).Always (fun s => s.system.fault = none) {} mixedActs ∧
    s.sent.map Packet.message =
      [{ type := .RESPONSE, id := 7, error := some .NO_SERVICE },
       { type := .RESPONSE, id := 7, response := some [1] }] ∧ s.Answered (echoServices true) := by
  have sent : ((exposed echoServices).run {} mixedActs).map (fun s => s.sent.map Packet.message) =
      some [{ type := .RESPONSE, id := 7, error := some .NO_SERVICE },
        { type := .RESPONSE, id := 7, response := some [1] }] := by decide +kernel
  obtain ⟨s, ran, sent⟩ := Option.map_eq_some_iff.mp sent
  obtain ⟨safe, answered⟩ := answers_each_request_once echoServices ran
  refine ⟨s, ran, safe.mpr ?_, sent, answered⟩
  exact (exposed echoServices).within_of_check (by decide +kernel)

/-- A RESPONSE with neither of the two optional fields. -/
theorem bare_response_trips :
    ((exposed echoServices).run {} [.hears { type := .RESPONSE, id := 1 }]).map
      (fun s => s.system.fault) = some (some "message.has_response() || message.has_error()") := by
  decide +kernel

end Rpc
end Muduo
