import Mathlib.Data.List.Perm.Basic
import Muduo.Net.RpcChannel

/-!
Every call gets its own answer. What a call is waiting for is in one place: its REQUEST is
in flight, its service is executing, its RESPONSE is in flight, or the RESPONSE has been
handled. The calls in these four places are together the calls whose REQUEST was sent, and
each was sent once. As ids are not used twice, the entry of the map that a RESPONSE
finds is that of the call which it answers.
-/
namespace Muduo
open Lib
namespace Rpc
variable {c : Caller} {v : Server} {rq rs : List Packet} {p : Packet} {k : Nat} {call : Call}

def Caller.issued (c : Caller) : List RpcMessage := c.calls.map Call.requestMessage

structure Answers (v : Server) (r : Reply) : Prop where
  type : r.response.type = .RESPONSE
  id : r.response.id = r.request.id
  content : (∃ bytes, (⟨r.call, r.request⟩, bytes) ∈ v.finished ∧
      r.response.response = some bytes ∧ r.response.error = none) ∨
    (∃ e, e ≠ .NO_ERROR ∧ r.response.response = none ∧ r.response.error = some e)

structure Numbered (c : Caller) : Prop where
  counted : c.id_ = c.calls.length
  ids : ∀ (k : Nat) call, c.calls[k]? = some call → call.id = k + 1
  once : c.sent.Nodup
  sent : ∀ k, k ∈ c.sent ↔ ∃ call, c.calls[k]? = some call ∧ call.point = .sent

structure Tracked (c : Caller) (v : Server) (rq rs : List Packet) : Prop where
  flow : (rq.map Packet.call ++ v.executions.map Execution.call ++
    (rs.map Packet.call ++ c.processed)).Perm c.sent
  replied : (v.replies.map Reply.call).Perm (rs.map Packet.call ++ c.processed)
  received : (v.executions.map Execution.call ++ v.replies.map Reply.call).Perm v.received

structure Genuine (c : Caller) (v : Server) (rq rs : List Packet) : Prop where
  requests : ∀ p ∈ rq, c.issued[p.call]? = some p.message
  executions : ∀ e ∈ v.executions, c.issued[e.call]? = some e.request
  replies : ∀ r ∈ v.replies, c.issued[r.call]? = some r.request ∧ Answers v r
  responses : ∀ p ∈ rs, ∃ r ∈ v.replies, r.call = p.call ∧ r.response = p.message

/-- The map holds the calls that wait, and only the others have been answered. -/
structure Settled (c : Caller) (v : Server) : Prop where
  entry : ∀ (k : Nat) call, c.calls[k]? = some call → c.outstandings_ (k + 1) =
    if call.point ≠ .numbered ∧ k ∉ c.processed then some (call.outstanding k) else none
  vacant : ∀ i : Int, (∀ k : Nat, k < c.calls.length → i ≠ k + 1) → c.outstandings_ i = none
  waiting : ∀ k call, c.calls[k]? = some call → k ∉ c.processed →
    call.ran = 0 ∧ call.filled = none
  answered : ∀ k call, c.calls[k]? = some call → k ∈ c.processed → ∃ r ∈ v.replies,
    r.call = k ∧ call.filled = (if call.response then r.response.response else none) ∧
      call.ran = if call.response ∧ call.done then 1 else 0

structure Paired (c : Caller) (v : Server) (rq rs : List Packet) : Prop where
  numbered : Numbered c
  tracked : Tracked c v rq rs
  genuine : Genuine c v rq rs
  settled : Settled c v

theorem paired_start : Paired {} {} [] [] where
  numbered := ⟨rfl, by simp, List.nodup_nil, by simp⟩
  tracked := ⟨.refl _, .refl _, .refl _⟩
  genuine := ⟨by simp, by simp, by simp, by simp⟩
  settled := ⟨by simp, fun _ _ => rfl, by simp, by simp⟩

/-! ### Changing one call -/

section Modify
variable {α β : Type} {l : List α} {f : α → α} {i j : Nat} {a b : α}

theorem modify_eq_some : (l.modify i f)[j]? = some b ↔
    ∃ a, l[j]? = some a ∧ (if i = j then f a else a) = b := by
  rw [List.getElem?_modify]
  exact Option.map_eq_some_iff

theorem append_eq_some : (l ++ [a])[j]? = some b ↔
    l[j]? = some b ∨ (j = l.length ∧ a = b) := by
  grind

theorem perm_snoc_append (l₁ l₂ : List α) (a : α) : (l₁ ++ [a] ++ l₂).Perm (a :: (l₁ ++ l₂)) := by
  rw [List.append_assoc, List.singleton_append]
  exact List.perm_middle

theorem map_modify_of_keeps {g : α → β} (keeps : ∀ a, g (f a) = g a) :
    (l.modify i f).map g = l.map g := by
  apply List.ext_getElem?
  intro j
  rw [List.getElem?_map, List.getElem?_map, List.getElem?_modify]
  cases l[j]? with
  | none => rfl
  | some a =>
    by_cases here : i = j
    · simp [here, keeps]
    · simp [here]

end Modify

def Call.settle (message : RpcMessage) (call : Call) : Call :=
  { call with
    filled := if call.response then message.response.or call.filled else call.filled
    ran := if call.response ∧ call.done then call.ran + 1 else call.ran }

theorem finish_eq (found : c.calls[k]? = some call) (message : RpcMessage) :
    c.finish (call.outstanding k) message =
      { c with calls := c.calls.modify k (Call.settle message) } := by
  have settles (l : List Call)
      (same : ∀ j, l[j]? = (c.calls.modify k (Call.settle message))[j]?) :
      { c with calls := l } = { c with calls := c.calls.modify k (Call.settle message) } :=
    congrArg (fun l => { c with calls := l }) (List.ext_getElem? same)
  obtain ⟨service, method, request, response, done, id, point, filled, ran⟩ := call
  cases response <;> cases done <;> cases content : message.response <;>
    simp only [Caller.finish, Call.outstanding, content, Caller.fill, Caller.run,
      Bool.false_eq_true, if_true, if_false]
  all_goals
    apply settles
    intro j
    by_cases here : k = j
    · subst here
      simp [found, Call.settle, content]
    · simp [here]

/-! ### What follows for a call -/

theorem Genuine.of_issued {c' : Caller} (h : Genuine c v rq rs)
    (kept : ∀ (k : Nat) m, c.issued[k]? = some m → c'.issued[k]? = some m) : Genuine c' v rq rs where
  requests p mem := kept _ _ (h.requests p mem)
  executions e mem := kept _ _ (h.executions e mem)
  replies r mem := ⟨kept _ _ (h.replies r mem).1, (h.replies r mem).2⟩
  responses := h.responses

namespace Paired

theorem sent_of_processed (h : Paired c v rq rs) (mem : k ∈ c.processed) : k ∈ c.sent :=
  h.tracked.flow.subset (by simp [mem])

theorem unprocessed_of_point (h : Paired c v rq rs) (found : c.calls[k]? = some call)
    (point : call.point ≠ .sent) : k ∉ c.sent ∧ k ∉ c.processed := by
  have unsent : k ∉ c.sent := by
    intro mem
    obtain ⟨call', found', sent⟩ := (h.numbered.sent k).mp mem
    obtain rfl : call = call' := Option.some.inj (found.symm.trans found')
    exact point sent
  exact ⟨unsent, fun mem => unsent (h.sent_of_processed mem)⟩

theorem lt_of_processed (h : Paired c v rq rs) (mem : k ∈ c.processed) : k < c.calls.length := by
  obtain ⟨call, found, -⟩ := (h.numbered.sent k).mp (h.sent_of_processed mem)
  exact (List.getElem?_eq_some_iff.mp found).1

theorem waiting_call (h : Paired c v rq (p :: rs)) : ∃ call, c.calls[p.call]? = some call ∧
    call.id = p.message.id ∧ call.point = .sent ∧ p.call ∉ c.processed := by
  have mem : p.call ∈ c.sent := h.tracked.flow.subset (by simp)
  obtain ⟨call, found, sent⟩ := (h.numbered.sent p.call).mp mem
  obtain ⟨r, replied, same, response⟩ := h.genuine.responses p (by simp)
  obtain ⟨issued, answers⟩ := h.genuine.replies r replied
  have request : call.requestMessage = r.request := by
    rw [same, Caller.issued, List.getElem?_map, found] at issued
    exact Option.some.inj issued
  have once := h.tracked.flow.nodup_iff.mpr h.numbered.once
  refine ⟨call, found, ?_, sent, ?_⟩
  · rw [← response, answers.id, ← request]
    rfl
  · simp only [List.map_cons, List.cons_append] at once
    exact fun processed => (List.nodup_cons.mp (List.nodup_append.mp once).2.1).1 (by simp [processed])

end Paired

/-! ### The steps of CallMethod -/

theorem incrementAndGet_eq {n : Nat} (few : n + 1 < 2 ^ 63) : incrementAndGet n = n + 1 := by
  apply Int.bmod_eq_of_le_mul_two
  · omega
  · omega

theorem paired_number (h : Paired c v rq rs) (few : c.calls.length + 1 < 2 ^ 63) (new : Call) :
    Paired (c.number new) v rq rs := by
  have next : incrementAndGet c.id_ = c.calls.length + 1 := by
    rw [h.numbered.counted]
    exact incrementAndGet_eq few
  constructor
  · refine ⟨?_, ?_, h.numbered.once, ?_⟩
    · simp [Caller.number, next]
    · intro k call found
      obtain old | ⟨rfl, rfl⟩ := append_eq_some.mp found
      · exact h.numbered.ids k call old
      · exact next
    · intro k
      refine (h.numbered.sent k).trans ⟨?_, ?_⟩
      · rintro ⟨call, found, sent⟩
        exact ⟨call, append_eq_some.mpr (.inl found), sent⟩
      · rintro ⟨call, found, sent⟩
        obtain old | ⟨rfl, rfl⟩ := append_eq_some.mp found
        · exact ⟨call, old, sent⟩
        · cases sent
  · exact ⟨h.tracked.flow, h.tracked.replied, h.tracked.received⟩
  · apply h.genuine.of_issued
    intro k message found
    simp only [Caller.issued, Caller.number, List.map_append]
    exact append_eq_some.mpr (.inl found)
  · refine ⟨?_, ?_, ?_, ?_⟩
    · intro k call found
      obtain old | ⟨rfl, rfl⟩ := append_eq_some.mp found
      · exact h.settled.entry k call old
      · refine (h.settled.vacant _ ?_).trans (if_neg (by simp)).symm
        omega
    · intro i free
      apply h.settled.vacant
      intro k bound
      exact free k (by simp [Caller.number]; omega)
    · intro k call found fresh
      obtain old | ⟨rfl, rfl⟩ := append_eq_some.mp found
      · exact h.settled.waiting k call old fresh
      · exact ⟨rfl, rfl⟩
    · intro k call found processed
      obtain old | ⟨rfl, -⟩ := append_eq_some.mp found
      · exact h.settled.answered k call old processed
      · exact absurd (h.lt_of_processed processed) (Nat.lt_irrefl _)

theorem Numbered.modify {f : Call → Call} (h : Numbered c) (ids : ∀ x, (f x).id = x.id)
    (points : ∀ x, c.calls[k]? = some x → ((f x).point = .sent ↔ x.point = .sent))
    (outstandings_ : Int → Option OutstandingCall) (processed : List Nat) :
    Numbered ⟨c.id_, outstandings_, c.calls.modify k f, c.sent, processed⟩ where
  counted := by simpa using h.counted
  ids j call found := by
    obtain ⟨old, oldFound, rfl⟩ := modify_eq_some.mp found
    rw [← h.ids j old oldFound]
    split
    · exact ids old
    · rfl
  once := h.once
  sent j := by
    have point (x : Call) (found : c.calls[j]? = some x) :
        (if k = j then f x else x).point = .sent ↔ x.point = .sent := by
      split
      · next here => exact points x (here ▸ found)
      · rfl
    refine (h.sent j).trans ⟨?_, ?_⟩
    · rintro ⟨old, found, sent⟩
      exact ⟨_, modify_eq_some.mpr ⟨old, found, rfl⟩, (point old found).mpr sent⟩
    · rintro ⟨call, found, sent⟩
      obtain ⟨old, oldFound, rfl⟩ := modify_eq_some.mp found
      exact ⟨old, oldFound, (point old oldFound).mp sent⟩

theorem Settled.move {point : Point} (h : Settled c v)
    (outstandings_ : Int → Option OutstandingCall) (sent : List Nat)
    (entry : ∀ (j : Nat) x, c.calls[j]? = some x → outstandings_ (j + 1) =
      if (if k = j then point else x.point) ≠ .numbered ∧ j ∉ c.processed
      then some (x.outstanding j) else none)
    (vacant : ∀ i : Int, (∀ j : Nat, j < c.calls.length → i ≠ j + 1) → outstandings_ i = none) :
    Settled ⟨c.id_, outstandings_, c.calls.modify k fun x => { x with point }, sent,
      c.processed⟩ v where
  entry j call found := by
    obtain ⟨old, oldFound, rfl⟩ := modify_eq_some.mp found
    have entry := entry j old oldFound
    split at entry <;> split <;> simp_all [Call.outstanding]
  vacant := by simpa using vacant
  waiting j call found fresh := by
    obtain ⟨old, oldFound, rfl⟩ := modify_eq_some.mp found
    have waiting := h.waiting j old oldFound fresh
    split <;> exact waiting
  answered j call found processed := by
    obtain ⟨old, oldFound, rfl⟩ := modify_eq_some.mp found
    have answered := h.answered j old oldFound processed
    split <;> exact answered

theorem paired_register (h : Paired c v rq rs) (found : c.calls[k]? = some call)
    (point : call.point = .numbered) : Paired (c.register k call) v rq rs := by
  have bound := (List.getElem?_eq_some_iff.mp found).1
  have id := h.numbered.ids k call found
  obtain ⟨-, unprocessed⟩ := h.unprocessed_of_point found (by simp [point])
  constructor
  · refine h.numbered.modify ?_ ?_ _ _
    · exact fun _ => rfl
    · intro x same
      obtain rfl : call = x := Option.some.inj (found.symm.trans same)
      simp [point]
  · exact ⟨h.tracked.flow, h.tracked.replied, h.tracked.received⟩
  · have same : (c.register k call).issued = c.issued := map_modify_of_keeps fun _ => rfl
    exact h.genuine.of_issued fun j message issued => same ▸ issued
  · apply h.settled.move
    · intro j x same
      by_cases here : k = j
      · subst here
        obtain rfl : call = x := Option.some.inj (found.symm.trans same)
        simp [id, unprocessed]
      · rw [if_neg here]
        exact (Function.update_of_ne (by omega) _ _).trans (h.settled.entry j x same)
    · intro i free
      exact (Function.update_of_ne (id ▸ free k bound) _ _).trans (h.settled.vacant i free)

theorem numbered_send (h : Numbered c) (found : c.calls[k]? = some call) (unsent : k ∉ c.sent) :
    Numbered (c.send k) where
  counted := by simpa [Caller.send] using h.counted
  ids j call' found' := by
    obtain ⟨old, oldFound, rfl⟩ := modify_eq_some.mp found'
    have ids := h.ids j old oldFound
    split <;> exact ids
  once := List.nodup_append.mpr ⟨h.once, by simp, by
    rintro a mem b only rfl
    exact unsent (List.mem_singleton.mp only ▸ mem)⟩
  sent j := by
    simp only [Caller.send, List.mem_append, List.mem_singleton]
    constructor
    · rintro (mem | rfl)
      · obtain ⟨old, oldFound, sent⟩ := (h.sent j).mp mem
        refine ⟨_, modify_eq_some.mpr ⟨old, oldFound, rfl⟩, ?_⟩
        split
        · rfl
        · exact sent
      · exact ⟨_, modify_eq_some.mpr ⟨call, found, rfl⟩, by simp⟩
    · rintro ⟨call', found', sent⟩
      obtain ⟨old, oldFound, rfl⟩ := modify_eq_some.mp found'
      by_cases here : k = j
      · exact .inr here.symm
      · rw [if_neg here] at sent
        exact .inl ((h.sent j).mpr ⟨old, oldFound, sent⟩)

theorem paired_send (h : Paired c v rq rs) (found : c.calls[k]? = some call)
    (point : call.point = .registered) :
    Paired (c.send k) v (rq ++ [⟨k, call.requestMessage⟩]) rs := by
  obtain ⟨unsent, -⟩ := h.unprocessed_of_point found (by simp [point])
  have same : (c.send k).issued = c.issued := map_modify_of_keeps fun _ => rfl
  constructor
  · exact numbered_send h.numbered found unsent
  · refine ⟨?_, h.tracked.replied, h.tracked.received⟩
    have flow := (h.tracked.flow.cons k).trans (List.perm_append_singleton k _).symm
    rw [List.append_assoc] at flow
    rw [List.map_append, List.append_assoc]
    exact (perm_snoc_append _ _ k).trans flow
  · have genuine : Genuine (c.send k) v rq rs :=
      h.genuine.of_issued fun j message issued => same ▸ issued
    refine ⟨?_, genuine.executions, genuine.replies, genuine.responses⟩
    intro p mem
    obtain old | new := List.mem_append.mp mem
    · exact genuine.requests p old
    · obtain rfl := List.mem_singleton.mp new
      rw [same, Caller.issued, List.getElem?_map, found]
      rfl
  · apply h.settled.move
    · intro j x found'
      rw [h.settled.entry j x found']
      by_cases here : k = j
      · subst here
        obtain rfl : call = x := Option.some.inj (found.symm.trans found')
        simp [point]
      · rw [if_neg here]
    · exact h.settled.vacant

/-! ### Handling a RESPONSE -/

def Caller.answer (c : Caller) (p : Packet) : Caller :=
  { c with
    outstandings_ := Function.update c.outstandings_ p.message.id none
    calls := c.calls.modify p.call (Call.settle p.message)
    processed := c.processed ++ [p.call] }

theorem onResponse_eq (h : Paired c v rq (p :: rs)) : ∃ t, c.onResponse p.message = .ok t ∧
    { t with processed := t.processed ++ [p.call] } = c.answer p := by
  obtain ⟨call, found, sameId, sent, unprocessed⟩ := h.waiting_call
  obtain ⟨r, replied, -, response⟩ := h.genuine.responses p (by simp)
  have asserted : p.message.response.isSome ∨ p.message.error.isSome := by
    rw [← response]
    obtain ⟨bytes, -, filled, -⟩ | ⟨e, -, -, error⟩ := (h.genuine.replies r replied).2.content
    · exact .inl (by simp [filled])
    · exact .inr (by simp [error])
  have entry : c.outstandings_ p.message.id = some (call.outstanding p.call) := by
    rw [← sameId, h.numbered.ids p.call call found, h.settled.entry p.call call found]
    exact if_pos ⟨by simp [sent], unprocessed⟩
  let erased := { c with outstandings_ := Function.update c.outstandings_ p.message.id none }
  refine ⟨erased.finish (call.outstanding p.call) p.message, ?_, ?_⟩
  · simp only [Caller.onResponse, assertThat_of_true asserted, ok_bind, entry, pure_eq_ok, erased]
  · rw [finish_eq (show erased.calls[p.call]? = some call from found)]
    rfl

theorem tracked_answer (h : Tracked c v rq (p :: rs)) : Tracked (c.answer p) v rq rs := by
  have moved : (rs.map Packet.call ++ (c.processed ++ [p.call])).Perm
      ((p :: rs).map Packet.call ++ c.processed) := by
    rw [← List.append_assoc]
    exact List.perm_append_singleton _ _
  exact ⟨(moved.append_left _).trans h.flow, h.replied.trans moved.symm, h.received⟩

theorem settled_answer (h : Paired c v rq (p :: rs)) : Settled (c.answer p) v := by
  obtain ⟨call, found, sameId, -, unprocessed⟩ := h.waiting_call
  obtain ⟨r, replied, same, response⟩ := h.genuine.responses p (by simp)
  have id : p.message.id = p.call + 1 := sameId ▸ h.numbered.ids p.call call found
  refine ⟨?_, ?_, ?_, ?_⟩
  · intro j call' found'
    obtain ⟨old, oldFound, rfl⟩ := modify_eq_some.mp found'
    by_cases here : p.call = j
    · subst here
      simp [Caller.answer, id]
    · refine (Function.update_of_ne (by omega) _ _).trans ?_
      rw [h.settled.entry j old oldFound]
      simp [Caller.answer, here, Ne.symm here]
  · intro i free
    have free' : ∀ j : Nat, j < c.calls.length → i ≠ j + 1 := by simpa [Caller.answer] using free
    have bound := (List.getElem?_eq_some_iff.mp found).1
    exact (Function.update_of_ne (id ▸ free' _ bound) _ _).trans (h.settled.vacant i free')
  · intro j call' found' fresh
    simp only [Caller.answer, List.mem_append, List.mem_singleton, not_or] at fresh
    obtain ⟨old, oldFound, rfl⟩ := modify_eq_some.mp found'
    rw [if_neg (Ne.symm fresh.2)]
    exact h.settled.waiting j old oldFound fresh.1
  · intro j call' found' processed
    obtain ⟨old, oldFound, rfl⟩ := modify_eq_some.mp found'
    by_cases here : p.call = j
    · subst here
      obtain ⟨ran, filled⟩ := h.settled.waiting _ old oldFound unprocessed
      refine ⟨r, replied, same, ?_, ?_⟩
      · simp [Call.settle, filled, response]
      · simp [Call.settle, ran]
    · rw [if_neg here]
      refine h.settled.answered j old oldFound ?_
      simpa [Caller.answer, Ne.symm here] using processed

theorem paired_answer (h : Paired c v rq (p :: rs)) : Paired (c.answer p) v rq rs where
  numbered := by
    refine h.numbered.modify ?_ ?_ _ _
    · exact fun _ => rfl
    · exact fun _ _ => Iff.rfl
  tracked := tracked_answer h.tracked
  genuine := by
    have same : (c.answer p).issued = c.issued := map_modify_of_keeps fun _ => rfl
    have genuine : Genuine (c.answer p) v rq (p :: rs) :=
      h.genuine.of_issued fun j message issued => same ▸ issued
    exact ⟨genuine.requests, genuine.executions, genuine.replies,
      fun q mem => genuine.responses q (List.mem_cons_of_mem _ mem)⟩
  settled := settled_answer h

/-! ### Serving -/

theorem Answers.mono {v' : Server} {r : Reply} (h : Answers v r)
    (kept : ∀ x ∈ v.finished, x ∈ v'.finished) : Answers v' r where
  type := h.type
  id := h.id
  content := h.content.imp_left fun ⟨bytes, mem, rest⟩ => ⟨bytes, kept _ mem, rest⟩

theorem Settled.mono {v' : Server} (h : Settled c v) (kept : ∀ r ∈ v.replies, r ∈ v'.replies) :
    Settled c v' where
  entry := h.entry
  vacant := h.vacant
  waiting := h.waiting
  answered k call found processed := by
    obtain ⟨r, mem, rest⟩ := h.answered k call found processed
    exact ⟨r, kept r mem, rest⟩

theorem paired_reply {request response : RpcMessage} (numbered : Numbered c)
    (taken : (k :: (rq.map Packet.call ++ v.executions.map Execution.call ++
      (rs.map Packet.call ++ c.processed))).Perm c.sent)
    (replied : (v.replies.map Reply.call).Perm (rs.map Packet.call ++ c.processed))
    (received : (k :: (v.executions.map Execution.call ++ v.replies.map Reply.call)).Perm v.received)
    (genuine : Genuine c v rq rs) (settled : Settled c v)
    (issued : c.issued[k]? = some request) (answers : Answers v ⟨k, request, response⟩) :
    Paired c (v.reply k request response).1 rq (rs ++ [(v.reply k request response).2]) := by
  constructor
  · exact numbered
  · refine ⟨?_, ?_, ?_⟩
    · refine List.Perm.trans ?_ taken
      simp only [Server.reply, List.map_append, List.map_cons, List.map_nil, ← List.append_assoc]
      exact perm_snoc_append _ _ k
    · simp only [Server.reply, List.map_append, List.map_cons, List.map_nil]
      calc List.Perm (v.replies.map Reply.call ++ [k]) (k :: v.replies.map Reply.call) :=
            List.perm_append_singleton _ _
        List.Perm _ (k :: (rs.map Packet.call ++ c.processed)) := replied.cons k
        List.Perm _ (rs.map Packet.call ++ [k] ++ c.processed) := (perm_snoc_append _ _ k).symm
    · refine List.Perm.trans ?_ received
      simp only [Server.reply, List.map_append, List.map_cons, List.map_nil, ← List.append_assoc]
      exact List.perm_append_singleton _ _
  · refine ⟨genuine.requests, genuine.executions, ?_, ?_⟩
    · intro r mem
      obtain old | new := List.mem_append.mp mem
      · exact ⟨(genuine.replies r old).1, (genuine.replies r old).2.mono fun _ mem => mem⟩
      · obtain rfl := List.mem_singleton.mp new
        exact ⟨issued, answers.mono fun _ mem => mem⟩
    · intro p mem
      obtain old | new := List.mem_append.mp mem
      · obtain ⟨r, replied, rest⟩ := genuine.responses p old
        exact ⟨r, List.mem_append_left _ replied, rest⟩
      · obtain rfl := List.mem_singleton.mp new
        exact ⟨⟨k, request, response⟩, by simp [Server.reply], rfl, rfl⟩
  · exact settled.mono fun r mem => List.mem_append_left _ mem

theorem paired_request (h : Paired c v (p :: rq) rs) (services_ : Option Services) :
    Paired c (v.onRequest services_ p.call p.message).1 rq
      (rs ++ (v.onRequest services_ p.call p.message).2) := by
  have issued := h.genuine.requests p (by simp)
  have requests : ∀ q ∈ rq, c.issued[q.call]? = some q.message :=
    fun q mem => h.genuine.requests q (List.mem_cons_of_mem _ mem)
  have received : (p.call :: (v.executions.map Execution.call ++ v.replies.map Reply.call)).Perm
      (v.received ++ [p.call]) :=
    (h.tracked.received.cons _).trans (List.perm_append_singleton _ _).symm
  by_cases started : lookup services_ p.message = .NO_ERROR
  · simp only [Server.onRequest, started, if_true, List.append_nil]
    refine ⟨h.numbered, ⟨?_, h.tracked.replied, ?_⟩, ⟨requests, ?_, ?_, h.genuine.responses⟩, ?_⟩
    · refine List.Perm.trans ?_ h.tracked.flow
      rw [List.map_append, ← List.append_assoc (rq.map Packet.call)]
      exact perm_snoc_append _ _ p.call
    · refine List.Perm.trans ?_ received
      rw [List.map_append]
      exact perm_snoc_append _ _ p.call
    · intro e mem
      obtain old | new := List.mem_append.mp mem
      · exact h.genuine.executions e old
      · obtain rfl := List.mem_singleton.mp new
        exact issued
    · intro r mem
      exact ⟨(h.genuine.replies r mem).1, (h.genuine.replies r mem).2.mono fun _ mem => mem⟩
    · exact h.settled.mono fun _ mem => mem
  · simp only [Server.onRequest, if_neg started]
    have genuine : Genuine c { v with received := v.received ++ [p.call] } rq rs :=
      ⟨requests, h.genuine.executions, fun r mem => ⟨(h.genuine.replies r mem).1,
        (h.genuine.replies r mem).2.mono fun _ mem => mem⟩, h.genuine.responses⟩
    exact paired_reply h.numbered h.tracked.flow h.tracked.replied received genuine
      (h.settled.mono fun _ mem => mem) issued ⟨rfl, rfl, .inr ⟨_, started, rfl, rfl⟩⟩

theorem paired_done {i : Nat} {e : Execution} (h : Paired c v rq rs)
    (running : v.executions[i]? = some e) (response : List UInt8) :
    Paired c (v.doneCallback i e response).1 rq (rs ++ [(v.doneCallback i e response).2]) := by
  obtain ⟨bound, here⟩ := List.getElem?_eq_some_iff.mp running
  have erased : (e.call :: (v.executions.eraseIdx i).map Execution.call).Perm
      (v.executions.map Execution.call) :=
    here ▸ (List.getElem_cons_eraseIdx_perm bound).map Execution.call
  have issued := h.genuine.executions e (List.mem_of_getElem? running)
  have genuine : Genuine c { v with
      executions := v.executions.eraseIdx i, finished := v.finished ++ [(e, response)] } rq rs :=
    ⟨h.genuine.requests, fun x mem => h.genuine.executions x (List.mem_of_mem_eraseIdx mem),
      fun r mem => ⟨(h.genuine.replies r mem).1,
        (h.genuine.replies r mem).2.mono fun _ mem => List.mem_append_left _ mem⟩,
      h.genuine.responses⟩
  refine paired_reply h.numbered ?_ h.tracked.replied ?_ genuine (h.settled.mono fun _ mem => mem)
    issued ⟨rfl, rfl, .inl ⟨response, by simp, rfl, rfl⟩⟩
  · refine List.Perm.trans ?_ h.tracked.flow
    rw [List.append_assoc, List.append_assoc]
    exact List.perm_middle.symm.trans ((erased.append_right _).append_left _)
  · exact (erased.append_right _).trans h.tracked.received

end Rpc
end Muduo
