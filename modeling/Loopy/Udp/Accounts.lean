import Mathlib.Data.List.Nodup
import Loopy.Udp.Basic

/-!
# The accounts of the UDP sends

What the log says about a list of calls that wait: their datagrams come after those that were sent,
and they are the ones that are still to be answered. A call is refused, waits, or is answered; each
of these keeps the accounts, whatever the queue looks like.
-/

namespace Loopy.Udp

open Loopy.Lib
open Function (update update_of_ne update_self)

variable {log : SendLog} {req : ℕ → LoopyUDPSendReq} {w : List ℕ} {n : ℕ} {call latest : Call}

/-- The requests of `w` are those of the calls with their numbers. -/
def Made (log : SendLog) (req : ℕ → LoopyUDPSendReq) (w : List ℕ) : Prop :=
  ∀ n ∈ w, log.calls[n]? = some (req n).call

/-- The datagrams were sent in the order of the calls, and those of `w` come after them. -/
structure InOrder (log : SendLog) (w : List ℕ) : Prop where
  order : (log.sent.map Prod.fst ++ w).Pairwise (· < ·)
  sent : ∀ x ∈ log.sent, ∃ call, log.calls[x.1]? = some call ∧ call.accepted = some x.2

/-- The calls without an answer are those of `w`. -/
structure Answered (log : SendLog) (w : List ℕ) : Prop where
  once : (log.done.map Completion.call).Nodup
  own : ∀ c ∈ log.done, ∃ call, log.calls[c.call]? = some call ∧
    call.accepted.isSome ∧ call.cb = some c.cb ∧ call.userData = c.userData
  answered : ∀ n call, log.calls[n]? = some call → call.accepted.isSome → call.cb.isSome →
    (n ∈ log.done.map Completion.call ↔ n ∉ w)

/-- The calls of `w` wait. -/
structure Accounts (log : SendLog) (req : ℕ → LoopyUDPSendReq) (w : List ℕ) : Prop where
  made : Made log req w
  inOrder : InOrder log w
  answers : Answered log w

/-! ## One more call -/

theorem call_lt (hcall : log.calls[n]? = some call) : n < log.calls.length :=
  (List.getElem?_eq_some_iff.mp hcall).1

theorem call_append (hcall : log.calls[n]? = some call) (latest : Call) :
    (log.calls ++ [latest])[n]? = some call := by
  rw [List.getElem?_append_left (call_lt hcall), hcall]

theorem call_append_iff :
    (log.calls ++ [latest])[n]? = some call ↔
      log.calls[n]? = some call ∨ n = log.calls.length ∧ call = latest := by
  obtain hlt | rfl | hgt := Nat.lt_trichotomy n log.calls.length
  · rw [List.getElem?_append_left hlt]
    simp [Nat.ne_of_lt hlt]
  · simp [eq_comm]
  · have hlen : (log.calls ++ [latest]).length ≤ n := by
      rw [List.length_append, List.length_singleton]
      exact hgt
    rw [List.getElem?_eq_none hlen, List.getElem?_eq_none (Nat.le_of_lt hgt)]
    simp [Nat.ne_of_gt hgt]

theorem Made.lt (h : Made log req w) (hn : n ∈ w) : n < log.calls.length := call_lt (h n hn)

theorem Made.fresh (h : Made log req w) : log.calls.length ∉ w :=
  fun hmem => Nat.lt_irrefl _ (h.lt hmem)

/-- Only calls are answered. -/
theorem Answered.lt (h : Answered log w) (hn : n ∈ log.done.map Completion.call) :
    n < log.calls.length := by
  obtain ⟨c, hc, rfl⟩ := List.mem_map.mp hn
  obtain ⟨call, hcall, -⟩ := h.own c hc
  exact call_lt hcall

/-! ## The order -/

theorem InOrder.calls (h : InOrder log w) (latest : Call) :
    InOrder { log with calls := log.calls ++ [latest] } w := by
  refine ⟨h.order, fun x hx => ?_⟩
  obtain ⟨call, hcall, haccepted⟩ := h.sent x hx
  exact ⟨call, call_append hcall latest, haccepted⟩

/-- The new call is the last one. -/
theorem InOrder.snoc (h : InOrder log w) (hw : ∀ n ∈ w, n < log.calls.length) :
    InOrder log (w ++ [log.calls.length]) := by
  refine ⟨?_, h.sent⟩
  rw [← List.append_assoc]
  refine List.pairwise_append.mpr ⟨h.order, List.pairwise_singleton _ _, fun n hn m hm => ?_⟩
  rw [List.mem_singleton.mp hm]
  obtain hsent | hwait := List.mem_append.mp hn
  · obtain ⟨x, hx, rfl⟩ := List.mem_map.mp hsent
    obtain ⟨call, hcall, -⟩ := h.sent x hx
    exact call_lt hcall
  · exact hw n hwait

theorem InOrder.skip (h : InOrder log (n :: w)) : InOrder log w :=
  ⟨h.order.sublist ((List.sublist_cons_self n w).append_left _), h.sent⟩

theorem InOrder.transmit {datagram : Datagram} (h : InOrder log (n :: w))
    (hcall : log.calls[n]? = some call) (haccepted : call.accepted = some datagram) :
    InOrder (log.transmit n datagram) w := by
  constructor
  · show ((log.sent ++ [(n, datagram)]).map Prod.fst ++ w).Pairwise (· < ·)
    rw [List.map_append, List.append_assoc]
    exact h.order
  · intro x hx
    obtain hold | hnew := List.mem_append.mp hx
    · exact h.sent x hold
    · rw [List.mem_singleton.mp hnew]
      exact ⟨call, hcall, haccepted⟩

/-! ## The answers -/

/-- A new call is among those that wait, if it is to be answered. -/
theorem Answered.calls (h : Answered log w)
    (hnew : latest.accepted.isSome → latest.cb.isSome → log.calls.length ∈ w) :
    Answered { log with calls := log.calls ++ [latest] } w := by
  refine ⟨h.once, fun c hc => ?_, fun n call hcall haccepted hcb => ?_⟩
  · obtain ⟨call, hcall, hrest⟩ := h.own c hc
    exact ⟨call, call_append hcall latest, hrest⟩
  · obtain hold | ⟨rfl, rfl⟩ := call_append_iff.mp hcall
    · exact h.answered n call hold haccepted hcb
    · exact iff_of_false (fun hdone => Nat.lt_irrefl _ (h.lt hdone))
        fun hw => hw (hnew haccepted hcb)

/-- Only numbers of calls matter in `w`. -/
theorem Answered.snoc (h : Answered log w) : Answered log (w ++ [log.calls.length]) := by
  refine ⟨h.once, h.own, fun n call hcall haccepted hcb => ?_⟩
  rw [h.answered n call hcall haccepted hcb]
  simp [Nat.ne_of_lt (call_lt hcall)]

@[simp] theorem SendLog.invoke_calls (log : SendLog) (n : ℕ) (req : LoopyUDPSendReq) (status : ℤ) :
    (log.invoke n req status).calls = log.calls := by
  unfold invoke
  split <;> rfl

@[simp] theorem SendLog.invoke_sent (log : SendLog) (n : ℕ) (req : LoopyUDPSendReq) (status : ℤ) :
    (log.invoke n req status).sent = log.sent := by
  unfold invoke
  split <;> rfl

theorem InOrder.invoke (h : InOrder log w) (n : ℕ) (req : LoopyUDPSendReq) (status : ℤ) :
    InOrder (log.invoke n req status) w := by
  constructor
  · rw [SendLog.invoke_sent]
    exact h.order
  · rw [SendLog.invoke_sent, SendLog.invoke_calls]
    exact h.sent

/-- The first call is answered. -/
theorem Answered.invoke {r : LoopyUDPSendReq} (h : Answered log (n :: w)) (hn : n ∉ w)
    (hcall : log.calls[n]? = some r.call) (status : ℤ) :
    Answered (log.invoke n r status) w := by
  unfold SendLog.invoke
  cases hcb : r.cb with
  | none =>
    refine ⟨h.once, h.own, fun k call hk haccepted hsome => ?_⟩
    rw [h.answered k call hk haccepted hsome]
    have hne : k ≠ n := by
      rintro rfl
      obtain rfl : r.call = call := Option.some.inj (hcall.symm.trans hk)
      rw [LoopyUDPSendReq.call, hcb] at hsome
      cases hsome
    simp [hne]
  | some cb =>
    have hcbcall : r.call.cb.isSome := by
      rw [LoopyUDPSendReq.call, hcb]
      rfl
    have hnew : n ∉ log.done.map Completion.call := fun hdone =>
      (h.answered n r.call hcall rfl hcbcall).mp hdone List.mem_cons_self
    refine ⟨?_, ?_, ?_⟩
    · show ((log.done ++ [_]).map Completion.call).Nodup
      rw [List.map_append, List.map_singleton, ← List.concat_eq_append]
      exact List.Nodup.concat hnew h.once
    · intro c hc
      obtain hold | hlast := List.mem_append.mp hc
      · exact h.own c hold
      · rw [List.mem_singleton.mp hlast]
        exact ⟨r.call, hcall, rfl, hcb, rfl⟩
    · intro k call hk haccepted hsome
      show k ∈ (log.done ++ [_]).map Completion.call ↔ k ∉ w
      rw [List.map_append, List.map_singleton, List.mem_append, List.mem_singleton,
        h.answered k call hk haccepted hsome, List.mem_cons]
      constructor
      · rintro (hne | rfl)
        · exact fun hmem => hne (Or.inr hmem)
        · exact hn
      · intro hmem
        by_cases hkn : k = n
        · exact Or.inr hkn
        · exact Or.inl fun hor => hor.elim hkn hmem

/-! ## What happens to a call -/

namespace Accounts

theorem new : Accounts loopyUDPNew.log loopyUDPNew.req [] :=
  ⟨nofun, ⟨List.Pairwise.nil, nofun⟩, ⟨List.nodup_nil, nofun, nofun⟩⟩

theorem head_notMem (h : Accounts log req (n :: w)) : n ∉ w := by
  have hw := (List.pairwise_append.mp h.inOrder.order).2.1
  exact fun hmem => Nat.lt_irrefl n ((List.pairwise_cons.mp hw).1 n hmem)

/-- A call returns false. -/
theorem reject (h : Accounts log req w) (cb : Option ℕ) (userData : ℕ) :
    Accounts (log.reject cb userData) req w :=
  ⟨fun n hn => call_append (h.made n hn) _, h.inOrder.calls _, h.answers.calls nofun⟩

/-- A call returns true and waits. -/
theorem accept (h : Accounts log req w) (r : LoopyUDPSendReq) :
    Accounts (log.accept r) (update req log.calls.length r)
      (w ++ [log.calls.length]) := by
  have hlast : log.calls.length ∈ w ++ [log.calls.length] :=
    List.mem_append_right _ List.mem_cons_self
  refine ⟨fun n hn => ?_, ?_, h.answers.snoc.calls fun _ _ => hlast⟩
  · obtain hold | hnew := List.mem_append.mp hn
    · rw [update_of_ne (Nat.ne_of_lt (h.made.lt hold))]
      exact call_append (h.made n hold) _
    · rw [List.mem_singleton.mp hnew, update_self]
      exact List.getElem?_concat_length
  · exact (h.inOrder.snoc fun n hn => h.made.lt hn).calls _

/-- A call without a callback need not be answered. -/
theorem acceptSilent (h : Accounts log req w) {r : LoopyUDPSendReq} (hcb : r.cb = none) :
    Accounts (log.accept r) (update req log.calls.length r) w := by
  refine ⟨fun n hn => ?_, h.inOrder.calls _, h.answers.calls fun _ hsome => ?_⟩
  · rw [update_of_ne (Nat.ne_of_lt (h.made.lt hn))]
    exact call_append (h.made n hn) _
  · rw [LoopyUDPSendReq.call, hcb] at hsome
    cases hsome

/-- The first call fails. -/
theorem fail (h : Accounts log req (n :: w)) (status : ℤ) :
    Accounts (log.invoke n (req n) status) req w := by
  have hcall := h.made n List.mem_cons_self
  refine ⟨fun k hk => ?_, h.inOrder.skip.invoke .., h.answers.invoke h.head_notMem hcall status⟩
  rw [SendLog.invoke_calls]
  exact h.made k (List.mem_cons_of_mem n hk)

/-- The datagram of the first call is sent. -/
theorem succeed (h : Accounts log req (n :: w)) (status : ℤ) :
    Accounts ((log.transmit n (req n).datagram).invoke n (req n) status) req w := by
  have hcall := h.made n List.mem_cons_self
  have hanswers : Answered (log.transmit n (req n).datagram) (n :: w) :=
    ⟨h.answers.once, h.answers.own, h.answers.answered⟩
  refine ⟨fun k hk => ?_, (h.inOrder.transmit hcall rfl).invoke ..,
    hanswers.invoke h.head_notMem hcall status⟩
  rw [SendLog.invoke_calls]
  exact h.made k (List.mem_cons_of_mem n hk)

/-- A call is answered at once. -/
theorem immediate (h : Accounts log req []) (r : LoopyUDPSendReq) :
    Accounts (((log.accept r).transmit log.calls.length r.datagram).invoke log.calls.length r 0)
      req [] := by
  have hdone := (h.accept r).succeed 0
  rw [update_self] at hdone
  exact ⟨nofun, hdone.inOrder, hdone.answers⟩

end Accounts

end Loopy.Udp
