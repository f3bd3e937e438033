import Loopy.Stream.Effects
import Loopy.Stream.Places

/-!
# `loopyStream.c`: the write queue

Requests are completed in the order in which they were made, so the pending ones are always a run
of numbers up to the newest one (`QueueInv`). A request that is made in the callback of the last
one of an error drain is lost; every other action keeps the queue (`QueueInv.step`).
-/

namespace Loopy.Stream

open Loopy.Lib
open Function (update_of_ne update_self)

/-- The requests that are not completed. -/
def LoopyStream.queued (s : LoopyStream) : List ℕ :=
  List.range' s.completed.length (s.allocated - s.completed.length)

/-- Their bytes that the kernel has yet to take. -/
def LoopyStream.unwritten (s : LoopyStream) : List UInt8 :=
  s.queued.flatMap fun n => (s.req n).unwritten

structure QueueInv (s : LoopyStream) : Prop where
  chain : Chain s.next s.pending s.queued
  inOrder : s.completed.map Prod.fst = List.range s.completed.length
  le : s.completed.length ≤ s.allocated
  tail : s.pending ≠ none → s.writeTail = some (s.allocated - 1)
  empty : s.draining = false → s.writeHead = none → s.writeTail = none
  count : s.draining = false → s.writeQueueCount = s.queued.length
  size : s.draining = false → s.writeQueueSize = s.unwritten.length

/-- The queue of a new stream is empty. -/
theorem QueueInv.new (type : LoopyStreamType) (fd : Option ℕ) (connected : Bool) :
    QueueInv (.new type fd connected) where
  chain := .nil
  inOrder := rfl
  le := le_rfl
  tail h := absurd rfl h
  empty _ _ := rfl
  count _ := rfl
  size _ := rfl

variable {s s' : LoopyStream} {n : ℕ}

/-- The same requests are queued. -/
theorem SameQueue.queued (h : SameQueue s s') : s'.queued = s.queued := by
  rw [LoopyStream.queued, h.completed, h.allocated, LoopyStream.queued]

/-- The same bytes are unwritten. -/
theorem SameQueue.unwritten (h : SameQueue s s') : s'.unwritten = s.unwritten := by
  rw [LoopyStream.unwritten, h.queued, h.req, LoopyStream.unwritten]

/-- The invariant depends on the queue alone. -/
theorem QueueInv.same (hinv : QueueInv s) (h : SameQueue s s') :
    QueueInv s' where
  chain := by
    rw [h.pending, h.queued]
    refine hinv.chain.congr fun n _ => ?_
    rw [LoopyStream.next, h.req, LoopyStream.next]
  inOrder := by
    rw [h.completed]
    exact hinv.inOrder
  le := by
    rw [h.completed, h.allocated]
    exact hinv.le
  tail hpending := by
    rw [h.writeTail, h.allocated]
    exact hinv.tail (h.pending ▸ hpending)
  empty hdraining hhead := by
    rw [h.writeTail]
    exact hinv.empty (h.draining.symm.trans hdraining) (h.writeHead.symm.trans hhead)
  count hdraining := by
    rw [h.writeQueueCount, h.queued]
    exact hinv.count (h.draining.symm.trans hdraining)
  size hdraining := by
    rw [h.writeQueueSize, h.unwritten]
    exact hinv.size (h.draining.symm.trans hdraining)

/-- A request that is pending is one of the queue. -/
theorem QueueInv.length_pos (hinv : QueueInv s) (hpending : s.pending ≠ none) :
    s.allocated - s.completed.length ≠ 0 := by
  intro h
  apply hpending
  rw [hinv.chain.eq_none_iff, LoopyStream.queued, h]
  rfl

/-- The newest request is the last one. -/
theorem QueueInv.queued_getLast? (hinv : QueueInv s) (hpending : s.pending ≠ none) :
    s.queued.getLast? = some (s.allocated - 1) := by
  have hpos := hinv.length_pos hpending
  rw [LoopyStream.queued, List.getLast?_range', if_neg hpos]
  congr 1
  omega

/-! ## A new request -/

section enqueue

variable {s : LoopyStream} {data : List UInt8} {fds : List ℕ} {cb : Bool}

theorem LoopyStream.enqueue_allocated :
    (s.enqueue data fds cb).allocated = s.allocated + 1 := by
  unfold enqueue setReq
  dsimp only
  split <;> rfl

theorem LoopyStream.enqueue_completed : (s.enqueue data fds cb).completed = s.completed := by
  unfold enqueue setReq
  dsimp only
  split <;> rfl

theorem LoopyStream.enqueue_draining : (s.enqueue data fds cb).draining = s.draining := by
  rw [draining, (s.enqueue_place data fds cb).pc, draining]

variable {n : ℕ}

theorem LoopyStream.enqueue_pending (h : s.writeTail = some n) :
    (s.enqueue data fds cb).pending = s.pending := by
  unfold enqueue setReq
  rw [h]
  rfl

/-- Of the requests before only the links change. -/
theorem LoopyStream.enqueue_req (data : List UInt8) (fds : List ℕ) (cb : Bool)
    (hn : n ≠ s.allocated) :
    (s.enqueue data fds cb).req n =
      { s.req n with next := (s.enqueue data fds cb).next n } := by
  unfold next enqueue setReq
  dsimp only
  cases s.writeTail with
  | none =>
    dsimp only
    rw [update_of_ne hn]
  | some tail =>
    dsimp only
    by_cases htail : n = tail
    · rw [htail, update_self, update_of_ne (htail ▸ hn)]
    · rw [update_of_ne htail, update_of_ne hn]

/-- Nothing of the new request is written. -/
theorem LoopyStream.enqueue_req_new (data : List UInt8) (fds : List ℕ) (cb : Bool)
    (h : s.writeTail ≠ some s.allocated) :
    (s.enqueue data fds cb).req s.allocated =
      { data, written := 0, cb, next := none, fds, fdsSent := false } := by
  unfold enqueue setReq
  dsimp only
  cases htail : s.writeTail with
  | none => exact update_self ..
  | some tail =>
    have hne : s.allocated ≠ tail := by
      rintro rfl
      exact h htail
    dsimp only
    rw [update_of_ne hne, update_self]

theorem LoopyStream.enqueue_next (hn : n ≠ s.allocated) (htail : s.writeTail ≠ some n) :
    (s.enqueue data fds cb).next n = s.next n := by
  unfold next enqueue setReq
  dsimp only
  cases hs : s.writeTail with
  | none =>
    dsimp only
    rw [update_of_ne hn]
  | some tail =>
    have hne : n ≠ tail := by
      rintro rfl
      exact htail hs
    dsimp only
    rw [update_of_ne hne, update_of_ne hn]

/-- The tail is linked to the new request. -/
theorem LoopyStream.enqueue_next_tail (htail : s.writeTail = some n) :
    (s.enqueue data fds cb).next n = some s.allocated := by
  unfold next enqueue setReq
  dsimp only
  rw [htail]
  dsimp only
  rw [update_self]

end enqueue

/-- A new request is not the tail yet. -/
theorem QueueInv.tail_ne_allocated (hinv : QueueInv s)
    (hopen : s.pending = none → s.draining = false) : s.writeTail ≠ some s.allocated := by
  by_cases hpending : s.pending = none
  · have hdraining := hopen hpending
    rw [LoopyStream.pending_of_not_draining hdraining] at hpending
    rw [hinv.empty hdraining hpending]
    nofun
  · have hpos := hinv.length_pos hpending
    rw [hinv.tail hpending]
    intro heq
    have hlast := Option.some.inj heq
    omega

/-- It is queued last. -/
theorem QueueInv.enqueue_queued (hinv : QueueInv s) (data : List UInt8) (fds : List ℕ) (cb : Bool) :
    (s.enqueue data fds cb).queued = s.queued ++ [s.allocated] := by
  have hle := hinv.le
  have hlength : s.allocated + 1 - s.completed.length = s.allocated - s.completed.length + 1 := by
    omega
  have hlast : s.completed.length + (s.allocated - s.completed.length) = s.allocated := by omega
  rw [LoopyStream.queued, LoopyStream.enqueue_allocated, LoopyStream.enqueue_completed, hlength,
    List.range'_1_concat, hlast, LoopyStream.queued]

/-- Queued requests were allocated before. -/
theorem QueueInv.lt_of_mem_queued (hinv : QueueInv s) (hn : n ∈ s.queued) : n < s.allocated := by
  have hle := hinv.le
  rw [LoopyStream.queued, List.mem_range'_1] at hn
  omega

/-- Its bytes come after all others. -/
theorem QueueInv.enqueue_unwritten (hinv : QueueInv s)
    (hopen : s.pending = none → s.draining = false) (data : List UInt8) (fds : List ℕ) (cb : Bool) :
    (s.enqueue data fds cb).unwritten = s.unwritten ++ data := by
  have hold : s.queued.flatMap (fun n => ((s.enqueue data fds cb).req n).unwritten) =
      s.unwritten := by
    refine List.flatMap_congr fun n hn => ?_
    rw [LoopyStream.enqueue_req data fds cb (Nat.ne_of_lt (hinv.lt_of_mem_queued hn))]
    rfl
  rw [LoopyStream.unwritten, hinv.enqueue_queued, List.flatMap_append, hold, List.flatMap_singleton,
    LoopyStream.enqueue_req_new data fds cb (hinv.tail_ne_allocated hopen)]
  rfl

/-- A request hangs behind the last pending one, or it is the only one. -/
theorem QueueInv.enqueue_chain (hinv : QueueInv s) (hopen : s.pending = none → s.draining = false)
    (data : List UInt8) (fds : List ℕ) (cb : Bool) :
    Chain (s.enqueue data fds cb).next (s.enqueue data fds cb).pending
      (s.queued ++ [s.allocated]) := by
  have hnew : (s.enqueue data fds cb).next s.allocated = none := by
    rw [LoopyStream.next, LoopyStream.enqueue_req_new data fds cb (hinv.tail_ne_allocated hopen)]
  by_cases hpending : s.pending = none
  · -- the only one
    have hdraining := hopen hpending
    have hhead : (s.enqueue data fds cb).pending = some s.allocated := by
      rw [LoopyStream.pending_of_not_draining (LoopyStream.enqueue_draining.trans hdraining)]
      rw [LoopyStream.pending_of_not_draining hdraining] at hpending
      have htail := hinv.empty hdraining hpending
      unfold LoopyStream.enqueue
      dsimp only [LoopyStream.setReq]
      rw [htail]
    rw [hinv.chain.eq_none_iff.mp hpending, hhead]
    exact ⟨rfl, hnew⟩
  · -- behind the newest one, which `writeTail` names also in a drain
    have htail := hinv.tail hpending
    rw [LoopyStream.enqueue_pending htail]
    refine hinv.chain.snoc (hinv.queued_getLast? hpending) (LoopyStream.enqueue_next_tail htail)
      hnew fun n hn hne => ?_
    refine LoopyStream.enqueue_next (Nat.ne_of_lt (hinv.lt_of_mem_queued hn)) ?_
    rw [htail]
    exact fun h => hne (Option.some.inj h).symm

/-- **Queueing keeps the queue.**. -/
theorem QueueInv.enqueue (hinv : QueueInv s) (hopen : s.pending = none → s.draining = false)
    (data : List UInt8) (fds : List ℕ) (cb : Bool) : QueueInv (s.enqueue data fds cb) where
  chain := by
    rw [hinv.enqueue_queued]
    exact hinv.enqueue_chain hopen data fds cb
  inOrder := by
    rw [LoopyStream.enqueue_completed]
    exact hinv.inOrder
  le := by
    rw [LoopyStream.enqueue_completed, LoopyStream.enqueue_allocated]
    exact Nat.le_succ_of_le hinv.le
  tail _ := by
    rw [LoopyStream.enqueue_allocated]
    unfold LoopyStream.enqueue
    dsimp only [LoopyStream.setReq]
    split <;> rfl
  empty hdraining hhead := by
    rw [LoopyStream.enqueue_draining] at hdraining
    unfold LoopyStream.enqueue at hhead
    dsimp only [LoopyStream.setReq] at hhead
    split at hhead
    · next tail htail =>
      rw [hinv.empty hdraining hhead] at htail
      cases htail
    · cases hhead
  count hdraining := by
    rw [LoopyStream.enqueue_draining] at hdraining
    rw [hinv.enqueue_queued, List.length_append, ← hinv.count hdraining]
    unfold LoopyStream.enqueue
    dsimp only [LoopyStream.setReq]
    split <;> rfl
  size hdraining := by
    rw [LoopyStream.enqueue_draining] at hdraining
    rw [hinv.enqueue_unwritten hopen, List.length_append, ← hinv.size hdraining]
    unfold LoopyStream.enqueue
    dsimp only [LoopyStream.setReq]
    split <;> rfl

/-! ## The kernel takes bytes -/

/-- The pending requests begin with the oldest one. -/
theorem QueueInv.queued_cons (hinv : QueueInv s) (hpending : s.pending = some n) :
    n = s.completed.length ∧ n < s.allocated ∧
      s.queued = n :: List.range' (n + 1) (s.allocated - (n + 1)) := by
  have hchain := hinv.chain
  rw [hpending] at hchain
  have hpos := hinv.length_pos (by rw [hpending]; exact Option.some_ne_none n)
  have hlength : s.allocated - s.completed.length =
      s.allocated - (s.completed.length + 1) + 1 := by omega
  have hcons : s.queued = s.completed.length ::
      List.range' (s.completed.length + 1) (s.allocated - (s.completed.length + 1)) := by
    rw [LoopyStream.queued, hlength, List.range'_succ]
  rw [hcons] at hchain
  obtain rfl : n = s.completed.length := Option.some.inj hchain.1
  exact ⟨rfl, by omega, hcons⟩

section takes

variable {s : LoopyStream} {n bytes : ℕ}

/-- In the write loop the head is the pending request. -/
theorem QueueInv.pending_head (hpc : s.pc = .writeLoop) (hhead : s.writeHead = some n) :
    s.pending = some n := by
  rw [LoopyStream.pending, hpc]
  exact hhead

theorem LoopyStream.tookBytes_req :
    (s.tookBytes n bytes).req n =
      { s.req n with
        fdsSent := (s.req n).fdsSent || (decide ((s.req n).fds ≠ []) && !(s.req n).fdsSent &&
          decide (s.type = .pipe) && decide (bytes > 0))
        written := (s.req n).written + bytes } :=
  update_self ..

theorem LoopyStream.tookBytes_req_of_ne {m : ℕ} (hm : m ≠ n) :
    (s.tookBytes n bytes).req m = s.req m :=
  update_of_ne hm ..

theorem LoopyStream.tookBytes_next : (s.tookBytes n bytes).next = s.next := by
  funext m
  by_cases hm : m = n
  · rw [next, hm, tookBytes_req, next]
  · rw [next, tookBytes_req_of_ne hm, next]

/-- The bytes that the kernel takes are the first ones. -/
theorem QueueInv.tookBytes_unwritten (hinv : QueueInv s) (bytes : ℕ)
    (hpending : s.pending = some n) :
    s.unwritten = (s.req n).unwritten.take bytes ++ (s.tookBytes n bytes).unwritten := by
  obtain ⟨-, -, hqueued⟩ := hinv.queued_cons hpending
  have hrest : ∀ m ∈ List.range' (n + 1) (s.allocated - (n + 1)), m ≠ n := by
    intro m hm
    rw [List.mem_range'_1] at hm
    omega
  have hsame : (s.tookBytes n bytes).queued = s.queued := rfl
  have hdrop : ((s.tookBytes n bytes).req n).unwritten = (s.req n).unwritten.drop bytes := by
    rw [LoopyStream.tookBytes_req, LoopyWriteReq.unwritten, LoopyWriteReq.unwritten, List.drop_drop]
  rw [LoopyStream.unwritten, LoopyStream.unwritten, hsame, hqueued, List.flatMap_cons,
    List.flatMap_cons, hdrop, ← List.append_assoc, List.take_append_drop]
  congr 1
  refine List.flatMap_congr fun m hm => ?_
  rw [LoopyStream.tookBytes_req_of_ne (hrest m hm)]

/-- **So does a write of some bytes of the head.**. -/
theorem QueueInv.tookBytes (hinv : QueueInv s) (hpc : s.pc = .writeLoop)
    (hhead : s.writeHead = some n) (hbytes : bytes ≤ (s.req n).unwritten.length) :
    QueueInv (s.tookBytes n bytes) where
  chain := by
    rw [LoopyStream.tookBytes_next]
    exact hinv.chain
  inOrder := hinv.inOrder
  le := hinv.le
  tail := hinv.tail
  empty := hinv.empty
  count := hinv.count
  size hdraining := by
    have hunwritten := hinv.tookBytes_unwritten bytes (pending_head hpc hhead)
    have hlength := congrArg List.length hunwritten
    rw [List.length_append, List.length_take_of_le hbytes] at hlength
    have hsize := hinv.size hdraining
    show s.writeQueueSize - bytes = _
    omega

/-- The head leaves the queue in front. -/
theorem QueueInv.completeHead_queued (hinv : QueueInv s) (hpending : s.pending = some n) :
    (s.completeHead n).queued = List.range' (n + 1) (s.allocated - (n + 1)) := by
  have hlength : (s.completeHead n).completed.length = n + 1 := by
    rw [(hinv.queued_cons hpending).1]
    exact List.length_append
  rw [LoopyStream.queued, hlength]
  rfl

/-- A request that leaves the queue takes no bytes with it. -/
theorem QueueInv.completeHead_unwritten (hinv : QueueInv s) (hpending : s.pending = some n)
    (hdone : (s.req n).unwritten = []) : (s.completeHead n).unwritten = s.unwritten := by
  obtain ⟨-, -, hqueued⟩ := hinv.queued_cons hpending
  rw [LoopyStream.unwritten, LoopyStream.unwritten, hinv.completeHead_queued hpending, hqueued,
    List.flatMap_cons, hdone, List.nil_append]
  rfl

theorem LoopyStream.completeHead_draining : (s.completeHead n).draining = false := by
  unfold draining completeHead
  dsimp only
  cases (s.req n).cb <;> rfl

/-- A request of which every byte is taken leaves the queue. -/
theorem QueueInv.completeHead (hinv : QueueInv s) (hpc : s.pc = .writeLoop)
    (hhead : s.writeHead = some n) (hdone : (s.req n).unwritten = []) :
    QueueInv (s.completeHead n) := by
  have hpending := pending_head hpc hhead
  obtain ⟨hn, hlt, hqueued⟩ := hinv.queued_cons hpending
  have hqueued' := hinv.completeHead_queued hpending
  have hdraining : s.draining = false := by rw [LoopyStream.draining, hpc]
  have hlength : (s.completeHead n).completed.length = n + 1 := by
    rw [hn]
    exact List.length_append
  have hnext : (s.completeHead n).pending = s.next n :=
    LoopyStream.pending_of_not_draining LoopyStream.completeHead_draining
  refine ⟨?_, ?_, ?_, ?_, ?_, ?_, ?_⟩
  · have hchain := hinv.chain
    rw [hqueued, ← hqueued'] at hchain
    rw [hnext]
    exact hchain.tail
  · rw [hlength, List.range_succ, hn, ← hinv.inOrder]
    exact List.map_append
  · rw [hlength]
    exact hlt
  · intro hne
    rw [hnext] at hne
    have htail := hinv.tail (by rw [hpending]; exact Option.some_ne_none n)
    show (if s.next n = none then none else s.writeTail) = _
    rw [if_neg hne, htail]
    rfl
  · intro _ hnone
    exact if_pos hnone
  · intro _
    show s.writeQueueCount - 1 = _
    rw [hinv.count hdraining, hqueued, hqueued', List.length_cons, Nat.add_sub_cancel]
  · intro _
    rw [hinv.completeHead_unwritten hpending hdone]
    exact hinv.size hdraining

end takes

/-! ## Draining -/

/-- A drain begins with the head of the list. -/
theorem QueueInv.begins {t : LoopyStream} (hinv : QueueInv s) (hdraining : s.draining = false)
    (h : SameQueue s t) (closing : Bool) :
    QueueInv { t with pc := .drain closing t.writeHead } := by
  have ht := hinv.same h
  have hpending : t.pending = t.writeHead :=
    LoopyStream.pending_of_not_draining (h.draining.trans hdraining)
  refine ⟨?_, ht.inOrder, ht.le, fun hne => ht.tail ?_, nofun, nofun, nofun⟩
  · have hchain := ht.chain
    rw [hpending] at hchain
    exact hchain
  · rw [hpending]
    exact hne

/-- Draining keeps the queue. -/
theorem QueueInv.drains (hinv : QueueInv s) {closing : Bool}
    (hpc : s.pc = .drain closing (some n)) : QueueInv (s.drainStep closing (some n)) := by
  have hn : s.pending = some n := by rw [LoopyStream.pending, hpc]
  obtain ⟨hk, hlt, hqueued⟩ := hinv.queued_cons hn
  have hlength : (s.drainStep closing (some n)).completed.length = n + 1 := by
    rw [hk]
    exact List.length_append
  have hqueued' : (s.drainStep closing (some n)).queued =
      List.range' (n + 1) (s.allocated - (n + 1)) := by
    rw [LoopyStream.queued, hlength]
    rfl
  have hdraining : (s.drainStep closing (some n)).draining = true := by
    unfold LoopyStream.drainStep LoopyStream.draining
    dsimp only
    cases (s.req n).cb <;> rfl
  have hpending : (s.drainStep closing (some n)).pending = s.next n := by
    unfold LoopyStream.drainStep LoopyStream.pending
    dsimp only
    cases (s.req n).cb <;> rfl
  refine ⟨?_, ?_, ?_, ?_, ?_, ?_, ?_⟩
  · have hchain := hinv.chain
    rw [hqueued, ← hqueued'] at hchain
    rw [hpending]
    exact hchain.tail
  · rw [hlength, List.range_succ, hk, ← hinv.inOrder]
    exact List.map_append
  · rw [hlength]
    exact hlt
  · intro _
    exact hinv.tail (by rw [hn]; exact Option.some_ne_none n)
  all_goals
    intro hnot
    rw [hdraining] at hnot
    cases hnot

/-- At the end of a drain no request is pending. -/
theorem QueueInv.ends (hinv : QueueInv s) {closing : Bool} (hpc : s.pc = .drain closing none) :
    QueueInv (s.drainStep closing none) := by
  have hnone : s.pending = none := by rw [LoopyStream.pending, hpc]
  have hqueued : s.queued = [] := hinv.chain.eq_none_iff.mp hnone
  have hempty (pc : Pc) (hpc : { s.emptied with pc }.draining = false) :
      QueueInv { s.emptied with pc } := by
    have hpending : { s.emptied with pc }.pending = none := LoopyStream.pending_of_not_draining hpc
    refine ⟨?_, hinv.inOrder, hinv.le, fun h => absurd hpending h, fun _ _ => rfl, fun _ => ?_,
      fun _ => ?_⟩
    · rw [hpending]
      exact (congrArg (Chain s.next none) hqueued).mpr Chain.nil
    · exact (congrArg List.length hqueued).symm
    · exact (congrArg List.length (congrArg (List.flatMap fun n => (s.req n).unwritten)
        hqueued)).symm
  rw [LoopyStream.drainStep_none]
  split
  · exact (hempty .closed rfl).same
      ⟨rfl, rfl, rfl, rfl, rfl, rfl, rfl, rfl, rfl, rfl, rfl, rfl, id⟩
  · exact (hempty .idle rfl).same (s.emptied.updateWriteWatcher_goes _)

/-! ## Runs -/

/-- No write is accepted in the callback of the last request of an error drain. -/
def NoneLost (s : LoopyStream) (a : Action) : Prop :=
  s.pc = .drained false none → s.accepts a = false

instance : ∀ s a, Decidable (NoneLost s a) := fun _ _ =>
  inferInstanceAs (Decidable (_ → _))

/-- Where a write is accepted, the end of the list is known. -/
theorem LoopyStream.open_of_accepts {a : Action} (hplace : PcInv s) (huser : s.user = true)
    (haccepts : s.accepts a = true) (hclosing : s.closing = false) (hok : NoneLost s a) :
    s.pending = none → s.draining = false := by
  have hinside := not_inside_of_user hplace huser
  intro hnone
  unfold draining
  unfold pending at hnone
  split
  · next closing req hpc =>
    -- no callback runs at the test of the loop
    rw [hpc] at hinside
    cases hinside
  · next closing next hpc =>
    rw [hpc] at hnone
    obtain rfl : next = none := hnone
    cases closing with
    | true =>
      -- `loopyStreamClose` has set `closing`
      have hset := hplace.closes (by rw [hpc]; rfl)
      rw [hclosing] at hset
      cases hset
    | false =>
      have hrefused := hok hpc
      rw [haccepts] at hrefused
      cases hrefused
  · rfl

/-- **Every step keeps the queue.**. -/
theorem QueueInv.step {a : Action} (hplace : PcInv s) (hinv : QueueInv s) (hok : NoneLost s a)
    (hstep : step s a = some s') : QueueInv s' := by
  cases step_effect hstep with
  | same h => exact hinv.same h
  | tries data huser hempty h =>
    have hrecord : QueueInv (s.tookDirectly data) :=
      ⟨hinv.chain, hinv.inOrder, hinv.le, hinv.tail, hinv.empty, hinv.count, hinv.size⟩
    exact hrecord.same h
  | enqueues data fds cb huser haccepts hclosing hdata hfds h =>
    have hopen := LoopyStream.open_of_accepts hplace huser haccepts hclosing hok
    exact (hinv.enqueue hopen data fds cb).same h
  | takes n bytes hpc hhead hbytes hrest => exact hinv.tookBytes hpc hhead hbytes
  | completes n bytes hpc hhead hbytes hrest =>
    refine (hinv.tookBytes hpc hhead hbytes).completeHead hpc hhead ?_
    rw [LoopyStream.tookBytes_req]
    exact List.drop_eq_nil_of_le hrest
  | begins closing ha hdraining h => exact hinv.begins hdraining h closing
  | drains closing n hpc => exact hinv.drains hpc
  | ends closing hpc => exact hinv.ends hpc

end Loopy.Stream
