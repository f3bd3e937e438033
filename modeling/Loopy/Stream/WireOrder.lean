import Loopy.Stream.Completion

/-!
# `loopyStream.c`: the order of the bytes

As long as no write fails and the stream is not closed, the kernel gets the accepted bytes in the
order of the calls; what it has not got is on the write queue. The fds of a request go with its
first chunk, and a request is completed when its last byte is taken.
-/

namespace Loopy.Stream

open Loopy.Lib

/-- The chunks of a request that the kernel took. -/
def LoopyStream.chunks (s : LoopyStream) (n : ℕ) : List Chunk :=
  s.wire.filter fun c => decide (c.req = some n)

/-- The fds of a request go with its first chunk and with no other one. -/
structure FdsOnce (s : LoopyStream) (n : ℕ) : Prop where
  none : (s.req n).written = 0 → s.chunks n = []
  first : 0 < (s.req n).written →
    ∃ c rest, s.chunks n = c :: rest ∧ c.fds = (s.req n).fds ∧ ∀ c' ∈ rest, c'.fds = []

/-- A stream that hands its bytes to the kernel in order. -/
structure WireLaw (s : LoopyStream) : Prop where
  bytes : s.accepted =
    s.wire.flatMap Chunk.bytes ++ s.writeQueue.flatMap fun n => (s.req n).unwritten
  size : s.writeQueueSize = (s.writeQueue.flatMap fun n => (s.req n).unwritten).length
  count : s.writeQueueCount = s.writeQueue.length
  tail : s.writeTail = s.writeQueue.getLast?
  fds : ∀ n < s.allocated, FdsOnce s n
  completed : s.completed = (List.range s.completed.length).map fun n => (n, true)
  done : ∀ n < s.allocated,
    n < s.completed.length ↔ (s.req n).written = (s.req n).data.length

/-- What the requests and the chunks say about each other. -/
structure RequestInv (s : LoopyStream) (n : ℕ) : Prop where
  le : (s.req n).written ≤ (s.req n).data.length
  pipe : (s.req n).fds ≠ [] → s.type = .pipe
  fdsSent : (s.req n).fdsSent = decide ((s.req n).fds ≠ [] ∧ 0 < (s.req n).written)
  once : FdsOnce s n

structure WireInv (s : LoopyStream) : Prop where
  bytes : s.accepted = s.wire.flatMap Chunk.bytes ++ s.unwritten
  made : ∀ c ∈ s.wire, ∀ n, c.req = some n → n < s.allocated
  requests : ∀ n < s.allocated, RequestInv s n

/-- A request is completed, with status 0, when every byte is taken. -/
structure DoneInv (s : LoopyStream) : Prop where
  status : ∀ c ∈ s.completed, c.2 = true
  done : ∀ n < s.allocated, n < s.completed.length ↔ (s.req n).unwritten = []

/-! ## What keeps the order -/

theorem WireInv.new (type : LoopyStreamType) (fd : Option ℕ) (connected : Bool) :
    WireInv (.new type fd connected) := ⟨rfl, nofun, nofun⟩

variable {s s' : LoopyStream} {data : List UInt8} {fds : List ℕ} {cb : Bool}

theorem WireInv.same (hinv : WireInv s) (h : SameQueue s s') :
    WireInv s' where
  bytes := by
    rw [h.accepted, h.wire, h.unwritten]
    exact hinv.bytes
  made := by
    rw [h.wire, h.allocated]
    exact hinv.made
  requests n hn := by
    rw [h.allocated] at hn
    obtain ⟨hle, hpipe, hsent, honce⟩ := hinv.requests n hn
    refine ⟨?_, ?_, ?_, ?_, ?_⟩
    · rwa [h.req]
    · rwa [h.req, h.type]
    · rwa [h.req]
    · rw [h.req, LoopyStream.chunks, h.wire]
      exact honce.none
    · rw [h.req, LoopyStream.chunks, h.wire]
      exact honce.first

theorem DoneInv.same (hinv : DoneInv s) (h : SameQueue s s') :
    DoneInv s' where
  status := by
    rw [h.completed]
    exact hinv.status
  done := by
    rw [h.completed, h.allocated, h.req]
    exact hinv.done

/-- A direct write finds the queue empty. -/
theorem WireInv.tookDirectly (hinv : WireInv s) (hqueue : QueueInv s)
    (hdraining : s.draining = false) (hempty : s.writeHead = none) (data : List UInt8) :
    WireInv (s.tookDirectly data) := by
  have hqueued : s.queued = [] := by
    apply hqueue.chain.eq_none_iff.mp
    rw [LoopyStream.pending_of_not_draining hdraining, hempty]
  have hunwritten : s.unwritten = [] := by
    rw [LoopyStream.unwritten, hqueued]
    rfl
  have hchunks (n : ℕ) : (s.tookDirectly data).chunks n = s.chunks n := by
    unfold LoopyStream.chunks LoopyStream.tookDirectly
    dsimp only
    rw [List.filter_append]
    exact List.append_nil _
  refine ⟨?_, ?_, fun n hn => ?_⟩
  · show s.accepted ++ data = (s.wire ++ [_]).flatMap Chunk.bytes ++ s.unwritten
    rw [hinv.bytes, hunwritten, List.append_nil, List.append_nil, List.flatMap_append]
    congr 1
    exact (List.append_nil _).symm
  · intro c hc n hreq
    obtain hc | hc := List.mem_append.mp hc
    · exact hinv.made c hc n hreq
    · rw [List.mem_singleton.mp hc] at hreq
      cases hreq
  · obtain ⟨hle, hpipe, hsent, honce⟩ := hinv.requests n hn
    refine ⟨hle, hpipe, hsent, ?_, ?_⟩
    · rw [hchunks]
      exact honce.none
    · rw [hchunks]
      exact honce.first

theorem LoopyStream.enqueue_wire : (s.enqueue data fds cb).wire = s.wire := by
  unfold enqueue setReq
  dsimp only
  split <;> rfl

theorem LoopyStream.enqueue_type : (s.enqueue data fds cb).type = s.type := by
  unfold enqueue setReq
  dsimp only
  split <;> rfl

theorem LoopyStream.enqueue_accepted : (s.enqueue data fds cb).accepted = s.accepted ++ data := by
  unfold enqueue setReq
  dsimp only
  split <;> rfl

theorem WireInv.enqueue (hinv : WireInv s) (hqueue : QueueInv s)
    (hopen : s.pending = none → s.draining = false) (data : List UInt8) (fds : List ℕ)
    (hfds : fds ≠ [] → s.type = .pipe) (cb : Bool) : WireInv (s.enqueue data fds cb) := by
  have hchunks (n : ℕ) : (s.enqueue data fds cb).chunks n = s.chunks n := by
    rw [LoopyStream.chunks, LoopyStream.enqueue_wire, LoopyStream.chunks]
  refine ⟨?_, ?_, fun n hn => ?_⟩
  · rw [LoopyStream.enqueue_accepted, LoopyStream.enqueue_wire, hqueue.enqueue_unwritten hopen,
      hinv.bytes, List.append_assoc]
  · intro c hc n hreq
    rw [LoopyStream.enqueue_wire] at hc
    rw [LoopyStream.enqueue_allocated]
    exact Nat.lt_succ_of_lt (hinv.made c hc n hreq)
  · rw [LoopyStream.enqueue_allocated] at hn
    by_cases hnew : n = s.allocated
    · -- no chunk is from the new request
      have hreq := LoopyStream.enqueue_req_new data fds cb
        (hqueue.tail_ne_allocated hopen)
      have hnone : s.chunks s.allocated = [] := by
        rw [LoopyStream.chunks, List.filter_eq_nil_iff]
        intro c hc hreq
        exact Nat.lt_irrefl _ (hinv.made c hc _ (of_decide_eq_true hreq))
      subst hnew
      refine ⟨?_, ?_, ?_, ?_, ?_⟩
      · rw [hreq]
        exact Nat.zero_le _
      · rw [hreq, LoopyStream.enqueue_type]
        exact hfds
      -- nothing was taken of it, so its fds were not sent
      · rw [hreq]
        exact (decide_eq_false fun h => Nat.lt_irrefl 0 h.2).symm
      · rw [hchunks, hnone]
        exact fun _ => rfl
      · rw [hreq]
        exact fun h => absurd h (Nat.lt_irrefl 0)
    · have hreq := LoopyStream.enqueue_req data fds cb hnew
      obtain ⟨hle, hpipe, hsent, honce⟩ := hinv.requests n (by omega)
      refine ⟨?_, ?_, ?_, ?_, ?_⟩
      · rw [hreq]
        exact hle
      · rw [hreq, LoopyStream.enqueue_type]
        exact hpipe
      · rw [hreq]
        exact hsent
      · rw [hreq, hchunks]
        exact honce.none
      · rw [hreq, hchunks]
        exact honce.first

theorem DoneInv.enqueue (hinv : DoneInv s) (hqueue : QueueInv s)
    (hopen : s.pending = none → s.draining = false) (hdata : data ≠ []) (fds : List ℕ) (cb : Bool) :
    DoneInv (s.enqueue data fds cb) := by
  refine ⟨?_, fun n hn => ?_⟩
  · rw [LoopyStream.enqueue_completed]
    exact hinv.status
  · rw [LoopyStream.enqueue_allocated] at hn
    rw [LoopyStream.enqueue_completed]
    by_cases hnew : n = s.allocated
    · have hreq := LoopyStream.enqueue_req_new data fds cb
        (hqueue.tail_ne_allocated hopen)
      have hle := hqueue.le
      rw [hnew, hreq]
      exact iff_of_false (by omega) hdata
    · rw [LoopyStream.enqueue_req data fds cb hnew]
      exact hinv.done n (by omega)

/-! ## The kernel takes bytes -/

section takes

variable {s : LoopyStream} {n bytes : ℕ}

/-- The fds go along as long as nothing of the request was taken. -/
theorem RequestInv.sendmsg (h : RequestInv s n) :
    (decide ((s.req n).fds ≠ []) && !(s.req n).fdsSent && decide (s.type = .pipe)) =
      decide ((s.req n).fds ≠ [] ∧ (s.req n).written = 0) := by
  rw [h.fdsSent]
  by_cases hfds : (s.req n).fds = []
  · simp [hfds]
  · simp [hfds, h.pipe hfds, Nat.pos_iff_ne_zero]

theorem LoopyStream.tookBytes_wire : (s.tookBytes n bytes).wire =
    if bytes > 0 then
      s.wire ++ [{
        req := some n
        bytes := (s.req n).unwritten.take bytes
        fds :=
          if (decide ((s.req n).fds ≠ []) && !(s.req n).fdsSent && decide (s.type = .pipe)) = true
          then (s.req n).fds else [] }]
    else s.wire := rfl

variable {m : ℕ}

theorem LoopyStream.tookBytes_chunks_of_ne (hm : m ≠ n) :
    (s.tookBytes n bytes).chunks m = s.chunks m := by
  unfold chunks
  rw [tookBytes_wire]
  split
  · rw [List.filter_append]
    refine (congrArg _ ?_).trans (List.append_nil _)
    refine List.filter_eq_nil_iff.mpr fun c hc => ?_
    rw [List.mem_singleton.mp hc, decide_eq_true_iff]
    exact fun h => hm (Option.some.inj h).symm
  · rfl

/-- The next chunk of the request. -/
theorem RequestInv.tookBytes_chunks (h : RequestInv s n) (hpos : 0 < bytes) :
    (s.tookBytes n bytes).chunks n = s.chunks n ++ [{
      req := some n
      bytes := (s.req n).unwritten.take bytes
      fds := if (s.req n).written = 0 then (s.req n).fds else [] }] := by
  have hfds : (if decide ((s.req n).fds ≠ [] ∧ (s.req n).written = 0) = true then (s.req n).fds
      else []) = if (s.req n).written = 0 then (s.req n).fds else [] := by
    by_cases hfds : (s.req n).fds = []
    · simp [hfds]
    · simp [hfds]
  unfold LoopyStream.chunks
  rw [LoopyStream.tookBytes_wire, if_pos hpos, List.filter_append, h.sendmsg, hfds]
  congr 1
  exact List.filter_cons_of_pos (decide_eq_true rfl)

theorem FdsOnce.tookBytes (h : RequestInv s n) (hpos : 0 < bytes) :
    FdsOnce (s.tookBytes n bytes) n := by
  rw [Nat.pos_iff_ne_zero] at hpos
  refine ⟨fun hzero => ?_, fun _ => ?_⟩
  · rw [LoopyStream.tookBytes_req] at hzero
    have hwritten : (s.req n).written + bytes = 0 := hzero
    omega
  · rw [h.tookBytes_chunks (Nat.pos_of_ne_zero hpos), LoopyStream.tookBytes_req]
    by_cases hzero : (s.req n).written = 0
    · -- the first chunk
      rw [h.once.none hzero, if_pos hzero]
      exact ⟨_, [], rfl, rfl, nofun⟩
    · obtain ⟨c, rest, hchunks, hfds, hrest⟩ := h.once.first (Nat.pos_of_ne_zero hzero)
      rw [hchunks, if_neg hzero]
      -- the first chunk has the fds already
      refine ⟨c, rest ++ [_], rfl, hfds, fun c' hc' => ?_⟩
      obtain hc' | hc' := List.mem_append.mp hc'
      · exact hrest c' hc'
      · rw [List.mem_singleton.mp hc']

/-- A kernel that takes nothing leaves the chunks alone. -/
theorem FdsOnce.tookNothing (h : FdsOnce s n) : FdsOnce (s.tookBytes n 0) n := by
  have hchunks : (s.tookBytes n 0).chunks n = s.chunks n := rfl
  have hwritten : ((s.tookBytes n 0).req n).written = (s.req n).written := by
    rw [LoopyStream.tookBytes_req]
    rfl
  refine ⟨?_, ?_⟩
  · rw [hwritten, hchunks]
    exact h.none
  · rw [hwritten, hchunks, LoopyStream.tookBytes_req]
    exact h.first

theorem RequestInv.tookBytes (h : RequestInv s n) (hbytes : bytes ≤ (s.req n).unwritten.length) :
    RequestInv (s.tookBytes n bytes) n := by
  have hle := h.le
  rw [LoopyWriteReq.length_unwritten] at hbytes
  refine ⟨?_, ?_, ?_, ?_⟩
  · rw [LoopyStream.tookBytes_req]
    show (s.req n).written + bytes ≤ (s.req n).data.length
    omega
  · rw [LoopyStream.tookBytes_req]
    exact h.pipe
  · rw [LoopyStream.tookBytes_req, h.sendmsg, h.fdsSent, Bool.eq_iff_iff]
    by_cases hfds : (s.req n).fds = []
    · simp [hfds]
    · simp only [Bool.or_eq_true, Bool.and_eq_true, decide_eq_true_iff, ne_eq, hfds,
        not_false_eq_true, true_and]
      omega
  · by_cases hzero : bytes = 0
    · rw [hzero]
      exact h.once.tookNothing
    · exact .tookBytes h (Nat.pos_of_ne_zero hzero)

/-- The other requests are as before. -/
theorem RequestInv.tookBytes_of_ne (h : RequestInv s m) (hm : m ≠ n) :
    RequestInv (s.tookBytes n bytes) m := by
  refine ⟨?_, ?_, ?_, ?_, ?_⟩
  · rw [LoopyStream.tookBytes_req_of_ne hm]
    exact h.le
  · rw [LoopyStream.tookBytes_req_of_ne hm]
    exact h.pipe
  · rw [LoopyStream.tookBytes_req_of_ne hm]
    exact h.fdsSent
  · rw [LoopyStream.tookBytes_req_of_ne hm, LoopyStream.tookBytes_chunks_of_ne hm]
    exact h.once.none
  · rw [LoopyStream.tookBytes_req_of_ne hm, LoopyStream.tookBytes_chunks_of_ne hm]
    exact h.once.first

/-- The bytes of the chunk. -/
theorem LoopyStream.tookBytes_bytes : (s.tookBytes n bytes).wire.flatMap Chunk.bytes =
    s.wire.flatMap Chunk.bytes ++ (s.req n).unwritten.take bytes := by
  rw [tookBytes_wire]
  split
  · rw [List.flatMap_append, List.flatMap_singleton]
  · next hpos =>
    rw [Nat.eq_zero_of_not_pos hpos, List.take_zero, List.append_nil]

theorem WireInv.tookBytes (hinv : WireInv s) (hqueue : QueueInv s) (hpending : s.pending = some n)
    (hbytes : bytes ≤ (s.req n).unwritten.length) : WireInv (s.tookBytes n bytes) := by
  refine ⟨?_, fun c hc m hreq => ?_, fun m hm => ?_⟩
  · show s.accepted = _
    rw [LoopyStream.tookBytes_bytes, List.append_assoc,
      ← hqueue.tookBytes_unwritten bytes hpending]
    exact hinv.bytes
  · rw [LoopyStream.tookBytes_wire] at hc
    split at hc
    · obtain hc | hc := List.mem_append.mp hc
      · exact hinv.made c hc m hreq
      · rw [List.mem_singleton.mp hc] at hreq
        cases hreq
        exact (hqueue.queued_cons hpending).2.1
    · exact hinv.made c hc m hreq
  · by_cases hmn : m = n
    · rw [hmn]
      exact (hinv.requests n (hmn ▸ hm)).tookBytes hbytes
    · exact (hinv.requests m hm).tookBytes_of_ne hmn

theorem WireInv.completeHead (hinv : WireInv s) (hqueue : QueueInv s)
    (hpending : s.pending = some n) (hdone : (s.req n).unwritten = []) :
    WireInv (s.completeHead n) := by
  refine ⟨?_, hinv.made, fun m hm => ?_⟩
  · rw [hqueue.completeHead_unwritten hpending hdone]
    exact hinv.bytes
  · obtain ⟨hle, hpipe, hsent, honce⟩ := hinv.requests m hm
    exact ⟨hle, hpipe, hsent, ⟨honce.none, honce.first⟩⟩

theorem LoopyStream.tookBytes_unwritten_of_ne (hm : m ≠ n) :
    ((s.tookBytes n bytes).req m).unwritten = (s.req m).unwritten := by
  rw [tookBytes_req_of_ne hm]

/-- Bytes of the head are left, so nothing is done. -/
theorem DoneInv.tookBytes (hinv : DoneInv s) (hqueue : QueueInv s) (hpending : s.pending = some n)
    (hrest : (s.req n).written + bytes < (s.req n).data.length) : DoneInv (s.tookBytes n bytes) := by
  refine ⟨hinv.status, fun m hm => ?_⟩
  by_cases hmn : m = n
  · -- the head is neither completed nor taken as a whole
    have hk := (hqueue.queued_cons hpending).1
    rw [hmn, LoopyStream.tookBytes_req]
    refine iff_of_false (Nat.not_lt.mpr (Nat.le_of_eq hk.symm)) ?_
    intro hnil
    have hlength : (s.req n).data.length ≤ (s.req n).written + bytes := List.drop_eq_nil_iff.mp hnil
    omega
  · rw [LoopyStream.tookBytes_unwritten_of_ne hmn]
    exact hinv.done m hm

/-- The last byte is taken, and the request is completed. -/
theorem DoneInv.completes (hinv : DoneInv s) (hqueue : QueueInv s) (hpending : s.pending = some n)
    (hrest : (s.req n).data.length ≤ (s.req n).written + bytes) :
    DoneInv ((s.tookBytes n bytes).completeHead n) := by
  have hk := (hqueue.queued_cons hpending).1
  have hlength : ((s.tookBytes n bytes).completeHead n).completed.length =
      s.completed.length + 1 := List.length_append
  refine ⟨fun c hc => ?_, fun m hm => ?_⟩
  · obtain hc | hc := List.mem_append.mp hc
    · exact hinv.status c hc
    · rw [List.mem_singleton.mp hc]
  · rw [hlength]
    show _ ↔ ((s.tookBytes n bytes).req m).unwritten = []
    by_cases hmn : m = n
    · rw [hmn, LoopyStream.tookBytes_req]
      exact iff_of_true (by omega) (List.drop_eq_nil_iff.mpr hrest)
    · rw [LoopyStream.tookBytes_unwritten_of_ne hmn, ← hinv.done m hm]
      omega

end takes

/-! ## Runs -/

/-- No write fails, and the stream is not closed. -/
def NoError (_ : LoopyStream) (a : Action) : Prop := a.drains = false

instance : ∀ s a, Decidable (NoError s a) := fun _ a =>
  inferInstanceAs (Decidable (a.drains = false))

/-- All that holds while no write has failed. -/
structure OrderInv (s : LoopyStream) : Prop where
  draining : s.draining = false
  place : PcInv s
  queue : QueueInv s
  wire : WireInv s
  done : DoneInv s

theorem OrderInv.new (type : LoopyStreamType) (fd : Option ℕ) (connected : Bool) :
    OrderInv (.new type fd connected) :=
  ⟨rfl, .new .., .new .., .new .., nofun, nofun⟩

theorem Created.order (h : Created s) : OrderInv s := by
  cases h <;> exact .new ..

theorem OrderInv.step {a : Action} (hinv : OrderInv s) (hok : NoError s a)
    (hstep : step s a = some s') : OrderInv s' := by
  -- there is no drain: it begins with an error or a close
  have hlost : NoneLost s a := by
    intro hpc
    have hdraining := hinv.draining
    rw [LoopyStream.draining, hpc] at hdraining
    cases hdraining
  have hplace := hinv.place.step hstep
  have hqueue := hinv.queue.step hinv.place hlost hstep
  have hdrain {closing : Bool} {req : Option ℕ} : s.pc ≠ .drain closing req := by
    intro hpc
    have hdraining := hinv.draining
    rw [LoopyStream.draining, hpc] at hdraining
    cases hdraining
  cases step_effect hstep with
  | same h => exact ⟨h.draining.trans hinv.draining, hplace, hqueue, hinv.wire.same h, hinv.done.same h⟩
  | tries data huser hempty h =>
    have hwire := hinv.wire.tookDirectly hinv.queue hinv.draining hempty data
    have hdone : DoneInv (s.tookDirectly data) := ⟨hinv.done.status, hinv.done.done⟩
    exact ⟨h.draining.trans hinv.draining, hplace, hqueue, hwire.same h, hdone.same h⟩
  | enqueues data fds cb huser haccepts hclosing hdata hfds h =>
    have hopen : s.pending = none → s.draining = false := fun _ => hinv.draining
    have hwire := hinv.wire.enqueue hinv.queue hopen data fds hfds cb
    have hdone := hinv.done.enqueue hinv.queue hopen hdata fds cb
    have hdraining := h.draining.trans (LoopyStream.enqueue_draining.trans hinv.draining)
    exact ⟨hdraining, hplace, hqueue, hwire.same h, hdone.same h⟩
  | takes n bytes hpc hhead hbytes hrest =>
    have hpending := QueueInv.pending_head hpc hhead
    exact ⟨hinv.draining, hplace, hqueue, hinv.wire.tookBytes hinv.queue hpending hbytes,
      hinv.done.tookBytes hinv.queue hpending hrest⟩
  | completes n bytes hpc hhead hbytes hrest =>
    have hpending := QueueInv.pending_head hpc hhead
    have hnil : ((s.tookBytes n bytes).req n).unwritten = [] := by
      rw [LoopyStream.tookBytes_req]
      exact List.drop_eq_nil_of_le hrest
    have htook := hinv.wire.tookBytes hinv.queue hpending hbytes
    have hqueue' := hinv.queue.tookBytes hpc hhead hbytes
    exact ⟨LoopyStream.completeHead_draining, hplace, hqueue,
      htook.completeHead hqueue' hpending hnil, hinv.done.completes hinv.queue hpending hrest⟩
  | begins closing ha hdraining h =>
    rw [NoError, ha] at hok
    cases hok
  | drains closing n hpc => exact absurd hpc hdrain
  | ends closing hpc => exact absurd hpc hdrain

theorem OrderInv.law (hinv : OrderInv s) : WireLaw s where
  bytes := by
    rw [hinv.queue.writeQueue_eq hinv.draining]
    exact hinv.wire.bytes
  size := by
    rw [hinv.queue.writeQueue_eq hinv.draining]
    exact hinv.queue.size hinv.draining
  count := by
    rw [hinv.queue.writeQueue_eq hinv.draining]
    exact hinv.queue.count hinv.draining
  tail := by
    rw [hinv.queue.writeQueue_eq hinv.draining]
    have hhead := LoopyStream.pending_of_not_draining hinv.draining
    by_cases hpending : s.pending = none
    · rw [hinv.queue.chain.eq_none_iff.mp hpending]
      rw [hhead] at hpending
      exact hinv.queue.empty hinv.draining hpending
    · rw [hinv.queue.queued_getLast? hpending]
      exact hinv.queue.tail hpending
  fds n hn := (hinv.wire.requests n hn).once
  completed := by
    have hpairs : s.completed.map ((fun n => (n, true)) ∘ Prod.fst) = s.completed.map id :=
      List.map_congr_left fun c hc => Prod.ext rfl (hinv.done.status c hc).symm
    rw [← hinv.queue.inOrder, List.map_map, hpairs, List.map_id]
  done n hn := by
    have hle := (hinv.wire.requests n hn).le
    rw [hinv.done.done n hn, LoopyWriteReq.unwritten, List.drop_eq_nil_iff]
    omega

/-- **Bytes, fds and callbacks are in order**, on every run without a write error and a close:
whatever the kernel takes of each chunk and whatever the callbacks do. -/
theorem wire_in_order {start s : LoopyStream} {as : List Action} (hstart : Created start)
    (hrun : Run step NoError start as s) : WireLaw s := by
  have hinv : OrderInv s := by
    refine hrun.invariant (fun s a s' h hok hstep => ?_) hstart.order
    exact h.step hok hstep
  exact hinv.law

/-- A direct write, a request with two fds that is taken in two parts with `EAGAIN` between them,
and a write and a direct write in its callback. -/
def wireRun : List Action :=
  [.tryWrite [1, 2] (.took 1), .writeWithFd [2, 3, 4] [7, 8] true true, .write [5] true true,
    .writable, .kernel (.took 2), .kernel .again, .tryWrite [9] (.took 1), .writable,
    .kernel (.took 1), .write [6, 7] false true, .ret, .kernel (.took 1), .ret, .kernel (.took 1)]

theorem wire_in_order_wireRun :
    ∃ s, Run step NoError (.fromFd 4 .pipe) wireRun s ∧ WireLaw s ∧
      s.accepted = [1, 2, 3, 4, 5, 6, 7] ∧
      s.called = [(0, true), (1, true)] ∧ (s.chunks 0).map Chunk.fds = [[7, 8], []] := by
  have hexec : (exec step NoError (.fromFd 4 .pipe) wireRun).map
      (fun s => (s.accepted, s.called, (s.chunks 0).map Chunk.fds)) =
      some ([1, 2, 3, 4, 5, 6, 7], [(0, true), (1, true)], [[7, 8], []]) := by
    decide +kernel
  obtain ⟨s, hrun, hval⟩ := Run.of_exec_map hexec
  obtain ⟨haccepted, hval⟩ := Prod.mk.inj hval
  obtain ⟨hcalled, hfds⟩ := Prod.mk.inj hval
  exact ⟨s, hrun, wire_in_order (.fromFd 4 .pipe) hrun, haccepted, hcalled, hfds⟩

end Loopy.Stream
