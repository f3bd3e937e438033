import Loopy.Udp.Accounts

/-!
# Completion of UDP sends

A request leaves the queue when its callback has been called, so the calls to be answered are always
those of a list of requests in the order of the calls (`Accounts`), and the links of the queue go
through this list (`Waits`), also where a callback runs and may append to it. The exception is the
callback of the last request that `loopyUDPFree` visits: the link of that request has been read
before.
-/

namespace Loopy.Udp

open Loopy.Lib

/-! ## The law -/

/-- Before `loopyUDPFree`. -/
def Pc.live : Pc → Bool
  | .idle | .process | .processCb _ => true
  | .free _ | .freeCb _ | .freed => false

/-- What is promised of the sends of a handle. -/
structure SendLaw (udp : LoopyUDP) : Prop where
  /-- At the end of `loopyUDPFree` the callback of every call that returned true was called. -/
  complete : udp.pc = .freed → ∀ n call, udp.log.calls[n]? = some call → call.accepted.isSome →
    call.cb.isSome → n ∈ udp.log.done.map Completion.call
  once : (udp.log.done.map Completion.call).Nodup
  /-- A callback is that of its call, with its data. -/
  own : ∀ c ∈ udp.log.done, ∃ call, udp.log.calls[c.call]? = some call ∧
    call.accepted.isSome ∧ call.cb = some c.cb ∧ call.userData = c.userData
  /-- A call that returned false is not answered. -/
  refused : ∀ n call, udp.log.calls[n]? = some call → call.accepted = none →
    n ∉ udp.log.done.map Completion.call
  order : (udp.log.sent.map Prod.fst).Pairwise (· < ·)
  /-- The kernel gets what the calls are to send. -/
  sent : ∀ x ∈ udp.log.sent, ∃ call, udp.log.calls[x.1]? = some call ∧ call.accepted = some x.2
  queue : udp.pc.live → ∃ l, udp.sendQueue.Holds l ∧ udp.sendQueueCount = l.length ∧
    (l ≠ [] → udp.writable)

/-- In the callback of the last request that `loopyUDPFree` visits, no send with a callback passes
its checks. -/
def Answerable (udp : LoopyUDP) : Action → Prop
  | .send addr port data cb userData answers =>
    udp.pc = .freeCb none → (udp.request addr port data cb userData answers).2.isSome → cb = none
  | .sendConnected data cb userData _ =>
    udp.pc = .freeCb none → (udp.requestConnected data cb userData).isSome → cb = none
  | _ => True

instance (udp : LoopyUDP) : ∀ a, Decidable (Answerable udp a)
  | .send .. =>
    inferInstanceAs (Decidable (_ → _))
  | .sendConnected .. =>
    inferInstanceAs (Decidable (_ → _))
  | .connect .. | .disconnect | .cbReturn | .write | .process _ | .free | .freeReq => isTrue trivial

/-! ## The queue -/

variable {udp udp' : LoopyUDP} {w l : List ℕ} {n : ℕ} {r : LoopyUDPSendReq}

/-- The queue consists of the requests `l`, and the fd is registered if there are any. -/
structure Queued (udp : LoopyUDP) (l : List ℕ) : Prop where
  holds : udp.sendQueue.Holds l
  count : udp.sendQueueCount = l.length
  writable : l ≠ [] → udp.writable
  below : ∀ n ∈ l, n < udp.log.calls.length

/-- At `pc` the requests `w` are before the loop that runs, or in the queue if none does. -/
def LoopyUDP.Waits (udp : LoopyUDP) (w : List ℕ) : Pc → Prop
  | .idle | .process => Queued udp w
  | .processCb n => Queued udp (n :: w)
  | .free req => udp.sendQueue.Walks req w ∧ (w ≠ [] → udp.sendQueue.head ≠ none)
  | .freeCb next => udp.sendQueue.Walks next w ∧ udp.sendQueue.head ≠ none
  | .freed => w = []

def UdpInv (udp : LoopyUDP) : Prop := ∃ w, Accounts udp.log udp.req w ∧ udp.Waits w udp.pc

/-- The queue is the same, and the calls may be more. -/
structure SameQueue (udp udp' : LoopyUDP) : Prop where
  sendQueue : udp'.sendQueue = udp.sendQueue
  sendQueueCount : udp'.sendQueueCount = udp.sendQueueCount
  writable : udp'.writable = udp.writable
  calls : udp.log.calls.length ≤ udp'.log.calls.length

theorem Queued.same (h : Queued udp l) (hs : SameQueue udp udp') : Queued udp' l := by
  refine ⟨?_, ?_, ?_, fun n hn => Nat.lt_of_lt_of_le (h.below n hn) hs.calls⟩
  · rw [hs.sendQueue]
    exact h.holds
  · rw [hs.sendQueueCount]
    exact h.count
  · rw [hs.writable]
    exact h.writable

theorem LoopyUDP.Waits.same {pc : Pc} (h : udp.Waits w pc) (hs : SameQueue udp udp') :
    udp'.Waits w pc := by
  cases pc with
  | idle | process | processCb n => exact Queued.same h hs
  | free req | freeCb next =>
    obtain ⟨hwalks, hhead⟩ := h
    refine ⟨?_, ?_⟩
    · rw [hs.sendQueue]
      exact hwalks
    · rw [hs.sendQueue]
      exact hhead
  | freed => exact h

/-- A request is appended. -/
theorem Queued.enqueue (h : Queued udp l) (r : LoopyUDPSendReq) :
    Queued (udp.enqueue r) (l ++ [udp.log.calls.length]) := by
  have hfresh : udp.log.calls.length ∉ l := fun hmem => Nat.lt_irrefl _ (h.below _ hmem)
  refine ⟨h.holds.push hfresh, ?_, fun _ => rfl, fun n hn => ?_⟩
  · show udp.sendQueueCount + 1 = (l ++ [_]).length
    rw [h.count, List.length_append, List.length_singleton]
  · show n < (udp.log.calls ++ [_]).length
    rw [List.length_append, List.length_singleton]
    obtain hold | hnew := List.mem_append.mp hn
    · exact Nat.lt_succ_of_lt (h.below n hold)
    · rw [List.mem_singleton.mp hnew]
      exact Nat.lt_succ_self _

theorem Queued.unlink (h : Queued udp (n :: l)) : Queued (udp.unlink n) l := by
  refine ⟨h.holds.unlink, ?_, fun _ => h.writable (List.cons_ne_nil n l),
    fun k hk => h.below k (List.mem_cons_of_mem n hk)⟩
  show udp.sendQueueCount - 1 = l.length
  rw [h.count, List.length_cons, Nat.add_sub_cancel]

/-! ## The steps -/

/-- A new socket owes no answer. -/
theorem UdpInv.new : UdpInv loopyUDPNew :=
  ⟨[], .new, .empty ℕ, rfl, fun h => absurd rfl h, nofun⟩

/-- Nothing changes that the sends depend on. -/
structure SameSends (udp udp' : LoopyUDP) : Prop where
  sendQueue : udp'.sendQueue = udp.sendQueue
  sendQueueCount : udp'.sendQueueCount = udp.sendQueueCount
  writable : udp'.writable = udp.writable
  req : udp'.req = udp.req
  pc : udp'.pc = udp.pc
  log : udp'.log = udp.log

theorem SameSends.refl (udp : LoopyUDP) : SameSends udp udp := ⟨rfl, rfl, rfl, rfl, rfl, rfl⟩

theorem SameSends.trans {udp'' : LoopyUDP} (h : SameSends udp udp') (h' : SameSends udp' udp'') :
    SameSends udp udp'' :=
  ⟨h'.sendQueue.trans h.sendQueue, h'.sendQueueCount.trans h.sendQueueCount,
    h'.writable.trans h.writable, h'.req.trans h.req, h'.pc.trans h.pc, h'.log.trans h.log⟩

theorem SameSends.sameQueue (h : SameSends udp udp') : SameQueue udp udp' :=
  ⟨h.sendQueue, h.sendQueueCount, h.writable, Nat.le_of_eq (by rw [h.log])⟩

/-- The invariant depends on the sends alone. -/
theorem UdpInv.same (h : UdpInv udp) (hs : SameSends udp udp') : UdpInv udp' := by
  obtain ⟨w, haccounts, hwaits⟩ := h
  refine ⟨w, ?_, ?_⟩
  · rw [hs.log, hs.req]
    exact haccounts
  · rw [hs.pc]
    exact hwaits.same hs.sameQueue

theorem LoopyUDP.setError_same (udp : LoopyUDP) (field : String) (error : CString) :
    SameSends udp (udp.setError field error) := ⟨rfl, rfl, rfl, rfl, rfl, rfl⟩

theorem udpResolveAddress_same (udp : LoopyUDP) (addr : CString) (port : ℤ)
    (getaddrinfo : GetAddrInfo) :
    SameSends udp (udpResolveAddress udp addr port getaddrinfo).1 := by
  unfold udpResolveAddress
  dsimp only
  split
  · exact .refl udp
  · exact udp.setError_same _ _

theorem udpCreateSocket_same (udp : LoopyUDP) (socket : SocketResult) :
    SameSends udp (udpCreateSocket udp socket).1 := by
  unfold udpCreateSocket
  split
  · exact .refl udp
  · split
    · exact ⟨rfl, rfl, rfl, rfl, rfl, rfl⟩
    · exact udp.setError_same _ _
    · exact udp.setError_same _ _
    · exact udp.setError_same _ _

theorem loopyUDPConnect_same (udp : LoopyUDP) (addr : Option CString) (port : ℤ)
    (answers : Answers) (connect : Option CString) :
    SameSends udp (loopyUDPConnect udp addr port answers connect).1 := by
  unfold loopyUDPConnect
  cases addr with
  | none => exact .refl udp
  | some addr =>
    dsimp only
    have hresolve := udpResolveAddress_same udp addr port answers.getaddrinfo
    split
    · next udp₁ heq =>
      rw [heq] at hresolve
      exact hresolve
    · next udp₁ dest heq =>
      rw [heq] at hresolve
      have hsocket := udpCreateSocket_same udp₁ answers.socket
      split
      · next udp₂ heq₂ =>
        rw [heq₂] at hsocket
        exact hresolve.trans hsocket
      · next udp₂ heq₂ =>
        rw [heq₂] at hsocket
        have hopened := hresolve.trans hsocket
        cases connect with
        | some error => exact hopened.trans (udp₂.setError_same _ _)
        | none => exact hopened.trans ⟨rfl, rfl, rfl, rfl, rfl, rfl⟩

theorem loopyUDPDisconnect_same (udp : LoopyUDP) : SameSends udp (loopyUDPDisconnect udp) := by
  unfold loopyUDPDisconnect
  split
  · exact ⟨rfl, rfl, rfl, rfl, rfl, rfl⟩
  · exact .refl udp

theorem LoopyUDP.ensureSocket_same (udp : LoopyUDP) (addr : CString) (port : ℤ)
    (answers : Answers) : SameSends udp (udp.ensureSocket addr port answers).1 := by
  unfold LoopyUDP.ensureSocket
  have hresolve := udpResolveAddress_same udp addr port answers.family
  split
  · exact .refl udp
  · split
    · next udp₁ heq =>
      rw [heq] at hresolve
      exact hresolve
    · next udp₁ dest heq =>
      rw [heq] at hresolve
      exact hresolve.trans (udpCreateSocket_same udp₁ answers.socket)

section request

variable (udp : LoopyUDP) (addr : Option CString) (port : ℤ) (data : Option (List UInt8))
  (cb : Option ℕ) (userData : ℕ) (answers : Answers)

theorem LoopyUDP.request_same :
    SameSends udp (udp.request addr port data cb userData answers).1 := by
  unfold LoopyUDP.request
  split
  · next addr data =>
    have hsocket := udp.ensureSocket_same addr port answers
    split
    · exact .refl udp
    · split
      · next udp₁ heq =>
        rw [heq] at hsocket
        exact hsocket
      · next udp₁ heq =>
        rw [heq] at hsocket
        have hresolve := udpResolveAddress_same udp₁ addr port answers.getaddrinfo
        split
        · next udp₂ heq₂ =>
          rw [heq₂] at hresolve
          exact hsocket.trans hresolve
        · next udp₂ dest heq₂ =>
          rw [heq₂] at hresolve
          exact hsocket.trans hresolve
  · exact .refl udp

/-- The request carries the callback and the data of the call. -/
theorem LoopyUDP.request_cb (h : (udp.request addr port data cb userData answers).2 = some r) :
    r.cb = cb ∧ r.userData = userData ∧ some r.data = data := by
  unfold LoopyUDP.request at h
  split at h
  · split at h
    · cases h
    · split at h
      · cases h
      · split at h
        · cases h
        · rw [← Option.some.inj h]
          exact ⟨rfl, rfl, rfl⟩
  · cases h

theorem LoopyUDP.requestConnected_cb (h : udp.requestConnected data cb userData = some r) :
    r.cb = cb ∧ r.userData = userData ∧ some r.data = data := by
  unfold LoopyUDP.requestConnected at h
  split at h
  · split at h
    · cases h
    · rw [← Option.some.inj h]
      exact ⟨rfl, rfl, rfl⟩
  · cases h

end request

/-- What a call leaves in the log: its callback, and the data that it is to send if it returns
true. -/
structure Logged (udp : LoopyUDP) (data : Option (List UInt8)) (cb : Option ℕ) (userData : ℕ)
    (result : LoopyUDP × Bool) (call : Call) : Prop where
  calls : result.1.log.calls = udp.log.calls ++ [call]
  cb : call.cb = cb
  userData : call.userData = userData
  returned : result.2 = call.accepted.isSome
  data : ∀ datagram, call.accepted = some datagram → some datagram.data = data

theorem LoopyUDPSendReq.datagram_data (r : LoopyUDPSendReq) : r.datagram.data = r.data := by
  unfold LoopyUDPSendReq.datagram
  split <;> rfl

theorem LoopyUDP.reject_logged (udp : LoopyUDP) (data : Option (List UInt8)) (cb : Option ℕ)
    (userData : ℕ) : ∃ call, Logged udp data cb userData (udp.reject cb userData, false) call :=
  ⟨{ cb, userData, accepted := none }, rfl, rfl, rfl, rfl, nofun⟩

theorem LoopyUDP.sendOrQueue_logged (udp : LoopyUDP) (r : LoopyUDPSendReq) (field : String)
    (result : SendResult) :
    ∃ call, Logged udp (some r.data) r.cb r.userData (udp.sendOrQueue r field result) call := by
  have hdata : ∀ datagram, r.call.accepted = some datagram → some datagram.data = some r.data := by
    intro datagram hsome
    rw [← Option.some.inj hsome, r.datagram_data]
  unfold LoopyUDP.sendOrQueue
  split
  · cases result with
    | sent =>
      refine ⟨r.call, ?_, rfl, rfl, rfl, hdata⟩
      exact SendLog.invoke_calls ..
    | again => exact ⟨r.call, rfl, rfl, rfl, rfl, hdata⟩
    | error error =>
      exact ⟨{ cb := r.cb, userData := r.userData, accepted := none }, rfl, rfl, rfl, rfl, nofun⟩
  · exact ⟨r.call, rfl, rfl, rfl, rfl, hdata⟩

/-- **The log is right** about a call of `loopyUDPSend`. -/
theorem loopyUDPSend_logged (udp : LoopyUDP) (addr : Option CString) (port : ℤ)
    (data : Option (List UInt8)) (cb : Option ℕ) (userData : ℕ) (answers : Answers) :
    ∃ call, Logged udp data cb userData
      (loopyUDPSend udp addr port data cb userData answers) call := by
  have hsame := udp.request_same addr port data cb userData answers
  unfold loopyUDPSend
  split
  · next udp₁ heq =>
    rw [heq] at hsame
    obtain ⟨call, hlogged⟩ := udp₁.reject_logged data cb userData
    refine ⟨call, ?_, hlogged.cb, hlogged.userData, hlogged.returned, hlogged.data⟩
    rw [hlogged.calls, hsame.log]
  · next udp₁ r heq =>
    obtain ⟨rfl, rfl, rfl⟩ := udp.request_cb addr port data cb userData answers (by rw [heq])
    rw [heq] at hsame
    obtain ⟨call, hlogged⟩ := udp₁.sendOrQueue_logged r "sendto" answers.send
    refine ⟨call, ?_, hlogged.cb, hlogged.userData, hlogged.returned, hlogged.data⟩
    rw [hlogged.calls, hsame.log]

/-- **The log is right** about a call of `loopyUDPSendConnected`. -/
theorem loopyUDPSendConnected_logged (udp : LoopyUDP) (data : Option (List UInt8))
    (cb : Option ℕ) (userData : ℕ) (result : SendResult) :
    ∃ call, Logged udp data cb userData
      (loopyUDPSendConnected udp data cb userData result) call := by
  unfold loopyUDPSendConnected
  split
  · exact udp.reject_logged data cb userData
  · next r heq =>
    obtain ⟨rfl, rfl, rfl⟩ := udp.requestConnected_cb data cb userData heq
    exact udp.sendOrQueue_logged r "send" result

/-- A refused call changes no request. -/
theorem UdpInv.reject (h : UdpInv udp) (cb : Option ℕ) (userData : ℕ) :
    UdpInv (udp.reject cb userData) := by
  obtain ⟨w, haccounts, hwaits⟩ := h
  have hcalls : udp.log.calls.length ≤ (udp.reject cb userData).log.calls.length := by
    show _ ≤ (udp.log.calls ++ [_]).length
    rw [List.length_append]
    exact Nat.le_add_right _ _
  exact ⟨w, haccounts.reject cb userData, hwaits.same ⟨rfl, rfl, rfl, hcalls⟩⟩

/-- **A request is queued**, where user code runs. It waits, unless the loop of `loopyUDPFree` has
seen the end of the list. -/
theorem UdpInv.enqueue (h : UdpInv udp) (huser : udp.pc.user)
    (hok : udp.pc = .freeCb none → r.cb = none) : UdpInv (udp.enqueue r) := by
  obtain ⟨w, haccounts, hwaits⟩ := h
  cases hpc : udp.pc with
  | idle | processCb n =>
    rw [hpc] at hwaits
    refine ⟨_, haccounts.accept r, ?_⟩
    show (udp.enqueue r).Waits _ udp.pc
    rw [hpc]
    exact Queued.enqueue hwaits r
  | freeCb next =>
    rw [hpc] at hwaits hok
    obtain ⟨hwalks, hhead⟩ := hwaits
    have hhead' : (udp.enqueue r).sendQueue.head ≠ none := LinkedQueue.push_head_ne_none hhead _
    cases next with
    | none =>
      -- the request is appended behind the loop
      refine ⟨w, haccounts.acceptSilent (hok rfl), ?_⟩
      show (udp.enqueue r).Waits _ udp.pc
      rw [hpc, hwalks.eq_nil]
      exact ⟨.nil, hhead'⟩
    | some next =>
      obtain ⟨w, rfl⟩ := hwalks.exists_cons
      refine ⟨_, haccounts.accept r, ?_⟩
      show (udp.enqueue r).Waits _ udp.pc
      rw [hpc]
      exact ⟨hwalks.push (List.cons_ne_nil next w) haccounts.made.fresh, hhead'⟩
  | process | free req | freed =>
    rw [hpc] at huser
    cases huser

/-- Without a head nothing waits, and no loop has been entered. -/
theorem LoopyUDP.Waits.of_head (h : udp.Waits w udp.pc) (huser : udp.pc.user)
    (hhead : udp.sendQueue.head = none) : w = [] ∧ udp.pc = .idle := by
  cases hpc : udp.pc with
  | idle =>
    rw [hpc] at h
    exact ⟨(Queued.holds h).chain.eq_none_iff.mp hhead, rfl⟩
  | processCb n =>
    rw [hpc] at h
    cases (Queued.holds h).chain.eq_none_iff.mp hhead
  | freeCb next =>
    rw [hpc] at h
    exact absurd hhead h.2
  | process | free req | freed =>
    rw [hpc] at huser
    cases huser

namespace UdpInv

/-- **A send that has passed its checks.** -/
theorem sendOrQueue (h : UdpInv udp) (huser : udp.pc.user)
    (hok : udp.pc = .freeCb none → r.cb = none) (field : String) (result : SendResult) :
    UdpInv (udp.sendOrQueue r field result).1 := by
  unfold LoopyUDP.sendOrQueue
  split
  · next hhead =>
    cases result with
    | sent =>
      obtain ⟨w, haccounts, hwaits⟩ := h
      obtain ⟨rfl, hpc⟩ := hwaits.of_head huser (Option.isNone_iff_eq_none.mp hhead)
      rw [hpc] at hwaits
      refine ⟨[], haccounts.immediate r, ?_⟩
      show LoopyUDP.Waits _ [] udp.pc
      rw [hpc]
      exact ⟨hwaits.holds, hwaits.count, hwaits.writable, nofun⟩
    | again => exact h.enqueue huser hok
    | error error => exact (h.same (udp.setError_same field error)).reject _ _
  · exact h.enqueue huser hok

variable {data : Option (List UInt8)} {cb : Option ℕ} {userData : ℕ}

/-- **Every way through a send is answered or waits.**. -/
theorem send (h : UdpInv udp) (huser : udp.pc.user) {addr : Option CString} {port : ℤ}
    {answers : Answers} (hok : Answerable udp (.send addr port data cb userData answers)) :
    UdpInv (loopyUDPSend udp addr port data cb userData answers).1 := by
  have hsame := udp.request_same addr port data cb userData answers
  dsimp only [Answerable] at hok
  unfold loopyUDPSend
  split
  · next udp₁ heq =>
    rw [heq] at hsame
    exact (h.same hsame).reject cb userData
  · next udp₁ r heq =>
    have hcb : r.cb = cb := (udp.request_cb addr port data cb userData answers (by rw [heq])).1
    rw [heq] at hsame hok
    refine (h.same hsame).sendOrQueue ?_ (fun hpc => ?_) _ _
    · rw [hsame.pc]
      exact huser
    · rw [hsame.pc] at hpc
      rw [hcb]
      exact hok hpc rfl

theorem sendConnected (h : UdpInv udp) (huser : udp.pc.user) {result : SendResult}
    (hok : Answerable udp (.sendConnected data cb userData result)) :
    UdpInv (loopyUDPSendConnected udp data cb userData result).1 := by
  dsimp only [Answerable] at hok
  unfold loopyUDPSendConnected
  split
  · exact h.reject cb userData
  · next r heq =>
    have hcb : r.cb = cb := (udp.requestConnected_cb data cb userData heq).1
    rw [heq] at hok
    refine h.sendOrQueue huser (fun hpc => ?_) _ _
    rw [hcb]
    exact hok hpc rfl

/-- The callback of the first request of the queue. -/
theorem notify (hqueued : Queued udp (n :: w)) {status : ℤ}
    (haccounts : Accounts (udp.log.invoke n (udp.req n) status) udp.req w) :
    UdpInv (udp.notify n status) := by
  have hsame : SameQueue udp { udp with log := udp.log.invoke n (udp.req n) status } :=
    ⟨rfl, rfl, rfl, Nat.le_of_eq (congrArg List.length (SendLog.invoke_calls ..)).symm⟩
  unfold LoopyUDP.notify
  dsimp only
  split
  · exact ⟨w, haccounts, hqueued.same ⟨rfl, rfl, rfl, hsame.calls⟩⟩
  · exact ⟨w, haccounts, (hqueued.same hsame).unlink⟩

/-- **A round of `udpProcessSendQueue`.** -/
theorem processNext (h : UdpInv udp) (hpc : udp.pc = .process) (result : SendResult) :
    UdpInv (udp.processNext result) := by
  obtain ⟨w, haccounts, hwaits⟩ := h
  rw [hpc] at hwaits
  have hqueued : Queued udp w := hwaits
  unfold LoopyUDP.processNext
  split
  · next hhead =>
    obtain rfl : w = [] := hqueued.holds.chain.eq_none_iff.mp hhead
    exact ⟨[], haccounts, hqueued.holds, hqueued.count, fun hne => absurd rfl hne, nofun⟩
  · next n hhead =>
    have hwalks := hqueued.holds.walks
    rw [hhead] at hwalks
    obtain ⟨w, rfl⟩ := hwalks.exists_cons
    cases result with
    | again =>
      exact ⟨_, haccounts, hqueued.same ⟨rfl, rfl, rfl, Nat.le_refl _⟩⟩
    | error error => exact .notify hqueued (haccounts.fail (-1))
    | sent =>
      have hsent : Queued { udp with log := udp.log.transmit n (udp.req n).datagram } (n :: w) :=
        hqueued.same ⟨rfl, rfl, rfl, Nat.le_refl _⟩
      exact .notify hsent (haccounts.succeed 0)

/-- The loop of `loopyUDPFree` starts with the queue. -/
theorem startFree (h : UdpInv udp) (hpc : udp.pc = .idle) : UdpInv udp.startFree := by
  obtain ⟨w, haccounts, hwaits⟩ := h
  rw [hpc] at hwaits
  have hqueued : Queued udp w := hwaits
  refine ⟨w, haccounts, hqueued.holds.walks, fun hne hhead => ?_⟩
  exact hne (hqueued.holds.chain.eq_none_iff.mp hhead)

/-- **A round of the loop of `loopyUDPFree`.** -/
theorem freeNext {req : Option ℕ} (h : UdpInv udp) (hpc : udp.pc = .free req) :
    UdpInv (udp.freeNext req) := by
  obtain ⟨w, haccounts, hwaits⟩ := h
  rw [hpc] at hwaits
  obtain ⟨hwalks, hhead⟩ := hwaits
  cases req with
  | none => exact ⟨w, haccounts, hwalks.eq_nil⟩
  | some n =>
    obtain ⟨w, rfl⟩ := hwalks.exists_cons
    have hhead' := hhead (List.cons_ne_nil n w)
    have hnext := hwalks.tail_of_cons
    unfold LoopyUDP.freeNext
    dsimp only
    split
    · exact ⟨w, haccounts.fail (-1), hnext, hhead'⟩
    · exact ⟨w, haccounts.fail (-1), hnext, fun _ => hhead'⟩

/-- **Every step keeps the account of the sends.**. -/
theorem step {a : Action} (h : UdpInv udp) (hok : Answerable udp a)
    (hstep : step udp a = some udp') : UdpInv udp' := by
  cases a with
  | connect addr port answers connect =>
    obtain ⟨-, rfl⟩ := of_guard hstep
    exact h.same (loopyUDPConnect_same udp addr port answers connect)
  | disconnect =>
    obtain ⟨-, rfl⟩ := of_guard hstep
    exact h.same (loopyUDPDisconnect_same udp)
  | send addr port data cb userData answers =>
    obtain ⟨huser, rfl⟩ := of_guard hstep
    exact h.send huser hok
  | sendConnected data cb userData result =>
    obtain ⟨huser, rfl⟩ := of_guard hstep
    exact h.sendConnected huser hok
  | cbReturn =>
    rw [Udp.step] at hstep
    split at hstep
    · rw [← Option.some.inj hstep]
      exact h.same ⟨rfl, rfl, rfl, rfl, rfl, rfl⟩
    · obtain ⟨w, haccounts, hwaits⟩ := h
      split at hstep
      · next n hpc =>
        rw [← Option.some.inj hstep]
        rw [hpc] at hwaits
        exact ⟨w, haccounts, Queued.unlink hwaits⟩
      · next next hpc =>
        rw [← Option.some.inj hstep]
        rw [hpc] at hwaits
        exact ⟨w, haccounts, hwaits.1, fun _ => hwaits.2⟩
      · cases hstep
  | write =>
    obtain ⟨⟨hpc, -⟩, rfl⟩ := of_guard hstep
    obtain ⟨w, haccounts, hwaits⟩ := h
    rw [hpc] at hwaits
    exact ⟨w, haccounts, Queued.same hwaits ⟨rfl, rfl, rfl, Nat.le_refl _⟩⟩
  | process result =>
    obtain ⟨hpc, rfl⟩ := of_guard hstep
    exact h.processNext hpc result
  | free =>
    obtain ⟨⟨hpc, -⟩, rfl⟩ := of_guard hstep
    exact h.startFree hpc
  | freeReq =>
    rw [Udp.step] at hstep
    split at hstep
    · next req hpc =>
      rw [← Option.some.inj hstep]
      exact h.freeNext hpc
    · cases hstep

/-! ## The theorem -/

/-- The invariant gives the law. -/
theorem law (h : UdpInv udp) : SendLaw udp := by
  obtain ⟨w, haccounts, hwaits⟩ := h
  have hanswers := haccounts.answers
  refine ⟨fun hpc n call hcall haccepted hcb => ?_, hanswers.once, hanswers.own,
    fun n call hcall hrefused hdone => ?_, (List.pairwise_append.mp haccounts.inOrder.order).1,
    haccounts.inOrder.sent, fun hlive => ?_⟩
  · rw [hpc] at hwaits
    obtain rfl : w = [] := hwaits
    exact (hanswers.answered n call hcall haccepted hcb).mpr List.not_mem_nil
  · obtain ⟨c, hc, rfl⟩ := List.mem_map.mp hdone
    obtain ⟨call', hcall', haccepted, -⟩ := hanswers.own c hc
    obtain rfl : call = call' := Option.some.inj (hcall.symm.trans hcall')
    rw [hrefused] at haccepted
    cases haccepted
  · cases hpc : udp.pc with
    | idle | process | processCb n =>
      rw [hpc] at hwaits
      exact ⟨_, Queued.holds hwaits, Queued.count hwaits, Queued.writable hwaits⟩
    | free req | freeCb next | freed =>
      rw [hpc] at hlive
      cases hlive

end UdpInv

/-- **Every send is completed.** In every run in which no send with a callback passes its checks in
the callback of the last request that `loopyUDPFree` visits, the callback of every call that
returns true is called exactly once by the end of `loopyUDPFree`, the datagrams are sent in the
order of the calls, and until then the queue is well formed and its fd registered. -/
theorem sends_completed (as : List Action) (udp : LoopyUDP)
    (hrun : Run step Answerable loopyUDPNew as udp) : SendLaw udp :=
  (hrun.invariant (P := UdpInv) (fun _ _ _ h hok hstep => h.step hok hstep) .new).law

/-- The name of the peer resolves, and the socket is there. -/
def answers (send : SendResult) : Answers :=
  { family := fun _ _ => .ok [2, 0, 0, 53, 127, 0, 0, 1], socket := .opened 5,
    getaddrinfo := fun _ _ => .ok [2, 0, 0, 53, 127, 0, 0, 1], send }

/-- A send at once whose callback sends again, connected sends behind it, one of which is refused,
a request without a callback, and requests that are left to `loopyUDPFree`. -/
def sendRun : List Action :=
  [.send (some [97]) 53 (some [1]) (some 7) 1 (answers .sent),
    .send (some [97]) 53 (some [2]) (some 7) 2 (answers .again), .cbReturn,
    .connect (some [97]) 53 (answers .sent) none, .sendConnected (some [3]) (some 8) 3 .sent,
    .write, .process .again, .write, .process .sent,
    .send (some [97]) 53 (some [4]) none 4 (answers .sent),
    .sendConnected (some []) (some 8) 5 .sent, .cbReturn, .process (.error [69]),
    .sendConnected (some [6]) (some 9) 6 .sent, .cbReturn,
    .process .again, .free, .freeReq, .freeReq, .send none 53 (some [7]) (some 9) 7 (answers .sent),
    .cbReturn, .freeReq]

theorem sends_completed_sendRun :
    ∃ udp, Run step Answerable loopyUDPNew sendRun udp ∧ SendLaw udp ∧ udp.pc = .freed ∧
      udp.log.done = [⟨0, 7, 0, 1⟩, ⟨1, 7, 0, 2⟩, ⟨2, 8, -1, 3⟩, ⟨5, 9, -1, 6⟩] := by
  have hexec : (exec step Answerable loopyUDPNew sendRun).map
      (fun udp => (udp.pc, udp.log.done)) =
      some (.freed, [⟨0, 7, 0, 1⟩, ⟨1, 7, 0, 2⟩, ⟨2, 8, -1, 3⟩, ⟨5, 9, -1, 6⟩]) := by
    decide +kernel
  obtain ⟨udp, hrun, hval⟩ := Run.of_exec_map hexec
  obtain ⟨hpc, hdone⟩ := Prod.mk.inj hval
  exact ⟨udp, hrun, sends_completed sendRun udp hrun, hpc, hdone⟩

/-- A datagram waits when the handle is freed, and its callback sends again: the second send is
accepted, and its callback is never called. -/
theorem resend_unanswered :
    ¬ ∀ (as : List Action) (udp : LoopyUDP),
      Run step (fun _ _ => True) loopyUDPNew as udp → SendLaw udp := by
  intro hall
  have hexec : (exec step (fun _ _ => True) loopyUDPNew
      [.send (some [97]) 53 (some [1]) (some 7) 1 (answers .again), .free, .freeReq,
        .send (some [97]) 53 (some [1]) (some 7) 1 (answers .again), .cbReturn, .freeReq]).map
      (fun udp => (udp.pc, udp.log.calls[1]?, udp.log.done.map Completion.call)) =
      some (.freed, some ⟨some 7, 1, some ⟨[2, 0, 0, 53, 127, 0, 0, 1], [1]⟩⟩, [0]) := by
    decide +kernel
  obtain ⟨udp, hudp, hval⟩ := Run.of_exec_map hexec
  obtain ⟨hpc, hrest⟩ := Prod.mk.inj hval
  obtain ⟨hcall, hdone⟩ := Prod.mk.inj hrest
  have hmem := (hall _ udp hudp).complete hpc 1 _ hcall rfl rfl
  rw [hdone] at hmem
  revert hmem
  decide

end Loopy.Udp
