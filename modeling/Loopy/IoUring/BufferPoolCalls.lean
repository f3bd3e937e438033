import Loopy.IoUring.BufferPools

/-!
# The kernel's answers and the pool functions

The steps that matter to the buffer pools: the kernel picks a buffer and answers a request,
user code submits an operation, `loopyIoUringBufferPoolNew` and `loopyIoUringBufferPoolFree`
are called and return. Each keeps `PoolsOk`.
-/

namespace Loopy.IoUring

open Loopy.EventLoop Loopy.Lib Loopy.Epoll FileState
open Function (update update_of_ne update_self)

/-! ## The kernel's answers -/

variable {e : Sent}

variable {provided : List Buffer} {a : Answer} {response : Response}

/-- What a response adds to the groups was offered by a request that succeeded. -/
theorem respond_provided (h : e.respond provided a = some response) : ∀ b ∈ response.provided,
      b ∈ provided ∨ (b ∈ e.request.offers ∧ 0 ≤ response.res) := by
  unfold Sent.respond at h
  intro b hb
  cases a with
  | provided count res =>
    simp only [] at h
    split at h
    · rename_i hcond
      cases h
      rcases List.mem_append.mp hb with hb | hb
      · exact Or.inl hb
      · exact Or.inr ⟨List.mem_of_mem_take hb, hcond.2⟩
    · cases h
  | removed buffers =>
    simp only [] at h
    split at h
    · split at h
      · cases h
        exact Or.inl (List.diff_subset _ _ hb)
      · cases h
    · cases h
  | filled res =>
    obtain ⟨buffer, -, rfl⟩ := Option.map_eq_some_iff.mp h
    exact Or.inl hb
  | plain res more =>
    simp only [] at h
    split at h
    · split at h
      · cases h; exact Or.inl hb
      · cases h
    · split at h
      · cases h; exact Or.inl hb
      · cases h
    · cases h; exact Or.inl hb
    · split at h
      · cases h; exact Or.inl hb
      · cases h

/-- The request of a pool function is answered once, without a buffer. -/
theorem respond_flags (h : e.respond provided a = some response) {create : Bool}
    {pool : BufferPool} {ctx : ℕ} (hreq : e.request = Machine.poolRequest create pool ctx)
    (hheld : e.held = none) : response.flags = 0 := by
  unfold Sent.respond at h
  cases a with
  | provided count res =>
    simp only [] at h
    split at h
    · cases h; rfl
    · cases h
  | removed buffers =>
    simp only [] at h
    split at h
    · split at h
      · cases h; rfl
      · cases h
    · cases h
  | filled res =>
    rw [hheld] at h
    cases h
  | plain res more =>
    simp only [] at h
    split at h
    · split at h
      · cases h; rfl
      · cases h
    · split at h
      · cases h; rfl
      · cases h
    · -- no pool function accepts
      rename_i hacc
      rw [hreq] at hacc
      cases create <;> cases hacc
    · split at h
      · cases h; rfl
      · cases h

/-- With distinct ids, the other entries have other ids. -/
theorem ne_of_mem_eraseIdx {sent : List Sent} (hids : (sent.map (·.id)).Nodup) {k : ℕ} {e' : Sent}
    (hk : sent[k]? = some e) (he' : e' ∈ sent.eraseIdx k) : e'.id ≠ e.id := by
  obtain ⟨j, hjk, hj⟩ := List.mem_eraseIdx_iff_getElem?.mp he'
  intro heq
  have hj' : (sent.map (·.id))[j]? = some e.id := by rw [List.getElem?_map, hj, ← heq]; rfl
  have hk' : (sent.map (·.id))[k]? = some e.id := by rw [List.getElem?_map, hk]; rfl
  have hlt : j < (sent.map (·.id)).length := (List.getElem?_eq_some_iff.mp hj').1
  exact hjk ((List.getElem?_inj hlt hids).mp (hj'.trans hk'.symm))

namespace PoolSystem

variable {s t : PoolSystem} {u u' : IoUringState} {m' : Machine}

variable {k addr ctx : ℕ} {a : Answer} {m : Machine} {ok : Bool} {pool : BufferPool} {p : Pending}
  {ps : List Pending}

variable {buffer : Buffer} {fs fs' : FileState} {create : Bool} {reg : List BufferPool}

/-- A buffer is picked for a receive, which has none and is nobody's request. -/
theorem pick_inv (h : s.pick u k buffer = some t) :
    ∃ e, s.sent[k]? = some e ∧ e.request.selects = some buffer.group ∧ buffer ∈ s.provided ∧
      t = { s with
        sent := s.sent.set k { e with held := some buffer }
        provided := s.provided.erase buffer } := by
  unfold pick at h
  split at h
  · cases h
  · rename_i e he
    split at h
    · rename_i hcond
      cases h
      exact ⟨e, he, hcond.2.2.1, hcond.2.2.2, rfl⟩
    · cases h

theorem answer_inv (h : s.answer u k a = some t) :
    ∃ e response, s.sent[k]? = some e ∧ e.respond s.provided a = some response ∧
      t = { s with
        machine := s.machine.withState (u.onKernel
          (·.post ⟨markFile e.id, response.res, response.flags, .operation⟩))
        sent := if hasBit response.flags IORING_CQE_F_MORE then s.sent else s.sent.eraseIdx k
        provided := response.provided } := by
  unfold answer at h
  split at h
  · cases h
  · rename_i e he
    split at h
    · obtain ⟨response, hresponse, rfl⟩ := Option.map_eq_some_iff.mp h
      exact ⟨e, response, he, hresponse, rfl⟩
    · cases h

theorem PoolsOk.pick (h : s.PoolsOk u) (hpick : s.pick u k buffer = some t) : t.PoolsOk u := by
  obtain ⟨e, hk, hselects, hbuffer, rfl⟩ := pick_inv hpick
  have hin : e ∈ s.sent := List.mem_of_getElem? hk
  -- an entry is as before, but for the one that has the buffer now
  have hentry : ∀ e' ∈ s.sent.set k { e with held := some buffer }, ∃ e₀ ∈ s.sent,
      e'.id = e₀.id ∧ e'.request = e₀.request ∧
      (e'.held = e₀.held ∨ e₀ = e ∧ e'.held = some buffer) := by
    intro e' he'
    rcases List.mem_or_eq_of_mem_set he' with he' | rfl
    · exact ⟨e', he', rfl, rfl, Or.inl rfl⟩
    · exact ⟨e, hin, rfl, rfl, Or.inr ⟨rfl, rfl⟩⟩
  have hprov : ∀ {r}, s.NoneProvided r → ∀ b ∈ s.provided.erase buffer, b.memory.Apart r :=
    fun hr b hb => hr b (List.mem_of_mem_erase hb)
  have hheld : ∀ {r}, s.NoneProvided r → s.NoneHeld r →
      ∀ e' ∈ s.sent.set k { e with held := some buffer }, ∀ b ∈ e'.held, b.memory.Apart r := by
    intro r hr hr' e' he' b hb
    obtain ⟨e₀, he₀, -, -, hsame | ⟨-, hnew⟩⟩ := hentry e' he'
    · exact hr' e₀ he₀ b (hsame ▸ hb)
    · rw [hnew] at hb
      cases hb
      exact hr buffer hbuffer
  have hclear : ∀ {p}, s.Clear p → Clear { s with
      sent := s.sent.set k { e with held := some buffer }
      provided := s.provided.erase buffer } p :=
    fun hc => ⟨hprov hc.1, fun hcreate => hheld hc.1 (hc.2 hcreate)⟩
  have hanswered : ∀ {p res}, s.Answered p res → Answered { s with
      sent := s.sent.set k { e with held := some buffer }
      provided := s.provided.erase buffer } p res := by
    rintro p res ⟨hne, hcl⟩
    refine ⟨fun e' he' => ?_, fun hres => hclear (hcl hres)⟩
    obtain ⟨e₀, he₀, hid, -⟩ := hentry e' he'
    rw [hid]
    exact hne e₀ he₀
  obtain ⟨hpos, hle, hctxs, hactive, hids, hsent, hcq, hopIds⟩ := h.tracked
  obtain ⟨hown, hothers, hearly, hposted, hcompleted⟩ := h.requests
  obtain ⟨hapart, hlive, hfreed, hgroups⟩ := h.memory
  refine ⟨h.state, h.table, h.low, h.slots, ?_, ?_, ?_⟩
  · refine ⟨hpos, hle, hctxs, hactive, ?_, fun e' he' => ?_, hcq, hopIds⟩
    · show List.Nodup (List.map Sent.id (s.sent.set k { e with held := some buffer }))
      obtain ⟨hlt, hget⟩ := List.getElem?_eq_some_iff.mp hk
      have hself : (s.sent.map Sent.id).set k e.id = s.sent.map Sent.id := by
        rw [← List.map_set, ← hget, List.set_getElem_self]
      rw [List.map_set, hself]
      exact hids
    · obtain ⟨e₀, he₀, hid, -⟩ := hentry e' he'
      rw [hid]
      exact hsent e₀ he₀
  · refine ⟨fun p hp e' he' hid => ?_, fun p hp e' he' hid => ?_, fun p hp hcreate e' he' hid => ?_,
      fun p hp cqe hc hfile hid => ?_, fun p hp res hres => hanswered (hcompleted p hp res hres)⟩
    · obtain ⟨e₀, he₀, hsame, hreq, hkept⟩ := hentry e' he'
      obtain ⟨hown₁, hown₂⟩ := hown p hp e₀ he₀ (hsame ▸ hid)
      rcases hkept with hkept | ⟨rfl, -⟩
      · exact ⟨hreq.trans hown₁, hkept.trans hown₂⟩
      · -- the request of a pool function wants no buffer
        rw [hown₁] at hselects
        cases hc : p.create <;> rw [hc] at hselects <;> cases hselects
    · obtain ⟨e₀, he₀, hsame, hreq, -⟩ := hentry e' he'
      rw [hreq]
      exact hothers p hp e₀ he₀ (hsame ▸ hid)
    · obtain ⟨e₀, he₀, hsame, -⟩ := hentry e' he'
      exact hclear (hearly p hp hcreate e₀ he₀ (hsame ▸ hid))
    · obtain ⟨hflags, ha⟩ := hposted p hp cqe hc hfile hid
      exact ⟨hflags, hanswered ha⟩
  · refine ⟨hapart, hlive, fun gone hgone => ?_, hgroups⟩
    obtain ⟨hg₁, hg₂, hg₃⟩ := hfreed gone hgone
    refine ⟨hprov hg₁, hheld hg₁ hg₂, fun e' he' => ?_⟩
    obtain ⟨e₀, he₀, -, hreq, -⟩ := hentry e' he'
    rw [hreq]
    exact hg₃ e₀ he₀

/-- The step from `s` to `t` in which the kernel answers the request `e`. -/
structure Replied (s t : PoolSystem) (u : IoUringState) (e : Sent) (response : Response) : Prop where
  mem : e ∈ s.sent
  machine : t.machine = s.machine.withState (u.onKernel
    (·.post ⟨markFile e.id, response.res, response.flags, .operation⟩))
  sent : t.sent.Sublist s.sent
  last : (s.sent.map (·.id)).Nodup → response.flags = 0 → ∀ e' ∈ t.sent, e'.id ≠ e.id
  flags : ∀ create pool ctx, e.request = Machine.poolRequest create pool ctx → e.held = none →
    response.flags = 0
  provided : t.provided = response.provided
  added : ∀ b ∈ response.provided, b ∈ s.provided ∨ (b ∈ e.request.offers ∧ 0 ≤ response.res)
  registered : t.registered = s.registered
  freed : t.freed = s.freed
  opIds : t.opIds = s.opIds

theorem replied (h : s.answer u k a = some t) :
    ∃ e response, s.sent[k]? = some e ∧ e.respond s.provided a = some response ∧
      Replied s t u e response := by
  obtain ⟨e, response, hk, hresponse, rfl⟩ := answer_inv h
  refine ⟨e, response, hk, hresponse, List.mem_of_getElem? hk, rfl, ?_, fun hids hflags e' he' => ?_,
    fun _ _ _ => respond_flags hresponse, rfl, respond_provided hresponse, rfl, rfl, rfl⟩
  · show (if _ then s.sent else s.sent.eraseIdx k).Sublist s.sent
    split
    · exact List.Sublist.refl _
    · exact List.eraseIdx_sublist _ _
  · have he' : e' ∈ if hasBit response.flags IORING_CQE_F_MORE then s.sent
      else s.sent.eraseIdx k := he'
    rw [hflags] at he'
    exact ne_of_mem_eraseIdx hids hk he'

section replied

variable {e : Sent} {response : Response}

theorem Replied.pending (ht : Replied s t u e response) : t.pending = s.pending := by
  unfold PoolSystem.pending
  rw [ht.machine]
  rfl

theorem Replied.contexts (ht : Replied s t u e response) :
    t.machine.contexts = s.machine.contexts := by
  rw [ht.machine]
  rfl

/-- The completion is of the request. -/
theorem Replied.fileOpId (ht : Replied s t u e response) (h : s.Tracked u) :
    fileOpId (markFile e.id) = e.id := by
  have hlt := h.sent_lt e ht.mem
  have hle := h.nextId_le
  exact markFile_fileOpId (by omega)

variable {r : Region}

theorem Replied.noneProvided (ht : Replied s t u e response) (hr : s.NoneProvided r)
    (hoff : 0 ≤ response.res → ∀ b ∈ e.request.offers, b.memory.Apart r) : t.NoneProvided r := by
  intro b hb
  rw [ht.provided] at hb
  rcases ht.added b hb with hb | ⟨hb, hres⟩
  · exact hr b hb
  · exact hoff hres b hb

theorem Replied.noneHeld (ht : Replied s t u e response) (hr : s.NoneHeld r) : t.NoneHeld r :=
  fun e' he' => hr e' (ht.sent.subset he')

variable {p : Pending}

/-- The request of a call is answered for good. -/
theorem Replied.gone (ht : Replied s t u e response) (h : s.PoolsOk u) (hp : p ∈ s.pending)
    (heq : e.id = s.opIds p.ctx) : response.flags = 0 ∧ ∀ e' ∈ t.sent, e'.id ≠ e.id := by
  obtain ⟨hreq, hheld⟩ := h.requests.own p hp e ht.mem heq
  have hflags := ht.flags _ _ _ hreq hheld
  exact ⟨hflags, ht.last h.tracked.ids hflags⟩

/-- The answer to somebody else's request changes nothing for a call. -/
theorem Replied.clear (ht : Replied s t u e response) (h : s.Requests u) (hp : p ∈ s.pending)
    (hne : e.id ≠ s.opIds p.ctx) (hc : s.Clear p) : t.Clear p :=
  ⟨ht.noneProvided hc.1 fun _ => h.others p hp e ht.mem hne,
    fun hcreate => ht.noneHeld (hc.2 hcreate)⟩

theorem Replied.answered (ht : Replied s t u e response) (h : s.Requests u) (hp : p ∈ s.pending)
    {res : ℤ} (ha : s.Answered p res) : t.Answered p res := by
  obtain ⟨hne, hcl⟩ := ha
  refine ⟨fun e' he' => ?_, fun hres => ht.clear h hp (hne e ht.mem) (hcl hres)⟩
  rw [ht.opIds]
  exact hne e' (ht.sent.subset he')

theorem Replied.tracked (ht : Replied s t u e response) (h : s.Tracked u) :
    t.Tracked (u.onKernel
      (·.post ⟨markFile e.id, response.res, response.flags, .operation⟩)) := by
  have hsettle : t.machine.settling = s.machine.settling := by
    rw [ht.machine]
    rfl
  refine ⟨h.nextId_pos, h.nextId_le, by rw [ht.pending]; exact h.ctxs, ?_,
    h.ids.sublist (ht.sent.map _), fun e' he' => h.sent_lt e' (ht.sent.subset he'),
    fun cqe hc hfile => ?_, by rw [ht.pending, ht.opIds]; exact h.opIds_lt⟩
  · rw [ht.pending, ht.contexts, hsettle, ht.opIds]
    exact h.active
  · rcases List.mem_append.mp hc with hc | hc
    · exact h.cq_lt cqe hc hfile
    · rw [List.mem_singleton.mp hc]
      show 1 ≤ IoUring.fileOpId (markFile e.id) ∧ IoUring.fileOpId (markFile e.id) < _
      rw [ht.fileOpId h]
      exact h.sent_lt e ht.mem

theorem Replied.requests (ht : Replied s t u e response) (h : s.PoolsOk u)
    (hok : ∀ p ∈ s.pending, p.create = false → s.opIds p.ctx = e.id →
      ∀ b ∈ response.provided, b.memory.Apart p.pool.memory) :
    t.Requests (u.onKernel
      (·.post ⟨markFile e.id, response.res, response.flags, .operation⟩)) := by
  obtain ⟨hown, hothers, hearly, hposted, hcompleted⟩ := h.requests
  have hsub : ∀ e' ∈ t.sent, e' ∈ s.sent := fun e' he' => ht.sent.subset he'
  refine ⟨?_, ?_, ?_, ?_, ?_⟩
  · rw [ht.pending, ht.opIds]
    exact fun p hp e' he' => hown p hp e' (hsub e' he')
  · rw [ht.pending, ht.opIds]
    exact fun p hp e' he' => hothers p hp e' (hsub e' he')
  · rw [ht.pending, ht.opIds]
    intro p hp hcreate e' he' heq
    refine ht.clear h.requests hp (fun hself => ?_) (hearly p hp hcreate e' (hsub e' he') heq)
    exact (ht.gone h hp hself).2 e' he' (heq.trans hself.symm)
  · rw [ht.pending, ht.opIds]
    intro p hp cqe hc hfile heq
    rcases List.mem_append.mp hc with hc | hc
    · obtain ⟨hflags, ha⟩ := hposted p hp cqe hc hfile heq
      exact ⟨hflags, ht.answered h.requests hp ha⟩
    · -- the completion just posted
      rw [List.mem_singleton.mp hc] at heq ⊢
      have heq : e.id = s.opIds p.ctx := (ht.fileOpId h.tracked).symm.trans heq
      obtain ⟨hflags, hne⟩ := ht.gone h hp heq
      refine ⟨hflags, fun e' he' => ?_, fun hres => ?_⟩
      · rw [ht.opIds, ← heq]
        exact hne e' he'
      · cases hcreate : p.create with
        | true =>
          obtain ⟨hnone, hnone'⟩ := hearly p hp hcreate e ht.mem heq
          have hneg : response.res < 0 := hres hcreate
          exact ⟨ht.noneProvided hnone fun hge => absurd hge (not_le.mpr hneg),
            fun _ => ht.noneHeld (hnone' hcreate)⟩
        | false =>
          refine ⟨fun b hb => ?_, fun h => ?_⟩
          · rw [ht.provided] at hb
            exact hok p hp hcreate heq.symm b hb
          · rw [hcreate] at h
            cases h
  · rw [ht.pending, ht.contexts]
    exact fun p hp res hres => ht.answered h.requests hp (hcompleted p hp res hres)

theorem Replied.memory (ht : Replied s t u e response) (h : s.MemoryOk u) :
    t.MemoryOk (u.onKernel
      (·.post ⟨markFile e.id, response.res, response.flags, .operation⟩)) := by
  have hlive : t.live = s.live := by
    unfold PoolSystem.live
    rw [ht.pending, ht.registered]
  refine ⟨hlive ▸ h.apart, ?_, fun gone hmem => ?_, ?_⟩
  · rw [hlive, ht.freed]
    exact h.live
  · rw [ht.freed] at hmem
    obtain ⟨hg₁, hg₂, hg₃⟩ := h.freed gone hmem
    exact ⟨ht.noneProvided hg₁ fun _ => hg₃ e ht.mem, ht.noneHeld hg₂,
      fun e' he' => hg₃ e' (ht.sent.subset he')⟩
  · rw [ht.registered, ht.pending]
    exact h.groups

end replied

theorem PoolsOk.answer (h : s.PoolsOk u) (hok : s.Admitted (.answer k a))
    (hanswer : s.answer u k a = some t) : ∃ u', t.PoolsOk u' := by
  obtain ⟨e, response, hk, hresponse, ht⟩ := replied hanswer
  refine ⟨u.onKernel (·.post ⟨markFile e.id, response.res, response.flags, .operation⟩), ?_, ?_,
    ⟨h.low.wf, h.low.queued, h.low.polls⟩, h.slots, ht.tracked h.tracked,
    ht.requests h (hok e hk response hresponse), ht.memory h.memory⟩
  · rw [ht.machine]
    rfl
  · rw [ht.machine]
    exact TableInv.withState h.table _

/-! ## Submissions -/

theorem reports_eq (hs : m.loop.state = some u) : reports m = u.reports := by
  unfold reports
  rw [hs]
  rfl

theorem newReports_same (hs : m.loop.state = some u) (hs' : m'.loop.state = some u')
    (h : u'.reports = u.reports) : newReports m m' = [] := by
  unfold newReports
  rw [reports_eq hs, reports_eq hs', h, Nat.sub_self, List.take_zero]

theorem newReports_cons {report : Report} (hs : m.loop.state = some u)
    (hs' : m'.loop.state = some u') (h : u'.reports = report :: u.reports) :
    newReports m m' = [report] := by
  unfold newReports
  rw [reports_eq hs, reports_eq hs', h, List.length_cons, Nat.add_sub_cancel_left]
  rfl

theorem submitted_contexts (m : Machine) (u : IoUringState) (r : OpRequest) (addr : ℕ) (ok : Bool) :
    (m.submitted u r addr ok).contexts = m.contexts := by
  unfold Machine.submitted
  simp only []
  split <;> rfl

theorem fewer_of_eq (h : fs' = fs) : Fewer fs fs' := by
  rw [h]
  exact .refl fs

/-- A slot of a new operation is one that was in use, or has the new operation. -/
theorem placed_active {i : ℕ} {op : FileOp} (hp : Placed fs addr op fs' i) {j : ℕ}
    (hj : fs'.Active j) : (fs.Active j ∧ fs'.op j = fs.op j) ∨
      ((fs'.op j).callback = op.callback ∧ (fs'.op j).userData = op.userData ∧
        (fs'.op j).id = fs.nextId) := by
  by_cases hji : j = i
  · rw [hji, hp.self]
    exact Or.inr ⟨rfl, rfl, rfl⟩
  · have hact := (hp.active j hji).mp hj
    exact Or.inl ⟨hact, hp.other j hji hact⟩

/-- User code submits an operation. -/
theorem PoolsOk.submit (h : s.PoolsOk u) {r : OpRequest} (hu : s.machine.userRuns = true)
    (hid : u.fileState.nextId < fileBit) (hcb : r.callback ≠ bufferPoolOpCallback)
    (hoff : ∀ b ∈ r.offers, (∀ pool ∈ s.freed, b.memory.Apart pool.memory) ∧
      ∀ p ∈ s.pending, b.memory.Apart p.pool.memory)
    (hm : m' = s.machine.submitted u r addr ok) :
    ∃ u', PoolsOk { s with machine := m', sent := s.sent ++ published s.machine m' r } u' := by
  have hsub := submission u addr ok r h.slots hid
  have hkeeps := Keeps.submitRequest h.low addr ok r
  have hloop : m'.loop = { s.machine.loop with state := some (u.submitRequest addr ok r).2 } := by
    rw [hm, Machine.submitted_loop]
  have hframes : pendingOn m'.frames = s.pending := by
    rw [hm, Machine.submitted_frames]
    rfl
  have hctx : m'.contexts = s.machine.contexts := by rw [hm, submitted_contexts]
  have hsettle := settling_of_userRuns (Or.inl hu)
  generalize u.submitRequest addr ok r = res at hsub hkeeps hloop
  have hstate : m'.loop.state = some res.2 := by rw [hloop]
  have htable : TableInv m'.loop := by
    rw [hloop]
    exact TableInv.withState h.table _
  refine ⟨res.2, ?_⟩
  -- nobody waits for the request
  have hpublishes : res.2.fileState.Ok → res.2.fileState.nextId = u.fileState.nextId + 1 →
      (∀ j, res.2.fileState.Active j → (u.fileState.Active j ∧
        res.2.fileState.op j = u.fileState.op j) ∨
        (res.2.fileState.op j).callback ≠ bufferPoolOpCallback) →
      Publishes s u res.2 m' r s.opIds := by
    intro hok hnext hactive
    refine ⟨hstate, htable, hkeeps, hok, hnext, hid, hframes, hctx, hsettle,
      fun j hj hcb' => ?_, fun p hp => Or.inl rfl, fun gone hgone b hb => (hoff b hb).1 gone hgone,
      fun p hp _ b hb => (hoff b hb).2 p hp⟩
    exact Or.inl ((hactive j hj).resolve_right fun hne => hne hcb')
  cases hsub with
  | @refused _ v hreports hslots =>
    have hnone : published s.machine m' r = [] := by
      unfold published
      rw [newReports_same h.state hstate hreports]
      rfl
    rw [hnone, List.append_nil]
    exact h.aside hstate htable hkeeps (fewer_of_eq hslots) hframes hctx
      fun _ _ hset => settling_absent hsettle hset
  | @accepted v op addr i tag hp hcb' hdata hreports =>
    have hone : published s.machine m' r = [⟨tag, u.fileState.nextId, r, none⟩] := by
      unfold published
      rw [newReports_cons h.state hstate hreports]
      rfl
    rw [hone]
    refine h.publish (hpublishes (hp.ok h.slots hid) (hp.nextId_eq hid) fun j hj => ?_) tag
    refine (placed_active hp hj).imp_right fun hnew => ?_
    rw [hnew.1, hcb']
    exact hcb
  | @failed v tag hok hnext hactive hreports =>
    have hone : published s.machine m' r = [⟨tag, u.fileState.nextId, r, none⟩] := by
      unfold published
      rw [newReports_cons h.state hstate hreports]
      rfl
    rw [hone]
    exact h.publish (hpublishes hok hnext fun j hj => Or.inl (hactive j hj)) tag

/-! ## Pool functions -/

theorem poolRequest_callback (create : Bool) (pool : BufferPool) (ctx : ℕ) :
    (Machine.poolRequest create pool ctx).callback = bufferPoolOpCallback ∧
      (Machine.poolRequest create pool ctx).userData = ctx := by
  cases create <;> exact ⟨rfl, rfl⟩

/-- A pool function offers buffers of its pool only. -/
theorem poolRequest_offers {b : Buffer} (hb : b ∈ (Machine.poolRequest create pool ctx).offers) :
    b.memory.Within pool.memory := by
  cases create with
  | true =>
    obtain ⟨i, hi, rfl⟩ := List.mem_map.mp hb
    exact Region.elem_within _ _ (List.mem_range.mp hi)
  | false => cases hb

/-- The machine of a call in its polling loop. -/
def waiting (m : Machine) (create : Bool) (pool : BufferPool) (ctx : ℕ) : Machine :=
  { m with
    contexts := update m.contexts ctx none
    frames := .pool ⟨create, pool, ctx, 0⟩ :: m.frames }

/-- A request of a pool function that was published under a new id. -/
theorem PoolsOk.publishes {gone : List BufferPool} {opIds' : ℕ → ℕ}
    (h : (s.opened (waiting s.machine create pool ctx) ctx reg gone).PoolsOk u)
    (hid : u.fileState.nextId < fileBit) (hfresh : ∀ q ∈ s.pending, q.ctx ≠ ctx)
    (hcreate : create = true → s.NoneProvided pool.memory ∧ s.NoneHeld pool.memory)
    (hstate : m'.loop.state = some u') (htable : TableInv m'.loop) (hkeeps : Keeps u u')
    (hpending : pendingOn m'.frames = ⟨create, pool, ctx⟩ :: s.pending)
    (hctx : m'.contexts = update s.machine.contexts ctx none) (hok : u'.fileState.Ok)
    (hnext : u'.fileState.nextId = u.fileState.nextId + 1)
    (hactive : ∀ j, u'.fileState.Active j →
      (u.fileState.Active j ∧ u'.fileState.op j = u.fileState.op j) ∨
      ((u'.fileState.op j).userData = ctx ∧ (u'.fileState.op j).id = u.fileState.nextId ∧
      opIds' ctx = u.fileState.nextId))
    (hothers : ∀ q ∈ s.pending, opIds' q.ctx = s.opIds q.ctx)
    (hown : opIds' ctx = 0 ∧ create = false ∨ opIds' ctx = u.fileState.nextId) :
    Publishes (s.opened (waiting s.machine create pool ctx) ctx reg gone) u u' m'
      (Machine.poolRequest create pool ctx) opIds' := by
  have hself : (s.opened (waiting s.machine create pool ctx) ctx reg gone).opIds ctx = 0 :=
    update_self _ _ _
  have hnone : (waiting s.machine create pool ctx).contexts ctx = none := update_self _ _ _
  have hlive := h.memory.apart
  rw [show (s.opened (waiting s.machine create pool ctx) ctx reg gone).live =
    pool :: (s.pending.map (·.pool) ++ reg) from rfl, List.pairwise_cons] at hlive
  refine ⟨hstate, htable, hkeeps, hok, hnext, hid, hpending, hctx, rfl,
    fun j hj _ => ?_, fun q hq => ?_, fun old hold b hb => ?_, fun q hq hne b hb => ?_⟩
  · refine (hactive j hj).imp_right fun ⟨hj₁, hj₂, hj₃⟩ => ?_
    exact ⟨⟨create, pool, ctx⟩, List.mem_cons_self, hj₁, hj₂, hj₃, hnone⟩
  · rcases List.mem_cons.mp hq with rfl | hq
    · rcases hown with ⟨hzero, -⟩ | hnew
      · exact Or.inl (hzero.trans hself.symm)
      · refine Or.inr ⟨hnew, hself, rfl, hnone, fun hc => ?_⟩
        exact ⟨(hcreate hc).1, fun _ => (hcreate hc).2⟩
    · left
      rw [hothers q hq]
      exact (update_of_ne (hfresh q hq) _ _).symm
  · exact (h.memory.live pool List.mem_cons_self old hold).of_within (poolRequest_offers hb)
  · rcases List.mem_cons.mp hq with rfl | hq
    · -- a refused request to remove buffers offers none
      rcases hown with ⟨-, rfl⟩ | hnew
      · cases hb
      · exact absurd hnew hne
    · refine Region.Apart.of_within (hlive.1 q.pool ?_) (poolRequest_offers hb)
      exact List.mem_append_left _ (List.mem_map_of_mem hq)

/-- A pool function has made its request and polls. -/
theorem PoolsOk.requested {gone : List BufferPool}
    (h : (s.opened (waiting s.machine create pool ctx) ctx reg gone).PoolsOk u)
    (hs : s.machine.loop.state = some u) (hid : u.fileState.nextId < fileBit)
    (hfresh : ∀ q ∈ s.pending, q.ctx ≠ ctx)
    (hcreate : create = true → ok = true ∧ s.NoneProvided pool.memory ∧ s.NoneHeld pool.memory)
    (hm : m' = ({ s.machine with contexts := update s.machine.contexts ctx none }.submitted u
      (Machine.poolRequest create pool ctx) addr ok).withFrames
      (.pool ⟨create, pool, ctx, 0⟩ :: s.machine.frames)) :
    PoolsOk { s.requested m' create pool ctx with registered := reg, freed := gone }
        (u.submitRequest addr ok (Machine.poolRequest create pool ctx)).2 ∧
      ((u.submitRequest addr ok (Machine.poolRequest create pool ctx)).1 = 0 → create = true →
        (s.requested m' create pool ctx).sent = s.sent ∧
          (s.requested m' create pool ctx).opIds ctx = 0) := by
  have hdata := (poolRequest_callback create pool ctx).2
  have hsub := submission u addr ok (Machine.poolRequest create pool ctx) h.slots hid
  have hkeeps := Keeps.submitRequest h.low addr ok (Machine.poolRequest create pool ctx)
  have hloop : m'.loop = { s.machine.loop with
      state := some (u.submitRequest addr ok (Machine.poolRequest create pool ctx)).2 } := by
    rw [hm, Machine.withFrames_loop, Machine.submitted_loop]
  have hctx : m'.contexts = update s.machine.contexts ctx none := by
    rw [hm]
    exact submitted_contexts _ _ _ _ _
  have hpending : pendingOn m'.frames = ⟨create, pool, ctx⟩ :: s.pending := by
    rw [hm]
    rfl
  have hsettle : (waiting s.machine create pool ctx).settling = none := rfl
  generalize u.submitRequest addr ok (Machine.poolRequest create pool ctx) = res
    at hsub hkeeps hloop ⊢
  have hstate : m'.loop.state = some res.2 := by rw [hloop]
  have htable : TableInv m'.loop := by
    rw [hloop]
    exact TableInv.withState h.table _
  have hother : ∀ id, ∀ q ∈ s.pending, update s.opIds ctx id q.ctx = s.opIds q.ctx :=
    fun id q hq => update_of_ne (hfresh q hq) _ _
  show PoolsOk { s with
      machine := m'
      sent := s.sent ++ published s.machine m' (Machine.poolRequest create pool ctx)
      registered := reg
      freed := gone
      opIds := update s.opIds ctx (returnedId s.machine m') } res.2 ∧
    (res.1 = 0 → create = true →
      s.sent ++ published s.machine m' (Machine.poolRequest create pool ctx) = s.sent ∧
        update s.opIds ctx (returnedId s.machine m') ctx = 0)
  unfold published returnedId
  cases hsub with
  | @refused _ v hreports hslots =>
    rw [newReports_same hs hstate hreports]
    refine ⟨?_, fun _ _ => ⟨List.append_nil _, update_self _ _ _⟩⟩
    simp only [List.map_nil, List.append_nil]
    exact h.aside hstate htable hkeeps (fewer_of_eq hslots) hpending hctx
      fun _ _ hset => settling_absent hsettle hset
  | @accepted v op addr i tag hp hcb' hdata' hreports =>
    rw [newReports_cons hs hstate hreports]
    refine ⟨h.publish (h.publishes hid hfresh (fun hc => (hcreate hc).2) hstate htable hkeeps
      hpending hctx (hp.ok h.slots hid) (hp.nextId_eq hid) (fun j hj => ?_)
      (hother u.fileState.nextId) (Or.inr (update_self _ _ _))) tag,
      fun hzero _ => absurd hzero (markFile_ne_zero hid)⟩
    refine (placed_active hp hj).imp_right fun ⟨_, hj₂, hj₃⟩ => ?_
    exact ⟨hj₂.trans (hdata'.trans hdata), hj₃, update_self _ _ _⟩
  | @failed v tag hok hnext hactive hreports =>
    have hfree : create = false := by
      by_contra hc
      exact absurd (hcreate (by simpa using hc)).1 (by decide)
    rw [newReports_cons hs hstate hreports]
    refine ⟨h.publish (h.publishes hid hfresh (fun hc => (hcreate hc).2) hstate htable hkeeps
      hpending hctx hok hnext (fun j hj => Or.inl (hactive j hj)) (hother 0)
      (Or.inl ⟨update_self _ _ _, hfree⟩)) tag, fun _ hc => ?_⟩
    rw [hfree] at hc
    cases hc

/-- Nobody but the call offers buffers of its pool. -/
theorem Requests.noneOffered (h : s.Requests u) (hp : p ∈ s.pending)
    (hne : ∀ e ∈ s.sent, e.id ≠ s.opIds p.ctx) : s.NoneOffered p.pool.memory :=
  fun e he => h.others p hp e he (hne e he)

/-- The memory of the innermost call's pool is given back. -/
theorem MemoryOk.released (h : s.MemoryOk u) (hpend : s.pending = p :: ps)
    (hframes : pendingOn m'.frames = ps) (hprov : s.NoneProvided p.pool.memory)
    (hheld : s.NoneHeld p.pool.memory) (hoff : s.NoneOffered p.pool.memory)
    (hgroups : ∀ g pool, u'.bufferPoolGroups g = some pool →
      u.bufferPoolGroups g = some pool ∧ (p.create = true ∨ g ≠ p.pool.groupId)) :
    MemoryOk { s with machine := m', freed := p.pool :: s.freed } u' := by
  have hlive : s.live = p.pool :: (ps.map (·.pool) ++ s.registered) := by
    unfold PoolSystem.live
    rw [hpend]
    rfl
  have hlive' : ({ s with machine := m', freed := p.pool :: s.freed } : PoolSystem).live =
      ps.map (·.pool) ++ s.registered :=
    congrArg (fun ps : List Pending => ps.map (·.pool) ++ s.registered) hframes
  have hapart := h.apart
  rw [hlive, List.pairwise_cons] at hapart
  refine ⟨by rw [hlive']; exact hapart.2, ?_, ?_, fun g pool hg => ?_⟩
  · rw [hlive']
    intro pool hpool gone hgone
    rcases List.mem_cons.mp hgone with rfl | hgone
    · exact (hapart.1 pool hpool).symm
    · exact h.live pool (hlive ▸ List.mem_cons_of_mem _ hpool) gone hgone
  · intro gone hgone
    rcases List.mem_cons.mp hgone with rfl | hgone
    · exact ⟨hprov, hheld, hoff⟩
    · exact h.freed gone hgone
  · obtain ⟨hg', hne⟩ := hgroups g pool hg
    obtain ⟨hgroup, hlt, hown⟩ := h.groups g pool hg'
    refine ⟨hgroup, hlt, hown.imp_right fun ⟨q, hq, hfree, hpool⟩ => ?_⟩
    refine ⟨q, ?_, hfree, hpool⟩
    show q ∈ pendingOn m'.frames
    rw [hframes]
    rw [hpend] at hq
    rcases List.mem_cons.mp hq with rfl | hq
    · -- the group of the freed pool has no pool any more
      rcases hne with hcreate | hne
      · rw [hfree] at hcreate
        cases hcreate
      · exact absurd (hgroup.symm.trans (congrArg _ hpool.symm)) hne
    · exact hq

/-- A call returns and gives the memory of its pool back. -/
theorem PoolsOk.givenBack (h : s.PoolsOk u) (hpend : s.pending = p :: ps)
    (hs : m'.loop.state = some u') (ht : TableInv m'.loop) (hsq : u'.sq = u.sq)
    (hkernel : u'.kernel = u.kernel) (hslots : u'.fileState = u.fileState)
    (hframes : pendingOn m'.frames = ps) (hctx : m'.contexts = s.machine.contexts)
    (hsettle : s.machine.settling = none)
    (hend : (s.machine.contexts p.ctx).isSome = true ∨ s.opIds p.ctx = 0)
    (hprov : s.NoneProvided p.pool.memory) (hheld : s.NoneHeld p.pool.memory)
    (hoff : s.NoneOffered p.pool.memory)
    (hgroups : ∀ g pool, u'.bufferPoolGroups g = some pool →
      u.bufferPoolGroups g = some pool ∧ (p.create = true ∨ g ≠ p.pool.groupId)) :
    PoolsOk { s with machine := m', freed := p.pool :: s.freed } u' :=
  h.closed hpend hs ht hsq hkernel hslots hframes hctx hsettle hend
    (h.memory.released hpend hframes hprov hheld hoff hgroups)

/-- Memory nobody uses becomes that of a new pool. -/
theorem MemoryOk.taken (h : s.MemoryOk u) (hunused : s.Unused pool.memory) :
    (s.opened (waiting s.machine true pool ctx) ctx s.registered
      (s.freed.filter (·.memory.Apart pool.memory))).MemoryOk u := by
  have hfilter : ∀ gone ∈ s.freed.filter (·.memory.Apart pool.memory),
      gone ∈ s.freed ∧ gone.memory.Apart pool.memory := by
    intro gone hgone
    rw [List.mem_filter, decide_eq_true_eq] at hgone
    exact hgone
  refine ⟨?_, ?_, fun gone hgone => h.freed gone (hfilter gone hgone).1, fun g pool' hg => ?_⟩
  · show List.Pairwise _ (pool :: s.live)
    rw [List.pairwise_cons]
    exact ⟨fun pool' hin => (hunused.1 pool' hin).symm, h.apart⟩
  · intro pool' hin gone hgone
    obtain ⟨hold, hapart⟩ := hfilter gone hgone
    have hin : pool' ∈ pool :: s.live := hin
    rcases List.mem_cons.mp hin with rfl | hin
    · exact hapart.symm
    · exact h.live pool' hin gone hold
  · obtain ⟨hgroup, hlt, hown⟩ := h.groups g pool' hg
    exact ⟨hgroup, hlt, hown.imp_right fun ⟨q, hq, hq'⟩ => ⟨q, List.mem_cons_of_mem _ hq, hq'⟩⟩

/-- A pool of the caller is about to be freed. -/
theorem MemoryOk.surrendered (h : s.MemoryOk u) (hpool : pool ∈ s.registered) :
    (s.opened (waiting s.machine false pool ctx) ctx (s.registered.erase pool) s.freed).MemoryOk u := by
  have hperm : (pool :: (s.pending.map (·.pool) ++ s.registered.erase pool)).Perm s.live := by
    refine List.perm_middle.symm.trans ?_
    exact (List.perm_cons_erase hpool).symm.append_left _
  refine ⟨?_, fun pool' hin => h.live pool' (hperm.subset hin), h.freed, fun g pool' hg => ?_⟩
  · exact (hperm.pairwise_iff fun hapart => Region.Apart.symm hapart).mpr h.apart
  · obtain ⟨hgroup, hlt, hown⟩ := h.groups g pool' hg
    refine ⟨hgroup, hlt, ?_⟩
    rcases hown with hreg | ⟨q, hq, hq'⟩
    · by_cases heq : pool' = pool
      · exact Or.inr ⟨⟨false, pool, ctx⟩, List.mem_cons_self, rfl, heq.symm⟩
      · exact Or.inl ((List.mem_erase_of_ne heq).mpr hreg)
    · exact Or.inr ⟨q, List.mem_cons_of_mem _ hq, hq'⟩

/-- The pool of a call that created it becomes the caller's. -/
theorem MemoryOk.kept (h : s.MemoryOk u) (hpend : s.pending = p :: ps) (hcreate : p.create = true)
    (hframes : pendingOn m'.frames = ps) :
    MemoryOk { s with machine := m', registered := p.pool :: s.registered }
      (u.setBufferGroup p.pool.groupId (some p.pool)) := by
  have hperm : (ps.map (·.pool) ++ p.pool :: s.registered).Perm s.live := by
    unfold PoolSystem.live
    rw [hpend]
    exact List.perm_middle
  have hlive : ({ s with machine := m', registered := p.pool :: s.registered } : PoolSystem).live =
      ps.map (·.pool) ++ p.pool :: s.registered :=
    congrArg (fun ps : List Pending => ps.map (·.pool) ++ p.pool :: s.registered) hframes
  refine ⟨?_, fun pool hin => ?_, h.freed, fun g pool hg => ?_⟩
  · rw [hlive]
    exact (hperm.pairwise_iff fun hapart => Region.Apart.symm hapart).mpr h.apart
  · rw [hlive] at hin
    exact h.live pool (hperm.subset hin)
  · have hold : u.bufferPoolGroups g = some pool → pool.groupId = g ∧ g < maxBufferGroups ∧
        (pool ∈ p.pool :: s.registered ∨ ∃ q ∈ pendingOn m'.frames, q.create = false ∧
          q.pool = pool) := by
      intro hg'
      obtain ⟨hgroup, hlt, hown⟩ := h.groups g pool hg'
      refine ⟨hgroup, hlt, ?_⟩
      rcases hown with hreg | ⟨q, hq, hfree, hq'⟩
      · exact Or.inl (List.mem_cons_of_mem _ hreg)
      · rw [hframes]
        rw [hpend] at hq
        rcases List.mem_cons.mp hq with rfl | hq
        · rw [hcreate] at hfree
          cases hfree
        · exact Or.inr ⟨q, hq, hfree, hq'⟩
    unfold IoUringState.setBufferGroup at hg
    split at hg
    · rename_i hlt
      have hg : update u.bufferPoolGroups p.pool.groupId (some p.pool) g = some pool := hg
      by_cases heq : g = p.pool.groupId
      · subst heq
        rw [update_self] at hg
        cases hg
        exact ⟨rfl, hlt, Or.inl List.mem_cons_self⟩
      · rw [update_of_ne heq] at hg
        exact hold hg
    · exact hold hg

/-- `loopyIoUringBufferPoolNew` is called, and enters the kernel if it gets there. -/
theorem PoolsOk.poolNew (h : s.PoolsOk u) (hu : s.machine.userRuns = true)
    (hid : u.fileState.nextId < fileBit) (hfresh : ∀ q ∈ s.pending, q.ctx ≠ ctx)
    (hunused : s.Unused pool.memory)
    (hm : m' = s.machine.loopyIoUringBufferPoolNew u pool ctx addr true) :
    ∃ u', (s.called u m' pool ctx).PoolsOk u' := by
  unfold Machine.loopyIoUringBufferPoolNew at hm
  unfold called
  split at hm
  · rename_i hargs
    rw [if_pos hargs, hm]
    exact ⟨u, h⟩
  · rename_i hargs
    rw [if_neg hargs]
    have hsettle := settling_of_userRuns (Or.inl hu)
    have hopened : (s.opened (waiting s.machine true pool ctx) ctx s.registered
        (s.freed.filter (·.memory.Apart pool.memory))).PoolsOk u :=
      h.opened (p := ⟨true, pool, ctx⟩) rfl rfl rfl hfresh hsettle hunused.2.2.2
        (h.memory.taken hunused)
    obtain ⟨m₁, hm₁⟩ : ∃ m₁, m₁ = ({ s.machine with
        contexts := update s.machine.contexts ctx none }.submitted u
          (Machine.poolRequest true pool ctx) addr true).withFrames
            (.pool ⟨true, pool, ctx, 0⟩ :: s.machine.frames) := ⟨_, rfl⟩
    obtain ⟨hrequested, hrefused⟩ := hopened.requested h.state hid hfresh
      (fun _ => ⟨rfl, hunused.2.1, hunused.2.2.1⟩) hm₁
    have hframes : ({ s.machine with
        contexts := update s.machine.contexts ctx none }.submitted u
          (Machine.poolRequest true pool ctx) addr true).frames = s.machine.frames :=
      Machine.submitted_frames _ _ _ _ _
    simp only [] at hm
    split at hm
    · -- the memory is given back at once
      rename_i hzero
      obtain ⟨hsent, hnoId⟩ := hrefused hzero rfl
      have hm' : m' = m₁.withFrames s.machine.frames := by
        rw [hm, hm₁]
        exact (Machine.withFrames_self _ _ hframes).symm
      rw [if_pos (by rw [hm']; rfl)]
      clear hm
      subst hm'
      generalize ht : ({ s.requested m₁ true pool ctx with
        registered := s.registered
        freed := s.freed.filter (·.memory.Apart pool.memory) } : PoolSystem) = t at hrequested
      have hmachine : t.machine = m₁ := by rw [← ht]; rfl
      have hsent' : t.sent = s.sent := by rw [← ht]; exact hsent
      have hprov : t.NoneProvided pool.memory := by rw [← ht]; exact hunused.2.1
      have hheld : t.NoneHeld pool.memory := by
        unfold NoneHeld
        rw [hsent']
        exact hunused.2.2.1
      have hoff : t.NoneOffered pool.memory := by
        unfold NoneOffered
        rw [hsent']
        exact hunused.2.2.2
      have hstate : (m₁.withFrames s.machine.frames).loop.state =
          some (u.submitRequest addr true (Machine.poolRequest true pool ctx)).2 :=
        hmachine ▸ hrequested.state
      have hreturned := hrequested.givenBack (p := ⟨true, pool, ctx⟩) (by rw [← ht, hm₁]; rfl) hstate
        (hmachine ▸ hrequested.table) rfl rfl rfl rfl (by rw [hmachine]; rfl)
        (by rw [hmachine, hm₁]; rfl) (Or.inr (by rw [← ht]; exact hnoId)) hprov hheld hoff
        fun g pool' hg => ⟨hg, Or.inl rfl⟩
      rw [← ht] at hreturned
      exact ⟨_, hreturned⟩
    · -- the call polls
      rename_i hne
      have hm' : m' = m₁ := by
        rw [hm, hm₁]
        exact congrArg (Machine.withFrames _) (congrArg (_ :: ·) hframes)
      rw [if_neg, hm']
      · exact ⟨_, hrequested⟩
      · rw [hm', hm₁]
        exact List.cons_ne_self _ _

/-- `loopyIoUringBufferPoolFree` is called while no request in flight offers its buffers. -/
theorem PoolsOk.poolFree (h : s.PoolsOk u) (hu : s.machine.userRuns = true)
    (hid : u.fileState.nextId < fileBit) (hfresh : ∀ q ∈ s.pending, q.ctx ≠ ctx)
    (hpool : pool ∈ s.registered) (hoff : s.NoneOffered pool.memory)
    (hm : m' = s.machine.loopyIoUringBufferPoolFree u pool ctx addr ok) :
    ∃ u', PoolsOk { s.requested m' false pool ctx with registered := s.registered.erase pool } u' := by
  have hsettle := settling_of_userRuns (Or.inl hu)
  have hopened : (s.opened (waiting s.machine false pool ctx) ctx (s.registered.erase pool)
      s.freed).PoolsOk u :=
    h.opened (p := ⟨false, pool, ctx⟩) rfl rfl rfl hfresh hsettle hoff (h.memory.surrendered hpool)
  have hframes : ({ s.machine with
      contexts := update s.machine.contexts ctx none }.submitted u
        (Machine.poolRequest false pool ctx) addr ok).frames = s.machine.frames :=
    Machine.submitted_frames _ _ _ _ _
  have hm' : m' = ({ s.machine with
      contexts := update s.machine.contexts ctx none }.submitted u
        (Machine.poolRequest false pool ctx) addr ok).withFrames
          (.pool ⟨false, pool, ctx, 0⟩ :: s.machine.frames) := by
    rw [hm]
    exact congrArg (Machine.withFrames _) (congrArg (_ :: ·) hframes)
  have hrequested := hopened.requested h.state hid hfresh (fun hc => by cases hc) hm'
  exact ⟨_, hrequested.1⟩

theorem setBufferGroup_same (u : IoUringState) (g : ℕ) (pool : Option BufferPool) :
    (u.setBufferGroup g pool).sq = u.sq ∧ (u.setBufferGroup g pool).kernel = u.kernel ∧
      (u.setBufferGroup g pool).fileState = u.fileState := by
  unfold IoUringState.setBufferGroup
  split <;> exact ⟨rfl, rfl, rfl⟩

theorem setBufferGroup_none {g g' : ℕ}
    (h : (u.setBufferGroup g none).bufferPoolGroups g' = some pool) :
    u.bufferPoolGroups g' = some pool ∧ (g < maxBufferGroups → g' ≠ g) := by
  unfold IoUringState.setBufferGroup at h
  split at h
  · have h : update u.bufferPoolGroups g none g' = some pool := h
    have hne : g' ≠ g := by
      rintro rfl
      rw [update_self] at h
      cases h
    rw [update_of_ne hne] at h
    exact ⟨h, fun _ => hne⟩
  · rename_i hge
    exact ⟨h, fun hlt => absurd hlt hge⟩

/-- A pool function returns in time. -/
theorem PoolsOk.poolEnd (h : s.PoolsOk u) {p : PoolCall} {fs : List Frame}
    (hf : s.machine.frames = .pool p :: fs) (hend : s.EndsInTime p)
    (hm : m' = s.machine.poolDone u p fs) : ∃ u', (s.returned m' p).PoolsOk u' := by
  have hpend : s.pending = ⟨p.create, p.pool, p.ctx⟩ :: pendingOn fs := by
    unfold PoolSystem.pending
    rw [hf]
    rfl
  have hp : ⟨p.create, p.pool, p.ctx⟩ ∈ s.pending := hpend ▸ List.mem_cons_self
  have hsettle : s.machine.settling = none := settling_of_userRuns (Or.inr ⟨p, fs, hf⟩)
  have hanswered := h.requests.completed _ hp
  have htable : TableInv s.machine.loop := h.table
  unfold Machine.poolDone at hm
  unfold returned
  cases hcreate : p.create with
  | true =>
    rw [hcreate] at hm hpend hp
    cases hctx : s.machine.contexts p.ctx with
    | none =>
      -- the wait of a creation ends with its completion
      rcases hend.1 with hsome | ⟨hfree, -⟩
      · rw [hctx] at hsome
        cases hsome
      · rw [hcreate] at hfree
        cases hfree
    | some res =>
      have hctx' : (s.machine.withFrames fs).contexts p.ctx = some res := hctx
      simp only [if_true, hctx'] at hm
      obtain ⟨hne, hclear⟩ := hanswered res hctx
      split at hm
      · rename_i hneg
        rw [if_neg, hm]
        · obtain ⟨hprov, hheld⟩ := hclear fun _ => hneg
          exact ⟨u, h.givenBack hpend h.state htable rfl rfl rfl rfl rfl hsettle
            (Or.inl (by rw [hctx]; rfl)) hprov (hheld hcreate) (h.requests.noneOffered hp hne)
            fun g pool hg => ⟨hg, Or.inl rfl⟩⟩
        · rintro ⟨-, res', hres', hge⟩
          cases hres'
          exact absurd hneg (not_lt.mpr hge)
      · rename_i hge
        rw [if_pos ⟨rfl, res, rfl, not_lt.mp hge⟩, hm]
        obtain ⟨hsq, hkernel, hslots⟩ := setBufferGroup_same u p.pool.groupId (some p.pool)
        exact ⟨_, h.closed hpend rfl (TableInv.withState htable _) hsq hkernel hslots rfl rfl hsettle
          (Or.inl (by rw [hctx]; rfl)) (h.memory.kept hpend rfl rfl)⟩
  | false =>
    rw [hcreate] at hm hpend hp
    simp only [Bool.false_eq_true, if_false, false_and] at hm ⊢
    rw [hm]
    obtain ⟨hsq, hkernel, hslots⟩ := setBufferGroup_same u p.pool.groupId none
    have hheld := hend.2 hcreate
    have hgroups : ∀ g pool, (u.setBufferGroup p.pool.groupId none).bufferPoolGroups g = some pool →
        u.bufferPoolGroups g = some pool ∧ (false = true ∨ g ≠ p.pool.groupId) := by
      intro g pool hg
      obtain ⟨hold, hne⟩ := setBufferGroup_none hg
      refine ⟨hold, Or.inr fun heq => ?_⟩
      have hlt := (h.memory.groups g pool hold).2.1
      exact hne (heq ▸ hlt) heq
    -- either way the request is not in flight and the kernel has no buffer of the pool
    obtain ⟨hdone, hne, hprov⟩ : ((s.machine.contexts p.ctx).isSome = true ∨ s.opIds p.ctx = 0) ∧
        (∀ e ∈ s.sent, e.id ≠ s.opIds p.ctx) ∧ s.NoneProvided p.pool.memory := by
      rcases hend.1 with hsome | ⟨-, hzero, hprov⟩
      · obtain ⟨res, hctx⟩ := Option.isSome_iff_exists.mp hsome
        obtain ⟨hne, hclear⟩ := hanswered res hctx
        refine ⟨Or.inl hsome, hne, (hclear fun hc => ?_).1⟩
        rw [hcreate] at hc
        cases hc
      · -- nothing was submitted, and every request has an id
        refine ⟨Or.inr hzero, fun e he => ?_, hprov⟩
        have := (h.tracked.sent_lt e he).1
        omega
    exact ⟨_, h.givenBack hpend rfl (TableInv.withState htable _) hsq hkernel hslots rfl rfl
      hsettle hdone hprov hheld (h.requests.noneOffered hp hne) hgroups⟩

end PoolSystem

end Loopy.IoUring
