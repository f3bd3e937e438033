import Loopy.IoUring.Theorems

/-!
# The slots of operations

What the allocation, the search and the deactivation of operation slots do to the live array
`u->fileState.ops`. `Placed` is a new operation in a slot that was free, whether the array
had to grow for it or not, and `Fewer` a change that at most deactivates slots, through
whatever pointer.
-/

namespace Loopy.IoUring

open Loopy.EventLoop Loopy.Lib Loopy.Epoll

namespace FileState

variable {fs fs' : FileState} {op : FileOp} {addr i j id : ℕ} {p : SlotPtr}

/-- Slot `i` of the live array is in use. -/
def Active (fs : FileState) (i : ℕ) : Prop := i < fs.opsSize ∧ (fs.op i).active = true

/-- The ids of active slots are distinct, and below the next one. -/
structure Ok (fs : FileState) : Prop where
  size : 0 < fs.opsSize
  fresh : ∀ i, fs.Active i → (fs.op i).id < fs.nextId
  distinct : ∀ i j, fs.Active i → fs.Active j → (fs.op i).id = (fs.op j).id → i = j

/-- A new operation is in slot `i`, which was free. The array is where it was, or at `addr`
because no slot was free. -/
structure Placed (fs : FileState) (addr : ℕ) (op : FileOp) (fs' : FileState) (i : ℕ) : Prop where
  size : fs.opsSize ≤ fs'.opsSize
  lt : i < fs'.opsSize
  free : ¬ fs.Active i
  self : fs'.op i = { op with id := fs.nextId, active := true }
  active : ∀ j, j ≠ i → (fs'.Active j ↔ fs.Active j)
  other : ∀ j, j ≠ i → fs.Active j → fs'.op j = fs.op j
  nextId : fs'.nextId = (fs.nextId + 1) % 2 ^ 64
  moved : fs'.ops = fs.ops ∨ (fs.freeSlot = none ∧ addr ≠ 0 ∧ fs'.ops = addr)

/-- Slots were at most deactivated. -/
structure Fewer (fs fs' : FileState) : Prop where
  ops : fs'.ops = fs.ops
  size : fs'.opsSize = fs.opsSize
  nextId : fs'.nextId = fs.nextId
  active : ∀ j, fs'.Active j → fs.Active j ∧ fs'.op j = fs.op j

/-! ## Reads and writes -/

theorem store_op_self (x : FileOp) : (fs.store ⟨fs.ops, i⟩ x).op i = x := by
  simp [store, FileState.op]

theorem store_op_other (x : FileOp) (h : j ≠ i) : (fs.store ⟨fs.ops, i⟩ x).op j = fs.op j := by
  simp [store, FileState.op, h]

/-- A write through a stale pointer does not reach the live array. -/
theorem store_op_stale (x : FileOp) (h : p.addr ≠ fs.ops) : (fs.store p x).op = fs.op := by
  funext j
  show Function.update fs.mem p.addr _ fs.ops j = _
  rw [Function.update_of_ne h.symm]
  rfl

theorem store_op_live (x : FileOp) (h : p.addr = fs.ops) (hj : j ≠ p.idx) :
    (fs.store p x).op j = fs.op j := by
  obtain ⟨a, k⟩ := p
  cases h
  exact store_op_other x hj

theorem load_live (h : p.addr = fs.ops) : fs.load p = fs.op p.idx := by
  unfold load FileState.op
  rw [h]

theorem deactivate_op_self (h : p.addr = fs.ops) :
    (fs.deactivate p).op p.idx = { fs.op p.idx with active := false } := by
  obtain ⟨a, k⟩ := p
  cases h
  exact store_op_self _

theorem deactivate_fewer (fs : FileState) (p : SlotPtr) : Fewer fs (fs.deactivate p) := by
  refine ⟨rfl, rfl, rfl, fun j hj => ?_⟩
  obtain ⟨hlt, hact⟩ := hj
  have hop : (fs.deactivate p).op j = fs.op j := by
    by_cases hlive : p.addr = fs.ops
    · by_cases hj : j = p.idx
      · subst hj
        rw [deactivate_op_self hlive] at hact
        cases hact
      · exact store_op_live _ hlive hj
    · exact congrFun (store_op_stale _ hlive) j
  rw [hop] at hact
  exact ⟨⟨hlt, hact⟩, hop⟩

theorem Fewer.refl (fs : FileState) : Fewer fs fs := ⟨rfl, rfl, rfl, fun _ h => ⟨h, rfl⟩⟩

theorem finish_fewer (fs : FileState) (p : SlotPtr) (after : After) :
    Fewer fs (fs.finish p after) := by
  cases after with
  | buffer hasMore =>
    show Fewer fs (if !(fs.load p).multishot || !hasMore then fs.deactivate p else fs)
    split
    · exact deactivate_fewer fs p
    · exact .refl fs
  | more => exact .refl fs
  | complete => exact deactivate_fewer fs p

theorem Fewer.ok (h : Fewer fs fs') (hok : fs.Ok) : fs'.Ok where
  size := by rw [h.size]; exact hok.size
  fresh := fun i hi => by
    obtain ⟨hact, hop⟩ := h.active i hi
    rw [hop, h.nextId]
    exact hok.fresh i hact
  distinct := fun i j hi hj hid => by
    obtain ⟨hi', hopi⟩ := h.active i hi
    obtain ⟨hj', hopj⟩ := h.active j hj
    rw [hopi, hopj] at hid
    exact hok.distinct i j hi' hj' hid

/-! ## Searching -/

theorem freeSlot_some (h : fs.freeSlot = some i) : i < fs.opsSize ∧ ¬ fs.Active i := by
  have hpred := List.find?_some h
  have hmem := List.mem_range.mp (List.mem_of_find?_eq_some h)
  refine ⟨hmem, fun hact => ?_⟩
  rw [hact.2] at hpred
  cases hpred

/-- An active slot is found by its id. -/
theorem Ok.find (h : fs.Ok) (hi : fs.Active i) (hid : (fs.op i).id = fileOpId id) :
    ioUringFileOpFind fs id = some ⟨fs.ops, i⟩ := by
  cases hfind : ioUringFileOpFind fs id with
  | none =>
    -- the slot itself would have been found
    unfold ioUringFileOpFind at hfind
    have hall := List.find?_eq_none.mp (Option.map_eq_none_iff.mp hfind) i
      (List.mem_range.mpr hi.1)
    simp [hi.2, hid] at hall
  | some q =>
    obtain ⟨haddr, hlt, hact, hqid⟩ := ioUringFileOpFind_inv hfind
    rw [load_live haddr] at hact hqid
    have heq := h.distinct q.idx i ⟨hlt, hact⟩ hi (hqid.trans hid.symm)
    obtain ⟨a, k⟩ := q
    cases haddr
    cases heq
    rfl

/-- What is not found is not active. -/
theorem not_active_of_find (h : ioUringFileOpFind fs id = none) (hi : fs.Active i) :
    (fs.op i).id ≠ fileOpId id := by
  intro hid
  unfold ioUringFileOpFind at h
  have hall := List.find?_eq_none.mp (Option.map_eq_none_iff.mp h) i (List.mem_range.mpr hi.1)
  simp [hi.2, hid] at hall

/-! ## Allocation -/

theorem place_op (fs : FileState) (i : ℕ) (op : FileOp) (j : ℕ) : (fs.place i op).2.op j =
    (fs.store ⟨fs.ops, i⟩ { op with id := fs.nextId, active := true }).op j := rfl

theorem place_placed (hi : i < fs.opsSize) (hfree : ¬ fs.Active i) (op : FileOp) :
    Placed fs addr op (fs.place i op).2 i where
  size := le_rfl
  lt := hi
  free := hfree
  self := by
    rw [place_op]
    exact store_op_self _
  active := fun j hj => by
    show j < fs.opsSize ∧ ((fs.place i op).2.op j).active = true ↔ _
    rw [place_op, store_op_other _ hj]
    rfl
  other := fun j hj _ => by
    rw [place_op]
    exact store_op_other _ hj
  nextId := rfl
  moved := Or.inl rfl

/-- Growing keeps the active slots. -/
theorem realloc_op (newSize : ℕ) (hj : j < fs.opsSize) : (fs.realloc newSize addr).op j = fs.op j := by
  simp [realloc, FileState.op, hj]

theorem realloc_active (newSize : ℕ) (hsize : fs.opsSize ≤ newSize) :
    (fs.realloc newSize addr).Active j ↔ fs.Active j := by
  constructor
  · rintro ⟨hlt, hact⟩
    by_cases hj : j < fs.opsSize
    · rw [realloc_op newSize hj] at hact
      exact ⟨hj, hact⟩
    · simp [realloc, FileState.op, hj, FileOp.zero] at hact
  · rintro ⟨hj, hact⟩
    refine ⟨hj.trans_le hsize, ?_⟩
    rw [realloc_op newSize hj]
    exact hact

theorem grown_placed {newSize : ℕ} (hnone : fs.freeSlot = none) (haddr : addr ≠ 0)
    (hsize : fs.opsSize < newSize) (op : FileOp) :
    Placed fs addr op ((fs.realloc newSize addr).place fs.opsSize op).2 fs.opsSize := by
  have hfree : ¬ fs.Active fs.opsSize := fun h => absurd h.1 (lt_irrefl _)
  have hfree' : ¬ (fs.realloc newSize addr).Active fs.opsSize := by
    rw [realloc_active newSize hsize.le]
    exact hfree
  have hplaced : Placed (fs.realloc newSize addr) addr op _ fs.opsSize :=
    place_placed (show fs.opsSize < (fs.realloc newSize addr).opsSize from hsize) hfree' op
  refine ⟨hsize.le.trans hplaced.size, hplaced.lt, hfree, hplaced.self, fun j hj => ?_,
    fun j hj hact => ?_, hplaced.nextId, Or.inr ⟨hnone, haddr, rfl⟩⟩
  · rw [hplaced.active j hj, realloc_active newSize hsize.le]
  · rw [hplaced.other j hj ((realloc_active newSize hsize.le).mpr hact), realloc_op newSize hact.1]

/-- Below `fileBit` the counter of ids does not wrap. -/
theorem Placed.nextId_eq (h : Placed fs addr op fs' i) (hid : fs.nextId < fileBit) :
    fs'.nextId = fs.nextId + 1 := by
  rw [h.nextId, Nat.mod_eq_of_lt]
  unfold fileBit at hid
  omega

/-- A new operation gets an id of its own. -/
theorem Placed.ok (h : Placed fs addr op fs' i) (hok : fs.Ok) (hid : fs.nextId < fileBit) :
    fs'.Ok := by
  have hnext := h.nextId_eq hid
  have hself : (fs'.op i).id = fs.nextId := by rw [h.self]
  have hold : ∀ j, j ≠ i → fs'.Active j → fs.Active j ∧ (fs'.op j).id = (fs.op j).id ∧
      (fs'.op j).id < fs.nextId := by
    intro j hj hact
    have hact' := (h.active j hj).mp hact
    have hop := h.other j hj hact'
    exact ⟨hact', by rw [hop], by rw [hop]; exact hok.fresh j hact'⟩
  refine ⟨hok.size.trans_le h.size, fun j hj => ?_, fun j k hj hk heq => ?_⟩
  · rw [hnext]
    by_cases hji : j = i
    · rw [hji, hself]; omega
    · have := (hold j hji hj).2.2
      omega
  · by_cases hji : j = i
    · by_cases hki : k = i
      · rw [hji, hki]
      · have := (hold k hki hk).2.2
        rw [hji, hself] at heq
        omega
    · by_cases hki : k = i
      · have := (hold j hji hj).2.2
        rw [hki, hself] at heq
        omega
      · obtain ⟨hj', hjid, -⟩ := hold j hji hj
        obtain ⟨hk', hkid, -⟩ := hold k hki hk
        exact hok.distinct j k hj' hk' (by rw [← hjid, ← hkid]; exact heq)

theorem Placed.active_self (h : Placed fs addr op fs' i) : fs'.Active i :=
  ⟨h.lt, by rw [h.self]⟩

theorem Ok.init (bits ops n : ℕ) : (ioUringInit bits ops n).fileState.Ok := by
  have hnone : ∀ i, ¬ (ioUringInit bits ops n).fileState.Active i := by
    rintro i ⟨-, hact⟩
    cases hact
  exact ⟨Nat.succ_pos 255, fun i hi => absurd hi (hnone i), fun i j hi => absurd hi (hnone i)⟩

end FileState

/-! ## The two allocators -/

open FileState

theorem markFile_fileOpId {id : ℕ} (h : id < fileBit) : fileOpId (markFile id) = id := by
  rw [markFile, if_pos h, fileOpId, Nat.add_mod_right, Nat.mod_eq_of_lt h]

theorem markFile_ne_zero {id : ℕ} (h : id < fileBit) : markFile id ≠ 0 := by
  rw [markFile, if_pos h]
  unfold fileBit
  omega

/-- The callback an operation is completed with. -/
def FileOp.callback (op : FileOp) : ℕ := if op.bufferCb ≠ 0 then op.bufferCb else op.cb

/-- The callback a request asks for. -/
def OpRequest.callback : OpRequest → ℕ
  | .read _ _ _ _ cb _ | .write _ _ _ _ cb _ | .acceptMultishot _ _ cb _
  | .provideBuffers _ _ _ _ _ cb _ | .removeBuffers _ _ cb _ | .recvPooled _ _ _ cb _
  | .readPooled _ _ _ cb _ => cb

/-- The callback's argument a request asks for. -/
def OpRequest.userData : OpRequest → ℕ
  | .read _ _ _ _ _ userData | .write _ _ _ _ _ userData | .acceptMultishot _ _ _ userData
  | .provideBuffers _ _ _ _ _ _ userData | .removeBuffers _ _ _ userData
  | .recvPooled _ _ _ _ userData | .readPooled _ _ _ _ userData => userData

/-- An allocator refuses, or places the operation it was asked for. -/
inductive Alloc (fs : FileState) (addr cb userData : ℕ) : ℕ × FileState → Prop
  | refused : Alloc fs addr cb userData (0, fs)
  | placed {op : FileOp} {fs' : FileState} {i : ℕ} (hp : Placed fs addr op fs' i)
      (hcb : op.callback = cb) (hdata : op.userData = userData) :
      Alloc fs addr cb userData (markFile fs.nextId, fs')

variable {fs : FileState} {addr : ℕ}

theorem ioUringFileOpAllocate_alloc (hok : fs.Ok) (cb userData addr : ℕ) :
    Alloc fs addr cb userData (ioUringFileOpAllocate fs cb userData addr) := by
  unfold ioUringFileOpAllocate
  simp only []
  split
  · exact .refused
  · split
    · rename_i i hi
      obtain ⟨hlt, hfree⟩ := freeSlot_some hi
      exact .placed (place_placed hlt hfree _) rfl rfl
    · rename_i hnone
      split
      · exact .refused
      · rename_i haddr
        have hsize := hok.size
        rw [Nat.mul_div_cancel _ (by omega)]
        exact .placed (grown_placed hnone haddr (by omega) _) rfl rfl

theorem ioUringBufferOpAllocate_alloc (hok : fs.Ok) (bufferCb userData groupId addr : ℕ) :
    Alloc fs addr bufferCb userData
      (ioUringBufferOpAllocate fs bufferCb userData groupId addr) := by
  have hcb : (FileOp.mk 0 0 userData true false bufferCb groupId).callback = bufferCb := by
    unfold FileOp.callback
    split
    · rfl
    · rename_i h
      exact (not_not.mp h).symm
  unfold ioUringBufferOpAllocate
  simp only []
  split
  · rename_i i hi
    obtain ⟨hlt, hfree⟩ := freeSlot_some hi
    exact .placed (place_placed hlt hfree _) hcb rfl
  · rename_i hnone
    split
    · exact .refused
    · rename_i haddr
      have hsize := hok.size
      rw [if_pos (by omega)]
      exact .placed (grown_placed hnone haddr (by omega) _) hcb rfl

theorem OpRequest.alloc_spec (r : OpRequest) (hok : fs.Ok) (addr : ℕ) :
    Alloc fs addr r.callback r.userData (r.alloc addr fs) := by
  cases r with
  | recvPooled => exact ioUringBufferOpAllocate_alloc hok _ _ _ _
  | readPooled => exact ioUringBufferOpAllocate_alloc hok _ _ _ _
  | _ => exact ioUringFileOpAllocate_alloc hok _ _ _

/-! ## A submission -/

/-- Marking the new operation as multishot. -/
theorem FileState.Placed.marked {fs' : FileState} {i : ℕ} {op : FileOp}
    (h : Placed fs addr op fs' i) (hok : fs.Ok) (hid : fs.nextId < fileBit) (multishot : Bool) :
    Placed fs addr { op with multishot := multishot || op.multishot }
      (IoUringState.marked multishot (markFile fs.nextId) fs') i := by
  cases multishot with
  | false => exact h
  | true =>
    have hfind : ioUringFileOpFind fs' (markFile fs.nextId) = some ⟨fs'.ops, i⟩ := by
      refine (h.ok hok hid).find h.active_self ?_
      rw [h.self, markFile_fileOpId hid]
    have heq : IoUringState.marked true (markFile fs.nextId) fs' = fs'.setMultishot ⟨fs'.ops, i⟩ := by
      simp [IoUringState.marked, hfind]
    rw [heq]
    have hother : ∀ j, j ≠ i → (fs'.setMultishot ⟨fs'.ops, i⟩).op j = fs'.op j :=
      fun j hj => store_op_other _ hj
    refine ⟨h.size, h.lt, h.free, ?_, fun j hj => ?_, fun j hj hact => ?_, h.nextId, h.moved⟩
    · show (fs'.store ⟨fs'.ops, i⟩ { fs'.op i with multishot := true }).op i = _
      rw [store_op_self, h.self]
      rfl
    · rw [← h.active j hj]
      show j < fs'.opsSize ∧ ((fs'.setMultishot ⟨fs'.ops, i⟩).op j).active = true ↔ _
      rw [hother j hj]
      rfl
    · rw [hother j hj]
      exact h.other j hj hact

/-- Dropping the operation again. -/
theorem FileState.Placed.dropped {fs' : FileState} {i : ℕ} {op : FileOp}
    (h : Placed fs addr op fs' i) (hok : fs.Ok) (hid : fs.nextId < fileBit) :
    Fewer fs' (IoUringState.dropped (markFile fs.nextId) fs') ∧
      ∀ j, (IoUringState.dropped (markFile fs.nextId) fs').Active j → j ≠ i := by
  have hfind : ioUringFileOpFind fs' (markFile fs.nextId) = some ⟨fs'.ops, i⟩ := by
    refine (h.ok hok hid).find h.active_self ?_
    rw [h.self, markFile_fileOpId hid]
  have heq : IoUringState.dropped (markFile fs.nextId) fs' = fs'.deactivate ⟨fs'.ops, i⟩ := by
    simp [IoUringState.dropped, hfind]
  rw [heq]
  refine ⟨deactivate_fewer _ _, ?_⟩
  rintro j ⟨hlt, hact⟩ rfl
  rw [deactivate_op_self (p := ⟨fs'.ops, j⟩) rfl] at hact
  cases hact

/-- A buffer operation without a callback: `ioUringBufferOpAllocate` does not refuse it, as
`ioUringFileOpAllocate` would. -/
def OpRequest.nullBufferCb : OpRequest → Bool
  | .recvPooled _ _ _ cb _ | .readPooled _ _ _ cb _ => cb == 0
  | _ => false

theorem ioUringFileOpAllocate_callback {cb userData : ℕ}
    (h : (ioUringFileOpAllocate fs cb userData addr).1 ≠ 0) : cb ≠ 0 := by
  rintro rfl
  exact h rfl

theorem OpRequest.alloc_callback {r : OpRequest} (hnull : r.nullBufferCb = false)
    (h : (r.alloc addr fs).1 ≠ 0) : r.callback ≠ 0 := by
  cases r with
  | recvPooled => simpa [nullBufferCb, callback] using hnull
  | readPooled => simpa [nullBufferCb, callback] using hnull
  | _ => exact ioUringFileOpAllocate_callback h

/-- A successful submission places the operation in a free slot, under a new id, or changes
no slot. -/
theorem submitRequest_spec (u : IoUringState) (addr : ℕ) (r : OpRequest) (hok : u.fileState.Ok)
    (hid : u.fileState.nextId < fileBit) (hnull : r.nullBufferCb = false) :
    ((u.submitRequest addr true r).1 = 0 ∧
      (u.submitRequest addr true r).2.fileState = u.fileState) ∨
    ((u.submitRequest addr true r).1 ≠ 0 ∧ ∃ op i,
      Placed u.fileState addr op (u.submitRequest addr true r).2.fileState i ∧
      Machine.acceptedOp (u.submitRequest addr true r).2 (u.submitRequest addr true r).1 =
        (u.submitRequest addr true r).2.fileState.op i ∧
      op.callback = r.callback ∧ op.userData = r.userData ∧ op.callback ≠ 0) := by
  obtain ⟨multishot, sqe, h⟩ := u.submitRequest_inv addr true r
  generalize u.submitRequest addr true r = res at h
  cases h with
  | early => exact Or.inl ⟨rfl, rfl⟩
  | invalid hget => exact Or.inl ⟨rfl, (IoUringState.ioUringGetSqe_spares hget).fileState⟩
  | @refused _ v fs hget halloc =>
    have hv := (IoUringState.ioUringGetSqe_spares hget).fileState
    have hspec := r.alloc_spec hok addr
    rw [hv] at halloc
    rw [halloc] at hspec
    refine Or.inl ⟨rfl, ?_⟩
    generalize hzero : (0 : ℕ) = id at hspec
    cases hspec with
    | refused => rfl
    | placed => exact absurd hzero.symm (markFile_ne_zero hid)
  | @sent v id fs hget halloc hne =>
    have hv := (IoUringState.ioUringGetSqe_spares hget).fileState
    have hspec := r.alloc_spec hok addr
    have hcallback : (r.alloc addr u.fileState).1 ≠ 0 → r.callback ≠ 0 :=
      OpRequest.alloc_callback hnull
    rw [hv] at halloc
    rw [halloc] at hspec hcallback
    have hfs : ((({ v with fileState := IoUringState.marked multishot id fs }.submit (sqe id)
        true).report (fileOpId id) true)).fileState = IoUringState.marked multishot id fs :=
      (IoUringState.submit_spares _ (sqe id) true).fileState
    refine Or.inr ⟨hne, ?_⟩
    cases hspec with
    | refused => exact absurd rfl hne
    | @placed op fs i hp hcb hdata =>
      have hp' := hp.marked hok hid multishot
      have hne' : op.callback ≠ 0 := hcb ▸ hcallback hne
      refine ⟨{ op with multishot := multishot || op.multishot }, i, by rw [hfs]; exact hp', ?_, hcb,
        hdata, hne'⟩
      have hfind := (hp'.ok hok hid).find hp'.active_self
        (show _ = fileOpId (markFile u.fileState.nextId) by
          rw [hp'.self, markFile_fileOpId hid])
      unfold Machine.acceptedOp
      rw [hfs, hfind]
      rfl

end Loopy.IoUring
