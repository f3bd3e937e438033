import Loopy.Evport.Adapter
import Loopy.EventLoop.Theorems
import Loopy.Lib.Run

/-!
# The association law of the event-port adapter

Each registered descriptor is represented exactly once, in the kernel or in the pending
slots, with the mask of the table (`AssociationLaw`). A registration and a poll keep the law.
An unregistration keeps it for a pending descriptor; for one in the kernel it associates the
mask of the table, which the core has not changed yet, so the directions that were to be
dropped stay (`association_left_behind`).
-/

namespace Loopy.Evport

open Loopy.EventLoop Loopy.Lib

/-! ## Representations -/

/-- The pending slots of a descriptor. -/
def EvportState.slots (s : EvportState) (fd : ℕ) : List ℕ :=
  (List.range s.npending).filter fun i => s.pendingFds i = fd

/-- The masks a descriptor is represented with: in the kernel, then in the pending slots. -/
def EvportState.represented (s : EvportState) (fd : ℕ) : List LoopyAction :=
  (s.port fd).toList.map (·.user) ++ (s.slots fd).map s.pendingMasks

/-- The masks of a descriptor that is represented exactly as often as it is registered. -/
def once (mask : LoopyAction) : List LoopyAction := if mask = .NONE then [] else [mask]

/-- Every registered descriptor is represented once, with its mask, and no other is. -/
def AssociationLaw (events : ℕ → LoopyFileEvent) (s : EvportState) : Prop :=
  ∀ fd, s.represented fd = once (events fd).mask

variable {mask : LoopyAction} {s : EvportState} {fd i fd' : ℕ} {events : ℕ → LoopyFileEvent}

theorem once_of_ne (h : mask ≠ .NONE) : once mask = [mask] := if_neg h

theorem lookupPending_eq (s : EvportState) (fd : ℕ) :
    loopyInternalLookupPending s fd = (s.slots fd).head? := by
  rw [loopyInternalLookupPending, EvportState.slots, List.head?_filter]

theorem mem_slots : i ∈ s.slots fd ↔ i < s.npending ∧ s.pendingFds i = fd := by
  rw [EvportState.slots, List.mem_filter, List.mem_range, decide_eq_true_iff]

/-- A descriptor that is pending is so in one slot, with its mask, and not in the kernel. -/
theorem AssociationLaw.pending (h : AssociationLaw events s) (hi : i ∈ s.slots fd) :
    s.port fd = none ∧ s.slots fd = [i] ∧ s.pendingMasks i = (events fd).mask ∧
      (events fd).mask ≠ .NONE := by
  have hrep := h fd
  unfold EvportState.represented once at hrep
  obtain ⟨before, after, hslots⟩ := List.append_of_mem hi
  by_cases hmask : (events fd).mask = .NONE
  · rw [if_pos hmask, hslots] at hrep
    simp at hrep
  · rw [if_neg hmask, hslots] at hrep
    have hlen := congrArg List.length hrep
    simp only [List.length_append, List.length_map, List.length_cons, List.length_nil] at hlen
    have hport : s.port fd = none := by
      cases hp : s.port fd with
      | none => rfl
      | some a =>
        rw [hp] at hlen
        simp only [Option.toList_some, List.length_cons, List.length_nil] at hlen
        omega
    have hbefore : before = [] := List.length_eq_zero_iff.mp (by omega)
    have hafter : after = [] := List.length_eq_zero_iff.mp (by omega)
    rw [hport, hbefore, hafter] at hrep
    simp only [Option.toList_none, List.map_nil, List.nil_append, List.map_cons,
      List.cons.injEq, and_true] at hrep
    refine ⟨hport, ?_, hrep, hmask⟩
    rw [hslots, hbefore, hafter]
    rfl

/-- A descriptor that is not pending is in the kernel, if it is registered. -/
theorem AssociationLaw.associated (h : AssociationLaw events s)
    (hnone : loopyInternalLookupPending s fd = none) :
    s.slots fd = [] ∧ (s.port fd).toList.map (·.user) = once (events fd).mask := by
  rw [lookupPending_eq, List.head?_eq_none_iff] at hnone
  have hrep := h fd
  unfold EvportState.represented at hrep
  rw [hnone, List.map_nil, List.append_nil] at hrep
  exact ⟨hnone, hrep⟩

theorem mem_of_lookupPending (h : loopyInternalLookupPending s fd = some i) : i ∈ s.slots fd := by
  rw [lookupPending_eq] at h
  exact List.mem_of_head? h

/-! ## Changes of one descriptor -/

/-- The law after a change of one descriptor. -/
theorem AssociationLaw.update {s' : EvportState} {fe : LoopyFileEvent}
    (h : AssociationLaw events s) (hfd : s'.represented fd = once fe.mask)
    (hother : ∀ fd', fd' ≠ fd → s'.represented fd' = s.represented fd') :
    AssociationLaw (Function.update events fd fe) s' := by
  intro fd'
  by_cases heq : fd' = fd
  · rw [heq, Function.update_self]
    exact hfd
  · rw [Function.update_of_ne heq, hother fd' heq]
    exact h fd'

theorem associate_represented (s : EvportState) (fd : ℕ) (mask : LoopyAction) (fd' : ℕ) :
    (loopyInternalAssociate s fd mask).represented fd' =
      if fd' = fd then mask :: (s.slots fd).map s.pendingMasks else s.represented fd' := by
  unfold EvportState.represented
  by_cases heq : fd' = fd
  · subst heq
    simp only [loopyInternalAssociate, Function.update_self, if_true]
    rfl
  · simp only [loopyInternalAssociate, Function.update_of_ne heq, if_neg heq]
    rfl

theorem slots_ne {j : ℕ} (hi : i ∈ s.slots fd) (hj : j ∈ s.slots fd') (hne : fd' ≠ fd) : j ≠ i := by
  intro heq
  have h1 := (mem_slots.mp hj).2
  have h2 := (mem_slots.mp hi).2
  rw [heq, h2] at h1
  exact hne (by exact_mod_cast h1.symm)

/-- The masks in the slots of another descriptor than the one whose slot is written. -/
theorem map_setMask (hi : i ∈ s.slots fd) (hne : fd' ≠ fd) (mask : LoopyAction) :
    (s.slots fd').map (Function.update s.pendingMasks i mask) = (s.slots fd').map s.pendingMasks := by
  apply List.map_congr_left
  intro j hj
  exact Function.update_of_ne (slots_ne hi hj hne) _ _

/-- Another mask in a slot of `fd`. -/
theorem setMask_represented (s : EvportState) (hi : i ∈ s.slots fd) (mask : LoopyAction)
    (hne : fd' ≠ fd) :
    ({ s with pendingMasks := Function.update s.pendingMasks i mask } : EvportState).represented fd' =
      s.represented fd' := by
  show _ ++ (s.slots fd').map (Function.update s.pendingMasks i mask) = _
  rw [map_setMask hi hne]
  rfl

/-- The one slot of `fd` is given up; its mask is written as well. -/
theorem clear_represented (s' : EvportState) (hslots : s.slots fd = [i])
    (hn : s'.npending = s.npending) (hfds : s'.pendingFds = Function.update s.pendingFds i (-1))
    (hmasks : s'.pendingMasks = Function.update s.pendingMasks i mask) (fd' : ℕ) :
    s'.represented fd' = (s'.port fd').toList.map (·.user) ++
      if fd' = fd then [] else (s.slots fd').map s.pendingMasks := by
  have hi : i ∈ s.slots fd := by
    rw [hslots]
    exact List.mem_singleton_self i
  unfold EvportState.represented
  congr 1
  by_cases heq : fd' = fd
  · rw [if_pos heq, List.map_eq_nil_iff, List.eq_nil_iff_forall_not_mem]
    intro j hj
    rw [mem_slots, hn, hfds, heq] at hj
    have hji : j ≠ i := by
      intro hji
      rw [hji, Function.update_self] at hj
      omega
    rw [Function.update_of_ne hji] at hj
    have hmem := mem_slots.mpr hj
    rw [hslots] at hmem
    exact hji (List.mem_singleton.mp hmem)
  · have hsame : s'.slots fd' = s.slots fd' := by
      unfold EvportState.slots
      rw [hn, hfds]
      apply List.filter_congr
      intro j _
      by_cases hji : j = i
      · subst hji
        have hfd := (mem_slots.mp hi).2
        have hne : s.pendingFds j ≠ fd' := by
          rw [hfd]
          exact_mod_cast Ne.symm heq
        simp [hne]
      · rw [Function.update_of_ne hji]
    rw [if_neg heq, hsame, hmasks, map_setMask hi heq]

/-! ## Registration -/

theorem union_register (fe : LoopyFileEvent) (mask : LoopyAction) (cb clientData : ℕ) :
    mask.union fe.mask = (fe.register mask cb clientData).mask ∧
      fe.mask.union (mask.union fe.mask) = (fe.register mask cb clientData).mask := by
  obtain ⟨readCallback, writeCallback, data, read, write⟩ := fe
  obtain ⟨r, w⟩ := mask
  cases read <;> cases write <;> cases r <;> cases w <;> exact ⟨rfl, rfl⟩

theorem AssociationLaw.addEvent (h : AssociationLaw events s) (fd : ℕ) (hmask : mask ≠ .NONE)
    (cb clientData : ℕ) :
    AssociationLaw (Function.update events fd ((events fd).register mask cb clientData))
      (loopyInternalAddEvent events s fd mask).2 := by
  obtain ⟨hunion, hunion'⟩ := union_register (events fd) mask cb clientData
  have hne : ((events fd).register mask cb clientData).mask ≠ .NONE :=
    LoopyAction.union_ne_none hmask
  unfold loopyInternalAddEvent
  cases hlook : loopyInternalLookupPending s fd with
  | some i =>
    have hi := mem_of_lookupPending hlook
    obtain ⟨hport, hslots, hold, -⟩ := h.pending hi
    refine h.update ?_ fun fd' hfd' => setMask_represented s hi _ hfd'
    rw [once_of_ne hne]
    show (s.port fd).toList.map _ ++ (s.slots fd).map (Function.update s.pendingMasks i _) = _
    rw [hport, hslots, hold, hunion']
    simp
  | none =>
    obtain ⟨hslots, -⟩ := h.associated hlook
    refine h.update ?_ fun fd' hfd' => ?_
    · rw [associate_represented, if_pos rfl, hslots, hunion, once_of_ne hne]
      rfl
    · rw [associate_represented, if_neg hfd']

/-- An unregistration of a pending descriptor, or one that drops no registered direction. -/
theorem AssociationLaw.delEvent (h : AssociationLaw events s) (fd : ℕ) (mask : LoopyAction)
    (hreg : (events fd).mask ≠ .NONE)
    (hok : loopyInternalLookupPending s fd = none → (events fd).mask.diff mask = (events fd).mask) :
    AssociationLaw
      (Function.update events fd { events fd with mask := (events fd).mask.diff mask })
      (loopyInternalDelEvent events s fd mask) := by
  unfold loopyInternalDelEvent
  cases hlook : loopyInternalLookupPending s fd with
  | some i =>
    have hi := mem_of_lookupPending hlook
    obtain ⟨hport, hslots, hold, -⟩ := h.pending hi
    simp only [hold]
    by_cases hleft : (events fd).mask.diff mask = .NONE
    · have hclear := clear_represented { s with
        pendingMasks := Function.update s.pendingMasks i ((events fd).mask.diff mask)
        pendingFds := Function.update s.pendingFds i (-1) } hslots rfl rfl rfl
      rw [if_pos hleft]
      refine h.update ((hclear fd).trans ?_) fun fd' hfd' => (hclear fd').trans ?_
      · rw [if_pos rfl, hport, hleft]
        rfl
      · rw [if_neg hfd']
        rfl
    · rw [if_neg hleft]
      refine h.update ?_ fun fd' hfd' => setMask_represented s hi _ hfd'
      rw [once_of_ne hleft]
      show (s.port fd).toList.map _ ++ (s.slots fd).map (Function.update s.pendingMasks i _) = _
      rw [hport, hslots]
      simp
  | none =>
    obtain ⟨hslots, -⟩ := h.associated hlook
    simp only [if_neg hreg]
    refine h.update ?_ fun fd' hfd' => ?_
    · show _ = once ((events fd).mask.diff mask)
      rw [hok hlook, associate_represented, if_pos rfl, hslots, once_of_ne hreg]
      rfl
    · rw [associate_represented, if_neg hfd']

/-! ## Polling -/

/-- Re-associating a slot moves its descriptor to the kernel. -/
theorem AssociationLaw.reassociate (h : AssociationLaw events s)
    (hfds : ∀ j, s.pendingFds j = -1 ∨ 0 ≤ s.pendingFds j) (hi : i < s.npending) :
    AssociationLaw events (reassociate s i) := by
  unfold Evport.reassociate
  split
  · exact h
  · rename_i hfd
    obtain ⟨fd, hfd'⟩ := Int.eq_ofNat_of_zero_le ((hfds i).resolve_left hfd)
    have hmem : i ∈ s.slots fd := mem_slots.mpr ⟨hi, hfd'⟩
    obtain ⟨hport, hslots, hold, hreg⟩ := h.pending hmem
    rw [hfd', Int.toNat_natCast]
    have hclear := clear_represented { loopyInternalAssociate s fd (s.pendingMasks i) with
      pendingMasks := Function.update s.pendingMasks i .NONE
      pendingFds := Function.update s.pendingFds i (-1) } hslots rfl rfl rfl
    have hupdate : Function.update events fd (events fd) = events := Function.update_eq_self fd events
    rw [← hupdate]
    refine h.update ((hclear fd).trans ?_) fun fd' hne => (hclear fd').trans ?_
    · show (Function.update s.port fd (some _) fd).toList.map _ ++ _ = _
      rw [if_pos rfl, once_of_ne hreg, ← hold, Function.update_self]
      rfl
    · show (Function.update s.port fd (some _) fd').toList.map _ ++ _ = _
      rw [if_neg hne, Function.update_of_ne hne]
      rfl

/-- What the loop over the pending slots keeps, with the slots below `k` given up. -/
structure Restoring (events : ℕ → LoopyFileEvent) (n : ℕ) (s : EvportState) (k : ℕ) : Prop where
  law : AssociationLaw events s
  fds : ∀ j, s.pendingFds j = -1 ∨ 0 ≤ s.pendingFds j
  npending : s.npending = n
  done : ∀ j, j < k → s.pendingFds j = -1

theorem Restoring.step {n k : ℕ} (h : Restoring events n s k) (hk : k < n) :
    Restoring events n (Evport.reassociate s k) (k + 1) := by
  refine ⟨h.law.reassociate h.fds (h.npending ▸ hk), ?_, ?_, ?_⟩
  all_goals unfold Evport.reassociate; split
  · exact h.fds
  · intro j
    show Function.update s.pendingFds k (-1) j = -1 ∨ 0 ≤ Function.update s.pendingFds k (-1) j
    by_cases hjk : j = k
    · rw [hjk, Function.update_self]
      exact Or.inl rfl
    · rw [Function.update_of_ne hjk]
      exact h.fds j
  · exact h.npending
  · exact h.npending
  · rename_i hfd
    intro j hj
    by_cases hjk : j = k
    · rw [hjk]
      exact hfd
    · exact h.done j (by omega)
  · intro j hj
    show Function.update s.pendingFds k (-1) j = -1
    by_cases hjk : j = k
    · rw [hjk, Function.update_self]
    · rw [Function.update_of_ne hjk]
      exact h.done j (by omega)

/-- After the loop every association is in the kernel. -/
theorem Restoring.loop (h : Restoring events s.npending s 0) :
    Restoring events s.npending ((List.range s.npending).foldl Evport.reassociate s)
      s.npending := by
  have hall : ∀ k, k ≤ s.npending →
      Restoring events s.npending ((List.range k).foldl Evport.reassociate s) k := by
    intro k
    induction k with
    | zero => exact fun _ => h
    | succ k ih =>
      intro hk
      rw [List.range_succ, List.foldl_append]
      exact (ih (by omega)).step (by omega)
  exact hall _ le_rfl

/-- `port_getn` hands out associations and keeps the rest. -/
theorem portGetn_spec (ready : List (ℕ × BitVec 32)) (s : EvportState) (fd : ℕ) :
    (s.port fd).toList.map (·.user) =
      ((portGetn ready s).2.port fd).toList.map (·.user) ++
        ((portGetn ready s).1.filter (·.object = fd)).map (·.user) := by
  induction ready generalizing s with
  | nil => simp [portGetn]
  | cons r ready ih =>
    obtain ⟨fd', events⟩ := r
    cases hport : s.port fd' with
    | none =>
      simp only [portGetn, hport]
      exact ih s
    | some a =>
      simp only [portGetn, hport]
      have hih := ih (portDissociate s fd')
      by_cases heq : fd' = fd
      · subst heq
        -- once handed out it is not associated any more
        simp only [portDissociate, Function.update_self, Option.toList_none, List.map_nil] at hih
        obtain ⟨hrest, hevs⟩ := List.append_eq_nil_iff.mp hih.symm
        simp only [List.filter_cons, decide_true, if_true, List.map_cons, hport]
        simp only [portDissociate] at hrest hevs ⊢
        rw [hrest, hevs]
        rfl
      · have hother : (portDissociate s fd').port fd = s.port fd :=
          Function.update_of_ne (Ne.symm heq) _ _
        rw [hother] at hih
        rw [hih]
        simp [heq]

/-- What `port_getn` returns was associated, and is returned once. -/
theorem portGetn_nodup (ready : List (ℕ × BitVec 32)) (s : EvportState) :
    ((portGetn ready s).1.map (·.object)).Nodup ∧
      ∀ e ∈ (portGetn ready s).1, (s.port e.object).isSome = true := by
  induction ready generalizing s with
  | nil => simp [portGetn]
  | cons r ready ih =>
    obtain ⟨fd, events⟩ := r
    cases hport : s.port fd with
    | none =>
      simp only [portGetn, hport]
      exact ih s
    | some a =>
      obtain ⟨hnodup, hsome⟩ := ih (portDissociate s fd)
      simp only [portGetn, hport]
      have hnot : ∀ e ∈ (portGetn ready (portDissociate s fd)).1, e.object ≠ fd := by
        intro e he heq
        have hs := hsome e he
        rw [heq] at hs
        simp [portDissociate] at hs
      refine ⟨?_, ?_⟩
      · rw [List.map_cons, List.nodup_cons]
        refine ⟨?_, hnodup⟩
        intro hmem
        obtain ⟨e, he, heq⟩ := List.mem_map.mp hmem
        exact hnot e he heq
      · intro e he
        rcases List.mem_cons.mp he with rfl | he
        · exact hport ▸ rfl
        · have hs := hsome e he
          have hother : (portDissociate s fd).port e.object = s.port e.object :=
            Function.update_of_ne (hnot e he) _ _
          rwa [hother] at hs

theorem portGetn_pendingFds (ready : List (ℕ × BitVec 32)) (s : EvportState) :
    (portGetn ready s).2.pendingFds = s.pendingFds := by
  induction ready generalizing s with
  | nil => rfl
  | cons r ready ih =>
    obtain ⟨fd, events⟩ := r
    cases hport : s.port fd with
    | none =>
      simp only [portGetn, hport]
      exact ih s
    | some a =>
      simp only [portGetn, hport]
      exact ih (portDissociate s fd)

/-- The pending slots behind a poll hold what it returned. -/
theorem setPending_slots (s : EvportState) (evs : List PortEvent) (fd : ℕ) :
    ((setPending s evs).slots fd).map (setPending s evs).pendingMasks =
      (evs.filter (·.object = fd)).map (·.user) := by
  have hevs : evs = (List.range evs.length).map fun i => (evs[i]?).getD ⟨0, 0, .NONE⟩ := by
    apply List.ext_getElem?
    intro i
    by_cases hi : i < evs.length
    · simp [hi]
    · simp [hi]
  have hget : ∀ i ∈ List.range evs.length, (setPending s evs).pendingFds i =
      ((evs[i]?).getD ⟨0, 0, .NONE⟩).object ∧
      (setPending s evs).pendingMasks i = ((evs[i]?).getD ⟨0, 0, .NONE⟩).user := by
    intro i hi
    have hlt := List.mem_range.mp hi
    simp [setPending, hlt]
  conv_rhs => rw [hevs, List.filter_map, List.map_map]
  show ((List.range evs.length).filter _).map _ = _
  have hfilter : (List.range evs.length).filter (fun i => (setPending s evs).pendingFds i = fd) =
      (List.range evs.length).filter
        ((fun e : PortEvent => decide (e.object = fd)) ∘ fun i => (evs[i]?).getD ⟨0, 0, .NONE⟩) := by
    apply List.filter_congr
    intro i hi
    rw [(hget i hi).1]
    simp
  rw [hfilter]
  apply List.map_congr_left
  intro i hi
  exact (hget i (List.mem_of_mem_filter hi)).2

/-- The law, with the descriptors in the pending array that the adapter writes there. -/
structure AdapterInv (events : ℕ → LoopyFileEvent) (s : EvportState) : Prop where
  law : AssociationLaw events s
  fds : ∀ j, s.pendingFds j = -1 ∨ 0 ≤ s.pendingFds j

theorem addEvent_pendingFds (events : ℕ → LoopyFileEvent) (s : EvportState) (fd : ℕ)
    (mask : LoopyAction) :
    (loopyInternalAddEvent events s fd mask).1 = true ∧
      (loopyInternalAddEvent events s fd mask).2.pendingFds = s.pendingFds := by
  unfold loopyInternalAddEvent
  cases loopyInternalLookupPending s fd <;> exact ⟨rfl, rfl⟩

theorem delEvent_pendingFds (events : ℕ → LoopyFileEvent) (s : EvportState) (fd : ℕ)
    (mask : LoopyAction) (j : ℕ) :
    (loopyInternalDelEvent events s fd mask).pendingFds j = -1 ∨
      (loopyInternalDelEvent events s fd mask).pendingFds j = s.pendingFds j := by
  unfold loopyInternalDelEvent
  cases loopyInternalLookupPending s fd with
  | none =>
    simp only []
    split <;> exact Or.inr rfl
  | some i =>
    simp only []
    split
    · by_cases hji : j = i
      · rw [hji]
        exact Or.inl (Function.update_self _ _ _)
      · exact Or.inr (Function.update_of_ne hji _ _)
    · exact Or.inr rfl

/-- A poll keeps the law, and reports registered descriptors, each once. -/
theorem AdapterInv.poll (h : AdapterInv events s) (ready : List (ℕ × BitVec 32)) :
    AdapterInv events (loopyInternalPoll ready s).2 ∧
      ((loopyInternalPoll ready s).1.map (·.fd)).Nodup ∧
      ∀ ev ∈ (loopyInternalPoll ready s).1, (events ev.fd).mask ≠ .NONE := by
  have hloop := Restoring.loop ⟨h.law, h.fds, rfl, fun j hj => absurd hj (Nat.not_lt_zero j)⟩
  have hnpending := hloop.npending
  unfold loopyInternalPoll
  generalize (List.range s.npending).foldl Evport.reassociate s = s₀ at hloop hnpending
  -- every association is in the kernel now
  have hkernel : ∀ fd, (s₀.port fd).toList.map (·.user) = once (events fd).mask := by
    intro fd
    have hslots : s₀.slots fd = [] := by
      rw [List.eq_nil_iff_forall_not_mem]
      intro i hi
      obtain ⟨hlt, hfd⟩ := mem_slots.mp hi
      rw [hloop.done i (by omega)] at hfd
      omega
    have hrep := hloop.law fd
    rw [EvportState.represented, hslots, List.map_nil, List.append_nil] at hrep
    exact hrep
  simp only []
  have hspec := portGetn_spec (ready.take MAX_EVENT_BATCHSZ) { s₀ with npending := 0 }
  have hfds := portGetn_pendingFds (ready.take MAX_EVENT_BATCHSZ) { s₀ with npending := 0 }
  obtain ⟨hnodup, hsome⟩ := portGetn_nodup (ready.take MAX_EVENT_BATCHSZ) { s₀ with npending := 0 }
  generalize portGetn (ready.take MAX_EVENT_BATCHSZ) { s₀ with npending := 0 } = r at *
  obtain ⟨evs, s₁⟩ := r
  refine ⟨⟨fun fd => ?_, fun j => ?_⟩, ?_, ?_⟩
  · rw [← hkernel fd, EvportState.represented, setPending_slots]
    exact (hspec fd).symm
  · show ((evs[j]?).map fun e => (e.object : ℤ)).getD (s₁.pendingFds j) = -1 ∨ 0 ≤ _
    cases hj : evs[j]? with
    | some e =>
      right
      simp [setPending, hj]
    | none =>
      have hs₁ : s₁.pendingFds j = s₀.pendingFds j := congrFun hfds j
      simp only [setPending, hj, Option.map_none, Option.getD_none, hs₁]
      exact hloop.fds j
  · rw [List.map_map]
    exact hnodup
  · intro ev hev
    obtain ⟨e, he, rfl⟩ := List.mem_map.mp hev
    intro hnone
    have hport := hkernel e.object
    rw [hnone] at hport
    obtain ⟨a, ha⟩ := Option.isSome_iff_exists.mp (hsome e he)
    rw [show s₀.port e.object = some a from ha] at hport
    cases hport

/-! ## Runs -/

/-- An unregistration drops a registered direction only of a descriptor that is pending. -/
def DropsPending (l : LoopyLoop EvportState) : Input → Prop
  | .call c _ => ∀ s ∈ l.state, ∀ u ∈ c.unregistration,
      loopyInternalLookupPending s u.1.toNat = none →
        (l.events u.1.toNat).mask.diff u.2 = (l.events u.1.toNat).mask
  | .poll _ => True

instance (l : LoopyLoop EvportState) : (i : Input) → Decidable (DropsPending l i)
  | .call c _ => inferInstanceAs (Decidable (∀ s ∈ l.state, ∀ u ∈ c.unregistration,
      loopyInternalLookupPending s u.1.toNat = none →
        (l.events u.1.toNat).mask.diff u.2 = (l.events u.1.toNat).mask))
  | .poll _ => isTrue trivial

/-- The tables agree with themselves and with the adapter. -/
structure EvportInv (l : LoopyLoop EvportState) : Prop where
  table : TableInv l
  adapter : ∃ s, l.state = some s ∧ AdapterInv l.events s

theorem EvportInv.fresh {n : ℕ} (hn : 1 ≤ n) (hn31 : n < 2 ^ 31) (addr : ℕ) :
    EvportInv (.fresh evportAdapter n addr) :=
  ⟨.fresh hn hn31 addr, _, rfl, fun _ => rfl, fun _ => Or.inl rfl⟩

/-- The entries of a poll fit the table of fired events. -/
theorem fired_length_le {l : LoopyLoop EvportState} (ht : TableInv l)
    {fired : List LoopyFiredEvent} (hnodup : (fired.map (·.fd)).Nodup)
    (hreg : ∀ ev ∈ fired, (l.events ev.fd).mask ≠ .NONE) : fired.length ≤ l.setSize := by
  have hsub : (fired.map (·.fd)).toFinset ⊆ Finset.range l.setSize := by
    intro fd hfd
    obtain ⟨ev, hev, rfl⟩ := List.mem_map.mp (List.mem_toFinset.mp hfd)
    exact Finset.mem_range.mpr (ht.lt_setSize (hreg ev hev))
  have hcard := Finset.card_le_card hsub
  rw [List.toFinset_card_of_nodup hnodup, List.length_map, Finset.card_range] at hcard
  exact hcard

theorem EvportInv.step {l l' : LoopyLoop EvportState} {i : Input} (h : EvportInv l)
    (hok : DropsPending l i) (hstep : step l i = some l') : EvportInv l' := by
  obtain ⟨s, hs, hinv⟩ := h.adapter
  cases i with
  | call c env =>
    obtain ⟨b, he⟩ := TableCall.step_inv (i := (c, env)) hstep
    refine ⟨h.table.effect he, he.state_inv (P := AdapterInv) h.table hs hinv (fun _ => hinv)
      ?_ ?_ ?_⟩
    · intro s fd mask cb clientData hinv hmask _
      refine ⟨hinv.law.addEvent fd hmask cb clientData, fun j => ?_⟩
      rw [show (evportAdapter.addEvent env.sys l.events s fd mask).2.pendingFds = s.pendingFds from
        (addEvent_pendingFds l.events s fd mask).2]
      exact hinv.fds j
    · intro s fd mask hinv hrefused
      have htrue := (addEvent_pendingFds l.events s fd mask).1
      rw [show (loopyInternalAddEvent l.events s fd mask).1 = false from hrefused] at htrue
      cases htrue
    · intro fd mask hc hmask
      have hdrop := hok s hs _ hc
      rw [Int.toNat_natCast] at hdrop
      refine ⟨hinv.law.delEvent fd mask hmask hdrop, fun j => ?_⟩
      rcases delEvent_pendingFds l.events s fd mask j with hj | hj
      · exact Or.inl hj
      · rw [show (evportAdapter.delEvent env.sys l.events s fd mask).pendingFds j = _ from hj]
        exact hinv.fds j
  | poll ready =>
    have hl' : l' = { l with
        state := some (loopyInternalPoll ready s).2
        fired := Machine.writeFired l.fired (loopyInternalPoll ready s).1 } := by
      rw [Evport.step, hs] at hstep
      exact (Option.some.inj hstep).symm
    subst hl'
    obtain ⟨hinv', hnodup, hreg⟩ := hinv.poll ready
    have ht := h.table
    refine ⟨⟨⟨ht.sized.pos, ht.sized.lt, ht.sized.maxfd_lt⟩, ht.heap, ht.holds, ht.maxfd_eq,
      ht.beyond, fun j hj => ?_⟩, _, rfl, hinv'⟩
    have hle := fired_length_le ht hnodup hreg
    have hj' : l.setSize ≤ j := hj
    show ((loopyInternalPoll ready s).1[j]?).getD (l.fired j) = _
    rw [List.getElem?_eq_none (by omega)]
    exact ht.fired_beyond j hj

/-- **Represented once.** From `loopyInit`, after every sequence of table calls and polls in
which an unregistration drops registered directions only of descriptors that are pending, each
registered descriptor is represented exactly once, in the kernel or in the pending slots, with
its mask, and no other descriptor is represented. -/
theorem represented_once (n : ℕ) (hn : 1 ≤ n) (hn31 : n < 2 ^ 31) (addr : ℕ) (is : List Input)
    (l : LoopyLoop EvportState) (hrun : Run step DropsPending (.fresh evportAdapter n addr) is l) :
    ∃ s, l.state = some s ∧ AssociationLaw l.events s := by
  have hinv : EvportInv l :=
    hrun.invariant (fun l i l' h hok hstep => h.step hok hstep) (.fresh hn hn31 addr)
  obtain ⟨s, hs, h⟩ := hinv.adapter
  exact ⟨s, hs, h.law⟩

/-- Two descriptors are reported; one is unregistered and registered again, the other loses a
direction, and a poll restores both. -/
def pendingRun : List Input :=
  [.call (.registerRead 3 5 9) ⟨0, ()⟩, .call (.registerRead 4 5 9) ⟨0, ()⟩,
    .call (.registerWrite 4 5 9) ⟨0, ()⟩, .poll [(3, POLLIN), (4, POLLOUT)],
    .call (.unregisterReadWrite 3) ⟨0, ()⟩, .call (.registerWrite 3 5 9) ⟨0, ()⟩,
    .call (.unregisterRead 4) ⟨0, ()⟩, .poll [(4, POLLOUT)]]

theorem represented_once_pending :
    ∃ l s, Run step DropsPending (.fresh evportAdapter 16 1) pendingRun l ∧ l.state = some s ∧
      AssociationLaw l.events s ∧ s.port 3 = some ⟨POLLOUT, .WRITE⟩ ∧ s.slots 4 = [0] ∧
      s.pendingMasks 0 = .WRITE := by
  have hexec : (exec step DropsPending (.fresh evportAdapter 16 1) pendingRun).map
      (fun l => l.state.map fun s => (s.port 3, s.slots 4, s.pendingMasks 0)) =
      some (some (some ⟨POLLOUT, .WRITE⟩, [0], .WRITE)) := by decide +kernel
  obtain ⟨l, hrun, hstate⟩ := Run.of_exec_map hexec
  obtain ⟨s, hs, hval⟩ := Option.map_eq_some_iff.mp hstate
  obtain ⟨h3, hrest⟩ := Prod.mk.inj hval
  obtain ⟨h4, hmask⟩ := Prod.mk.inj hrest
  obtain ⟨s', hs', hlaw⟩ := represented_once 16 (by decide) (by decide) 1 _ _ hrun
  obtain rfl := Option.some.inj (hs.symm.trans hs')
  exact ⟨l, s, hrun, hs, hlaw, h3, h4, hmask⟩

/-- Descriptor 3 is registered and unregistered before any poll: it stays associated. -/
theorem association_left_behind :
    ¬ ∀ is l, Run step (fun _ _ => True) (.fresh evportAdapter 16 1) is l →
      ∃ s, l.state = some s ∧ AssociationLaw l.events s := by
  intro hall
  have hexec : (exec step (fun _ _ => True) (.fresh evportAdapter 16 1)
      [.call (.registerRead 3 5 9) ⟨0, ()⟩, .call (.unregisterRead 3) ⟨0, ()⟩]).map
      (fun l => (l.state.map fun s => s.represented 3, (l.events 3).mask)) =
      some (some [.READ], .NONE) := by decide +kernel
  obtain ⟨l, hl, hstate⟩ := Run.of_exec_map hexec
  obtain ⟨hs, hmask⟩ := Prod.mk.inj hstate
  obtain ⟨s, hs, hrep⟩ := Option.map_eq_some_iff.mp hs
  obtain ⟨s', hs', hlaw⟩ := hall _ _ hl
  obtain rfl := Option.some.inj (hs.symm.trans hs')
  rw [hlaw 3, hmask] at hrep
  cases hrep

end Loopy.Evport
