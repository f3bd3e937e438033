import Loopy.EventLoop.Transitions
import Loopy.Lib.Refinement

/-!
# What a poll reports

The loop without a kernel: every registration is granted, and a poll reports of each descriptor the
registered directions that are ready. A `Backend` is an adapter with its poll and with what the
adapter expects of its user. It is `Honest` if, under these expectations, nobody can tell it from
the loop without a kernel (`Honest.answersPlain`).
-/

namespace Loopy.EventLoop

open Loopy.Lib
open Function (update update_of_ne update_self)

/-! ## Readiness -/

namespace LoopyAction

/-- `a & b`. -/
def inter (a b : LoopyAction) : LoopyAction := ⟨a.read && b.read, a.write && b.write⟩

theorem inter_has (a b : LoopyAction) (dir : Dir) :
    (a.inter b).has dir = (a.has dir && b.has dir) := by cases dir <;> rfl

theorem ext_has {a b : LoopyAction} (h : ∀ dir, a.has dir = b.has dir) : a = b :=
  ext_iff'.mpr ⟨h .read, h .write⟩

end LoopyAction

/-- The directions that are ready, in the order in which the kernel lists them. -/
abbrev Ready := List (ℕ × Dir)

/-- The ready directions of a descriptor. -/
def Ready.of (ready : Ready) (fd : ℕ) : LoopyAction :=
  ⟨decide ((fd, Dir.read) ∈ ready), decide ((fd, Dir.write) ∈ ready)⟩

theorem Ready.of_has (ready : Ready) (fd : ℕ) (dir : Dir) :
    (ready.of fd).has dir = decide ((fd, dir) ∈ ready) := by cases dir <;> rfl

/-- The directions that the entries of a poll report of a descriptor. -/
def reported (fired : List LoopyFiredEvent) (fd : ℕ) : LoopyAction :=
  ⟨fired.any fun e => decide (e.fd = fd) && e.mask.read,
    fired.any fun e => decide (e.fd = fd) && e.mask.write⟩

variable {fired : List LoopyFiredEvent}

theorem reported_has {fd : ℕ} {dir : Dir} :
    (reported fired fd).has dir = true ↔ ∃ e ∈ fired, e.fd = fd ∧ e.mask.has dir = true := by
  cases dir <;> simp [reported, LoopyAction.has]

/-- Entries that name nothing but the directions `ask`, and all of them. -/
theorem reported_eq {ask : ℕ → LoopyAction}
    (hsound : ∀ e ∈ fired, ∀ dir, e.mask.has dir = true → (ask e.fd).has dir = true)
    (hcomplete : ∀ fd dir, (ask fd).has dir = true → ∃ e ∈ fired, e.fd = fd ∧ e.mask.has dir = true)
    (fd : ℕ) : reported fired fd = ask fd := by
  refine LoopyAction.ext_has fun dir => Bool.eq_iff_iff.mpr ?_
  rw [reported_has]
  constructor
  · rintro ⟨e, he, rfl, hhas⟩
    exact hsound e he dir hhas
  · exact hcomplete fd dir

/-- Registered descriptors, each once, are not more than the table holds. -/
theorem TableInv.length_le {σ : Type} {l : LoopyLoop σ} (h : TableInv l) {fds : List ℕ}
    (hnodup : fds.Nodup) (hreg : ∀ fd ∈ fds, (l.events fd).mask ≠ .NONE) :
    fds.length ≤ l.setSize := by
  have hsub : fds.toFinset ⊆ Finset.range l.setSize := by
    intro fd hfd
    exact Finset.mem_range.mpr (h.lt_setSize (hreg fd (List.mem_toFinset.mp hfd)))
  have hcard := Finset.card_le_card hsub
  rw [List.toFinset_card_of_nodup hnodup, Finset.card_range] at hcard
  exact hcard

/-! ## Operations -/

/-- What the user of a loop does: a table call, with the address that `zrealloc` would return, or a
poll. -/
inductive Operation
  | call (c : TableCall) (addr : ℕ)
  | poll (ready : Ready)
deriving DecidableEq, Repr

/-- What the user sees: the result of a call, or the directions reported of each descriptor. -/
inductive Answer
  | result (b : Bool)
  | reported (masks : ℕ → LoopyAction)

/-- An adapter with its poll. The last three fields are what it expects: descriptors that it can
hold, directions that it can drop, and polls whose report is not too long. -/
structure Backend (σ ε : Type) where
  adapter : Adapter σ ε
  /-- The kernel grants a request. -/
  granted : ε
  /-- `loopyInternalPoll`. -/
  poll : Ready → LoopyLoop σ → σ → List LoopyFiredEvent × σ
  holds : ℕ → Prop
  drops : (ℕ → LoopyFileEvent) → σ → ℕ → LoopyAction → Prop
  fits : Ready → LoopyLoop σ → Prop

section

variable {σ ε : Type} (B : Backend σ ε)

/-- Perform an operation. -/
def Backend.perform (l : LoopyLoop σ) : Operation → Option (Answer × LoopyLoop σ)
  | .call c addr =>
    (c.perform B.adapter ⟨addr, B.granted⟩ l).map fun r => (.result r.1, r.2)
  | .poll ready => l.state.map fun s =>
    let (fired, s) := B.poll ready l s
    (.reported (reported fired),
      { l with state := some s, fired := Machine.writeFired l.fired fired })

/-- The expectations are met. -/
def Backend.Admits (l : LoopyLoop σ) : Operation → Prop
  | .call c _ =>
    (∀ r ∈ c.registration, B.holds r.fd.toNat) ∧
      ∀ d ∈ c.unregistration, ∀ s ∈ l.state, B.drops l.events s d.1.toNat d.2
  | .poll ready => B.fits ready l

end

/-! ## The loop without a kernel -/

/-- An adapter that has nothing to do. -/
def plainAdapter : Adapter Unit Unit where
  new := fun _ => ()
  resize := fun _ _ => ()
  addEvent := fun _ _ _ _ _ => (true, ())
  delEvent := fun _ _ _ _ _ => ()

/-- Perform an operation without a kernel. -/
def plainPerform (l : LoopyLoop Unit) : Operation → Option (Answer × LoopyLoop Unit)
  | .call c addr => (c.perform plainAdapter ⟨addr, ()⟩ l).map fun r => (.result r.1, r.2)
  | .poll ready => l.state.map fun _ =>
    (.reported fun fd => (l.events fd).mask.inter (ready.of fd), l)

/-- A loop without its kernel and without the entries of its last poll. -/
def LoopyLoop.plain {σ : Type} (l : LoopyLoop σ) : LoopyLoop Unit :=
  { l with state := l.state.map fun _ => (), fired := fun _ => .zero }

section

variable {σ ε : Type} {A : Adapter σ ε} {env : Env ε} {l : LoopyLoop σ}

@[simp] theorem plain_setSize (l : LoopyLoop σ) : l.plain.setSize = l.setSize := rfl

@[simp] theorem plain_maxfd (l : LoopyLoop σ) : l.plain.maxfd = l.maxfd := rfl

@[simp] theorem plain_events (l : LoopyLoop σ) : l.plain.events = l.events := rfl

@[simp] theorem plain_fdHeap (l : LoopyLoop σ) : l.plain.fdHeap = l.fdHeap := rfl

@[simp] theorem plain_state (l : LoopyLoop σ) : l.plain.state = l.state.map fun _ => () := rfl

@[simp] theorem tableIndex_plain (l : LoopyLoop σ) (fd : ℤ) :
    tableIndex l.plain fd = tableIndex l fd := rfl

theorem growTo_plain (l : LoopyLoop σ) (n addr : ℕ) :
    (l.growTo A n addr).plain = l.plain.growTo plainAdapter n addr := by
  simp only [LoopyLoop.plain, LoopyLoop.growTo, Option.map_map]
  congr 1
  funext i
  exact (ite_self _).symm

variable (A) in
theorem fdStorageResize_plain (l : LoopyLoop σ) (setSize : ℤ) (addr : ℕ) :
    fdStorageResize plainAdapter l.plain setSize addr =
      (fdStorageResize A l setSize addr).map fun r => (r.1, r.2.plain) := by
  have hgrow := growTo_plain (A := A) l setSize.toNat addr
  unfold fdStorageResize
  rw [plain_setSize, plain_maxfd]
  by_cases hsame : setSize = l.setSize
  · rw [if_pos hsame, if_pos hsame]
    rfl
  · rw [if_neg hsame, if_neg hsame]
    by_cases hgt : setSize > l.setSize
    · rw [if_neg (not_not.mpr hgt), if_neg (not_not.mpr hgt)]
      by_cases hmax : l.maxfd ≥ setSize
      · rw [if_pos hmax, if_pos hmax]
        rfl
      · rw [if_neg hmax, if_neg hmax]
        exact congrArg (fun l => some (true, l)) hgrow.symm
    · rw [if_pos hgt, if_pos hgt]
      rfl

variable (A) in
theorem fdConformStorageBounds_plain (l : LoopyLoop σ) (fd : ℤ) (addr : ℕ) :
    fdConformStorageBounds plainAdapter l.plain fd addr =
      (fdConformStorageBounds A l fd addr).map LoopyLoop.plain := by
  unfold fdConformStorageBounds
  rw [plain_setSize]
  by_cases hlt : fd < l.setSize
  · rw [if_pos hlt, if_pos hlt]
    rfl
  · rw [if_neg hlt, if_neg hlt]
    show (conformLoop 64 l.setSize fd).bind _ = Option.map _ ((conformLoop 64 l.setSize fd).bind _)
    cases conformLoop 64 l.setSize fd with
    | none => rfl
    | some newSize =>
      show (fdStorageResize plainAdapter l.plain newSize addr).bind _ =
        Option.map _ ((fdStorageResize A l newSize addr).bind _)
      rw [fdStorageResize_plain A]
      cases fdStorageResize A l newSize addr <;> rfl

variable {Q : LoopyLoop σ → Prop}

/-- Registering, where the adapter grants it. -/
theorem newFileEvent_plain (hQ : Q l) (hgrow : ∀ l l₁, Q l → Grown A env.addr l l₁ → Q l₁)
    (hgrant : ∀ l s i mask, Q l → l.state = some s → (A.addEvent env.sys l.events s i mask).1 = true)
    (fd : ℤ) (mask : LoopyAction) (cb clientData : ℕ) :
    loopyNewFileEvent plainAdapter ⟨env.addr, ()⟩ l.plain fd mask cb clientData =
      (loopyNewFileEvent A env l fd mask cb clientData).map fun r => (r.1, r.2.plain) := by
  unfold loopyNewFileEvent
  dsimp only
  rw [fdConformStorageBounds_plain A]
  cases hconf : fdConformStorageBounds A l fd env.addr with
  | none => rfl
  | some l₁ =>
    have hQ₁ := hgrow l l₁ hQ (fdConformStorageBounds_inv hconf).1
    show (tableIndex l₁.plain fd).bind _ = Option.map _ ((tableIndex l₁ fd).bind _)
    rw [tableIndex_plain]
    cases tableIndex l₁ fd with
    | none => rfl
    | some i =>
      show Option.bind (l₁.state.map fun _ => ()) _ = Option.map _ (l₁.state.bind _)
      cases hs : l₁.state with
      | none => rfl
      | some s =>
        dsimp only [Option.map_some, Option.bind_some]
        rw [hgrant l₁ s i mask hQ₁ hs]
        rfl

variable (env) in
theorem deleteFileEvent_plain (l : LoopyLoop σ) (fd : ℤ) (mask : LoopyAction) :
    loopyDeleteFileEvent plainAdapter ⟨env.addr, ()⟩ l.plain fd mask =
      (loopyDeleteFileEvent A env l fd mask).map LoopyLoop.plain := by
  unfold loopyDeleteFileEvent
  rw [plain_setSize]
  by_cases hlt : fd < l.setSize
  · rw [if_neg (not_not.mpr hlt), if_neg (not_not.mpr hlt)]
    show (tableIndex l.plain fd).bind _ = Option.map _ ((tableIndex l fd).bind _)
    rw [tableIndex_plain]
    cases tableIndex l fd with
    | none => rfl
    | some i =>
      dsimp only [Option.bind_some]
      rw [plain_events]
      by_cases hnone : (l.events i).mask = .NONE
      · rw [if_pos hnone, if_pos hnone]
        rfl
      · rw [if_neg hnone, if_neg hnone]
        show Option.bind (l.state.map fun _ => ()) _ = Option.map _ (l.state.bind _)
        cases l.state with
        | none => rfl
        | some s =>
          dsimp only [Option.map_some, Option.bind_some]
          by_cases hleft : (l.events i).mask.diff mask = .NONE
          · rw [if_pos hleft, if_pos hleft]
            rfl
          · rw [if_neg hleft, if_neg hleft]
            rfl
  · rw [if_pos hlt, if_pos hlt]
    rfl

variable (env) in
/-- A table call, where the adapter grants registrations. -/
theorem perform_plain (hQ : Q l) (hgrow : ∀ l l₁, Q l → Grown A env.addr l l₁ → Q l₁)
    (hgrant : ∀ l s i mask, Q l → l.state = some s → (A.addEvent env.sys l.events s i mask).1 = true)
    (c : TableCall) :
    c.perform plainAdapter ⟨env.addr, ()⟩ l.plain =
      (c.perform A env l).map fun r => (r.1, r.2.plain) := by
  have hdelete : ∀ fd mask,
      (loopyDeleteFileEvent plainAdapter ⟨env.addr, ()⟩ l.plain fd mask).map (fun l => (true, l)) =
        ((loopyDeleteFileEvent A env l fd mask).map fun l => (true, l)).map
          fun r => (r.1, r.2.plain) := by
    intro fd mask
    rw [deleteFileEvent_plain env, Option.map_map, Option.map_map]
    rfl
  cases c with
  | registerRead fd cb clientData => exact newFileEvent_plain hQ hgrow hgrant fd .READ cb clientData
  | registerWrite fd cb clientData => exact newFileEvent_plain hQ hgrow hgrant fd .WRITE cb clientData
  | registerWriteIfNoneExists fd cb clientData =>
    show loopyRegisterWriteIfNoneExists _ _ _ _ _ _ =
      (loopyRegisterWriteIfNoneExists _ _ _ _ _ _).map _
    unfold loopyRegisterWriteIfNoneExists
    dsimp only
    rw [fdConformStorageBounds_plain A]
    cases hconf : fdConformStorageBounds A l fd env.addr with
    | none => rfl
    | some l₁ =>
      have hQ₁ := hgrow l l₁ hQ (fdConformStorageBounds_inv hconf).1
      show (tableIndex l₁.plain fd).bind _ = Option.map _ ((tableIndex l₁ fd).bind _)
      rw [tableIndex_plain]
      cases tableIndex l₁ fd with
      | none => rfl
      | some i =>
        dsimp only [Option.bind_some]
        rw [plain_events]
        -- a write event that exists is left as it is, with or without a kernel
        by_cases hwrite : (l₁.events i).mask.write = true
        · rw [if_pos hwrite, if_pos hwrite]
          rfl
        · rw [if_neg hwrite, if_neg hwrite]
          exact newFileEvent_plain hQ₁ hgrow hgrant fd .WRITE cb clientData
  | unregisterRead fd => exact hdelete fd .READ
  | unregisterWrite fd => exact hdelete fd .WRITE
  | unregisterReadWrite fd => exact hdelete fd .ALL
  | resizeSetSize setSize =>
    show (fdStorageResize plainAdapter l.plain (wrapInt setSize) env.addr).bind _ =
      Option.map _ ((fdStorageResize A l (wrapInt setSize) env.addr).bind _)
    rw [fdStorageResize_plain A]
    cases fdStorageResize A l (wrapInt setSize) env.addr <;> rfl

end

/-! ## Honest backends -/

section

variable {σ ε : Type} {B : Backend σ ε} {K : (ℕ → LoopyFileEvent) → σ → Prop}
  {l l' : LoopyLoop σ}

/-- A backend whose state is tied to the table by `K`, where its expectations are met. -/
structure Honest (B : Backend σ ε) (K : (ℕ → LoopyFileEvent) → σ → Prop) : Prop where
  fresh : ∀ n, K (fun _ => .zero) (B.adapter.new n)
  resize : ∀ events s n, K events s → K events (B.adapter.resize s n)
  grants : ∀ events s fd mask, K events s →
    (B.adapter.addEvent B.granted events s fd mask).1 = true
  adds : ∀ events s fd mask cb clientData, K events s → B.holds fd → mask ≠ .NONE →
    K (update events fd ((events fd).register mask cb clientData))
      (B.adapter.addEvent B.granted events s fd mask).2
  deletes : ∀ events s fd mask, K events s → (events fd).mask ≠ .NONE → B.drops events s fd mask →
    K (update events fd { events fd with mask := (events fd).mask.diff mask })
      (B.adapter.delEvent B.granted events s fd mask)
  keeps : ∀ l s ready, K l.events s → K l.events (B.poll ready l s).2
  bounded : ∀ l s ready, TableInv l → K l.events s → (B.poll ready l s).1.length ≤ l.setSize
  reports : ∀ l s ready, TableInv l → K l.events s → B.fits ready l →
    ∀ fd, reported (B.poll ready l s).1 fd = (l.events fd).mask.inter (ready.of fd)

/-- What holds of a loop between operations. -/
structure BackendInv (B : Backend σ ε) (K : (ℕ → LoopyFileEvent) → σ → Prop)
    (l : LoopyLoop σ) : Prop where
  table : TableInv l
  held : ∀ fd, (l.events fd).mask ≠ .NONE → B.holds fd
  kernel : ∃ s, l.state = some s ∧ K l.events s

theorem BackendInv.fresh (h : Honest B K) {n : ℕ} (hn : 1 ≤ n) (hn31 : n < 2 ^ 31) (addr : ℕ) :
    BackendInv B K (.fresh B.adapter n addr) :=
  ⟨.fresh hn hn31 addr, fun _ hmask => absurd rfl hmask, _, rfl, h.fresh n⟩

variable {addr : ℕ} {c : TableCall} {b : Bool}

/-- Growing keeps the table. -/
theorem grown_events {A : Adapter σ ε} (h : TableInv l) (hg : Grown A addr l l') :
    l'.events = l.events := by
  rcases hg with rfl | ⟨n, -, -, rfl⟩
  · rfl
  · rw [h.growTo_eq]

theorem BackendInv.grown (h : Honest B K) (hl : BackendInv B K l) (hg : Grown B.adapter addr l l') :
    BackendInv B K l' := by
  have hevents := grown_events hl.table hg
  refine ⟨hl.table.grown hg, by rw [hevents]; exact hl.held, ?_⟩
  rw [hevents]
  obtain ⟨s, hs, hK⟩ := hl.kernel
  rcases hg with rfl | ⟨n, -, -, rfl⟩
  · exact ⟨s, hs, hK⟩
  · refine ⟨B.adapter.resize s n, ?_, h.resize _ s n hK⟩
    rw [LoopyLoop.growTo, hs, Option.map_some]

/-- A table call leaves only descriptors registered that the adapter can hold. -/
theorem BackendInv.held_effect (hl : BackendInv B K l)
    (hok : ∀ r ∈ c.registration, B.holds r.fd.toNat)
    (he : TableEffect B.adapter ⟨addr, B.granted⟩ l c b l') (fd : ℕ)
    (hmask : (l'.events fd).mask ≠ .NONE) : B.holds fd := by
  cases he with
  | @register _ r l₁ s i hc hr hg _ _ _ _ _ =>
    rw [registered_events, grown_events hl.table hg] at hmask
    by_cases hfd : fd = i
    · have hholds := hok r hc
      rw [hr, Int.toNat_natCast] at hholds
      rw [hfd]
      exact hholds
    · rw [update_of_ne hfd] at hmask
      exact hl.held fd hmask
  | refuse _ _ hg _ _ _ =>
    apply hl.held fd
    rw [← grown_events hl.table hg]
    exact hmask
  | taken _ hg =>
    apply hl.held fd
    rw [← grown_events hl.table hg]
    exact hmask
  | @unregister _ s i mask _ _ hold _ =>
    rw [unregistered_events] at hmask
    by_cases hfd : fd = i
    · rw [hfd]
      exact hl.held i hold
    · rw [update_of_ne hfd] at hmask
      exact hl.held fd hmask
  | absent => exact hl.held fd hmask
  | resize hg =>
    apply hl.held fd
    rw [← grown_events hl.table hg]
    exact hmask

theorem BackendInv.call (h : Honest B K) (hl : BackendInv B K l) (hok : B.Admits l (.call c addr))
    (hperf : c.perform B.adapter ⟨addr, B.granted⟩ l = some (b, l')) : BackendInv B K l' := by
  have he := perform_inv hperf
  obtain ⟨s, hs, hK⟩ := hl.kernel
  have hheld := hl.held_effect hok.1 he
  refine ⟨hl.table.effect he, hheld, ?_⟩
  -- the law is kept as long as only descriptors are registered that the adapter can hold
  have hstate : ∃ s', l'.state = some s' ∧
      ((∀ fd, (l'.events fd).mask ≠ .NONE → B.holds fd) → K l'.events s') := by
    refine he.state_inv
      (P := fun events s => (∀ fd, (events fd).mask ≠ .NONE → B.holds fd) → K events s) hl.table hs
      (fun _ => hK) (fun n _ => h.resize _ s n hK) ?_ ?_ ?_
    · intro s fd mask cb clientData hold hmask _ hheld'
      refine h.adds _ s fd mask cb clientData (hold hl.held) (hheld' fd ?_) hmask
      rw [update_self]
      exact LoopyAction.union_ne_none hmask
    · intro s fd mask hold hrefused
      have hgrants := h.grants _ s fd mask (hold hl.held)
      rw [hrefused] at hgrants
      cases hgrants
    · intro fd mask hc hmask _
      have hdrops := hok.2 _ hc s hs
      rw [Int.toNat_natCast] at hdrops
      exact h.deletes _ s fd mask hK hmask hdrops
  obtain ⟨s', hs', hK'⟩ := hstate
  exact ⟨s', hs', hK' hheld⟩

theorem BackendInv.poll (h : Honest B K) (hl : BackendInv B K l) {s : σ} (hs : l.state = some s)
    (ready : Ready) :
    BackendInv B K
      { l with
        state := some (B.poll ready l s).2
        fired := Machine.writeFired l.fired (B.poll ready l s).1 } := by
  obtain ⟨s', hs', hK⟩ := hl.kernel
  obtain rfl := Option.some.inj (hs.symm.trans hs')
  have ht := hl.table
  refine ⟨⟨⟨ht.sized.pos, ht.sized.lt, ht.sized.maxfd_lt⟩, ht.heap, ht.holds, ht.maxfd_eq, ht.beyond,
    fun j hj => ?_⟩, hl.held, _, rfl, h.keeps l s ready hK⟩
  -- a poll writes no entry beyond the table
  have hle := h.bounded l s ready ht hK
  have hj' : l.setSize ≤ j := hj
  show ((B.poll ready l s).1[j]?).getD (l.fired j) = _
  rw [List.getElem?_eq_none (by omega)]
  exact ht.fired_beyond j hj

/-- An honest backend answers like the loop without a kernel. -/
theorem Honest.answersPlain (h : Honest B K) :
    Answers B.perform B.Admits plainPerform LoopyLoop.plain (BackendInv B K) where
  keeps l i o l' hl hok hstep := by
    cases i with
    | call c addr =>
      obtain ⟨⟨b, l₁⟩, hperf, heq⟩ := Option.map_eq_some_iff.mp hstep
      cases heq
      exact hl.call h hok hperf
    | poll ready =>
      obtain ⟨s, hs, heq⟩ := Option.map_eq_some_iff.mp hstep
      cases heq
      exact hl.poll h hs ready
  answer l i o l' hl hok hstep := by
    cases i with
    | call c addr =>
      obtain ⟨⟨b, l₁⟩, hperf, heq⟩ := Option.map_eq_some_iff.mp hstep
      cases heq
      have hplain := perform_plain (A := B.adapter) ⟨addr, B.granted⟩
        (Q := BackendInv B K) hl (fun _ _ hl hg => hl.grown h hg) ?_ c
      · show (c.perform plainAdapter ⟨addr, ()⟩ l.plain).map _ = _
        rw [hplain, hperf]
        rfl
      · intro l s fd mask hl hs
        obtain ⟨s', hs', hK⟩ := hl.kernel
        obtain rfl := Option.some.inj (hs.symm.trans hs')
        exact h.grants _ s fd mask hK
    | poll ready =>
      obtain ⟨s, hs, heq⟩ := Option.map_eq_some_iff.mp hstep
      cases heq
      obtain ⟨s', hs', hK⟩ := hl.kernel
      obtain rfl := Option.some.inj (hs.symm.trans hs')
      have hreports := funext (h.reports l s ready hl.table hK hok)
      show (l.plain.state.map fun _ => _) = _
      rw [hreports, plain_state, hs]
      simp [LoopyLoop.plain, hs]

end

end Loopy.EventLoop
