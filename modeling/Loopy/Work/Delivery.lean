import Loopy.Lib.Custody
import Loopy.Work.Pool

/-!
# Every work item is delivered once

The pool as a `Custody`: not yet allocated, pending, held by a worker, completed, popped by a run
of `workProcessCompleted`, freed. Every item is in exactly one of these places, and each step of
the machine is a move of the pool or changes nothing there. Over it, `PoolInv` says what the stage
of an item tells about its callbacks (`Fits`). `exactly_once` is what callers of the pool see of
this.
-/

namespace Loopy.Work

open Loopy.Lib
open Function (update update_eq_self update_of_ne update_self)

variable {W L : Type}

/-! ## The pool -/

/-- The item that a worker holds. -/
def Worker.item : Worker → Option ℕ
  | .busy _ n => some n
  | .idle | .notifying => none

/-- The item that a run of `workProcessCompleted` has popped. -/
def Processor.item : Processor → Option ℕ
  | .popped n => some n
  | .idle | .processing => none

variable {n : ℕ} {work work' : LoopyWork W L} {l : L} {w : W}

theorem Processor.item_eq_some {processor : Processor} (h : processor.item = some n) :
    processor = .popped n := by
  cases processor with
  | idle | processing => cases h
  | popped k => rw [Option.some.inj h]

/-- Where the items are. -/
def LoopyWork.custody (work : LoopyWork W L) : Custody W L :=
  { accepted := work.accepted
    pending := work.pending
    held := fun w => (work.worker w).item
    completed := work.completed
    popped := fun l => (work.processor l).item
    delivered := work.freed }

/-- How far an item is: it was not allocated, waits for its `workCb` to be started or skipped, is
being run, has left its worker's hands but for the hand-over, or is freed. -/
inductive Stage
  | unborn
  | waiting
  | running
  | left
  | freed

/-- The stage of the item that a worker holds. -/
def Worker.stage : Worker → Stage
  | .busy .dequeued _ => .waiting
  | .busy .running _ => .running
  | .busy .finished _ | .busy .uncounted _ | .idle | .notifying => .left

/-- The stage of an item in a place. -/
def LoopyWork.stage (work : LoopyWork W L) : Custody.Place W L → Stage
  | .unborn => .unborn
  | .pending => .waiting
  | .held w => (work.worker w).stage
  | .completed | .popped _ => .left
  | .delivered => .freed

/-- How an item left its worker: cancelled and never run, or run once. -/
def Outcome (item : LoopyWorkItem) (h : History) : Prop :=
  (item.status = .CANCELLED ∧ h.started = 0 ∧ h.finished = 0) ∨
    (item.status = .OK ∧ h.started = 1 ∧ h.finished = 1 ∧ h.cancelReturned = false)

/-- No callback of the item was called. -/
def Untouched (h : History) : Prop := h.started = 0 ∧ h.finished = 0 ∧ h.afters = []

/-- What the stage of an item says about it. -/
def Fits (item : LoopyWorkItem) (h : History) : Stage → Prop
  | .unborn => Untouched h ∧ h.cancelReturned = false
  | .waiting => Untouched h ∧ (h.cancelReturned → item.cancelled)
  | .running => h.started = 1 ∧ h.finished = 0 ∧ h.afters = [] ∧ h.cancelReturned = false
  | .left => Outcome item h ∧ h.afters = []
  | .freed => Outcome item h ∧ (h.afters = [] ∨ h.afters = [item.status])

/-- The counters. -/
structure CountInv (work : LoopyWork W L) : Prop where
  count : work.pendingCount = work.pending.length
  bound : 0 < work.maxQueueSize → work.pending.length ≤ work.maxQueueSize
  ids : ∀ n, n < work.accepted → (work.items n).id = (n + 1) % 2 ^ 64
  next : work.nextWorkId = (work.accepted + 1) % 2 ^ 64

/-- The invariant of the pool. -/
structure PoolInv (work : LoopyWork W L) : Prop where
  counts : CountInv work
  pool : work.custody.Wf
  fits : ∀ p n, work.custody.At p n → Fits (work.items n) (work.history n) (work.stage p)

theorem PoolInv.new (W L : Type) (maxQueueSize : ℕ) : PoolInv (loopyWorkNew W L maxQueueSize) where
  counts := ⟨rfl, fun _ => Nat.zero_le _, fun n hn => absurd hn (Nat.not_lt_zero n), rfl⟩
  pool := Custody.Wf.empty
  fits p n hp := by
    cases p with
    | unborn => exact ⟨⟨rfl, rfl, rfl⟩, rfl⟩
    | pending | held | completed | popped | delivered => cases hp

/-- Steps outside the queue of pending items. -/
theorem CountInv.congr (h : CountInv work) (hids : ∀ n, (work'.items n).id = (work.items n).id)
    (hpending : work'.pending = work.pending) (hcount : work'.pendingCount = work.pendingCount)
    (hmax : work'.maxQueueSize = work.maxQueueSize) (haccepted : work'.accepted = work.accepted)
    (hnext : work'.nextWorkId = work.nextWorkId) : CountInv work' where
  count := by rw [hcount, hpending, h.count]
  bound := by rw [hmax, hpending]; exact h.bound
  ids n hn := by
    rw [hids]
    exact h.ids n (haccepted ▸ hn)
  next := by rw [hnext, haccepted, h.next]

/-! ## How the steps treat items -/

/-- A step that moves no item and at most rewrites some. -/
theorem PoolInv.stay (h : PoolInv work) (hcounts : CountInv work')
    (hcustody : work'.custody = work.custody)
    (hfits : ∀ p n, work.custody.At p n → Fits (work.items n) (work.history n) (work.stage p) →
      Fits (work'.items n) (work'.history n) (work'.stage p)) :
    PoolInv work' where
  counts := hcounts
  pool := hcustody ▸ h.pool
  fits p n hp := by
    rw [hcustody] at hp
    exact hfits p n hp (h.fits p n hp)

/-- A step that moves the item `n`; a worker it changes has or had that item. -/
theorem PoolInv.move {a b : Custody.Place W L} (h : PoolInv work) (hcounts : CountInv work')
    (hpool : work'.custody.Wf) (hm : Move work.custody.At work'.custody.At a b n)
    (hitems : ∀ m, m ≠ n → work'.items m = work.items m)
    (hhistory : ∀ m, m ≠ n → work'.history m = work.history m)
    (hworker : ∀ w, work'.worker w = work.worker w ∨ (work.worker w).item = some n ∨
      (work'.worker w).item = some n)
    (hnew : Fits (work.items n) (work.history n) (work.stage a) →
      Fits (work'.items n) (work'.history n) (work'.stage b)) :
    PoolInv work' where
  counts := hcounts
  pool := hpool
  fits p m hp := by
    by_cases hne : m = n
    · subst hne
      obtain rfl := (hm.moved h.pool.settled).mp hp
      exact hnew (h.fits a m hm.old)
    · have hold := (hm.others hne).mp hp
      have hstage : work'.stage p = work.stage p := by
        cases p with
        | unborn | pending | completed | popped | delivered => rfl
        | held w =>
          have hthen : (work.worker w).item = some m := hold
          have hnow : (work'.worker w).item = some m := hp
          obtain hsame | heq | heq := hworker w
          · exact congrArg Worker.stage hsame
          · exact absurd (Option.some.inj (hthen.symm.trans heq)) hne
          · exact absurd (Option.some.inj (hnow.symm.trans heq)) hne
      rw [hitems m hne, hhistory m hne, hstage]
      exact h.fits p m hold

section Moves

variable [DecidableEq W] {work work' : LoopyWork W L} {w : W} {n : ℕ}

theorem held_update (worker : W → Worker) (w : W) (pc : Worker) :
    (fun v => (update worker w pc v).item) =
      update (fun v => (worker v).item) w pc.item :=
  Function.comp_update Worker.item worker w pc

/-- A worker goes on with the item that it holds. -/
theorem custody_setWorker {pc : Worker} (hpc : pc.item = (work.worker w).item) :
    (work.setWorker w pc).custody = work.custody := by
  unfold LoopyWork.custody LoopyWork.setWorker
  rw [held_update, hpc, update_eq_self]

/-- A worker that has or had the item `n` has moved. -/
theorem worker_update {pc : Worker}
    (h : (work.worker w).item = some n ∨ pc.item = some n) (v : W) :
    update work.worker w pc v = work.worker v ∨ (work.worker v).item = some n ∨
      (update work.worker w pc v).item = some n := by
  by_cases hv : v = w
  · subst hv
    rw [update_self]
    exact .inr h
  · exact .inl (update_of_ne hv _ _)

/-- A worker goes from one point to the next with its item. -/
theorem PoolInv.advance {p q : WorkerPoint} (h : PoolInv work) (hw : work.worker w = .busy p n)
    (hworker : work'.worker = update work.worker w (.busy q n))
    (hcounts : CountInv work') (hcustody : work'.custody = (work.setWorker w (.busy q n)).custody)
    (hitems : ∀ m, m ≠ n → work'.items m = work.items m)
    (hhistory : ∀ m, m ≠ n → work'.history m = work.history m)
    (hnew : Fits (work.items n) (work.history n) (Worker.busy p n).stage →
      Fits (work'.items n) (work'.history n) (Worker.busy q n).stage) : PoolInv work' := by
  have hheld : work.custody.At (.held w) n := congrArg Worker.item hw
  have hsame : work'.custody = work.custody := by
    rw [hcustody]
    exact custody_setWorker (congrArg Worker.item hw).symm
  refine h.stay hcounts hsame fun r m hr hfits => ?_
  by_cases hm : m = n
  · subst hm
    obtain rfl := h.pool.settled.unique hr hheld
    simp only [LoopyWork.stage, hw, hworker, update_self] at hfits ⊢
    exact hnew hfits
  · have hstage : work'.stage r = work.stage r := by
      cases r with
      | unborn | pending | completed | popped | delivered => rfl
      | held v =>
        have hv : v ≠ w := by
          rintro rfl
          exact hm (Option.some.inj (hr.symm.trans hheld))
        simp only [LoopyWork.stage, hworker, update_of_ne hv]
    rw [hitems m hm, hhistory m hm, hstage]
    exact hfits

end Moves

theorem popped_update [DecidableEq L] (processor : L → Processor) (l : L) (pc : Processor) :
    (fun k => (update processor l pc k).item) =
      update (fun k => (processor k).item) l pc.item :=
  Function.comp_update Processor.item processor l pc

/-- A run of `workProcessCompleted` that holds no item goes on. -/
theorem custody_setProcessor [DecidableEq L] {pc : Processor}
    (hpc : pc.item = (work.processor l).item) :
    (work.setProcessor l pc).custody = work.custody := by
  unfold LoopyWork.custody LoopyWork.setProcessor
  rw [popped_update, hpc, update_eq_self]

/-! ## Calls -/

theorem PoolInv.queue (h : PoolInv work) (workCb afterCb : Option ℕ) (userData : ℕ)
    (allocated : Bool) : PoolInv (loopyWorkQueue work workCb afterCb userData allocated).2 := by
  unfold loopyWorkQueue
  split
  · exact h
  · next cb =>
    split
    · exact h
    · next hfull =>
      split
      · classical
        have hpool := h.pool.step .accept
        refine h.move ?_ hpool work.custody.move_accept (fun m hne => ?_) (fun _ _ => rfl)
          (fun _ => .inl rfl) ?_
        · refine ⟨?_, fun hmax => ?_, fun n hn => ?_, ?_⟩
          · simp [h.counts.count]
          · have hroom : ¬ (work.maxQueueSize > 0 ∧ work.pendingCount ≥ work.maxQueueSize) := hfull
            have hcount := h.counts.count
            have hmax' : 0 < work.maxQueueSize := hmax
            show (work.pending ++ [work.accepted]).length ≤ work.maxQueueSize
            rw [List.length_append, List.length_singleton]
            omega
          · have hn' : n < work.accepted + 1 := hn
            by_cases hnew : n = work.accepted
            · subst hnew
              simp only [update_self]
              exact h.counts.next
            · simp only [update_of_ne hnew]
              exact h.counts.ids n (by omega)
          · -- the counter of ids follows the number of accepted items, modulo `2 ^ 64`
            have hnext := h.counts.next
            show (work.nextWorkId + 1) % 2 ^ 64 = (work.accepted + 1 + 1) % 2 ^ 64
            omega
        · exact update_of_ne hne _ _
        · rintro ⟨huntouched, hcancel⟩
          exact ⟨huntouched, fun htrue => absurd htrue (by simp [hcancel])⟩
      · exact h

/-- Marking pending items as cancelled. -/
theorem PoolInv.mark (h : PoolInv work) (hcounts : CountInv work')
    (hcustody : work'.custody = work.custody) (hworker : work'.worker = work.worker)
    (hchange : ∀ n, n ∉ work.pending →
      work'.items n = work.items n ∧ work'.history n = work.history n)
    (hpending : ∀ n, n ∈ work.pending → Untouched (work.history n) →
      ((work.history n).cancelReturned → (work.items n).cancelled) →
      Untouched (work'.history n) ∧
        ((work'.history n).cancelReturned → (work'.items n).cancelled)) :
    PoolInv work' := by
  have hstage : ∀ p, work'.stage p = work.stage p := by
    intro p
    cases p with
    | unborn | pending | completed | popped | delivered => rfl
    | held w => exact congrArg Worker.stage (congrFun hworker w)
  refine h.stay hcounts hcustody fun p n hp hfits => ?_
  rw [hstage]
  by_cases hmem : n ∈ work.pending
  · obtain rfl : p = .pending := h.pool.settled.unique hp hmem
    exact hpending n hmem hfits.1 hfits.2
  · rw [(hchange n hmem).1, (hchange n hmem).2]
    exact hfits

theorem PoolInv.cancel (h : PoolInv work) {workId : ℕ} (hfind : findPending work workId = some n) :
    PoolInv ((work.markCancelled n).record n fun h => { h with cancelReturned := true }) := by
  have hmem : n ∈ work.pending := List.mem_of_find?_eq_some hfind
  have hid : ∀ m, (update work.items n { work.items n with cancelled := true } m).id =
      (work.items m).id := by
    intro m
    by_cases hm : m = n
    · rw [hm, update_self]
    · rw [update_of_ne hm]
  refine h.mark (h.counts.congr hid rfl rfl rfl rfl rfl) rfl rfl (fun m hm => ?_)
    (fun m _ huntouched hcancel => ?_)
  · have hne : m ≠ n := fun he => hm (he ▸ hmem)
    exact ⟨update_of_ne hne _ _, update_of_ne hne _ _⟩
  · simp only [LoopyWork.record, LoopyWork.markCancelled]
    by_cases hm : m = n
    · subst hm
      rw [update_self, update_self]
      exact ⟨huntouched, fun _ => rfl⟩
    · rw [update_of_ne hm, update_of_ne hm]
      exact ⟨huntouched, hcancel⟩

/-- The loop of `loopyWorkCancelAll`: everything but the flags of the listed items stays. -/
theorem cancelAll_spec (ns : List ℕ) (work : LoopyWork W L) :
    ∃ items, ns.foldl LoopyWork.markCancelled work = { work with items } ∧
      ∀ n, items n = if n ∈ ns then { work.items n with cancelled := true } else work.items n := by
  induction ns generalizing work with
  | nil => exact ⟨work.items, rfl, fun n => by simp⟩
  | cons k ns ih =>
    obtain ⟨items, heq, hitems⟩ := ih (work.markCancelled k)
    refine ⟨items, heq, fun n => ?_⟩
    rw [hitems n]
    simp only [LoopyWork.markCancelled, List.mem_cons]
    by_cases hk : n = k
    · subst hk
      simp
    · rw [update_of_ne hk]
      simp [hk]

theorem PoolInv.cancelAll (h : PoolInv work) : PoolInv (loopyWorkCancelAll work) := by
  obtain ⟨items, heq, hitems⟩ := cancelAll_spec work.pending work
  rw [loopyWorkCancelAll, heq]
  have hid : ∀ n, (items n).id = (work.items n).id := by
    intro n
    rw [hitems]
    split <;> rfl
  refine h.mark (h.counts.congr hid rfl rfl rfl rfl rfl) rfl rfl (fun n hn => ?_)
    (fun n hn huntouched _ => ?_)
  · have hitem := hitems n
    rw [if_neg hn] at hitem
    exact ⟨hitem, rfl⟩
  · refine ⟨huntouched, fun _ => ?_⟩
    show (items n).cancelled
    rw [hitems, if_pos hn]

/-! ## Steps -/

theorem setStatus_id (work : LoopyWork W L) (n m : ℕ) (status : LoopyWorkStatus) :
    ((work.setStatus n status).items m).id = (work.items m).id := by
  simp only [LoopyWork.setStatus]
  by_cases hm : m = n
  · rw [hm, update_self]
  · rw [update_of_ne hm]

variable [DecidableEq W] [DecidableEq L]

/-- A worker takes the first pending item. -/
theorem PoolInv.dequeue (h : PoolInv work) (hw : work.worker w = .idle)
    (hstep : workDequeue work w = some work') : PoolInv work' := by
  unfold workDequeue at hstep
  split at hstep
  · cases hstep
  · next n rest hpending =>
    cases hstep
    have hcount := h.counts.count
    have hbound := h.counts.bound
    rw [hpending, List.length_cons] at hcount hbound
    have hidle : work.custody.held w = none := congrArg Worker.item hw
    have hpool := h.pool.step (.take w n rest hidle hpending)
    have hmove := h.pool.move_take hidle hpending
    have hcustody : LoopyWork.custody
        { work.setWorker w (.busy .dequeued n) with
          pending := rest
          pendingCount := work.pendingCount - 1
          runningCount := work.runningCount + 1 } =
          { work.custody with
            pending := rest
            held := update work.custody.held w (some n) } := by
      unfold LoopyWork.custody LoopyWork.setWorker
      dsimp only
      rw [held_update]
      rfl
    rw [← hcustody] at hpool hmove
    refine h.move ?_ hpool hmove (fun _ _ => rfl) (fun _ _ => rfl) (worker_update (.inr rfl))
      fun hfits => ?_
    · refine ⟨?_, fun hmax => ?_, h.counts.ids, h.counts.next⟩
      · show work.pendingCount - 1 = rest.length
        omega
      · have := hbound hmax
        show rest.length ≤ work.maxQueueSize
        omega
    · simp only [LoopyWork.stage, LoopyWork.setWorker, update_self]
      exact hfits

/-- A worker reads the flag of its item, and skips or starts it. -/
theorem PoolInv.inspect (h : PoolInv work) (hstep : step work (.inspect w) = some work') :
    PoolInv work' := by
  rw [step] at hstep
  split at hstep
  · next n hw =>
    -- the item is the worker's alone, so nobody can cancel it from here on
    by_cases hcancelled : (work.items n).cancelled
    · rw [if_pos hcancelled] at hstep
      cases hstep
      refine h.advance (q := .finished) hw rfl (h.counts.congr (setStatus_id work n · .CANCELLED)
        rfl rfl rfl rfl rfl) rfl (fun m hne => update_of_ne hne _ _) (fun _ _ => rfl) ?_
      rintro ⟨⟨hstarted, hfinished, hafters⟩, _⟩
      refine ⟨.inl ⟨?_, hstarted, hfinished⟩, hafters⟩
      simp only [LoopyWork.setStatus, LoopyWork.setWorker, update_self]
    · rw [if_neg hcancelled] at hstep
      cases hstep
      refine h.advance (q := .running) hw rfl (h.counts.congr (fun _ => rfl) rfl rfl rfl rfl rfl)
        rfl (fun _ _ => rfl) (fun m hne => update_of_ne hne _ _) ?_
      rintro ⟨⟨hstarted, hfinished, hafters⟩, hreturned⟩
      simp only [LoopyWork.record, LoopyWork.setWorker, update_self, Worker.stage, Fits]
      refine ⟨by omega, hfinished, hafters, ?_⟩
      simpa using mt hreturned hcancelled
  · cases hstep

/-- The `workCb` of a worker returns. -/
theorem PoolInv.finish (h : PoolInv work) (hstep : step work (.finish w) = some work') :
    PoolInv work' := by
  rw [step] at hstep
  split at hstep
  · next n hw =>
    cases hstep
    refine h.advance (q := .finished) hw rfl (h.counts.congr (setStatus_id work n · .OK)
      rfl rfl rfl rfl rfl) rfl (fun m hne => update_of_ne hne _ _)
      (fun m hne => update_of_ne hne _ _) ?_
    rintro ⟨hstarted, hfinished, hafters, hreturned⟩
    simp only [LoopyWork.record, LoopyWork.setStatus, LoopyWork.setWorker, update_self,
      Worker.stage, Fits]
    refine ⟨.inr ⟨rfl, hstarted, ?_, hreturned⟩, hafters⟩
    rw [hfinished]
  · cases hstep

/-- A worker appends its item to the completed ones. -/
theorem PoolInv.enqueueCompleted (h : PoolInv work)
    (hstep : step work (.enqueueCompleted w) = some work') : PoolInv work' := by
  rw [step] at hstep
  split at hstep
  · next n hw =>
    cases hstep
    have hheld : work.custody.held w = some n := congrArg Worker.item hw
    have hpool := h.pool.step (.complete w n hheld)
    have hmove := Custody.move_complete hheld
    have hcustody : LoopyWork.custody
        { work.setWorker w .notifying with completed := work.completed ++ [n] } =
          { work.custody with
            held := update work.custody.held w none
            completed := work.custody.completed ++ [n] } := by
      unfold LoopyWork.custody LoopyWork.setWorker
      dsimp only
      rw [held_update]
      rfl
    rw [← hcustody] at hpool hmove
    refine h.move (h.counts.congr (fun _ => rfl) rfl rfl rfl rfl rfl) hpool hmove (fun _ _ => rfl)
      (fun _ _ => rfl) (worker_update (.inl hheld)) fun hfits => ?_
    simp only [LoopyWork.stage, hw] at hfits
    exact hfits
  · cases hstep

/-- The loop takes the first completed item. -/
theorem PoolInv.pop (h : PoolInv work) (hstep : step work (.pop l) = some work') :
    PoolInv work' := by
  obtain ⟨hl, hstep⟩ := Option.ite_none_right_eq_some.mp hstep
  have hcounts := h.counts
  split at hstep
  · cases hstep
    exact h.stay (hcounts.congr (fun _ => rfl) rfl rfl rfl rfl rfl)
      (custody_setProcessor (by rw [hl]; rfl)) (fun _ _ _ hfits => hfits)
  · next n rest hcompleted =>
    cases hstep
    have hnone : work.custody.popped l = none := congrArg Processor.item hl
    have hpool := h.pool.step (.pop l n rest hnone hcompleted)
    have hmove := h.pool.move_pop hnone hcompleted
    have hcustody : LoopyWork.custody
        { work.setProcessor l (.popped n) with completed := rest } =
          { work.custody with
            completed := rest
            popped := update work.custody.popped l (some n) } := by
      unfold LoopyWork.custody LoopyWork.setProcessor
      dsimp only
      rw [popped_update]
      rfl
    rw [← hcustody] at hpool hmove
    exact h.move (hcounts.congr (fun _ => rfl) rfl rfl rfl rfl rfl) hpool hmove (fun _ _ => rfl)
      (fun _ _ => rfl) (fun _ => .inl rfl) id

/-- The loop calls `afterCb`, if there is one, and frees the item. -/
theorem PoolInv.after (h : PoolInv work) (hstep : step work (.after l) = some work') :
    PoolInv work' := by
  rw [step] at hstep
  split at hstep
  · next n hl =>
    have hpopped : work.custody.popped l = some n := congrArg Processor.item hl
    have hpool := h.pool.step (.deliver l n hpopped)
    have hmove := Custody.move_deliver hpopped
    have hcustody : LoopyWork.custody
        { work.setProcessor l .processing with freed := work.freed ++ [n] } =
          { work.custody with
            popped := update work.custody.popped l none
            delivered := work.custody.delivered ++ [n] } := by
      unfold LoopyWork.custody LoopyWork.setProcessor
      dsimp only
      rw [popped_update]
      rfl
    rw [← hcustody] at hpool hmove
    have hcounts := h.counts
    dsimp only at hstep
    split at hstep
    · cases hstep
      refine h.move (hcounts.congr (fun _ => rfl) rfl rfl rfl rfl rfl) hpool hmove (fun _ _ => rfl)
        (fun m hne => update_of_ne hne _ _) (fun _ => .inl rfl) ?_
      rintro ⟨houtcome, hafters⟩
      simp only [LoopyWork.record, LoopyWork.setProcessor, update_self, LoopyWork.stage,
        Fits, hafters, List.nil_append]
      exact ⟨houtcome, .inr trivial⟩
    · cases hstep
      refine h.move (hcounts.congr (fun _ => rfl) rfl rfl rfl rfl rfl) hpool hmove (fun _ _ => rfl)
        (fun _ _ => rfl) (fun _ => .inl rfl) ?_
      -- an item without a callback is only freed
      rintro ⟨houtcome, hafters⟩
      exact ⟨houtcome, .inl hafters⟩
  · cases hstep

theorem PoolInv.step {a : Action W L} (h : PoolInv work) (hstep : step work a = some work') :
    PoolInv work' := by
  cases a with
  | queue workCb afterCb userData allocated =>
    cases hstep
    exact h.queue workCb afterCb userData allocated
  | cancel workId =>
    simp only [Work.step, loopyWorkCancel] at hstep
    by_cases hzero : workId = 0
    · simp only [if_pos hzero] at hstep
      cases hstep
      exact h
    · simp only [if_neg hzero] at hstep
      cases hfind : findPending work workId with
      | none =>
        rw [hfind] at hstep
        cases hstep
        exact h
      | some n =>
        rw [hfind] at hstep
        cases hstep
        exact h.cancel hfind
  | cancelAll =>
    cases hstep
    exact h.cancelAll
  | dequeue w =>
    obtain ⟨hw, hstep⟩ := Option.ite_none_right_eq_some.mp hstep
    exact h.dequeue hw hstep
  | inspect w => exact h.inspect hstep
  | finish w => exact h.finish hstep
  | uncount w =>
    rw [Work.step] at hstep
    split at hstep
    · next n hw =>
      cases hstep
      exact h.advance (q := .uncounted) hw rfl (h.counts.congr (fun _ => rfl) rfl rfl rfl rfl rfl)
        rfl (fun _ _ => rfl) (fun _ _ => rfl) id
    · cases hstep
  | enqueueCompleted w => exact h.enqueueCompleted hstep
  | notify w =>
    obtain ⟨hw, rfl⟩ := of_guard hstep
    refine h.stay (h.counts.congr (fun _ => rfl) rfl rfl rfl rfl rfl)
      (custody_setWorker (by rw [hw]; rfl)) fun p n hp hfits => ?_
    -- the worker holds no item, so no item's stage is read from it
    have hstage : (work.setWorker w .idle).stage p = work.stage p := by
      cases p with
      | unborn | pending | completed | popped | delivered => rfl
      | held v =>
        have hv : v ≠ w := by
          rintro rfl
          have hheld : (work.worker v).item = some n := hp
          rw [hw] at hheld
          cases hheld
        simp only [LoopyWork.stage, LoopyWork.setWorker, update_of_ne hv]
    rw [hstage]
    exact hfits
  | process l =>
    obtain ⟨hl, rfl⟩ := of_guard hstep
    exact h.stay (h.counts.congr (fun _ => rfl) rfl rfl rfl rfl rfl)
      (custody_setProcessor (by rw [hl]; rfl)) (fun _ _ _ hfits => hfits)
  | pop l => exact h.pop hstep
  | after l => exact h.after hstep

/-! ## What callers see -/

/-- What the pool promises of a state. -/
structure PoolLaw (work : LoopyWork W L) : Prop where
  ids : ∀ m n, m < n → n < m + 2 ^ 64 → n < work.accepted → (work.items m).id ≠ (work.items n).id
  work_once : ∀ n, (work.history n).started ≤ 1
  after_once : ∀ n, (work.history n).afters.length ≤ 1
  after_status : ∀ n, ∀ status ∈ (work.history n).afters,
    (status = .OK ∧ (work.history n).finished = 1) ∨
      (status = .CANCELLED ∧ (work.history n).started = 0)
  cancel : ∀ n, (work.history n).cancelReturned →
    (work.history n).started = 0 ∧ ∀ status ∈ (work.history n).afters, status = .CANCELLED
  count : work.pendingCount = work.pending.length
  bound : 0 < work.maxQueueSize → work.pendingCount ≤ work.maxQueueSize
  located : ∀ n, n < work.accepted → ∃! location, work.custody.LocatedAt n location
  queued_once : work.pending.Nodup ∧ work.completed.Nodup

section Law

omit [DecidableEq W] [DecidableEq L]

variable {work : LoopyWork W L}

/-- What every place says of the callbacks of an item. -/
structure CallbackLaw (h : History) : Prop where
  work_once : h.started ≤ 1
  after_once : h.afters.length ≤ 1
  after_status : ∀ status ∈ h.afters,
    (status = .OK ∧ h.finished = 1) ∨ (status = .CANCELLED ∧ h.started = 0)
  cancel : h.cancelReturned → h.started = 0 ∧ ∀ status ∈ h.afters, status = .CANCELLED

variable {h : History}

theorem Outcome.callbackLaw {item : LoopyWorkItem} (ho : Outcome item h)
    (hafters : h.afters = [] ∨ h.afters = [item.status]) : CallbackLaw h := by
  have hstatus : ∀ status ∈ h.afters, status = item.status := by
    intro status hmem
    rcases hafters with hnil | hone
    · rw [hnil] at hmem
      cases hmem
    · rw [hone] at hmem
      exact List.mem_singleton.mp hmem
  have hlength : h.afters.length ≤ 1 := by
    rcases hafters with hnil | hone
    · simp [hnil]
    · simp [hone]
  rcases ho with ⟨hcancelled, hstarted, _⟩ | ⟨hok, hstarted, hfinished, hreturned⟩
  · refine ⟨by omega, hlength, fun status hmem => ?_, fun _ => ⟨hstarted, fun status hmem => ?_⟩⟩
    · exact .inr ⟨(hstatus status hmem).trans hcancelled, hstarted⟩
    · exact (hstatus status hmem).trans hcancelled
  · refine ⟨by omega, hlength, fun status hmem => ?_, fun htrue => ?_⟩
    · exact .inl ⟨(hstatus status hmem).trans hok, hfinished⟩
    · rw [hreturned] at htrue
      cases htrue

theorem Untouched.callbackLaw (hu : Untouched h) : CallbackLaw h := by
  obtain ⟨hstarted, _, hafters⟩ := hu
  refine ⟨by omega, by simp [hafters], fun status hmem => ?_, fun _ => ⟨hstarted, ?_⟩⟩
  · rw [hafters] at hmem
    cases hmem
  · simp [hafters]

theorem Fits.callbackLaw {item : LoopyWorkItem} {stage : Stage} (hf : Fits item h stage) :
    CallbackLaw h := by
  cases stage with
  | unborn | waiting => exact hf.1.callbackLaw
  | left => exact hf.1.callbackLaw (.inl hf.2)
  | freed => exact hf.1.callbackLaw hf.2
  | running =>
    obtain ⟨hstarted, _, hafters, hreturned⟩ := hf
    refine ⟨by omega, by simp [hafters], by simp [hafters], fun htrue => ?_⟩
    rw [hreturned] at htrue
    cases htrue

theorem PoolInv.law (h : PoolInv work) : PoolLaw work := by
  have hcallback : ∀ n, CallbackLaw (work.history n) := fun n =>
    let ⟨p, hp, _⟩ := h.pool.settled n
    (h.fits p n hp).callbackLaw
  refine ⟨fun m n hmn hwindow hn => ?_, fun n => (hcallback n).work_once,
    fun n => (hcallback n).after_once, fun n => (hcallback n).after_status,
    fun n => (hcallback n).cancel, h.counts.count, fun hmax => ?_, fun n hn => h.pool.located hn,
    h.pool.pending, h.pool.completed⟩
  · rw [h.counts.ids m (by omega), h.counts.ids n hn]
    omega
  · rw [h.counts.count]
    exact h.counts.bound hmax

end Law

/-- **Exactly once.** In every run of the pool: ids are distinct among any `2^64` items accepted
one after the other; the callbacks of an item are called at most once and as its status says;
a cancelled item is never run; the queue is counted and bounded; and every accepted item is in
exactly one place. -/
theorem exactly_once (maxQueueSize : ℕ) (as : List (Action W L)) (work : LoopyWork W L)
    (hrun : Run step (fun _ _ => True) (loopyWorkNew W L maxQueueSize) as work) : PoolLaw work :=
  have hinv : PoolInv work :=
    hrun.invariant (fun _ _ _ h _ hstep => h.step hstep) (.new W L maxQueueSize)
  hinv.law

/-- Two items, one of them cancelled while it is pending, and their deliveries. -/
def cancelRun : List (Action Bool Unit) :=
  [.queue (some 1) (some 2) 3 true, .queue (some 1) (some 2) 4 true, .queue (some 1) none 5 true,
    .cancel 2, .dequeue true, .dequeue false, .inspect false, .inspect true, .uncount false,
    .enqueueCompleted false, .finish true, .uncount true, .enqueueCompleted true, .process (),
    .pop (), .after (), .pop (), .after ()]

theorem exactly_once_cancelRun :
    ∃ work, Run step (fun _ _ => True) (loopyWorkNew Bool Unit 2) cancelRun work ∧ PoolLaw work ∧
      (work.history 0).afters = [.OK] ∧ (work.history 1).afters = [.CANCELLED] ∧
      work.accepted = 2 := by
  have hexec : (exec step (fun _ _ => True) (loopyWorkNew Bool Unit 2) cancelRun).map
      (fun work => ((work.history 0).afters, (work.history 1).afters, work.accepted)) =
      some ([.OK], [.CANCELLED], 2) := by decide +kernel
  obtain ⟨work, hrun, hval⟩ := Run.of_exec_map hexec
  simp only [Prod.mk.injEq] at hval
  exact ⟨work, hrun, exactly_once 2 cancelRun work hrun, hval⟩

/-! ## Ids wrap -/

/-- One item from its acceptance to its delivery. -/
def itemCycle : List (Action Unit Unit) :=
  [.queue (some 1) none 0 true, .dequeue (), .inspect (), .finish (), .uncount (),
    .enqueueCompleted (), .notify (), .process (), .pop (), .after (), .pop ()]

/-- The counters, the queues and the threads. -/
def LoopyWork.front (work : LoopyWork Unit Unit) :
    ℕ × ℕ × ℕ × List ℕ × List ℕ × Worker × Processor :=
  (work.accepted, work.maxQueueSize, work.pendingCount, work.pending, work.completed,
    work.worker (), work.processor ())

/-- In a pool that has delivered its `k` items, one more is accepted and delivered. -/
theorem itemCycle_run {k : ℕ} {work : LoopyWork Unit Unit}
    (h : work.front = (k, 1, 0, [], [], .idle, .idle)) :
    ∃ work', Run step (fun _ _ => True) work itemCycle work' ∧
      work'.front = (k + 1, 1, 0, [], [], .idle, .idle) := by
  simp only [LoopyWork.front, Prod.mk.injEq] at h
  obtain ⟨rfl, hmax, hcount, hpending, hcompleted, hworker, hprocessor⟩ := h
  refine Run.of_exec_map ?_
  simp [itemCycle, exec, step, loopyWorkQueue, workDequeue, LoopyWork.front, LoopyWork.setWorker,
    LoopyWork.setProcessor, LoopyWork.record, LoopyWork.setStatus, hmax, hpending, hcount,
    hcompleted, hworker, hprocessor]

/-- The first item and the one accepted `2^64` items later have the same id. -/
theorem ids_not_distinct :
    ¬ ∀ (as : List (Action Unit Unit)) (work : LoopyWork Unit Unit),
      Run step (fun _ _ => True) (loopyWorkNew Unit Unit 1) as work →
      ∀ m n, m < n → n < work.accepted → (work.items m).id ≠ (work.items n).id := by
  intro hall
  obtain ⟨work, hrun, hfront⟩ := Run.cycles
    (P := fun k (work : LoopyWork Unit Unit) => work.front = (k, 1, 0, [], [], .idle, .idle))
    (fun _ _ => itemCycle_run)
    (rfl : (loopyWorkNew Unit Unit 1).front = _) (2 ^ 64 + 1)
  have haccepted : work.accepted = 2 ^ 64 + 1 := congrArg Prod.fst hfront
  have hinv : PoolInv work :=
    hrun.invariant (fun _ _ _ h _ hstep => h.step hstep) (.new Unit Unit 1)
  have hne := hall _ work hrun 0 (2 ^ 64) (by omega) (by omega)
  rw [hinv.counts.ids 0 (by omega), hinv.counts.ids (2 ^ 64) (by omega)] at hne
  omega

end Loopy.Work
