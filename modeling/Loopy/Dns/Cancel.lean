import Loopy.Dns.Delivery

/-!
# Cancelled queries

`loopyDNSCancel` and `loopyDNSCancelAll` mark queries. A marked query is not resolved, but it goes
the way of every other query, and its callback is called with the status `CANCELLED`. Wherever an
accepted query is, the workers and the loop can bring it to its callback (`DnsInv.deliverable`), so
that the promise of the cancellations, `cancelled_silent_iff`, holds only where nothing is cancelled.
-/

namespace Loopy.Dns

open Loopy.Lib
open Function (update_self)

variable {W L : Type} [DecidableEq W] [DecidableEq L]

/-! ## The promise -/

/-- The callback of the query is called by nothing that can happen from here on. -/
def LoopyDNS.Silent (dns : LoopyDNS W L) (n : ℕ) : Prop :=
  ∀ as dns', Run step (fun _ _ => True) dns as dns' →
    n ∉ dns'.delivered.map LoopyDNSCompletedQuery.query

/-- No query has been cancelled. -/
def LoopyDNS.Uncancelled (dns : LoopyDNS W L) : Prop := dns.cancels = []

/-- The step is no cancellation that finds a query. -/
def CancelsNothing (dns : LoopyDNS W L) : Action W L → Prop
  | .cancel queryId => queryId = 0 ∨ ∀ n ∈ dns.pending, (dns.queries n).id ≠ queryId
  | .cancelAll => dns.pending = []
  | _ => True

instance (dns : LoopyDNS W L) : ∀ a, Decidable (CancelsNothing dns a)
  | .cancel _ => inferInstanceAs (Decidable (_ ∨ _))
  | .cancelAll => inferInstanceAs (Decidable (dns.pending = []))
  | .resolve .. | .reverseLookup .. | .dequeue _ | .resolved .. | .enqueueCompleted _ | .notify _
  | .process _ | .pop _ | .callback _ => isTrue trivial

variable {dns dns' : LoopyDNS W L} {n : ℕ} {w : W} {l : L}

/-! ## Every query can be delivered -/

/-- The threads can go on until the callback of the query has been called. -/
def LoopyDNS.Deliverable (dns : LoopyDNS W L) (n : ℕ) : Prop :=
  ∃ as dns', Run step (fun _ _ => True) dns as dns' ∧
    n ∈ dns'.delivered.map LoopyDNSCompletedQuery.query

namespace LoopyDNS

theorem Deliverable.before {as : List (Action W L)} (h : dns'.Deliverable n)
    (hrun : Run step (fun _ _ => True) dns as dns') : dns.Deliverable n := by
  obtain ⟨bs, last, hlast, hmem⟩ := h
  exact ⟨as ++ bs, last, hrun.append hlast, hmem⟩

theorem Deliverable.step_before {a : Action W L} (h : dns'.Deliverable n)
    (hstep : step dns a = some dns') : dns.Deliverable n :=
  h.before (.single trivial hstep)

variable {completed : LoopyDNSCompletedQuery}

theorem step_callback (hl : dns.processor l = .popped completed) :
    step dns (.callback l) = some { dns.setProcessor l .processing with
      delivered := dns.delivered ++ [completed] } := by
  rw [step, hl]

theorem step_enqueueCompleted (hw : dns.worker w = .resolved completed) :
    step dns (.enqueueCompleted w) = some { dns.setWorker w .notifying with
      completed := dns.completed ++ [completed] } := by
  rw [step, hw]

theorem step_resolved (hw : dns.worker w = .dequeued n) :
    step dns (.resolved w .ok) = some (dns.setWorker w (.resolved (dns.processQuery n .ok))) := by
  rw [step, hw]

/-- The loop has taken the result of the query. -/
theorem deliverable_of_popped (hl : dns.processor l = .popped completed) :
    dns.Deliverable completed.query := by
  refine ⟨[.callback l], _, .single trivial (step_callback hl), ?_⟩
  rw [List.map_append]
  exact List.mem_append_right _ List.mem_cons_self

/-- The loop takes the results in their order. -/
theorem deliverable_of_processing (hl : dns.processor l = .processing)
    (hn : n ∈ dns.completed.map LoopyDNSCompletedQuery.query) : dns.Deliverable n := by
  -- the results before the one that is looked for are taken one by one
  generalize hcompleted : dns.completed = results at hn
  induction results generalizing dns with
  | nil => cases hn
  | cons completed rest ih =>
    let popped : LoopyDNS W L :=
      { dns.setProcessor l (.popped completed) with completed := rest }
    have hpop : step dns (.pop l) = some popped := by
      rw [step, if_pos hl, hcompleted]
    have hpopped : popped.processor l = .popped completed := update_self ..
    refine Deliverable.step_before ?_ hpop
    by_cases hfirst : n = completed.query
    · rw [hfirst]
      exact deliverable_of_popped hpopped
    · -- the callback of another query is called first
      have hrest : n ∈ rest.map LoopyDNSCompletedQuery.query :=
        (List.mem_cons.mp hn).resolve_left hfirst
      refine Deliverable.step_before ?_ (step_callback hpopped)
      exact ih (update_self ..) rfl hrest

/-- A result is in the completed list. -/
theorem deliverable_of_completed (l : L) (hn : n ∈ dns.completed.map LoopyDNSCompletedQuery.query) :
    dns.Deliverable n := by
  generalize hl : dns.processor l = pc
  cases pc with
  | idle =>
    have hprocess : step dns (.process l) = some (dns.setProcessor l .processing) := by
      rw [step, if_pos hl]
    refine Deliverable.step_before ?_ hprocess
    exact deliverable_of_processing (l := l) (update_self ..) hn
  | processing => exact deliverable_of_processing hl hn
  | popped completed =>
    -- the callback that is due now comes first
    refine Deliverable.step_before ?_ (step_callback hl)
    exact deliverable_of_processing (l := l) (update_self ..) hn

/-- A worker has the result. -/
theorem deliverable_of_resolved (l : L) (hw : dns.worker w = .resolved completed) :
    dns.Deliverable completed.query := by
  refine Deliverable.step_before ?_ (step_enqueueCompleted hw)
  refine deliverable_of_completed l ?_
  rw [List.map_append]
  exact List.mem_append_right _ List.mem_cons_self

/-- A worker holds the query. -/
theorem deliverable_of_held (l : L) (hw : (dns.worker w).query = some n) : dns.Deliverable n := by
  generalize hpc : dns.worker w = pc at hw
  cases pc with
  | idle => cases hw
  | notifying => cases hw
  | resolved completed =>
    rw [← Option.some.inj hw]
    exact deliverable_of_resolved l hpc
  | dequeued m =>
    obtain rfl : m = n := Option.some.inj hw
    have hresolved : (dns.setWorker w (.resolved (dns.processQuery m .ok))).worker w =
        .resolved (dns.processQuery m .ok) := update_self ..
    exact Deliverable.step_before (deliverable_of_resolved l hresolved) (step_resolved hpc)

/-- The worker can come back for a query, and those that wait still do. -/
def Returns (dns : LoopyDNS W L) (w : W) : Prop :=
  ∃ as dns', Run step (fun _ _ => True) dns as dns' ∧ dns'.worker w = .idle ∧
    dns'.pending = dns.pending

theorem Returns.step_before {a : Action W L} (h : dns'.Returns w)
    (hstep : step dns a = some dns') (hpending : dns'.pending = dns.pending) : dns.Returns w := by
  obtain ⟨as, last, hrun, hidle, hsame⟩ := h
  exact ⟨a :: as, last, .cons trivial hstep hrun, hidle, hsame.trans hpending⟩

theorem returns_of_notifying (hw : dns.worker w = .notifying) : dns.Returns w := by
  have hnotify : step dns (.notify w) = some (dns.setWorker w .idle) := by
    rw [step, if_pos hw]
  exact ⟨[.notify w], _, .single trivial hnotify, update_self .., rfl⟩

theorem returns_of_resolved (hw : dns.worker w = .resolved completed) : dns.Returns w := by
  refine Returns.step_before ?_ (step_enqueueCompleted hw) rfl
  exact returns_of_notifying (update_self ..)

theorem returns (dns : LoopyDNS W L) (w : W) : dns.Returns w := by
  generalize hpc : dns.worker w = pc
  cases pc with
  | idle => exact ⟨[], dns, .nil dns, hpc, rfl⟩
  | notifying => exact returns_of_notifying hpc
  | resolved completed => exact returns_of_resolved hpc
  | dequeued m =>
    refine Returns.step_before ?_ (step_resolved hpc) rfl
    exact returns_of_resolved (update_self ..)

/-- The query waits; a worker takes the queries in their order. -/
theorem deliverable_of_pending (w : W) (l : L) (hn : n ∈ dns.pending) : dns.Deliverable n := by
  generalize hpending : dns.pending = waiting at hn
  induction waiting generalizing dns with
  | nil => cases hn
  | cons m rest ih =>
    -- the worker finishes what it does and comes back
    obtain ⟨as, idle, hidle, hw, hsame⟩ := returns dns w
    let taken : LoopyDNS W L :=
      { idle.setWorker w (.dequeued m) with
        pending := rest
        pendingCount := idle.pendingCount - 1 }
    have hdequeue : step idle (.dequeue w) = some taken := by
      unfold Dns.step
      dsimp only
      rw [hw, hsame, hpending]
    have htaken : taken.worker w = .dequeued m := update_self ..
    refine Deliverable.before (Deliverable.step_before ?_ hdequeue) hidle
    obtain rfl | hrest := List.mem_cons.mp hn
    · exact deliverable_of_held (w := w) l (congrArg Worker.query htaken)
    · exact ih rfl hrest

end LoopyDNS

/-- **Every accepted query can be delivered**, wherever it is. -/
theorem DnsInv.deliverable (h : DnsInv dns) (w : W) (l : L) (hn : n < dns.accepted) :
    dns.Deliverable n := by
  obtain ⟨place, hplace, -⟩ := h.pool.settled n
  cases place with
  | unborn => exact absurd hn (Nat.not_lt.mpr hplace)
  | pending => exact LoopyDNS.deliverable_of_pending w l hplace
  | held v => exact LoopyDNS.deliverable_of_held l hplace
  | completed => exact LoopyDNS.deliverable_of_completed l hplace
  | popped k =>
    have hpopped : (dns.processor k).query = some n := hplace
    generalize hk : dns.processor k = pc at hpopped
    cases pc with
    | idle => cases hpopped
    | processing => cases hpopped
    | popped completed =>
      rw [← Option.some.inj hpopped]
      exact LoopyDNS.deliverable_of_popped hk
  | delivered => exact ⟨[], dns, .nil dns, hplace⟩

/-! ## What is cancelled -/

omit [DecidableEq W] [DecidableEq L] in
theorem foldl_markCancelled_cancels (ns : List ℕ) (dns : LoopyDNS W L) :
    (ns.foldl LoopyDNS.markCancelled dns).cancels = dns.cancels ++ ns := by
  induction ns generalizing dns with
  | nil => exact (List.append_nil _).symm
  | cons n ns ih =>
    rw [List.foldl_cons, ih]
    exact List.append_assoc dns.cancels [n] ns

omit [DecidableEq W] [DecidableEq L] in
/-- A cancellation is successful if it finds a pending query with the id. -/
theorem cancel_cancels (dns : LoopyDNS W L) (queryId : UInt64) :
    (loopyDNSCancel dns queryId).2.cancels = [] ↔
      dns.cancels = [] ∧ (queryId = 0 ∨ ∀ n ∈ dns.pending, (dns.queries n).id ≠ queryId) := by
  unfold loopyDNSCancel
  split
  next hzero => exact (and_iff_left (.inl hzero)).symm
  next hzero =>
    split
    next n hfind =>
      have hid := List.find?_some hfind
      refine iff_of_false (fun hnil => ?_) fun hnone => ?_
      · exact List.append_ne_nil_of_right_ne_nil _ (List.cons_ne_nil n []) hnil
      · exact hnone.2.elim hzero fun hne =>
          hne n (List.mem_of_find?_eq_some hfind) (of_decide_eq_true hid)
    next hfind =>
      have hne := List.find?_eq_none.mp hfind
      refine (and_iff_left (.inr fun n hn heq => ?_)).symm
      exact hne n hn (decide_eq_true heq)

/-- A step leaves no query cancelled exactly if none was, and it cancels none. -/
theorem step_cancels {a : Action W L} (hstep : step dns a = some dns') :
    dns'.Uncancelled ↔ dns.Uncancelled ∧ CancelsNothing dns a := by
  have hsame (hcancels : dns'.cancels = dns.cancels) :
      dns'.Uncancelled ↔ dns.Uncancelled ∧ True := by
    rw [LoopyDNS.Uncancelled, hcancels, and_true, LoopyDNS.Uncancelled]
  have hsubmit (kind : LoopyDNSQueryKind) (name : CString) (port : ℕ) (type : LoopyDNSQueryType)
      (callback userData : ℕ) :
      (dns.submit kind name port type callback userData).2.cancels = dns.cancels := by
    unfold LoopyDNS.submit
    split
    · rfl
    · rfl
  cases stepped hstep with
  | resolve hostname type callback userData => exact hsame (hsubmit ..)
  | reverseLookup addr port family callback userData =>
    refine hsame ?_
    unfold loopyDNSReverseLookup
    split
    · rfl
    · exact hsubmit ..
  | cancel queryId => exact cancel_cancels dns queryId
  | cancelAll =>
    rw [loopyDNSCancelAll, LoopyDNS.Uncancelled, foldl_markCancelled_cancels]
    exact List.append_eq_nil_iff
  | dequeue | resolved | enqueueCompleted | notify | process | finish | pop | callback =>
    exact hsame rfl

/-- A run has cancelled nothing exactly if none of its steps has. -/
theorem cancels_iff {maxConcurrent : UInt64} {as : List (Action W L)}
    (hrun : Run step (fun _ _ => True) (loopyDNSNew W L maxConcurrent) as dns) :
    dns.Uncancelled ↔ Run step CancelsNothing (loopyDNSNew W L maxConcurrent) as dns := by
  refine hrun.clean_iff (P := fun _ => True) (fun _ _ _ _ _ => trivial)
    (fun s a s' _ hclean hstep => ?_) (fun s a s' hstep hclean => ?_) trivial ?_
  · exact (step_cancels hstep).trans (and_iff_right hclean)
  · exact ((step_cancels hstep).mp hclean).1
  · rfl

/-- **A cancelled query is not silent**: with a worker and a loop, the queries that a run has
cancelled stay silent whatever happens next exactly if the run has cancelled none. -/
theorem cancelled_silent_iff (w : W) (l : L) {maxConcurrent : UInt64} {as : List (Action W L)}
    (hrun : Run step (fun _ _ => True) (loopyDNSNew W L maxConcurrent) as dns) :
    (∀ n ∈ dns.cancels, dns.Silent n) ↔
      Run step CancelsNothing (loopyDNSNew W L maxConcurrent) as dns := by
  have hinv : DnsInv dns :=
    hrun.invariant (fun _ _ _ h _ hstep => h.step hstep) (.new W L maxConcurrent)
  rw [← cancels_iff hrun]
  constructor
  · intro hsilent
    -- a cancelled query was accepted, so it can be delivered
    refine List.eq_nil_iff_forall_not_mem.mpr fun n hn => ?_
    obtain ⟨bs, dns', hlater, hmem⟩ := hinv.deliverable w l (hinv.cancels_lt n hn)
    exact hsilent n hn bs dns' hlater hmem
  · intro hnone n hn
    rw [hnone] at hn
    cases hn

/-- One of two queries is cancelled. -/
def cancelRun : List (Action Unit Unit) :=
  [.resolve [97] .any 1 10, .dequeue (), .cancel 1, .resolve [98] .any 1 20, .cancel 2]

theorem cancelled_silent_cancelRun :
    ∃ dns, Run step (fun _ _ => True) (loopyDNSNew Unit Unit 2) cancelRun dns ∧
      dns.cancels = [1] ∧ ¬ dns.Silent 1 := by
  have hexec : (exec step (fun _ _ => True) (loopyDNSNew Unit Unit 2) cancelRun).map
      (fun dns => dns.cancels) = some [1] := by decide +kernel
  obtain ⟨dns, hrun, hcancels⟩ := Run.of_exec_map hexec
  refine ⟨dns, hrun, hcancels, fun hsilent => ?_⟩
  have hcleanRun : Run step CancelsNothing (loopyDNSNew Unit Unit 2) cancelRun dns := by
    refine (cancelled_silent_iff () () hrun).mp fun n hn => ?_
    rw [hcancels, List.mem_singleton] at hn
    rw [hn]
    exact hsilent
  have hnone : exec step CancelsNothing (loopyDNSNew Unit Unit 2) cancelRun = none := by
    decide +kernel
  rw [Run.iff_exec, hnone] at hcleanRun
  cases hcleanRun

/-- The only query is cancelled, and its callback is called. -/
theorem cancelled_called :
    ¬ ∀ (as bs : List (Action Unit Unit)) (dns dns' : LoopyDNS Unit Unit) (queryId : UInt64),
      Run step (fun _ _ => True) (loopyDNSNew Unit Unit 2) as dns →
      (loopyDNSCancel dns queryId).1 = true →
      Run step (fun _ _ => True) (loopyDNSCancel dns queryId).2 bs dns' →
      ∀ completed ∈ dns'.delivered, completed.queryId ≠ queryId := by
  intro hall
  have hexec : (exec step (fun _ _ => True) (loopyDNSNew Unit Unit 2) [.resolve [97] .any 1 10]).map
      (fun dns => ((loopyDNSCancel dns 1).1,
        (exec step (fun _ _ => True) (loopyDNSCancel dns 1).2
          [.dequeue (), .resolved () .ok, .enqueueCompleted (), .process (), .pop (),
            .callback ()]).map fun dns' => dns'.delivered.map LoopyDNSCompletedQuery.queryId)) =
      some (true, some [1]) := by
    decide +kernel
  obtain ⟨dns, hrun, hval⟩ := Run.of_exec_map hexec
  obtain ⟨htrue, hval⟩ := Prod.mk.inj hval
  obtain ⟨dns', hlater, hdelivered⟩ := Run.of_exec_map hval
  have hmem : (1 : UInt64) ∈ dns'.delivered.map LoopyDNSCompletedQuery.queryId := by
    rw [hdelivered]
    exact List.mem_cons_self
  obtain ⟨completed, hcompleted, hid⟩ := List.mem_map.mp hmem
  exact hall _ _ dns dns' 1 hrun htrue hlater completed hcompleted hid

end Loopy.Dns
