import Mathlib.Data.UInt
import Loopy.Dns.Basic
import Loopy.Lib.Custody

/-!
# Every query is answered once

A resolver is a pool of jobs: `custody` forgets all but where the queries are, and every step of
the machine is a move of the pool or changes nothing there (`step_custody`). Over it, `DnsInv` says
what the results hold. Ids are `uint64_t` and wrap: `queries_answered` says which ids are distinct.
-/

namespace Loopy.Dns

open Loopy.Lib
open Function (update update_eq_self update_of_ne update_self)

variable {W L : Type}

/-! ## The pool -/

/-- The query that a worker holds. -/
def Worker.query : Worker → Option ℕ
  | .idle | .notifying => none
  | .dequeued n => some n
  | .resolved completed => some completed.query

/-- The query that the loop has taken out of the completed list. -/
def Processor.query : Processor → Option ℕ
  | .idle | .processing => none
  | .popped completed => some completed.query

/-- Where the queries are. -/
def LoopyDNS.custody (dns : LoopyDNS W L) : Custody W L :=
  { accepted := dns.accepted
    pending := dns.pending
    held := fun w => (dns.worker w).query
    completed := dns.completed.map LoopyDNSCompletedQuery.query
    popped := fun l => (dns.processor l).query
    delivered := dns.delivered.map LoopyDNSCompletedQuery.query }

/-! ## The law -/

/-- A result is for its query. -/
structure LoopyDNS.Own (dns : LoopyDNS W L) (completed : LoopyDNSCompletedQuery) : Prop where
  accepted : completed.query < dns.accepted
  queryId : completed.queryId = (dns.queries completed.query).id
  kind : completed.kind = (dns.queries completed.query).kind
  userData : completed.userData = (dns.queries completed.query).userData
  callback : completed.callback = (dns.queries completed.query).callback
  status : completed.status = .cancelled ↔ completed.query ∈ dns.cancels

/-- What the resolver promises of a state: ids are distinct among any `2 ^ 64` queries in a row, and
only every `2 ^ 64`th is 0; every query is in exactly one place; its callback is called at most once
and with its own data, with the status `CANCELLED` exactly if it was cancelled while it waited. -/
structure DnsLaw (dns : LoopyDNS W L) : Prop where
  ids : ∀ m n, m < n → n < m + 2 ^ 64 → n < dns.accepted →
    (dns.queries m).id ≠ (dns.queries n).id
  nonzero : ∀ n < dns.accepted, (n + 1) % 2 ^ 64 ≠ 0 → (dns.queries n).id ≠ 0
  located : ∀ n < dns.accepted, ∃! location, dns.custody.LocatedAt n location
  once : (dns.delivered.map LoopyDNSCompletedQuery.query).Nodup
  own : ∀ completed ∈ dns.delivered, dns.Own completed
  count : dns.pendingCount = dns.pending.length
  queued_once : dns.pending.Nodup ∧ (dns.completed.map LoopyDNSCompletedQuery.query).Nodup

/-! ## The steps move queries through the pool -/

variable [DecidableEq W] [DecidableEq L]

theorem held_update (worker : W → Worker) (w : W) (pc : Worker) :
    (fun v => (update worker w pc v).query) =
      update (fun v => (worker v).query) w pc.query :=
  Function.comp_update Worker.query worker w pc

theorem popped_update (processor : L → Processor) (l : L) (pc : Processor) :
    (fun k => (update processor l pc k).query) =
      update (fun k => (processor k).query) l pc.query :=
  Function.comp_update Processor.query processor l pc

variable {dns dns' : LoopyDNS W L} {w : W} {l : L} {n : ℕ}

omit [DecidableEq L] in
/-- A worker goes on with what it holds. -/
theorem custody_setWorker {pc : Worker} (hpc : pc.query = (dns.worker w).query) :
    (dns.setWorker w pc).custody = dns.custody := by
  unfold LoopyDNS.custody LoopyDNS.setWorker
  rw [held_update, hpc, update_eq_self]

omit [DecidableEq W] in
theorem custody_setProcessor {pc : Processor} (hpc : pc.query = (dns.processor l).query) :
    (dns.setProcessor l pc).custody = dns.custody := by
  unfold LoopyDNS.custody LoopyDNS.setProcessor
  rw [popped_update, hpc, update_eq_self]

omit [DecidableEq W] [DecidableEq L] in
theorem markCancelled_custody (dns : LoopyDNS W L) (n : ℕ) :
    (dns.markCancelled n).custody = dns.custody := rfl

omit [DecidableEq W] [DecidableEq L] in
theorem foldl_markCancelled_custody (ns : List ℕ) (dns : LoopyDNS W L) :
    (ns.foldl LoopyDNS.markCancelled dns).custody = dns.custody := by
  induction ns generalizing dns with
  | nil => rfl
  | cons n ns ih => exact (ih _).trans (markCancelled_custody dns n)

theorem submit_custody (dns : LoopyDNS W L) (kind : LoopyDNSQueryKind) (name : CString) (port : ℕ)
    (type : LoopyDNSQueryType) (callback userData : ℕ) :
    Custody.Step dns.custody (dns.submit kind name port type callback userData).2.custody := by
  unfold LoopyDNS.submit
  split
  · exact .stay
  · exact .accept

/-- What a step does, with what it has found. -/
inductive Stepped (dns : LoopyDNS W L) : Action W L → LoopyDNS W L → Prop
  | resolve (hostname : CString) (type : LoopyDNSQueryType) (callback userData : ℕ) :
    Stepped dns (.resolve hostname type callback userData)
      (loopyDNSResolve dns hostname type callback userData).2
  | reverseLookup (addr : CString) (port : ℕ) (family : Option LoopyDNSQueryType)
    (callback userData : ℕ) :
    Stepped dns (.reverseLookup addr port family callback userData)
      (loopyDNSReverseLookup dns addr port family callback userData).2
  | cancel (queryId : UInt64) : Stepped dns (.cancel queryId) (loopyDNSCancel dns queryId).2
  | cancelAll : Stepped dns .cancelAll (loopyDNSCancelAll dns)
  | dequeue (w : W) (n : ℕ) (rest : List ℕ) (hw : dns.worker w = .idle)
    (hpending : dns.pending = n :: rest) :
    Stepped dns (.dequeue w) { dns.setWorker w (.dequeued n) with
      pending := rest
      pendingCount := dns.pendingCount - 1 }
  | resolved (w : W) (gaiErr : GaiErr) (n : ℕ) (hw : dns.worker w = .dequeued n) :
    Stepped dns (.resolved w gaiErr) (dns.setWorker w (.resolved (dns.processQuery n gaiErr)))
  | enqueueCompleted (w : W) (completed : LoopyDNSCompletedQuery)
    (hw : dns.worker w = .resolved completed) :
    Stepped dns (.enqueueCompleted w) { dns.setWorker w .notifying with
      completed := dns.completed ++ [completed] }
  | notify (w : W) (hw : dns.worker w = .notifying) :
    Stepped dns (.notify w) (dns.setWorker w .idle)
  | process (l : L) (hl : dns.processor l = .idle) :
    Stepped dns (.process l) (dns.setProcessor l .processing)
  | finish (l : L) (hl : dns.processor l = .processing) (hcompleted : dns.completed = []) :
    Stepped dns (.pop l) (dns.setProcessor l .idle)
  | pop (l : L) (completed : LoopyDNSCompletedQuery) (rest : List LoopyDNSCompletedQuery)
    (hl : dns.processor l = .processing) (hcompleted : dns.completed = completed :: rest) :
    Stepped dns (.pop l) { dns.setProcessor l (.popped completed) with completed := rest }
  | callback (l : L) (completed : LoopyDNSCompletedQuery)
    (hl : dns.processor l = .popped completed) :
    Stepped dns (.callback l) { dns.setProcessor l .processing with
      delivered := dns.delivered ++ [completed] }

variable {a : Action W L} {completed : LoopyDNSCompletedQuery}

theorem stepped (hstep : step dns a = some dns') : Stepped dns a dns' := by
  unfold Dns.step at hstep
  cases a with
  | resolve hostname type callback userData =>
    rw [← Option.some.inj hstep]
    exact .resolve hostname type callback userData
  | reverseLookup addr port family callback userData =>
    rw [← Option.some.inj hstep]
    exact .reverseLookup addr port family callback userData
  | cancel queryId =>
    rw [← Option.some.inj hstep]
    exact .cancel queryId
  | cancelAll =>
    rw [← Option.some.inj hstep]
    exact .cancelAll
  | dequeue w =>
    dsimp only at hstep
    split at hstep
    next n rest hw hpending =>
      rw [← Option.some.inj hstep]
      exact .dequeue w n rest hw hpending
    next => cases hstep
  | resolved w gaiErr =>
    dsimp only at hstep
    split at hstep
    next n hw =>
      rw [← Option.some.inj hstep]
      exact .resolved w gaiErr n hw
    next => cases hstep
  | enqueueCompleted w =>
    dsimp only at hstep
    split at hstep
    next completed hw =>
      rw [← Option.some.inj hstep]
      exact .enqueueCompleted w completed hw
    next => cases hstep
  | notify w =>
    obtain ⟨hw, rfl⟩ := of_guard hstep
    exact .notify w hw
  | process l =>
    obtain ⟨hl, rfl⟩ := of_guard hstep
    exact .process l hl
  | pop l =>
    obtain ⟨hl, hstep⟩ := Option.ite_none_right_eq_some.mp hstep
    split at hstep
    next hcompleted =>
      rw [← Option.some.inj hstep]
      exact .finish l hl hcompleted
    next completed rest hcompleted =>
      rw [← Option.some.inj hstep]
      exact .pop l completed rest hl hcompleted
  | callback l =>
    dsimp only at hstep
    split at hstep
    next completed hl =>
      rw [← Option.some.inj hstep]
      exact .callback l completed hl
    next => cases hstep

/-- Every step of the resolver is a move of the pool, or leaves the pool as it is. -/
theorem step_custody (hstep : step dns a = some dns') : Custody.Step dns.custody dns'.custody := by
  cases stepped hstep with
  | resolve hostname type callback userData => exact submit_custody dns _ _ _ _ _ _
  | reverseLookup addr port family callback userData =>
    unfold loopyDNSReverseLookup
    split
    · exact .stay
    · exact submit_custody dns _ _ _ _ _ _
  | cancel queryId =>
    unfold loopyDNSCancel
    split
    · exact .stay
    · split
      · exact .stay
      · exact .stay
  | cancelAll =>
    rw [loopyDNSCancelAll, foldl_markCancelled_custody]
    exact .stay
  | dequeue w n rest hw hpending =>
    have hnone : dns.custody.held w = none := congrArg Worker.query hw
    have hmove := Custody.Step.take w n rest hnone hpending
    unfold LoopyDNS.custody LoopyDNS.setWorker
    dsimp only
    rw [held_update]
    exact hmove
  | resolved w gaiErr n hw =>
    rw [custody_setWorker (by rw [hw]; rfl)]
    exact .stay
  | enqueueCompleted w completed hw =>
    have hheld : dns.custody.held w = some completed.query := congrArg Worker.query hw
    have hmove := Custody.Step.complete w completed.query hheld
    unfold LoopyDNS.custody LoopyDNS.setWorker
    dsimp only
    rw [held_update, List.map_append]
    exact hmove
  | notify w hw =>
    rw [custody_setWorker (by rw [hw]; rfl)]
    exact .stay
  | process l hl =>
    rw [custody_setProcessor (by rw [hl]; rfl)]
    exact .stay
  | finish l hl hcompleted =>
    rw [custody_setProcessor (by rw [hl]; rfl)]
    exact .stay
  | pop l completed rest hl hcompleted =>
    have hnone : dns.custody.popped l = none := congrArg Processor.query hl
    have hlist : dns.custody.completed =
        completed.query :: rest.map LoopyDNSCompletedQuery.query :=
      congrArg (List.map LoopyDNSCompletedQuery.query) hcompleted
    have hmove := Custody.Step.pop l completed.query _ hnone hlist
    unfold LoopyDNS.custody LoopyDNS.setProcessor
    dsimp only
    rw [popped_update]
    exact hmove
  | callback l completed hl =>
    have hpopped : dns.custody.popped l = some completed.query := congrArg Processor.query hl
    have hmove := Custody.Step.deliver l completed.query hpopped
    unfold LoopyDNS.custody LoopyDNS.setProcessor
    dsimp only
    rw [popped_update, List.map_append]
    exact hmove

/-! ## What the results hold -/

/-- A worker, a list, the loop or a callback has the result. -/
def LoopyDNS.Result (dns : LoopyDNS W L) (completed : LoopyDNSCompletedQuery) : Prop :=
  (∃ w, dns.worker w = .resolved completed) ∨ completed ∈ dns.completed ∨
    (∃ l, dns.processor l = .popped completed) ∨ completed ∈ dns.delivered

/-- The invariant. -/
structure DnsInv (dns : LoopyDNS W L) : Prop where
  pool : dns.custody.Wf
  count : dns.pendingCount = dns.pending.length
  ids : ∀ n < dns.accepted, (dns.queries n).id.toNat = (n + 1) % 2 ^ 64
  next : dns.nextQueryId.toNat = (dns.accepted + 1) % 2 ^ 64
  cancels_lt : ∀ n ∈ dns.cancels, n < dns.accepted
  cancelled : ∀ n < dns.accepted, (dns.queries n).cancelled = true ↔ n ∈ dns.cancels
  results : ∀ completed, dns.Result completed → dns.Own completed

omit [DecidableEq W] [DecidableEq L] in
theorem DnsInv.new (W L : Type) (maxConcurrent : UInt64) :
    DnsInv (loopyDNSNew W L maxConcurrent) := by
  refine ⟨Custody.Wf.empty, rfl, nofun, rfl, nofun, nofun, fun completed hresult => ?_⟩
  obtain ⟨_, hw⟩ | hmem | ⟨_, hl⟩ | hmem := hresult
  · cases hw
  · cases hmem
  · cases hl
  · cases hmem

omit [DecidableEq W] [DecidableEq L] in
/-- A query with a result does not wait any more. -/
theorem DnsInv.not_pending (h : DnsInv dns) (hresult : dns.Result completed) :
    completed.query ∉ dns.pending := by
  have hmap {cs : List LoopyDNSCompletedQuery} (hmem : completed ∈ cs) :
      completed.query ∈ cs.map LoopyDNSCompletedQuery.query := List.mem_map_of_mem hmem
  obtain ⟨w, hw⟩ | hmem | ⟨l, hl⟩ | hmem := hresult
  · have hheld : dns.custody.At (.held w) completed.query := congrArg Worker.query hw
    exact h.pool.not_at (q := .pending) hheld nofun
  · exact h.pool.not_at (p := .completed) (q := .pending) (hmap hmem) nofun
  · have hpopped : dns.custody.At (.popped l) completed.query := congrArg Processor.query hl
    exact h.pool.not_at (q := .pending) hpopped nofun
  · exact h.pool.not_at (p := .delivered) (q := .pending) (hmap hmem) nofun

omit [DecidableEq W] [DecidableEq L] in
/-- A step that leaves the queries. -/
theorem DnsInv.move (h : DnsInv dns) (hpool : dns'.custody.Wf)
    (hcount : dns'.pendingCount = dns'.pending.length) (hqueries : dns'.queries = dns.queries)
    (haccepted : dns'.accepted = dns.accepted) (hnext : dns'.nextQueryId = dns.nextQueryId)
    (hcancels : dns'.cancels = dns.cancels)
    (hresults : ∀ completed, dns'.Result completed → dns.Own completed) : DnsInv dns' := by
  refine ⟨hpool, hcount, ?_, ?_, ?_, ?_, fun completed hresult => ?_⟩
  · rw [hqueries, haccepted]
    exact h.ids
  · rw [hnext, haccepted]
    exact h.next
  · rw [hcancels, haccepted]
    exact h.cancels_lt
  · rw [hqueries, haccepted, hcancels]
    exact h.cancelled
  · obtain ⟨hlt, hid, hkind, hdata, hcallback, hstatus⟩ := hresults completed hresult
    refine ⟨?_, ?_, ?_, ?_, ?_, ?_⟩
    · rwa [haccepted]
    · rwa [hqueries]
    · rwa [hqueries]
    · rwa [hqueries]
    · rwa [hqueries]
    · rwa [hcancels]

omit [DecidableEq W] [DecidableEq L] in
/-- A waiting query is cancelled. -/
theorem DnsInv.markCancelled (h : DnsInv dns) (hn : n ∈ dns.pending) :
    DnsInv (dns.markCancelled n) := by
  have hborn : n < dns.accepted := h.pool.lt_accepted (p := .pending) hn nofun
  have hid (m : ℕ) : ((dns.markCancelled n).queries m).id = (dns.queries m).id := by
    show (update dns.queries n { dns.queries n with cancelled := true } m).id = _
    by_cases hm : m = n
    · subst hm
      rw [update_self]
    · rw [update_of_ne hm]
  refine ⟨h.pool, h.count, fun m hm => ?_, h.next, fun m hm => ?_, fun m hm => ?_,
    fun completed hresult => ?_⟩
  · rw [hid]
    exact h.ids m hm
  · obtain hold | hnew := List.mem_append.mp hm
    · exact h.cancels_lt m hold
    · rw [List.mem_singleton.mp hnew]
      exact hborn
  · show ((update dns.queries n { dns.queries n with cancelled := true }) m).cancelled =
      true ↔ m ∈ dns.cancels ++ [n]
    rw [List.mem_append, List.mem_singleton]
    by_cases hmn : m = n
    · subst hmn
      rw [update_self]
      exact iff_of_true rfl (.inr rfl)
    · rw [update_of_ne hmn]
      exact (h.cancelled m hm).trans (or_iff_left hmn).symm
  · -- the results are those of other queries
    have hne : completed.query ≠ n := fun heq => h.not_pending hresult (heq ▸ hn)
    have hsame : (dns.markCancelled n).queries completed.query = dns.queries completed.query :=
      update_of_ne hne ..
    obtain ⟨hlt, hid, hkind, hdata, hcallback, hstatus⟩ := h.results completed hresult
    refine ⟨hlt, ?_, ?_, ?_, ?_, ?_⟩
    · rwa [hsame]
    · rwa [hsame]
    · rwa [hsame]
    · rwa [hsame]
    · show _ ↔ completed.query ∈ dns.cancels ++ [n]
      rw [List.mem_append, List.mem_singleton]
      exact hstatus.trans (or_iff_left hne).symm

omit [DecidableEq W] [DecidableEq L] in
theorem DnsInv.foldl_markCancelled (ns : List ℕ) (h : DnsInv dns)
    (hns : ∀ n ∈ ns, n ∈ dns.pending) :
    DnsInv (ns.foldl LoopyDNS.markCancelled dns) := by
  induction ns generalizing dns with
  | nil => exact h
  | cons n ns ih =>
    exact ih (h.markCancelled (hns n List.mem_cons_self)) fun m hm =>
      hns m (List.mem_cons_of_mem n hm)

omit [DecidableEq W] [DecidableEq L] in
theorem toNat_succ_mod (id : UInt64) (k : ℕ) (h : id.toNat = k % 2 ^ 64) :
    (id + 1).toNat = (k + 1) % 2 ^ 64 := by
  rw [UInt64.toNat_add, h, UInt64.toNat_one]
  omega

theorem DnsInv.submit (h : DnsInv dns) (kind : LoopyDNSQueryKind) (name : CString) (port : ℕ)
    (type : LoopyDNSQueryType) (callback userData : ℕ) :
    DnsInv (dns.submit kind name port type callback userData).2 := by
  have hpool := h.pool.step (submit_custody dns kind name port type callback userData)
  revert hpool
  unfold LoopyDNS.submit
  split
  · intro hpool
    exact h.move hpool h.count rfl rfl rfl rfl h.results
  · intro hpool
    refine ⟨hpool, ?_, fun m hm => ?_, toNat_succ_mod _ _ h.next, fun m hm => ?_, fun m hm => ?_,
      fun completed hresult => ?_⟩
    · show dns.pendingCount + 1 = (dns.pending ++ [dns.accepted]).length
      rw [List.length_append, List.length_singleton, h.count]
    · have hm : m < dns.accepted + 1 := hm
      by_cases hnew : m = dns.accepted
      · subst hnew
        show ((update dns.queries dns.accepted _) dns.accepted).id.toNat = _
        rw [update_self]
        exact h.next
      · show ((update dns.queries dns.accepted _) m).id.toNat = _
        rw [update_of_ne hnew]
        exact h.ids m (by omega)
    · exact Nat.lt_succ_of_lt (h.cancels_lt m hm)
    · have hm : m < dns.accepted + 1 := hm
      by_cases hnew : m = dns.accepted
      · subst hnew
        show ((update dns.queries dns.accepted _) dns.accepted).cancelled = true ↔ _
        rw [update_self]
        -- nobody can have cancelled a query before it was accepted
        exact iff_of_false nofun fun hmem => absurd (h.cancels_lt _ hmem) (lt_irrefl _)
      · show ((update dns.queries dns.accepted _) m).cancelled = true ↔ _
        rw [update_of_ne hnew]
        exact h.cancelled m (by omega)
    · obtain ⟨hlt, hid, hkind, hdata, hcallback, hstatus⟩ := h.results completed hresult
      have hsame (q : LoopyDNSQuery) :
          update dns.queries dns.accepted q completed.query =
            dns.queries completed.query := update_of_ne (Nat.ne_of_lt hlt) ..
      refine ⟨Nat.lt_succ_of_lt hlt, ?_, ?_, ?_, ?_, hstatus⟩
      · exact hid.trans (congrArg LoopyDNSQuery.id (hsame _).symm)
      · exact hkind.trans (congrArg LoopyDNSQuery.kind (hsame _).symm)
      · exact hdata.trans (congrArg LoopyDNSQuery.userData (hsame _).symm)
      · exact hcallback.trans (congrArg LoopyDNSQuery.callback (hsame _).symm)

theorem GaiErr.status_ne (gaiErr : GaiErr) : gaiErr.status ≠ .cancelled := by
  cases gaiErr <;> exact LoopyDNSStatus.noConfusion

omit [DecidableEq W] [DecidableEq L] in
/-- The result of a query that was dequeued. -/
theorem DnsInv.processQuery (h : DnsInv dns) (hn : n < dns.accepted) (gaiErr : GaiErr) :
    dns.Own (dns.processQuery n gaiErr) := by
  refine ⟨hn, rfl, rfl, rfl, rfl, ?_⟩
  show (if (dns.queries n).cancelled then LoopyDNSStatus.cancelled else gaiErr.status) =
    .cancelled ↔ n ∈ dns.cancels
  rw [← h.cancelled n hn]
  split
  · next hcancelled => exact iff_of_true rfl hcancelled
  · next hcancelled => exact iff_of_false gaiErr.status_ne hcancelled

omit [DecidableEq L] in
/-- The results after a worker has moved. -/
theorem result_setWorker {pc : Worker} (hresult : (dns.setWorker w pc).Result completed) :
    pc = .resolved completed ∨ dns.Result completed := by
  obtain ⟨v, hv⟩ | hmem | hl | hmem := hresult
  · have hv : update dns.worker w pc v = .resolved completed := hv
    by_cases hvw : v = w
    · subst hvw
      rw [update_self] at hv
      exact .inl hv
    · rw [update_of_ne hvw] at hv
      exact .inr (.inl ⟨v, hv⟩)
  · exact .inr (.inr (.inl hmem))
  · exact .inr (.inr (.inr (.inl hl)))
  · exact .inr (.inr (.inr (.inr hmem)))

omit [DecidableEq W] in
/-- The results after the loop has moved. -/
theorem result_setProcessor {pc : Processor} (hresult : (dns.setProcessor l pc).Result completed) :
    pc = .popped completed ∨ dns.Result completed := by
  obtain hw | hmem | ⟨k, hk⟩ | hmem := hresult
  · exact .inr (.inl hw)
  · exact .inr (.inr (.inl hmem))
  · have hk : update dns.processor l pc k = .popped completed := hk
    by_cases hkl : k = l
    · subst hkl
      rw [update_self] at hk
      exact .inl hk
    · rw [update_of_ne hkl] at hk
      exact .inr (.inr (.inr (.inl ⟨k, hk⟩)))
  · exact .inr (.inr (.inr (.inr hmem)))

theorem DnsInv.step (h : DnsInv dns) (hstep : step dns a = some dns') : DnsInv dns' := by
  have hpool := h.pool.step (step_custody hstep)
  cases stepped hstep with
  | resolve hostname type callback userData => exact h.submit _ _ _ _ _ _
  | reverseLookup addr port family callback userData =>
    unfold loopyDNSReverseLookup
    split
    · exact h
    · exact h.submit _ _ _ _ _ _
  | cancel queryId =>
    unfold loopyDNSCancel
    split
    · exact h
    · split
      · next n hfind => exact h.markCancelled (List.mem_of_find?_eq_some hfind)
      · exact h
  | cancelAll => exact h.foldl_markCancelled dns.pending fun _ hn => hn
  | dequeue w n rest hw hpending =>
    refine h.move hpool ?_ rfl rfl rfl rfl fun completed hresult => ?_
    · show dns.pendingCount - 1 = rest.length
      rw [h.count, hpending, List.length_cons, Nat.add_sub_cancel]
    · have hold : (dns.setWorker w (.dequeued n)).Result completed := hresult
      exact h.results completed ((result_setWorker hold).resolve_left nofun)
  | resolved w gaiErr n hw =>
    have hheld : dns.custody.At (.held w) n := congrArg Worker.query hw
    refine h.move hpool h.count rfl rfl rfl rfl fun completed hresult => ?_
    obtain hnew | hold := result_setWorker hresult
    · rw [← Worker.resolved.inj hnew]
      exact h.processQuery (h.pool.lt_accepted hheld nofun) gaiErr
    · exact h.results completed hold
  | enqueueCompleted w done hw =>
    refine h.move hpool h.count rfl rfl rfl rfl fun completed hresult => ?_
    have hworker : (dns.setWorker w .notifying).Result completed ∨ completed = done := by
      obtain hv | hmem | hl | hmem := hresult
      · exact .inl (.inl hv)
      · obtain hold | hnew := List.mem_append.mp hmem
        · exact .inl (.inr (.inl hold))
        · exact .inr (List.mem_singleton.mp hnew)
      · exact .inl (.inr (.inr (.inl hl)))
      · exact .inl (.inr (.inr (.inr hmem)))
    obtain hold | rfl := hworker
    · exact h.results completed ((result_setWorker hold).resolve_left nofun)
    · exact h.results completed (.inl ⟨w, hw⟩)
  | notify w hw =>
    exact h.move hpool h.count rfl rfl rfl rfl fun completed hresult =>
      h.results completed ((result_setWorker hresult).resolve_left nofun)
  | process l hl =>
    exact h.move hpool h.count rfl rfl rfl rfl fun completed hresult =>
      h.results completed ((result_setProcessor hresult).resolve_left nofun)
  | finish l hl hcompleted =>
    exact h.move hpool h.count rfl rfl rfl rfl fun completed hresult =>
      h.results completed ((result_setProcessor hresult).resolve_left nofun)
  | pop l first rest hl hcompleted =>
    refine h.move hpool h.count rfl rfl rfl rfl fun completed hresult => ?_
    have hmem (hin : completed ∈ first :: rest) : dns.Own completed :=
      h.results completed (.inr (.inl (hcompleted ▸ hin)))
    obtain hw | hrest | hl | hdelivered := hresult
    · exact h.results completed (.inl hw)
    · exact hmem (List.mem_cons_of_mem first hrest)
    · have hloop : (dns.setProcessor l (.popped first)).Result completed := .inr (.inr (.inl hl))
      obtain hnew | hold := result_setProcessor hloop
      · rw [Processor.popped.inj hnew] at hmem
        exact hmem List.mem_cons_self
      · exact h.results completed hold
    · exact h.results completed (.inr (.inr (.inr hdelivered)))
  | callback l done hl =>
    refine h.move hpool h.count rfl rfl rfl rfl fun completed hresult => ?_
    have hloop : (dns.setProcessor l .processing).Result completed ∨ completed = done := by
      obtain hw | hmem | hk | hmem := hresult
      · exact .inl (.inl hw)
      · exact .inl (.inr (.inl hmem))
      · exact .inl (.inr (.inr (.inl hk)))
      · obtain hold | hnew := List.mem_append.mp hmem
        · exact .inl (.inr (.inr (.inr hold)))
        · exact .inr (List.mem_singleton.mp hnew)
    obtain hold | rfl := hloop
    · exact h.results completed ((result_setProcessor hold).resolve_left nofun)
    · exact h.results completed (.inr (.inr (.inl ⟨l, hl⟩)))

omit [DecidableEq W] [DecidableEq L] in
theorem DnsInv.law (h : DnsInv dns) : DnsLaw dns := by
  refine ⟨fun m n hmn hwindow hn heq => ?_, fun n hn hne heq => ?_, fun n hn => h.pool.located hn,
    h.pool.delivered, fun completed hmem => h.results completed (.inr (.inr (.inr hmem))), h.count,
    h.pool.pending, h.pool.completed⟩
  · have hm := h.ids m (by omega)
    rw [heq, h.ids n hn] at hm
    omega
  · have hid := h.ids n hn
    rw [heq] at hid
    exact hne hid.symm

/-- **Every query is answered once.** In every run of the resolver the ids of any `2 ^ 64` queries
in a row are distinct, only every `2 ^ 64`th id is 0, every accepted query is in exactly one place,
and its callback is called at most once, with its own data, and with the status `CANCELLED` exactly
if it was cancelled while it was pending. -/
theorem queries_answered (maxConcurrent : UInt64) (as : List (Action W L)) (dns : LoopyDNS W L)
    (hrun : Run step (fun _ _ => True) (loopyDNSNew W L maxConcurrent) as dns) : DnsLaw dns :=
  have hinv : DnsInv dns :=
    hrun.invariant (fun _ _ _ h _ hstep => h.step hstep) (.new W L maxConcurrent)
  hinv.law

/-- Three queries; the second one is cancelled, and a callback submits a fourth one. -/
def queryRun : List (Action Bool Unit) :=
  [.resolve [97] .any 1 10, .reverseLookup [58] 53 (some .aaaa) 2 20, .reverseLookup [] 0 none 2 21,
    .cancel 2, .dequeue true, .dequeue false, .cancel 1, .resolved false .ok,
    .enqueueCompleted false, .notify false, .process (), .pop (), .callback (),
    .resolve [98] .a 1 30, .cancelAll, .resolved true .noname, .enqueueCompleted true, .pop (),
    .callback (), .pop ()]

theorem queries_answered_queryRun :
    ∃ dns, Run step (fun _ _ => True) (loopyDNSNew Bool Unit 2) queryRun dns ∧ DnsLaw dns ∧
      dns.delivered.map (fun c => (c.queryId, c.userData, c.status)) =
        [(2, 20, .cancelled), (1, 10, .nxdomain)] := by
  have hexec : (exec step (fun _ _ => True) (loopyDNSNew Bool Unit 2) queryRun).map
      (fun dns => dns.delivered.map fun c => (c.queryId, c.userData, c.status)) =
        some [(2, 20, .cancelled), (1, 10, .nxdomain)] := by decide +kernel
  obtain ⟨dns, hrun, hval⟩ := Run.of_exec_map hexec
  exact ⟨dns, hrun, queries_answered 2 queryRun dns hrun, hval⟩

/-! ## Ids wrap -/

/-- One query from its submission to its callback. -/
def queryCycle : List (Action Unit Unit) :=
  [.resolve [] .any 0 0, .dequeue (), .resolved () .ok, .enqueueCompleted (), .notify (),
    .process (), .pop (), .callback (), .pop ()]

/-- The counters, the lists and the threads. -/
def LoopyDNS.front (dns : LoopyDNS Unit Unit) :
    ℕ × UInt64 × ℕ × List ℕ × List LoopyDNSCompletedQuery × Worker × Processor :=
  (dns.accepted, dns.maxConcurrent, dns.pendingCount, dns.pending, dns.completed, dns.worker (),
    dns.processor ())

/-- In a resolver that has answered its `k` queries, one more is submitted and answered. -/
theorem queryCycle_run {k : ℕ} {dns : LoopyDNS Unit Unit}
    (h : dns.front = (k, 1, 0, [], [], .idle, .idle)) :
    ∃ dns', Run step (fun _ _ => True) dns queryCycle dns' ∧
      dns'.front = (k + 1, 1, 0, [], [], .idle, .idle) := by
  simp only [LoopyDNS.front, Prod.mk.injEq] at h
  obtain ⟨rfl, hmax, hcount, hpending, hcompleted, hworker, hprocessor⟩ := h
  refine Run.of_exec_map ?_
  simp [queryCycle, exec, step, loopyDNSResolve, LoopyDNS.submit, LoopyDNS.atCapacity,
    LoopyDNS.front, LoopyDNS.setWorker, LoopyDNS.setProcessor, hmax, hpending, hcount, hcompleted,
    hworker, hprocessor]

/-- One query after the other is submitted and answered; the `2 ^ 64`th has the id 0. -/
theorem id_zero :
    ¬ ∀ (as : List (Action Unit Unit)) (dns : LoopyDNS Unit Unit),
      Run step (fun _ _ => True) (loopyDNSNew Unit Unit 1) as dns →
      ∀ n < dns.accepted, (dns.queries n).id ≠ 0 := by
  intro hall
  obtain ⟨dns, hrun, hfront⟩ := Run.cycles
    (P := fun k (dns : LoopyDNS Unit Unit) => dns.front = (k, 1, 0, [], [], .idle, .idle))
    (fun _ _ => queryCycle_run) (rfl : (loopyDNSNew Unit Unit 1).front = _) (2 ^ 64)
  have haccepted : dns.accepted = 2 ^ 64 := congrArg Prod.fst hfront
  have hinv : DnsInv dns :=
    hrun.invariant (fun _ _ _ h _ hstep => h.step hstep) (.new Unit Unit 1)
  have hne := hall _ dns hrun (2 ^ 64 - 1) (by omega)
  have hid := hinv.ids (2 ^ 64 - 1) (by omega)
  refine hne (UInt64.toNat_inj.mp (hid.trans ?_))
  decide

end Loopy.Dns
