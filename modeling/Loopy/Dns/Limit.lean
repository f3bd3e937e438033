import Loopy.Dns.Delivery

/-!
# The limit on concurrent queries

`loopyDNSResolve` and `loopyDNSReverseLookup` compare `maxConcurrent` with the number of the
pending queries, not with the number of those that are not answered yet: a query that a worker
holds, or whose callback has still to be called, is not counted. `query_limit_kept` is the law where
this makes no difference.
-/

namespace Loopy.Dns

open Loopy.Lib

variable {W L : Type}

/-! ## The law -/

/-- At most `maxConcurrent` queries are outstanding, and an attempt to submit one was refused
exactly if so many were. -/
structure LimitLaw (dns : LoopyDNS W L) : Prop where
  outstanding_le : dns.outstanding ≤ dns.maxConcurrent.toNat
  refused : ∀ attempt ∈ dns.tried, attempt.1 = false ↔ dns.maxConcurrent.toNat ≤ attempt.2

/-- If the resolver is full, all its queries are pending. -/
def LoopyDNS.AllPending (dns : LoopyDNS W L) : Prop :=
  dns.outstanding < dns.maxConcurrent.toNat ∨ dns.pendingCount = dns.outstanding

/-- No query is submitted while the resolver is full and one of its queries is not pending. -/
def Within (dns : LoopyDNS W L) : Action W L → Prop
  | .resolve .. | .reverseLookup _ _ (some _) _ _ => dns.AllPending
  | _ => True

instance (dns : LoopyDNS W L) : Decidable dns.AllPending :=
  inferInstanceAs (Decidable (_ ∨ _))

instance (dns : LoopyDNS W L) : ∀ a, Decidable (Within dns a)
  | .resolve .. | .reverseLookup _ _ (some _) _ _ => inferInstanceAs (Decidable dns.AllPending)
  | .reverseLookup _ _ none _ _ | .cancel _ | .cancelAll | .dequeue _ | .resolved ..
  | .enqueueCompleted _ | .notify _ | .process _ | .pop _ | .callback _ => isTrue trivial

/-! ## What counts -/

variable {dns dns' : LoopyDNS W L}

/-- What the limit depends on is the same. -/
structure SameLoad (dns dns' : LoopyDNS W L) : Prop where
  accepted : dns'.accepted = dns.accepted
  delivered : dns'.delivered = dns.delivered
  maxConcurrent : dns'.maxConcurrent = dns.maxConcurrent
  tried : dns'.tried = dns.tried

theorem SameLoad.rfl : SameLoad dns dns := ⟨Eq.refl _, Eq.refl _, Eq.refl _, Eq.refl _⟩

theorem LimitLaw.same (h : LimitLaw dns) (hs : SameLoad dns dns') : LimitLaw dns' := by
  constructor
  · rw [LoopyDNS.outstanding, hs.accepted, hs.delivered, hs.maxConcurrent]
    exact h.outstanding_le
  · rw [hs.tried, hs.maxConcurrent]
    exact h.refused

/-- A pending query is outstanding. -/
theorem DnsInv.pending_le (h : DnsInv dns) : dns.pendingCount ≤ dns.outstanding := by
  have hle := h.pool.pending_delivered_le
  have hdelivered : dns.custody.delivered.length = dns.delivered.length := List.length_map ..
  rw [hdelivered] at hle
  have hcount := h.count
  have haccepted : dns.pending.length + dns.delivered.length ≤ dns.accepted := hle
  unfold LoopyDNS.outstanding
  omega

theorem foldl_markCancelled_same (ns : List ℕ) (dns : LoopyDNS W L) :
    SameLoad dns (ns.foldl LoopyDNS.markCancelled dns) := by
  induction ns generalizing dns with
  | nil => exact .rfl
  | cons n ns ih =>
    have hrest := ih (dns.markCancelled n)
    exact ⟨hrest.accepted, hrest.delivered, hrest.maxConcurrent, hrest.tried⟩

/-- One more attempt. -/
theorem LimitLaw.attempt (h : LimitLaw dns) {accepted : Bool}
    (hnew : accepted = false ↔ dns.maxConcurrent.toNat ≤ dns.outstanding) :
    ∀ attempt ∈ dns.tried ++ [(accepted, dns.outstanding)],
      attempt.1 = false ↔ dns.maxConcurrent.toNat ≤ attempt.2 := by
  intro attempt hmem
  obtain hold | hlast := List.mem_append.mp hmem
  · exact h.refused attempt hold
  · rw [List.mem_singleton.mp hlast]
    exact hnew

/-- **A submission.** With all queries pending, or room for one more, it is refused exactly if the
resolver is full. -/
theorem LimitLaw.submit (h : LimitLaw dns) (hinv : DnsInv dns) (hok : dns.AllPending)
    (kind : LoopyDNSQueryKind) (name : CString) (port : ℕ) (type : LoopyDNSQueryType)
    (callback userData : ℕ) :
    LimitLaw (dns.submit kind name port type callback userData).2 := by
  have hpending := hinv.pending_le
  unfold LoopyDNS.AllPending at hok
  unfold LoopyDNS.submit
  split
  · next hfull =>
    rw [LoopyDNS.atCapacity, decide_eq_true_iff] at hfull
    have hmax : dns.maxConcurrent.toNat ≤ dns.outstanding := by omega
    exact ⟨h.outstanding_le, h.attempt (iff_of_true rfl hmax)⟩
  · next hroom =>
    rw [LoopyDNS.atCapacity, decide_eq_true_iff] at hroom
    have hlt : dns.outstanding < dns.maxConcurrent.toNat := by omega
    refine ⟨?_, h.attempt (iff_of_false Bool.false_ne_true.symm (Nat.not_le.mpr hlt))⟩
    show dns.accepted + 1 - dns.delivered.length ≤ dns.maxConcurrent.toNat
    unfold LoopyDNS.outstanding at hlt
    omega

variable [DecidableEq W] [DecidableEq L]

theorem LimitLaw.step {a : Action W L} (h : LimitLaw dns) (hinv : DnsInv dns)
    (hok : Within dns a) (hstep : step dns a = some dns') : LimitLaw dns' := by
  cases stepped hstep with
  | resolve hostname type callback userData => exact h.submit hinv hok _ _ _ _ _ _
  | reverseLookup addr port family callback userData =>
    cases family with
    | none => exact h
    | some type => exact h.submit hinv hok _ _ _ _ _ _
  | cancel queryId =>
    unfold loopyDNSCancel
    split
    · exact h
    · split
      · exact h.same ⟨rfl, rfl, rfl, rfl⟩
      · exact h
  | cancelAll => exact h.same (foldl_markCancelled_same dns.pending dns)
  | dequeue | resolved | enqueueCompleted | notify | process | finish | pop =>
    exact h.same ⟨rfl, rfl, rfl, rfl⟩
  | callback l completed hl =>
    refine ⟨?_, h.refused⟩
    -- a delivery makes room
    show dns.accepted - (dns.delivered ++ [completed]).length ≤ dns.maxConcurrent.toNat
    have hle := h.outstanding_le
    rw [List.length_append, List.length_singleton]
    unfold LoopyDNS.outstanding at hle
    omega

/-- **The limit is kept.** In every run in which no query is submitted while the resolver is full
and one of its queries is not pending, at most `maxConcurrent` queries are outstanding, and a query
is refused exactly if so many are. -/
theorem query_limit_kept (maxConcurrent : UInt64) (as : List (Action W L)) (dns : LoopyDNS W L)
    (hrun : Run Dns.step Within (loopyDNSNew W L maxConcurrent) as dns) : LimitLaw dns := by
  have hboth : DnsInv dns ∧ LimitLaw dns :=
    hrun.invariant (P := fun dns => DnsInv dns ∧ LimitLaw dns)
      (fun _ _ _ hand hok hstep => ⟨hand.1.step hstep, hand.2.step hand.1 hok hstep⟩)
      ⟨.new W L maxConcurrent, Nat.zero_le _, nofun⟩
  exact hboth.2

/-- The limit is 2: a third query is refused as long as both of the first two are pending, and
accepted when one has been answered. -/
def limitRun : List (Action Unit Unit) :=
  [.resolve [97] .any 1 1, .reverseLookup [58] 53 (some .a) 2 2, .resolve [98] .any 1 3,
    .dequeue (), .resolved () .ok, .enqueueCompleted (), .process (), .pop (), .callback (),
    .resolve [98] .any 1 3]

theorem query_limit_kept_limitRun :
    ∃ dns, Run Dns.step Within (loopyDNSNew Unit Unit 2) limitRun dns ∧ LimitLaw dns ∧
      dns.tried = [(true, 0), (true, 1), (false, 2), (true, 1)] := by
  have hexec : (exec Dns.step Within (loopyDNSNew Unit Unit 2) limitRun).map
      (fun dns => dns.tried) = some [(true, 0), (true, 1), (false, 2), (true, 1)] := by
    decide +kernel
  obtain ⟨dns, hrun, hval⟩ := Run.of_exec_map hexec
  exact ⟨dns, hrun, query_limit_kept 2 limitRun dns hrun, hval⟩

/-- The limit is 1: a second query is accepted while a worker resolves the first one. -/
theorem two_outstanding :
    ¬ ∀ (as : List (Action Unit Unit)) (dns : LoopyDNS Unit Unit),
      Run Dns.step (fun _ _ => True) (loopyDNSNew Unit Unit 1) as dns → LimitLaw dns := by
  intro hall
  have hexec : (exec Dns.step (fun _ _ => True) (loopyDNSNew Unit Unit 1)
      [.resolve [97] .any 1 1, .dequeue (), .resolve [98] .any 1 2]).map
      (fun dns => (dns.outstanding, dns.maxConcurrent)) = some (2, 1) := by
    decide +kernel
  obtain ⟨dns, hdns, hval⟩ := Run.of_exec_map hexec
  obtain ⟨houtstanding, hmax⟩ := Prod.mk.inj hval
  have hle := (hall _ dns hdns).outstanding_le
  rw [houtstanding, hmax] at hle
  revert hle
  decide

end Loopy.Dns
