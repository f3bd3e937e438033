import Loopy.EventLoop.Theorems
import Loopy.Lib.Run

/-!
# `loopyAdapterBSD.c`: the kqueue adapter

`KqueueState` is the kernel's kqueue: the filters it holds for each descriptor. `kevent` with
a change list and an empty event list applies the changes in order and stops at the first one
that fails; `EV_DELETE` of an absent filter fails.

A deletion of both directions is one change list that starts with the read filter. For a
descriptor registered for writing only the first change fails and the second is not made, so
the write filter stays in the kernel (`filter_left_behind`). Every other unregistration
follows the table.
-/

namespace Loopy.Kqueue

open Loopy.EventLoop Loopy.Lib
open Function (update update_eq_self update_idem update_of_ne update_self)

/-! ## The kernel's kqueue -/

/-- `EVFILT_READ` and `EVFILT_WRITE`. -/
inductive Filter
  | READ
  | WRITE
deriving DecidableEq, Repr

/-- `EV_ADD` and `EV_DELETE`. -/
inductive Flags
  | ADD
  | DELETE
deriving DecidableEq, Repr

/-- The fields of `struct kevent` that `EV_SET` fills. -/
structure Kevent where
  ident : ℕ
  filter : Filter
  flags : Flags
deriving DecidableEq, Repr

/-- The kqueue behind `s->kqfd`. -/
structure KqueueState where
  filters : ℕ → Filter → Bool

/-- Put a filter in the kqueue or take it out. -/
def KqueueState.set (s : KqueueState) (fd : ℕ) (filter : Filter) (on : Bool) : KqueueState :=
  ⟨update s.filters fd (update (s.filters fd) filter on)⟩

/-- One change; `none` when it fails. -/
def applyChange (s : KqueueState) (c : Kevent) : Option KqueueState :=
  match c.flags with
  | .ADD => some (s.set c.ident c.filter true)
  | .DELETE => if s.filters c.ident c.filter then some (s.set c.ident c.filter false) else none

/-- `kevent(s->kqfd, changes, nchanges, NULL, 0, NULL)`: whether it succeeded. -/
def kevent (s : KqueueState) : List Kevent → Bool × KqueueState
  | [] => (true, s)
  | c :: changes =>
    match applyChange s c with
    | some s => kevent s changes
    | none => (false, s)

/-! ## The adapter -/

/-- `loopyInternalNew`. -/
def loopyInternalNew (_setSize : ℕ) : KqueueState := ⟨fun _ _ => false⟩

/-- `loopyInternalResize`: only the array that polls fill is reallocated. -/
def loopyInternalResize (s : KqueueState) (_setSize : ℕ) : KqueueState := s

/-- The change list both functions build: the read filter first. -/
def changes (fd : ℕ) (mask : LoopyAction) (flags : Flags) : List Kevent :=
  (if mask.read then [⟨fd, .READ, flags⟩] else []) ++
    (if mask.write then [⟨fd, .WRITE, flags⟩] else [])

/-- `loopyInternalAddEvent`. -/
def loopyInternalAddEvent (s : KqueueState) (fd : ℕ) (mask : LoopyAction) : Bool × KqueueState :=
  let changes := changes fd mask .ADD
  if changes.length > 0 then kevent s changes else (true, s)

/-- `loopyInternalDelEvent`: the result of `kevent` is ignored. -/
def loopyInternalDelEvent (s : KqueueState) (fd : ℕ) (mask : LoopyAction) : KqueueState :=
  let changes := changes fd mask .DELETE
  if changes.length > 0 then (kevent s changes).2 else s

/-- The kqueue adapter of `loopy.c`. -/
def kqueueAdapter : Adapter KqueueState Unit where
  new := loopyInternalNew
  resize := loopyInternalResize
  addEvent := fun _ _ s fd mask => loopyInternalAddEvent s fd mask
  delEvent := fun _ _ s fd mask => loopyInternalDelEvent s fd mask

/-! ## Polling -/

/-- `kevent(s->kqfd, NULL, 0, s->events, nevents, timeout)` when the filters of `ready` have events:
it returns those that the kqueue holds. -/
def keventWait (s : KqueueState) (nevents : ℕ) (ready : List (ℕ × Filter)) : List (ℕ × Filter) :=
  (ready.filter fun e => s.filters e.1 e.2).take nevents

/-- The mask of one event. -/
def firedMask (filter : Filter) : LoopyAction :=
  let mask := LoopyAction.NONE
  let mask := if filter = .READ then mask.union .READ else mask
  if filter = .WRITE then mask.union .WRITE else mask

/-- `loopyInternalPoll`: the entries it writes to `l->fired`. -/
def loopyInternalPoll (ready : List (ℕ × Filter)) (setSize : ℕ) (s : KqueueState) :
    List LoopyFiredEvent × KqueueState :=
  ((keventWait s setSize ready).map fun e => ⟨e.1, firedMask e.2⟩, s)

/-! ## The interest law -/

/-- The filters of a mask. -/
def maskFilters (mask : LoopyAction) : Filter → Bool
  | .READ => mask.read
  | .WRITE => mask.write

/-- The kernel holds exactly the filters of the table's masks. -/
def InterestLaw (events : ℕ → LoopyFileEvent) (s : KqueueState) : Prop :=
  ∀ fd, s.filters fd = maskFilters (events fd).mask

theorem set_filters (s : KqueueState) (fd : ℕ) (filter : Filter) (on : Bool) :
    (s.set fd filter on).filters =
      update s.filters fd (update (s.filters fd) filter on) := rfl

/-- The law after a change of one descriptor. -/
theorem InterestLaw.update {events : ℕ → LoopyFileEvent} {s s' : KqueueState}
    (h : InterestLaw events s) {fd : ℕ} {fe : LoopyFileEvent} {filters : Filter → Bool}
    (hs' : s'.filters = update s.filters fd filters)
    (hfe : filters = maskFilters fe.mask) : InterestLaw (update events fd fe) s' := by
  intro fd'
  rw [hs']
  by_cases heq : fd' = fd
  · rw [heq, update_self, update_self, hfe]
  · rw [update_of_ne heq, update_of_ne heq]
    exact h fd'

/-- Everything a change list of one descriptor does is to the filters of that descriptor. -/
theorem set_set (s : KqueueState) (fd : ℕ) (f g : Filter) (a b : Bool) :
    ((s.set fd f a).set fd g b).filters = update s.filters fd
      (update (update (s.filters fd) f a) g b) := by
  rw [set_filters, set_filters, update_self, update_idem]

theorem addEvent_spec (s : KqueueState) (fd : ℕ) (mask : LoopyAction) :
    (loopyInternalAddEvent s fd mask).1 = true ∧
      (loopyInternalAddEvent s fd mask).2.filters =
        update s.filters fd fun f => s.filters fd f || maskFilters mask f := by
  obtain ⟨read, write⟩ := mask
  cases read <;> cases write <;> refine ⟨rfl, ?_⟩
  · show s.filters = _
    have hsame : (fun f => s.filters fd f || maskFilters ⟨false, false⟩ f) = s.filters fd := by
      funext f
      cases f <;> exact Bool.or_false _
    rw [hsame, update_eq_self]
  · show (s.set fd .WRITE true).filters = _
    rw [set_filters]
    congr 1
    funext f
    cases f <;> simp [maskFilters]
  · show (s.set fd .READ true).filters = _
    rw [set_filters]
    congr 1
    funext f
    cases f <;> simp [maskFilters]
  · show ((s.set fd .READ true).set fd .WRITE true).filters = _
    rw [set_set]
    congr 1
    funext f
    cases f <;> simp [maskFilters]

/-- One deletion: the filter is gone, whether it was there or not. -/
theorem kevent_delete (s : KqueueState) (fd : ℕ) (f : Filter) :
    (kevent s [⟨fd, f, .DELETE⟩]).2.filters =
      update s.filters fd (update (s.filters fd) f false) := by
  cases hf : s.filters fd f with
  | true =>
    simp only [kevent, applyChange, hf, if_true]
    rfl
  | false =>
    simp only [kevent, applyChange, hf, Bool.false_eq_true, if_false]
    rw [← hf, update_eq_self, update_eq_self]

/-- Deleting directions of a descriptor follows the table, unless both are deleted and only
writing is registered. -/
theorem delEvent_spec {s : KqueueState} {fd : ℕ} {old : LoopyAction}
    (hold : s.filters fd = maskFilters old) (mask : LoopyAction)
    (hok : ¬ (mask = .ALL ∧ old = .WRITE)) :
    (loopyInternalDelEvent s fd mask).filters =
      update s.filters fd (maskFilters (old.diff mask)) := by
  obtain ⟨read, write⟩ := mask
  cases read <;> cases write
  · show s.filters = _
    have hsame : maskFilters (old.diff ⟨false, false⟩) = s.filters fd := by
      rw [hold]
      funext f
      cases f <;> simp [maskFilters, LoopyAction.diff]
    rw [hsame, update_eq_self]
  · show (kevent s [⟨fd, .WRITE, .DELETE⟩]).2.filters = _
    rw [kevent_delete, hold]
    congr 1
    funext f
    cases f <;> simp [maskFilters, LoopyAction.diff]
  · show (kevent s [⟨fd, .READ, .DELETE⟩]).2.filters = _
    rw [kevent_delete, hold]
    congr 1
    funext f
    cases f <;> simp [maskFilters, LoopyAction.diff]
  · -- the read filter goes first: the write filter is reached only if it was there
    show (kevent s [⟨fd, .READ, .DELETE⟩, ⟨fd, .WRITE, .DELETE⟩]).2.filters = _
    cases hread : old.read with
    | true =>
      have hfilter : s.filters fd .READ = true := by
        rw [hold]
        exact hread
      simp only [kevent, applyChange, hfilter, if_true]
      refine (kevent_delete (s.set fd .READ false) fd .WRITE).trans ?_
      rw [set_filters, update_self, update_idem]
      congr 1
      funext f
      cases f <;> simp [maskFilters, LoopyAction.diff]
    | false =>
      have hnone : old = .NONE := by
        rw [LoopyAction.eq_none_iff]
        refine ⟨hread, ?_⟩
        by_contra hwrite
        rw [Bool.not_eq_false] at hwrite
        exact hok ⟨rfl, LoopyAction.ext_iff'.mpr ⟨hread, hwrite⟩⟩
      have hfilter : s.filters fd .READ = false := by
        rw [hold]
        exact hread
      simp only [kevent, applyChange, hfilter, Bool.false_eq_true, if_false]
      have hsame : maskFilters (old.diff ⟨true, true⟩) = s.filters fd := by
        rw [hold, hnone]
        rfl
      rw [hsame, update_eq_self]

/-- No call unregisters both directions of a descriptor that is registered for writing only. -/
def NotWriteOnly (l : LoopyLoop KqueueState) (i : TableCall × Env Unit) : Prop :=
  match i.1 with
  | .unregisterReadWrite fd => (l.events fd.toNat).mask ≠ .WRITE
  | _ => True

instance (l : LoopyLoop KqueueState) (i : TableCall × Env Unit) : Decidable (NotWriteOnly l i) :=
  match h : i.1 with
  | .unregisterReadWrite fd =>
    decidable_of_iff ((l.events fd.toNat).mask ≠ .WRITE) (by unfold NotWriteOnly; rw [h])
  | .registerRead _ _ _ | .registerWrite _ _ _ | .registerWriteIfNoneExists _ _ _
  | .unregisterRead _ | .unregisterWrite _ | .resizeSetSize _ =>
    isTrue (by unfold NotWriteOnly; rw [h]; trivial)

/-- The tables agree with themselves and with the kernel. -/
structure KqueueInv (l : LoopyLoop KqueueState) : Prop where
  table : TableInv l
  kernel : ∃ s, l.state = some s ∧ InterestLaw l.events s

theorem KqueueInv.fresh {n : ℕ} (hn : 1 ≤ n) (hn31 : n < 2 ^ 31) (addr : ℕ) :
    KqueueInv (.fresh kqueueAdapter n addr) := by
  refine ⟨.fresh hn hn31 addr, _, rfl, fun fd => ?_⟩
  funext f
  cases f <;> rfl

/-- Every call that meets the condition keeps the law. -/
theorem KqueueInv.step {l l' : LoopyLoop KqueueState} {i : TableCall × Env Unit}
    (h : KqueueInv l) (hok : NotWriteOnly l i) (hstep : TableCall.step kqueueAdapter l i = some l') :
    KqueueInv l' := by
  obtain ⟨b, he⟩ := TableCall.step_inv hstep
  obtain ⟨s, hs, hlaw⟩ := h.kernel
  refine ⟨h.table.effect he, he.state_inv (P := InterestLaw) h.table hs hlaw (fun _ => hlaw)
    ?_ ?_ ?_⟩
  · intro s fd mask cb clientData hlaw hmask _
    refine hlaw.update (addEvent_spec s fd mask).2 ?_
    funext f
    rw [hlaw fd]
    cases f <;> rfl
  · intro s fd mask hlaw hrefused
    have htrue := (addEvent_spec s fd mask).1
    rw [show (loopyInternalAddEvent s fd mask).1 = false from hrefused] at htrue
    cases htrue
  · intro fd mask hc hmask
    refine hlaw.update (delEvent_spec (hlaw fd) mask ?_) rfl
    rintro ⟨rfl, hwrite⟩
    obtain ⟨c, env⟩ := i
    cases c with
    | unregisterReadWrite fd' =>
      have hfd : fd' = fd := congrArg Prod.fst (Option.some.inj hc)
      have hne : (l.events fd'.toNat).mask ≠ .WRITE := hok
      rw [hfd, Int.toNat_natCast] at hne
      exact hne hwrite
    | unregisterRead fd' => cases congrArg Prod.snd (Option.some.inj hc)
    | unregisterWrite fd' => cases congrArg Prod.snd (Option.some.inj hc)
    | _ => cases hc

/-- **The kernel follows the table.** From `loopyInit`, after every sequence of table calls in
which both directions are unregistered at once only of descriptors that are not registered for
writing alone, the kernel holds exactly the filters of the registered directions. -/
theorem kqueue_follows_table (n : ℕ) (hn : 1 ≤ n) (hn31 : n < 2 ^ 31) (addr : ℕ)
    (is : List (TableCall × Env Unit)) (l : LoopyLoop KqueueState)
    (hrun : Run (TableCall.step kqueueAdapter) NotWriteOnly (.fresh kqueueAdapter n addr) is l) :
    ∃ s, l.state = some s ∧ InterestLaw l.events s := by
  have hinv : KqueueInv l :=
    hrun.invariant (fun l i l' h hok hstep => h.step hok hstep) (.fresh hn hn31 addr)
  exact hinv.kernel

/-- Both directions of one descriptor, one direction of another, and both unregistered. -/
def bothCalls : List (TableCall × Env Unit) :=
  [(.registerRead 3 5 9, ⟨0, ()⟩), (.registerWrite 3 5 9, ⟨0, ()⟩), (.registerRead 4 5 9, ⟨0, ()⟩),
    (.unregisterReadWrite 3, ⟨0, ()⟩), (.unregisterWrite 4, ⟨0, ()⟩)]

theorem kqueue_follows_table_both :
    ∃ l s, Run (TableCall.step kqueueAdapter) NotWriteOnly (.fresh kqueueAdapter 16 1) bothCalls l ∧
      l.state = some s ∧ InterestLaw l.events s ∧ s.filters 3 .WRITE = false ∧
      s.filters 4 .READ = true := by
  have hexec : (exec (TableCall.step kqueueAdapter) NotWriteOnly (.fresh kqueueAdapter 16 1)
      bothCalls).map (fun l => l.state.map fun s => (s.filters 3 .WRITE, s.filters 4 .READ)) =
      some (some (false, true)) := by decide +kernel
  obtain ⟨l, hrun, hstate⟩ := Run.of_exec_map hexec
  obtain ⟨s, hs, hfilters⟩ := Option.map_eq_some_iff.mp hstate
  obtain ⟨h3, h4⟩ := Prod.mk.inj hfilters
  obtain ⟨s', hs', hlaw⟩ := kqueue_follows_table 16 (by decide) (by decide) 1 _ _ hrun
  obtain rfl := Option.some.inj (hs.symm.trans hs')
  exact ⟨l, s, hrun, hs, hlaw, h3, h4⟩

/-- Descriptor 3 is registered for writing, then both its directions are unregistered: the
write filter stays in the kernel. -/
theorem filter_left_behind :
    ¬ ∀ is l, Run (TableCall.step kqueueAdapter) (fun _ _ => True) (.fresh kqueueAdapter 16 1) is l →
      ∃ s, l.state = some s ∧ InterestLaw l.events s := by
  intro hall
  have hexec : (exec (TableCall.step kqueueAdapter) (fun _ _ => True) (.fresh kqueueAdapter 16 1)
      [(.registerWrite 3 5 9, ⟨0, ()⟩), (.unregisterReadWrite 3, ⟨0, ()⟩)]).map
      (fun l => (l.state.map fun s => s.filters 3 .WRITE, (l.events 3).mask)) =
      some (some true, .NONE) := by decide +kernel
  obtain ⟨l, hl, hstate⟩ := Run.of_exec_map hexec
  obtain ⟨hs, hmask⟩ := Prod.mk.inj hstate
  obtain ⟨s, hs, hfilter⟩ := Option.map_eq_some_iff.mp hs
  obtain ⟨s', hs', hlaw⟩ := hall _ _ hl
  obtain rfl := Option.some.inj (hs.symm.trans hs')
  rw [hlaw 3, hmask] at hfilter
  cases hfilter

end Loopy.Kqueue
