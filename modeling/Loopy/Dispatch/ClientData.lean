import Loopy.Epoll.Poll

/-!
# The two directions of a descriptor

What a file callback is given. The record of a descriptor has one `clientData` for both
directions, so a registration of one direction replaces what the callback of the other one
is given; as long as no call does that (`KeepsClientData`), each callback gets what its own
latest registration passed.
-/

namespace Loopy.EventLoop

open Loopy.Lib
open Function (update_of_ne update_self)

/-! ## The latest registration -/

/-- The callback and `clientData` with which an event successfully registers a direction. -/
def Event.registers (fd : ℕ) (dir : Dir) : Event → Option (ℕ × ℕ)
  | .called (.table c) true =>
    match c.registration with
    | some r => if r.fd = fd ∧ r.mask.has dir then some (r.cb, r.clientData) else none
    | none => none
  | _ => none

/-- The most recent successful registration of a direction, in events with the latest first. -/
def lastRegistration (fd : ℕ) (dir : Dir) (events : List Event) : Option (ℕ × ℕ) :=
  events.findSome? (Event.registers fd dir)

/-- Every file callback was invoked with the callback and `clientData` of the most recent
successful registration of its own direction. -/
def PassesOwnData (events : List Event) : Prop :=
  ∀ later earlier fd dir cb clientData,
    events = later ++ .invoked (.file fd dir) cb clientData :: earlier →
      lastRegistration fd dir earlier = some (cb, clientData)

theorem lastRegistration_cons_none {fd : ℕ} {dir : Dir} {e : Event} (events : List Event)
    (he : e.registers fd dir = none) :
    lastRegistration fd dir (e :: events) = lastRegistration fd dir events := by
  simp [lastRegistration, he]

theorem PassesOwnData.cons {e : Event} {events : List Event} (h : PassesOwnData events)
    (he : ∀ fd dir cb clientData, e = .invoked (.file fd dir) cb clientData →
      lastRegistration fd dir events = some (cb, clientData)) :
    PassesOwnData (e :: events) := by
  intro later earlier fd dir cb clientData heq
  cases later with
  | nil =>
    obtain ⟨rfl, rfl⟩ := List.cons.inj heq
    exact he fd dir cb clientData rfl
  | cons e' later => exact h later earlier fd dir cb clientData (List.cons.inj heq).2

/-! ## Calls that keep the data of the other direction -/

section

variable {σ ε π : Type}

/-- A registration the adapter accepts, of a descriptor whose other direction is registered
with different data. -/
def TableCall.ReplacesData (A : Adapter σ ε) (env : Env ε) (l : LoopyLoop σ) (c : TableCall) :
    Prop :=
  ∃ r ∈ c.registration, ∃ s ∈ l.state,
    0 ≤ r.fd ∧ (l.events r.fd.toNat).mask.diff r.mask ≠ .NONE ∧
      (l.events r.fd.toNat).clientData ≠ r.clientData ∧
      ¬ (c.exclusive = true ∧ (l.events r.fd.toNat).mask.write = true) ∧
      (A.addEvent env.sys l.events s r.fd.toNat r.mask).1 = true

instance (A : Adapter σ ε) (env : Env ε) (l : LoopyLoop σ) (c : TableCall) :
    Decidable (c.ReplacesData A env l) :=
  inferInstanceAs (Decidable (∃ r ∈ c.registration, ∃ s ∈ l.state, _))

/-- No step replaces the data of a registered direction by registering the other one. -/
def KeepsClientData (A : Adapter σ ε) (m : Machine σ) : Input ε π → Prop
  | .call (.table c) env => ¬ c.ReplacesData A env m.loop
  | _ => True

instance (A : Adapter σ ε) (m : Machine σ) :
    (i : Input ε π) → Decidable (KeepsClientData A m i)
  | .call (.table c) env => inferInstanceAs (Decidable (¬ c.ReplacesData A env m.loop))
  | .call .stop _ | .call .delete _ | .call (.main _) _ | .call (.setBeforeSleepCallback _ _) _
  | .call (.setAfterSleepCallback _ _) _ | .call .registerTimer _
  | .go | .ret | .poll _ _ | .clock _ | .fire | .wheelDone => isTrue trivial

/-! ## The invariant -/

/-- Each registered direction has the data of its latest registration in the table. -/
structure OwnTable (l : LoopyLoop σ) (events : List Event) : Prop where
  beyond : ∀ i, l.setSize ≤ i → (l.events i).mask = .NONE
  own : ∀ fd dir, (l.events fd).mask.has dir = true →
    lastRegistration fd dir events =
      some ((l.events fd).callback dir, (l.events fd).clientData)

/-- Callbacks got their own data so far, and will. -/
structure OwnData (m : Machine σ) : Prop where
  past : PassesOwnData m.events
  table : OwnTable m.loop m.events

theorem OwnTable.zero (events : List Event) : OwnTable (LoopyLoop.zero : LoopyLoop σ) events where
  beyond := fun _ _ => rfl
  own := fun fd dir h => by
    have hnone : (LoopyLoop.zero (σ := σ).events fd).mask.has dir = false := by cases dir <;> rfl
    rw [hnone] at h
    cases h

variable {l l' : LoopyLoop σ} {events : List Event} {A : Adapter σ ε} {c : TableCall} {b : Bool}
  {m : Machine σ}

/-- Events that register nothing, on the same table. -/
theorem OwnTable.cons (h : OwnTable l events) (e : Event) (hev : l'.events = l.events)
    (hsize : l.setSize ≤ l'.setSize) (he : ∀ fd dir, e.registers fd dir = none) :
    OwnTable l' (e :: events) where
  beyond := fun i hi => by rw [hev]; exact h.beyond i (by omega)
  own := fun fd dir hreg => by
    rw [hev] at hreg ⊢
    rw [lastRegistration_cons_none _ (he fd dir)]
    exact h.own fd dir hreg

theorem OwnTable.grown {addr : ℕ} (h : OwnTable l events) (hg : Grown A addr l l') :
    OwnTable l' events where
  beyond := fun i hi => by
    have hsize := hg.setSize_le
    rcases hg.events_eq i with heq | ⟨-, heq⟩
    · rw [heq]; exact h.beyond i (by omega)
    · rw [heq]; rfl
  own := fun fd dir hreg => by
    rcases hg.events_eq fd with heq | ⟨-, heq⟩
    · rw [heq] at hreg ⊢; exact h.own fd dir hreg
    · rw [heq, has_zero] at hreg; cases hreg

theorem registers_registration {r : Registration} (hc : c.registration = some r) (fd : ℕ)
    (dir : Dir) :
    (Event.called (.table c) true).registers fd dir =
      if r.fd = fd ∧ r.mask.has dir then some (r.cb, r.clientData) else none := by
  simp [Event.registers, hc]

theorem registers_unregistration {d : ℤ × LoopyAction} (hc : c.unregistration = some d) (fd : ℕ)
    (dir : Dir) : (Event.called (.table c) b).registers fd dir = none := by
  cases c <;> cases hc <;> cases b <;> rfl

/-- A registration that keeps the data of the other direction. -/
theorem OwnTable.registered (h : OwnTable l events) (s : σ) {r : Registration} {i : ℕ}
    (hc : c.registration = some r) (hr : r.fd = i) (hi : i < l.setSize)
    (hkeep : (l.events i).mask.diff r.mask ≠ .NONE → (l.events i).clientData = r.clientData) :
    OwnTable (l.registered s i r.mask r.cb r.clientData) (.called (.table c) true :: events) where
  beyond := fun j hj => by
    have hne : j ≠ i := by
      have hlt : l.setSize ≤ j := hj
      omega
    rw [registered_events, update_of_ne hne]
    exact h.beyond j hj
  own := fun fd dir hreg => by
    have hregs := registers_registration hc fd dir
    by_cases hfd : fd = i
    · subst hfd
      rw [registered_events, update_self] at hreg ⊢
      by_cases hdir : r.mask.has dir = true
      · -- the registered direction has the new data
        rw [if_pos ⟨hr, hdir⟩] at hregs
        have hcb : ((l.events fd).register r.mask r.cb r.clientData).callback dir = r.cb := by
          cases dir <;> exact if_pos hdir
        rw [hcb]
        simp only [lastRegistration, List.findSome?_cons, hregs]
        rfl
      · -- the other direction keeps its callback, and its data by `hkeep`
        rw [if_neg fun hboth => hdir hboth.2] at hregs
        have hold : (l.events fd).mask.has dir = true := by
          have hunion : ((l.events fd).mask.union r.mask).has dir = true := hreg
          rw [has_union] at hunion
          simpa [hdir] using hunion
        have hother : (l.events fd).mask.diff r.mask ≠ .NONE := by
          apply ne_none_of_has dir
          rw [has_diff, hold]
          simpa using hdir
        have hcb : ((l.events fd).register r.mask r.cb r.clientData).callback dir =
            (l.events fd).callback dir := by
          cases dir <;> exact if_neg hdir
        rw [lastRegistration_cons_none _ hregs, h.own fd dir hold, hcb, hkeep hother]
        rfl
    · rw [registered_events, update_of_ne hfd] at hreg ⊢
      rw [if_neg fun hboth => hfd (by omega)] at hregs
      rw [lastRegistration_cons_none _ hregs]
      exact h.own fd dir hreg

/-- An unregistration leaves callbacks and data alone. -/
theorem OwnTable.unregistered (h : OwnTable l events) (s : σ) (i : ℕ) (mask : LoopyAction)
    (e : Event) (he : ∀ fd dir, e.registers fd dir = none) :
    OwnTable (l.unregistered s i mask) (e :: events) where
  beyond := fun j hj => by
    have hsize : (l.unregistered s i mask).setSize = l.setSize := by rw [unregistered_frame]
    rw [hsize] at hj
    rw [unregistered_events]
    by_cases hji : j = i
    · subst hji
      rw [update_self]
      show (l.events j).mask.diff mask = .NONE
      rw [h.beyond j hj]
      rfl
    · rw [update_of_ne hji]
      exact h.beyond j hj
  own := fun fd dir hreg => by
    rw [lastRegistration_cons_none _ (he fd dir)]
    rw [unregistered_events] at hreg ⊢
    by_cases hfd : fd = i
    · subst hfd
      rw [update_self] at hreg ⊢
      have hold : ((l.events fd).mask.diff mask).has dir = true := hreg
      rw [has_diff, Bool.and_eq_true] at hold
      have hown := h.own fd dir hold.1
      cases dir <;> exact hown
    · rw [update_of_ne hfd] at hreg ⊢
      exact h.own fd dir hreg

/-- Every table call that keeps the data of the other direction. -/
theorem OwnTable.effect {env : Env ε} (h : OwnTable l events) (hok : ¬ c.ReplacesData A env l)
    (he : TableEffect A env l c b l') : OwnTable l' (.called (.table c) b :: events) := by
  cases he with
  | @register _ r l₁ s i hc hr hg hsame hi hs hfree hadd =>
    refine (h.grown hg).registered _ hc hr hi fun hother => ?_
    have hnone : (l₁.events i).mask ≠ .NONE := by
      intro hnone
      rw [hnone] at hother
      exact hother rfl
    -- a registered index is in the table already, so nothing was grown
    have hlt : i < l.setSize := by
      by_contra hge
      rcases hg.events_eq i with heq | ⟨-, heq⟩
      · rw [heq] at hnone; exact hnone (h.beyond i (by omega))
      · rw [heq] at hnone; exact hnone rfl
    obtain rfl := hsame hlt
    by_contra hdata
    apply hok
    have hidx : r.fd.toNat = i := by omega
    refine ⟨r, hc, s, hs, by omega, ?_⟩
    rw [hidx]
    refine ⟨hother, hdata, ?_, hadd⟩
    rintro ⟨hex, hw⟩
    rw [hfree hex] at hw
    cases hw
  | refuse hc hr hg hi hs hrefused =>
    exact (h.grown hg).cons _ rfl le_rfl fun _ _ => rfl
  | taken hc hg => exact (h.grown hg).cons _ rfl le_rfl fun _ _ => rfl
  | unregister hc hi hmask hs => exact h.unregistered _ _ _ _ (registers_unregistration hc)
  | absent hc hmask => exact h.cons _ rfl le_rfl (registers_unregistration hc)
  | resize hg => exact (h.grown hg).cons _ rfl le_rfl fun _ _ => rfl

/-- A step on the same table that adds no event, or one that neither registers nor invokes a
file callback. -/
theorem OwnData.quiet {m' : Machine σ} (h : OwnData m) (hev : m'.loop.events = m.loop.events)
    (hsize : m'.loop.setSize = m.loop.setSize)
    (hnew : m'.events = m.events ∨ ∃ e, m'.events = e :: m.events ∧
      (∀ fd dir, e.registers fd dir = none) ∧
      ∀ fd dir cb clientData, e ≠ .invoked (.file fd dir) cb clientData) :
    OwnData m' := by
  rcases hnew with heq | ⟨e, heq, hregs, hinv⟩
  · rw [show m' = { m' with events := m.events } from by rw [← heq]]
    refine ⟨h.past, ⟨fun i hi => ?_, fun fd dir hreg => ?_⟩⟩
    · rw [hev]; exact h.table.beyond i (by rw [← hsize]; exact hi)
    · rw [hev] at hreg ⊢; exact h.table.own fd dir hreg
  · refine ⟨?_, ?_⟩
    · rw [heq]
      exact h.past.cons fun fd dir cb clientData he => absurd he (hinv fd dir cb clientData)
    · rw [heq]
      exact h.table.cons e hev hsize.ge hregs

theorem Controlled.tables (h : Machine.Controlled l l') :
    l'.events = l.events ∧ l'.setSize = l.setSize := by
  obtain ⟨stop, before, after, timer, -, rfl⟩ := h
  exact ⟨rfl, rfl⟩

theorem registers_call {c : Call} (hc : ∀ t, c ≠ .table t) (fd : ℕ) (dir : Dir) :
    (Event.called c b).registers fd dir = none := by
  cases c with
  | table t => exact absurd rfl (hc t)
  | _ => cases b <;> rfl

/-- After a teardown nothing is registered. -/
theorem OwnData.deinit (h : OwnData m) : OwnData m.loopyDeinit :=
  ⟨h.past.cons nofun, .zero _⟩

open Machine in
theorem OwnData.step {poll : π → ℕ → σ → List LoopyFiredEvent × σ} {m' : Machine σ}
    {i : Input ε π} (h : OwnData m) (hok : KeepsClientData A m i)
    (hstep : step A poll m i = some m') : OwnData m' := by
  cases step_inv hstep with
  | table hu heff =>
    refine ⟨?_, h.table.effect hok heff⟩
    exact h.past.cons nofun
  | control hu hc _ hl =>
    obtain ⟨hev, hsize⟩ := Controlled.tables hl
    exact h.quiet hev hsize (Or.inr ⟨_, rfl, registers_call hc, nofun⟩)
  | deleteNow hu hlive hd =>
    apply OwnData.deinit
    exact h.quiet rfl rfl (Or.inr ⟨_, rfl, fun _ _ => rfl, nofun⟩)
  | exitDelete hf hp =>
    apply OwnData.deinit
    exact h.quiet rfl rfl (Or.inl rfl)
  | dirInvoked hf hp hr hi =>
    -- the callback of a registered direction, with what the table holds for it
    have hreg : (m.loop.events _).mask.has _ = true := (Bool.and_eq_true_iff.mp hi).1
    refine ⟨h.past.cons ?_, h.table.cons _ rfl le_rfl fun _ _ => rfl⟩
    rintro fd dir cb clientData ⟨⟩
    exact h.table.own _ _ hreg
  | pollFault hf hp hs =>
    have hpolled : OwnData (m.emit (.polled [])) :=
      h.quiet rfl rfl (Or.inr ⟨_, rfl, fun _ _ => rfl, nofun⟩)
    exact hpolled.quiet rfl rfl (Or.inr ⟨_, rfl, fun _ _ => rfl, nofun⟩)
  | deleteNone | deletePending | main | beforeSleep | afterSleep | polled | fetchFault
  | dispatched | dirFault | fire | freed =>
    exact h.quiet rfl rfl (Or.inr ⟨_, rfl, fun _ _ => rfl, nofun⟩)
  | ret | enter | jump | process | exit | started | fetch | dirSkipped | readReturned | timers
  | leave => exact h.quiet rfl rfl (Or.inl rfl)

/-- **Independence of the two directions.** In every run in which no accepted registration
of one direction passes other data than the registered other direction has, every file
callback is given the callback and `clientData` of the latest successful registration of
its own direction. -/
theorem directions_independent (A : Adapter σ ε)
    (poll : π → ℕ → σ → List LoopyFiredEvent × σ) (n addr : ℕ) (allocated : Bool)
    (is : List (Input ε π)) (m : Machine σ)
    (hrun : Run (Machine.step A poll) (KeepsClientData A)
      (.start { LoopyLoop.fresh A n addr with allocated := allocated }) is m) :
    PassesOwnData m.events := by
  have hstart : OwnData
      (Machine.start { LoopyLoop.fresh A n addr with allocated := allocated }) := by
    refine ⟨fun later earlier fd dir cb clientData heq => ?_, fun _ _ => rfl, fun fd dir hreg => ?_⟩
    · cases later <;> cases heq
    · have hzero : LoopyFileEvent.zero.mask.has dir = true := hreg
      rw [has_zero] at hzero
      cases hzero
  exact (hrun.invariant (fun m i m' h hok hstep => h.step hok hstep) hstart).past

end

open Loopy.Epoll

/-- Descriptor 3 registered for both directions with the given data, then readable. -/
def bothDirections (readData writeData : ℕ) : List EpollInput :=
  [.call (.table (.registerRead 3 5 readData)) ⟨2, true⟩,
    .call (.table (.registerWrite 3 6 writeData)) ⟨2, true⟩,
    .call (.main .ALL) ⟨2, true⟩, .go, .go, .go, .poll 0 [(3, EPOLLIN)], .go, .go]

theorem directions_independent_same_data :
    ∃ m, Run epollStep (KeepsClientData epollAdapter) (epollStart 16 1 false)
      (bothDirections 9 9) m ∧ .invoked (.file 3 .read) 5 9 ∈ m.events ∧
      PassesOwnData m.events := by
  have hexec : (exec epollStep (KeepsClientData epollAdapter) (epollStart 16 1 false)
      (bothDirections 9 9)).map (fun m => decide (.invoked (.file 3 .read) 5 9 ∈ m.events)) =
        some true := by decide +kernel
  obtain ⟨m, hrun, hin⟩ := Run.of_exec_map hexec
  exact ⟨m, hrun, of_decide_eq_true hin, directions_independent _ _ 16 1 false _ _ hrun⟩

/-- A registration for writing replaces the data of the read callback. -/
theorem directions_share_clientData :
    ¬ ∀ is m, Run epollStep (fun _ _ => True) (epollStart 16 1 false) is m →
      PassesOwnData m.events := by
  intro hall
  have hexec : (exec epollStep (fun _ _ => True) (epollStart 16 1 false)
      (bothDirections 9 8)).map (fun m => (m.events.head?, lastRegistration 3 .read m.events.tail)) =
        some (some (.invoked (.file 3 .read) 5 8), some (5, 9)) := by decide +kernel
  obtain ⟨m, hm, hev⟩ := Run.of_exec_map hexec
  obtain ⟨hhead, hlast⟩ := Prod.mk.inj hev
  obtain ⟨tail, htail⟩ := List.head?_eq_some_iff.mp hhead
  have hown := hall _ _ hm [] tail 3 .read 5 8 htail
  rw [htail, List.tail_cons, hown] at hlast
  cases hlast

end Loopy.EventLoop
