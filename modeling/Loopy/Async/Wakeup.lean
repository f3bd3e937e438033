import Loopy.Lib.Run
import Loopy.Lib.Places

/-!
# `loopyAsync.c`: waking the loop from other threads

The senders and the loop as a machine of atomic actions over the `pending` flag and the
eventfd counter. `T` names the threads that run `loopyAsyncSend`; a send made by the user
callback itself counts as one more thread. The loop runs `asyncEventCallback` as the read
handler of the eventfd: a poll reports the descriptor while its counter is positive.

`no_lost_wakeup`: a send whose compare-exchange no callback has followed is always carried
by the counter, by a sender about to write, or by the loop on its way to the callback.
-/

namespace Loopy.Async

open Loopy.Lib
open Function (update)

/-- Where a thread is in `loopyAsyncSend`. -/
inductive SendPc
  | idle
  | writing
  | returning
deriving DecidableEq, Repr

/-- Where the loop is in `asyncEventCallback`. -/
inductive LoopPc
  | waiting
  | dispatched
  | drained
  | cleared
  | running
deriving DecidableEq, Repr

/-- `loopyAsync` with its eventfd, its senders and its loop. -/
structure AsyncState (T : Type) where
  pending : ℕ
  counter : ℕ
  sender : T → SendPc
  loop : LoopPc

/-- `loopyAsyncNew`: `atomic_init(&async->pending, 0)` and `eventfd(0, ...)`. -/
def AsyncState.fresh (T : Type) : AsyncState T :=
  { pending := 0, counter := 0, sender := fun _ => .idle, loop := .waiting }

/-- The atomic actions. An interrupted `write` or `read` (`EINTR`) is tried again. -/
inductive Action (T : Type)
  | compareExchange (t : T)
  | write (t : T)
  | writeInterrupted (t : T)
  | sendReturn (t : T)
  | poll
  | read
  | readInterrupted
  | storePending
  | startCallback
  | finishCallback
deriving DecidableEq, Repr

/-- `write` of 1 to an eventfd: a counter at its maximum `2^64 - 2` stays (`EAGAIN`). -/
def eventfdWrite (counter : ℕ) : ℕ := if counter + 1 < 2 ^ 64 - 1 then counter + 1 else counter

variable {T : Type}

/-- One atomic action. -/
def step [DecidableEq T] (s : AsyncState T) : Action T → Option (AsyncState T)
  | .compareExchange t =>
    if s.sender t = .idle then
      if s.pending = 0 then
        some { s with pending := 1, sender := update s.sender t .writing }
      else some { s with sender := update s.sender t .returning }
    else none
  | .write t =>
    if s.sender t = .writing then
      some { s with
        counter := eventfdWrite s.counter
        sender := update s.sender t .returning }
    else none
  | .writeInterrupted t => if s.sender t = .writing then some s else none
  | .sendReturn t =>
    if s.sender t = .returning then
      some { s with sender := update s.sender t .idle }
    else none
  | .poll =>
    if s.loop = .waiting ∧ 0 < s.counter then some { s with loop := .dispatched } else none
  | .read =>
    -- an empty counter would give `EAGAIN` and stay 0
    if s.loop = .dispatched then some { s with counter := 0, loop := .drained } else none
  | .readInterrupted => if s.loop = .dispatched then some s else none
  | .storePending =>
    if s.loop = .drained then some { s with pending := 0, loop := .cleared } else none
  | .startCallback => if s.loop = .cleared then some { s with loop := .running } else none
  | .finishCallback => if s.loop = .running then some { s with loop := .waiting } else none

/-! ## The token -/

/-- A set `pending` flag is one token. It is with a sender that is about to write, in the
counter, or with the loop that has read it. -/
inductive Token (s : AsyncState T) : Prop
  | none (hpending : s.pending = 0) (hcounter : s.counter = 0) (hwriter : NoneAt s.sender .writing)
      (hdispatched : s.loop ≠ .dispatched) (hdrained : s.loop ≠ .drained)
  | sender (t : T) (hpending : s.pending = 1) (hcounter : s.counter = 0)
      (hwriter : OneAt s.sender .writing t)
      (hdispatched : s.loop ≠ .dispatched) (hdrained : s.loop ≠ .drained)
  | counter (hpending : s.pending = 1) (hcounter : s.counter = 1)
      (hwriter : NoneAt s.sender .writing) (hdrained : s.loop ≠ .drained)
  | loop (hpending : s.pending = 1) (hcounter : s.counter = 0)
      (hwriter : NoneAt s.sender .writing) (hdrained : s.loop = .drained)

/-- A call of `loopyAsyncSend` that no callback has followed is still on its way. -/
def OnItsWay (s : AsyncState T) : Prop :=
  0 < s.counter ∨ (∃ t, s.sender t = .writing) ∨ s.loop = .drained ∨ s.loop = .cleared

theorem Token.fresh : Token (AsyncState.fresh T) :=
  .none rfl rfl (fun _ => SendPc.noConfusion) LoopPc.noConfusion LoopPc.noConfusion

variable {s s' : AsyncState T}

/-- A set flag is on its way. -/
theorem Token.onItsWay (h : Token s) (hpending : s.pending ≠ 0) : OnItsWay s := by
  cases h with
  | none h0 => exact absurd h0 hpending
  | sender t _ _ hwriter => exact .inr (.inl ⟨t, hwriter.self⟩)
  | counter _ hcounter => exact .inl (by omega)
  | loop _ _ _ hdrained => exact .inr (.inr (.inl hdrained))

/-- An action that moves no token. -/
theorem Token.congr (h : Token s) (hpending : s'.pending = s.pending)
    (hcounter : s'.counter = s.counter)
    (hwriter : ∀ u, s'.sender u = .writing ↔ s.sender u = .writing)
    (hdrained : s'.loop = .drained ↔ s.loop = .drained)
    (hdispatched : s'.loop = .dispatched → s.loop = .dispatched ∨ 0 < s.counter) : Token s' := by
  cases h with
  | none h1 h2 h3 h4 h5 =>
    refine .none (hpending.trans h1) (hcounter.trans h2) (fun u hu => h3 u ((hwriter u).mp hu))
      (fun hd => ?_) (mt hdrained.mp h5)
    rcases hdispatched hd with hd | hd
    · exact h4 hd
    · omega
  | sender t h1 h2 h3 h4 h5 =>
    refine .sender t (hpending.trans h1) (hcounter.trans h2) (fun u => (hwriter u).trans (h3 u))
      (fun hd => ?_) (mt hdrained.mp h5)
    rcases hdispatched hd with hd | hd
    · exact h4 hd
    · omega
  | counter h1 h2 h3 h4 =>
    exact .counter (hpending.trans h1) (hcounter.trans h2) (fun u hu => h3 u ((hwriter u).mp hu))
      (mt hdrained.mp h4)
  | loop h1 h2 h3 h4 =>
    exact .loop (hpending.trans h1) (hcounter.trans h2) (fun u hu => h3 u ((hwriter u).mp hu))
      (hdrained.mpr h4)

/-! ## What the actions do to the token -/

/-- A compare-exchange that finds the flag clear takes a new token. -/
theorem Token.take [DecidableEq T] (h : Token s) (t : T) (hpending : s.pending = 0) :
    Token { s with pending := 1, sender := update s.sender t .writing } := by
  cases h with
  | none h1 h2 h3 h4 h5 =>
    exact .sender t rfl h2 h3.enter h4 h5
  | sender _ h1 | counter h1 | loop h1 => omega

/-- The writer puts its token into the counter. -/
theorem Token.write [DecidableEq T] (h : Token s) {t : T} (ht : s.sender t = .writing) :
    Token { s with
      counter := eventfdWrite s.counter
      sender := update s.sender t .returning } := by
  cases h with
  | sender u h1 h2 h3 h4 h5 =>
    obtain rfl : t = u := h3.unique ht
    have hcounter : eventfdWrite s.counter = 1 := by simp [eventfdWrite, h2]
    exact .counter h1 hcounter (h3.leave SendPc.noConfusion) h5
  | none _ _ h3 | counter _ _ h3 | loop _ _ h3 => exact absurd ht (h3 t)

/-- A dispatched loop reads the token out of the counter. -/
theorem Token.read (h : Token s) (hloop : s.loop = .dispatched) :
    Token { s with counter := 0, loop := .drained } := by
  cases h with
  | counter h1 _ h3 => exact .loop h1 rfl h3 rfl
  | none _ _ _ h4 | sender _ _ _ _ h4 => exact absurd hloop h4
  | loop _ _ _ h4 =>
    rw [hloop] at h4
    cases h4

/-- Clearing the flag ends the token. -/
theorem Token.clear (h : Token s) (hloop : s.loop = .drained) :
    Token { s with pending := 0, loop := .cleared } := by
  cases h with
  | loop _ h2 h3 => exact .none rfl h2 h3 LoopPc.noConfusion LoopPc.noConfusion
  | none _ _ _ _ h5 | sender _ _ _ _ _ h5 | counter _ _ _ h5 => exact absurd hloop h5

variable [DecidableEq T]

/-- Every action keeps the token in one place. -/
theorem Token.step {a : Action T} (h : Token s) (hstep : step s a = some s') : Token s' := by
  cases a with
  | compareExchange t =>
    obtain ⟨hidle, hstep⟩ := Option.ite_none_right_eq_some.mp hstep
    have hout : s.sender t ≠ .writing := by
      rw [hidle]
      exact SendPc.noConfusion
    by_cases hpending : s.pending = 0
    · rw [if_pos hpending] at hstep
      cases hstep
      exact h.take t hpending
    · rw [if_neg hpending] at hstep
      cases hstep
      exact h.congr rfl rfl (fun u => update_at_iff hout SendPc.noConfusion) Iff.rfl Or.inl
  | write t =>
    obtain ⟨hwriting, rfl⟩ := of_guard hstep
    exact h.write hwriting
  | writeInterrupted t =>
    obtain ⟨_, rfl⟩ := of_guard hstep
    exact h
  | sendReturn t =>
    obtain ⟨hreturning, rfl⟩ := of_guard hstep
    have hout : s.sender t ≠ .writing := by
      rw [hreturning]
      exact SendPc.noConfusion
    exact h.congr rfl rfl (fun u => update_at_iff hout SendPc.noConfusion) Iff.rfl Or.inl
  | poll =>
    obtain ⟨⟨hloop, hpos⟩, rfl⟩ := of_guard hstep
    refine h.congr rfl rfl (fun _ => Iff.rfl) ?_ fun _ => .inr hpos
    simp [hloop]
  | read =>
    obtain ⟨hloop, rfl⟩ := of_guard hstep
    exact h.read hloop
  | readInterrupted =>
    obtain ⟨_, rfl⟩ := of_guard hstep
    exact h
  | storePending =>
    obtain ⟨hloop, rfl⟩ := of_guard hstep
    exact h.clear hloop
  | startCallback =>
    obtain ⟨hloop, rfl⟩ := of_guard hstep
    exact h.congr rfl rfl (fun _ => Iff.rfl) (by simp [hloop]) (by simp)
  | finishCallback =>
    obtain ⟨hloop, rfl⟩ := of_guard hstep
    exact h.congr rfl rfl (fun _ => Iff.rfl) (by simp [hloop]) (by simp)

/-! ## No send is lost -/

/-- A callback is owed: the flag is set, or the loop has cleared it and is about to call. -/
def Owed (s : AsyncState T) : Prop := s.pending ≠ 0 ∨ s.loop = .cleared

omit [DecidableEq T] in
theorem Owed.onItsWay (hs : Owed s) (h : Token s) : OnItsWay s := by
  rcases hs with hpending | hcleared
  · exact h.onItsWay hpending
  · exact .inr (.inr (.inr hcleared))

/-- A compare-exchange leaves the flag set, whether it succeeds or not. -/
theorem compareExchange_owed {t : T} (hstep : step s (.compareExchange t) = some s') : Owed s' := by
  obtain ⟨_, hstep⟩ := Option.ite_none_right_eq_some.mp hstep
  by_cases hpending : s.pending = 0
  · rw [if_pos hpending] at hstep
    cases hstep
    exact .inl Nat.one_ne_zero
  · rw [if_neg hpending] at hstep
    cases hstep
    exact .inl hpending

/-- Only the start of the callback settles what is owed. -/
theorem Owed.step {a : Action T} (hs : Owed s) (ha : a ≠ .startCallback)
    (hstep : step s a = some s') : Owed s' := by
  cases a with
  | compareExchange t => exact compareExchange_owed hstep
  | startCallback => exact absurd rfl ha
  | storePending =>
    obtain ⟨_, rfl⟩ := of_guard hstep
    exact .inr rfl
  | poll | read | finishCallback =>
    -- the loop is not at `cleared` there, so the flag is set
    obtain ⟨hloop, rfl⟩ := of_guard hstep
    refine .inl (hs.resolve_right fun hcleared => ?_)
    simp [hcleared] at hloop
  | write t | writeInterrupted t | sendReturn t | readInterrupted =>
    obtain ⟨_, rfl⟩ := of_guard hstep
    exact hs

/-- What is owed stays owed in a run without a callback. -/
theorem Owed.run {as : List (Action T)} (hs : Owed s)
    (hrun : Run Async.step (fun _ _ => True) s as s') (has : .startCallback ∉ as) : Owed s' := by
  induction hrun with
  | nil => exact hs
  | cons _ hstep _ ih =>
    have hhead : _ ≠ Action.startCallback := fun he => has (he ▸ List.mem_cons_self)
    exact ih (hs.step hhead hstep) fun hmem => has (List.mem_cons_of_mem _ hmem)

theorem Token.run {as : List (Action T)} (h : Token s)
    (hrun : Run Async.step (fun _ _ => True) s as s') : Token s' :=
  hrun.invariant (fun _ _ _ h _ hstep => h.step hstep) h

omit [DecidableEq T] in
/-- At most one write is outstanding. -/
theorem Token.one_write (h : Token s) :
    s.counter ≤ 1 ∧ ∀ t, s.sender t = .writing →
      s.counter = 0 ∧ ∀ u, s.sender u = .writing → u = t := by
  cases h with
  | sender t _ hcounter hwriter =>
    refine ⟨by omega, fun u hu => ⟨hcounter, fun v hv => ?_⟩⟩
    rw [hwriter.unique hu, hwriter.unique hv]
  | none _ hcounter hwriter | counter _ hcounter hwriter | loop _ hcounter hwriter =>
    exact ⟨by omega, fun u hu => absurd hu (hwriter u)⟩

/-- **No lost wake-up.** In every run, a send that has returned and whose compare-exchange no
callback has followed is in the counter, with a sender that is about to write, or with the
loop between its read and the callback; and at most one write is outstanding. -/
theorem no_lost_wakeup (as : List (Action T)) (s : AsyncState T)
    (hrun : Run step (fun _ _ => True) (.fresh T) as s) :
    (∀ before after t, as = before ++ .compareExchange t :: after → .sendReturn t ∈ after →
        .startCallback ∉ after →
        0 < s.counter ∨ (∃ u, s.sender u = .writing) ∨ s.loop = .drained ∨ s.loop = .cleared) ∧
      s.counter ≤ 1 ∧ ∀ t, s.sender t = .writing →
        s.counter = 0 ∧ ∀ u, s.sender u = .writing → u = t := by
  have htoken := Token.fresh.run hrun
  refine ⟨fun before after t has _ hnone => ?_, htoken.one_write⟩
  subst has
  obtain ⟨s₁, _, hrest⟩ := hrun.split
  cases hrest with
  | cons _ hstep hafter =>
    have howed := (compareExchange_owed hstep).run hafter hnone
    exact howed.onItsWay htoken

/-- Thread 1 returns while thread 0, which set the flag, has not written yet; the counter is
empty and the loop runs the callback of an earlier send. -/
theorem no_lost_wakeup_coalesced :
    ∃ s : AsyncState ℕ, Run step (fun _ _ => True) (.fresh ℕ)
        [.compareExchange 0, .write 0, .sendReturn 0, .poll, .read, .storePending, .startCallback,
          .compareExchange 0, .compareExchange 1, .sendReturn 1] s ∧
      s.counter = 0 ∧ s.loop = .running ∧ ∃ u, s.sender u = .writing := by
  have hexec : (exec step (fun _ _ => True) (.fresh ℕ)
      [.compareExchange 0, .write 0, .sendReturn 0, .poll, .read, .storePending, .startCallback,
        .compareExchange 0, .compareExchange 1, .sendReturn 1]).map
      (fun s => (s.counter, s.loop)) = some (0, .running) := by decide +kernel
  obtain ⟨s, hrun, hval⟩ := Run.of_exec_map hexec
  obtain ⟨hcounter, hloop⟩ := Prod.mk.inj hval
  have hway := (no_lost_wakeup _ s hrun).1
    [.compareExchange 0, .write 0, .sendReturn 0, .poll, .read, .storePending, .startCallback,
      .compareExchange 0] [.sendReturn 1] 1 rfl (by decide) (by decide)
  refine ⟨s, hrun, hcounter, hloop, ?_⟩
  simpa [hcounter, hloop] using hway

end Loopy.Async
