import Loopy.Async.Wakeup
import Loopy.Lib.Bell
import Loopy.Lib.Refinement

/-!
# `loopyAsync.c`: the two backends

With `USE_PIPE` the bell is a pipe: a send writes a byte, and the loop reads until `read` returns
nothing more. A drain that no signal interrupts looks like the one `read` of the eventfd
(`async_backends_agree`), and the eventfd backend is a bell that coalesces: every callback answers a
send of its own, and every send is answered.

`read` is not tried again after `EINTR` in the pipe backend. The bytes that are left ring the bell
once more, but no send is lost (`pipe_no_lost_wakeup`).
-/

namespace Loopy.Async

open Loopy.Lib
open Function (update update_of_ne update_self)

variable {T : Type}

/-! ## The eventfd backend is a bell -/

/-- What an action of the eventfd backend does to the bell. -/
def shown : Action T → Option Bell.Input
  | .compareExchange _ => some .raise
  | .storePending => some .take
  | .startCallback => some .serve
  | _ => none

/-- The bell: a send is owed its callback while `pending` is set. -/
def AsyncState.bell (s : AsyncState T) : Bell :=
  { owed := decide (s.pending ≠ 0), taken := decide (s.loop = .cleared) }

variable [DecidableEq T]

theorem eventfd_refines :
    Refines (step (T := T)) (fun _ _ => True) Bell.step (fun _ => shown) AsyncState.bell Token where
  keeps s a s' h _ hstep := h.step hstep
  hidden s a s' h _ hstep hshown := by
    cases a with
    | compareExchange | storePending | startCallback => cases hshown
    | write | writeInterrupted | sendReturn | readInterrupted =>
      obtain ⟨_, rfl⟩ := of_guard hstep
      rfl
    | poll | read | finishCallback =>
      obtain ⟨hloop, rfl⟩ := of_guard hstep
      simp [AsyncState.bell, hloop]
  visible s a s' j h _ hstep hshown := by
    cases a with
    | write | writeInterrupted | sendReturn | readInterrupted | poll | read | finishCallback =>
      cases hshown
    | compareExchange t =>
      cases hshown
      obtain ⟨_, hstep⟩ := Option.ite_none_right_eq_some.mp hstep
      split at hstep
      · cases hstep
        rfl
      · next hpending =>
        cases hstep
        simp [AsyncState.bell, Bell.step, hpending]
    | storePending =>
      cases hshown
      obtain ⟨hloop, rfl⟩ := of_guard hstep
      -- the loop has the token, so the flag is set
      have hpending : s.pending = 1 := by
        cases h with
        | loop hpending => exact hpending
        | none _ _ _ _ hne | sender _ _ _ _ _ hne | counter _ _ _ hne => exact absurd hloop hne
      simp [AsyncState.bell, Bell.step, hloop, hpending]
    | startCallback =>
      cases hshown
      obtain ⟨hloop, rfl⟩ := of_guard hstep
      simp [AsyncState.bell, Bell.step, hloop]

/-! ## The pipe backend -/

/-- `loopyAsync` with its pipe. A loop that drains the pipe is at `dispatched` until `read` returns
no more bytes. -/
structure PipeState (T : Type) where
  pending : ℕ
  bytes : ℕ
  sender : T → SendPc
  loop : LoopPc

/-- A new handle. -/
def PipeState.fresh (T : Type) : PipeState T :=
  { pending := 0, bytes := 0, sender := fun _ => .idle, loop := .waiting }

/-- One atomic action, with a pipe that holds at most `capacity` bytes. -/
def pipeStep (capacity : ℕ) (s : PipeState T) : Action T → Option (PipeState T)
  | .compareExchange t =>
    if s.sender t = .idle then
      if s.pending = 0 then
        some { s with pending := 1, sender := update s.sender t .writing }
      else some { s with sender := update s.sender t .returning }
    else none
  | .write t =>
    if s.sender t = .writing then
      -- a full pipe gives `EAGAIN`
      some { s with
        bytes := if s.bytes < capacity then s.bytes + 1 else s.bytes
        sender := update s.sender t .returning }
    else none
  | .writeInterrupted t => if s.sender t = .writing then some s else none
  | .sendReturn t =>
    if s.sender t = .returning then
      some { s with sender := update s.sender t .idle }
    else none
  | .poll =>
    if s.loop = .waiting ∧ 0 < s.bytes then some { s with loop := .dispatched } else none
  | .read =>
    if s.loop = .dispatched then
      -- `char buf[64]`
      if 0 < s.bytes then some { s with bytes := s.bytes - min 64 s.bytes }
      else some { s with loop := .drained }
    else none
  | .readInterrupted => if s.loop = .dispatched then some { s with loop := .drained } else none
  | .storePending =>
    if s.loop = .drained then some { s with pending := 0, loop := .cleared } else none
  | .startCallback => if s.loop = .cleared then some { s with loop := .running } else none
  | .finishCallback => if s.loop = .running then some { s with loop := .waiting } else none

/-- No signal interrupts a drain. -/
def Whole (_ : PipeState T) (a : Action T) : Prop := a ≠ .readInterrupted

instance (s : PipeState T) (a : Action T) : Decidable (Whole s a) :=
  inferInstanceAs (Decidable (_ ≠ _))

/-! ## A whole drain is one read of the eventfd -/

/-- The place of the loop, as far as the eventfd backend is concerned: a drain that has read
everything is over. -/
def PipeState.place (s : PipeState T) : LoopPc :=
  if s.loop = .dispatched ∧ s.bytes = 0 then .drained else s.loop

/-- The eventfd backend that the pipe backend looks like. -/
def PipeState.abs (s : PipeState T) : AsyncState T :=
  { pending := s.pending, counter := s.bytes, sender := s.sender, loop := s.place }

/-- The last `read` of a drain finds nothing and shows nothing. -/
def pipeShown (s : PipeState T) : Action T → Option (Action T)
  | .read => if 0 < s.bytes then some .read else none
  | a => some a

variable {s s' : PipeState T} {t : T} {capacity : ℕ} {a : Action T}

omit [DecidableEq T] in
/-- Who is about to write finds an empty pipe, and the loop elsewhere. -/
theorem Token.of_writing (h : Token s.abs) (ht : s.sender t = .writing) :
    s.bytes = 0 ∧ s.loop ≠ .dispatched := by
  cases h with
  | sender u _ hcounter _ _ hdrained =>
    refine ⟨hcounter, fun hloop => hdrained ?_⟩
    exact if_pos ⟨hloop, hcounter⟩
  | none _ _ hwriter | counter _ _ hwriter | loop _ _ hwriter => exact absurd ht (hwriter t)

omit [DecidableEq T] in
/-- A drain that has not begun finds one byte. -/
theorem Token.of_reading (h : Token s.abs) (hbytes : 0 < s.bytes) : s.bytes = 1 := by
  cases h with
  | counter _ hcounter => exact hcounter
  | none _ hcounter | sender _ _ hcounter | loop _ hcounter =>
    have hzero : s.bytes = 0 := hcounter
    omega

/-- A step of the pipe backend is hidden, or a step of the eventfd backend. -/
theorem pipeStep_abs (hcap : 0 < capacity) (h : Token s.abs) (hwhole : a ≠ .readInterrupted)
    (hstep : pipeStep capacity s a = some s') :
    (pipeShown s a = none ∧ s'.abs = s.abs) ∨
      ∃ b, pipeShown s a = some b ∧ step s.abs b = some s'.abs := by
  cases a with
  | readInterrupted => exact absurd rfl hwhole
  | compareExchange t =>
    obtain ⟨ht, hstep⟩ := Option.ite_none_right_eq_some.mp hstep
    refine .inr ⟨_, rfl, ?_⟩
    split at hstep
    · next hpending =>
      cases hstep
      simp only [step, PipeState.abs, ht, hpending, ↓reduceIte]
      rfl
    · next hpending =>
      cases hstep
      simp only [step, PipeState.abs, ht, hpending, ↓reduceIte]
      rfl
  | write t =>
    obtain ⟨ht, rfl⟩ := of_guard hstep
    obtain ⟨hbytes, hloop⟩ := h.of_writing ht
    -- the pipe is empty, so the byte fits, and the counter of the eventfd is zero before it
    refine .inr ⟨_, rfl, ?_⟩
    simp [step, PipeState.abs, ht, hbytes, hcap, eventfdWrite, PipeState.place, hloop]
  | writeInterrupted t =>
    obtain ⟨ht, rfl⟩ := of_guard hstep
    exact .inr ⟨_, rfl, if_pos ht⟩
  | sendReturn t =>
    obtain ⟨ht, rfl⟩ := of_guard hstep
    exact .inr ⟨_, rfl, if_pos ht⟩
  | poll =>
    obtain ⟨⟨hloop, hbytes⟩, rfl⟩ := of_guard hstep
    have hne : s.bytes ≠ 0 := Nat.pos_iff_ne_zero.mp hbytes
    refine .inr ⟨_, rfl, ?_⟩
    simp [step, PipeState.abs, PipeState.place, hloop, hbytes, hne]
  | read =>
    obtain ⟨hloop, hstep⟩ := Option.ite_none_right_eq_some.mp hstep
    split at hstep
    · next hbytes =>
      cases hstep
      have hone := h.of_reading hbytes
      refine .inr ⟨.read, if_pos hbytes, ?_⟩
      simp [step, PipeState.abs, PipeState.place, hloop, hone]
    · next hbytes =>
      cases hstep
      -- the read that finds nothing ends the drain, which for the eventfd is over already
      have hzero : s.bytes = 0 := by omega
      refine .inl ⟨if_neg hbytes, ?_⟩
      simp [PipeState.abs, PipeState.place, hloop, hzero]
  | storePending | startCallback | finishCallback =>
    obtain ⟨hloop, rfl⟩ := of_guard hstep
    refine .inr ⟨_, rfl, ?_⟩
    simp [step, PipeState.abs, PipeState.place, hloop]

theorem pipe_refines (hcap : 0 < capacity) :
    Refines (pipeStep (T := T) capacity) Whole step pipeShown PipeState.abs
      fun s => Token s.abs where
  keeps s a s' h hwhole hstep := by
    rcases pipeStep_abs hcap h hwhole hstep with ⟨_, habs⟩ | ⟨b, _, hb⟩
    · rw [habs]
      exact h
    · exact h.step hb
  hidden s a s' h hwhole hstep hshown := by
    rcases pipeStep_abs hcap h hwhole hstep with ⟨_, habs⟩ | ⟨b, hb, _⟩
    · exact habs
    · rw [hshown] at hb
      cases hb
  visible s a s' j h hwhole hstep hshown := by
    rcases pipeStep_abs hcap h hwhole hstep with ⟨hnone, _⟩ | ⟨b, hb, hb'⟩
    · rw [hshown] at hnone
      cases hnone
    · rw [hshown] at hb
      cases hb
      exact hb'

/-- What is left out of a run does nothing to the bell. -/
theorem shown_trace {as : List (Action T)} (hrun : Run (pipeStep capacity) Whole s as s') :
    (trace (pipeStep capacity) pipeShown s as).filterMap shown = as.filterMap shown := by
  induction hrun with
  | nil => rfl
  | @cons s s₁ s' a as hok hstep rest ih =>
    rw [Run.trace_cons hstep, List.filterMap_append, ih, List.filterMap_cons]
    cases a with
    | read =>
      by_cases hbytes : 0 < s.bytes
      · simp [pipeShown, hbytes, shown]
      · simp [pipeShown, hbytes, shown]
    | _ => simp [pipeShown, shown]

/-- **The two backends agree.** A run of the pipe backend whose drains no signal interrupts shows as
a run of the eventfd backend with the same sends, clears and callbacks. Both are runs of the bell: a
callback answers a send of its own, and no send that came after the last callback is forgotten. -/
theorem async_backends_agree (capacity : ℕ) (hcap : 0 < capacity) (as : List (Action T))
    (s : PipeState T)
    (hrun : Run (pipeStep capacity) Whole (.fresh T) as s) :
    ∃ bs, Run step (fun _ _ => True) (.fresh T) bs s.abs ∧
      bs.filterMap shown = as.filterMap shown ∧
      Run Bell.step (fun _ _ => True) .silent (as.filterMap shown) s.abs.bell ∧
      s.abs.bell.outstanding + (as.filterMap shown).count .serve ≤
        (as.filterMap shown).count .raise ∧
      ∀ before after, as.filterMap shown = before ++ .raise :: after → .serve ∉ after →
        s.abs.bell.owed ∨ s.abs.bell.taken := by
  have hfresh : (PipeState.fresh T).abs = .fresh T := by
    simp [PipeState.abs, PipeState.fresh, PipeState.place, AsyncState.fresh]
  have heventfd := hrun.refine (pipe_refines hcap) (by rw [hfresh]; exact Token.fresh)
  rw [hfresh] at heventfd
  have hbell := heventfd.refine eventfd_refines Token.fresh
  rw [Run.trace_eq_filterMap heventfd, shown_trace hrun] at hbell
  have hcount := Bell.serve_le_raise hbell
  refine ⟨_, heventfd, shown_trace hrun, hbell, ?_, fun before after hsplit hserve => ?_⟩
  · have hsilent : (AsyncState.fresh T).bell.outstanding = 0 := rfl
    omega
  · rw [hsplit] at hbell
    obtain ⟨b, _, hrest⟩ := hbell.split
    cases hrest with
    | cons _ hraise hafter =>
      cases hraise
      exact Bell.answered hafter hserve (.inl rfl)

/-- A second send finds the flag set while the loop drains the pipe of one byte. -/
theorem async_backends_agree_drained :
    ∃ s : PipeState ℕ, Run (pipeStep 1) Whole (.fresh ℕ)
        [.compareExchange 0, .write 0, .sendReturn 0, .poll, .read, .compareExchange 1,
          .sendReturn 1, .read, .storePending, .startCallback] s ∧
      s.loop = .running ∧ ∃ bs, Run step (fun _ _ => True) (.fresh ℕ) bs s.abs ∧
        bs.filterMap shown = [.raise, .raise, .take, .serve] := by
  refine Run.exists_of_exec (by decide +kernel) fun s hrun hloop => ⟨hloop, ?_⟩
  obtain ⟨bs, hbs, hshown, -⟩ := async_backends_agree 1 (by decide) _ s hrun
  exact ⟨bs, hbs, hshown⟩

/-! ## A drain that is interrupted -/

/-- A set flag has a byte in the pipe, a sender that is about to write, or a loop that is about to
clear it. -/
def Carried (s : PipeState T) : Prop :=
  s.pending ≠ 0 → 0 < s.bytes ∨ (∃ t, s.sender t = .writing) ∨ s.loop = .dispatched ∨
    s.loop = .drained

/-- The flag is set, or the loop has cleared it and is about to call. -/
def PipeOwed (s : PipeState T) : Prop := s.pending ≠ 0 ∨ s.loop = .cleared

/-- A thread that was not about to write and is not now. -/
theorem exists_writing_update {sender : T → SendPc} {pc : SendPc} (ht : sender t ≠ .writing)
    (h : ∃ u, sender u = .writing) : ∃ u, update sender t pc u = .writing := by
  obtain ⟨u, hu⟩ := h
  have hne : u ≠ t := by
    rintro rfl
    exact ht hu
  exact ⟨u, by rw [update_of_ne hne, hu]⟩

theorem Carried.step (hcap : 0 < capacity) (h : Carried s)
    (hstep : pipeStep capacity s a = some s') : Carried s' := by
  cases a with
  | compareExchange t =>
    obtain ⟨ht, hstep⟩ := Option.ite_none_right_eq_some.mp hstep
    split at hstep
    · cases hstep
      exact fun _ => .inr (.inl ⟨t, update_self ..⟩)
    · next hpending =>
      cases hstep
      intro _
      rcases h hpending with hbytes | hwriter | hloop
      · exact .inl hbytes
      · exact .inr (.inl (exists_writing_update (by rw [ht]; nofun) hwriter))
      · exact .inr (.inr hloop)
  | write t =>
    obtain ⟨_, rfl⟩ := of_guard hstep
    refine fun _ => .inl ?_
    -- a pipe that is full has a byte already
    show 0 < if s.bytes < capacity then s.bytes + 1 else s.bytes
    split <;> omega
  | writeInterrupted t =>
    obtain ⟨_, rfl⟩ := of_guard hstep
    exact h
  | sendReturn t =>
    obtain ⟨ht, rfl⟩ := of_guard hstep
    intro hpending
    rcases h hpending with hbytes | hwriter | hloop
    · exact .inl hbytes
    · exact .inr (.inl (exists_writing_update (by rw [ht]; nofun) hwriter))
    · exact .inr (.inr hloop)
  | poll =>
    obtain ⟨_, rfl⟩ := of_guard hstep
    exact fun _ => .inr (.inr (.inl rfl))
  | read =>
    obtain ⟨hloop, hstep⟩ := Option.ite_none_right_eq_some.mp hstep
    split at hstep
    · cases hstep
      exact fun _ => .inr (.inr (.inl hloop))
    · cases hstep
      exact fun _ => .inr (.inr (.inr rfl))
  | readInterrupted =>
    obtain ⟨_, rfl⟩ := of_guard hstep
    exact fun _ => .inr (.inr (.inr rfl))
  | storePending =>
    obtain ⟨_, rfl⟩ := of_guard hstep
    exact fun hpending => absurd rfl hpending
  | startCallback | finishCallback =>
    obtain ⟨hloop, rfl⟩ := of_guard hstep
    intro hpending
    rcases h hpending with hbytes | hwriter | hin | hin
    · exact .inl hbytes
    · exact .inr (.inl hwriter)
    · rw [hloop] at hin
      cases hin
    · rw [hloop] at hin
      cases hin

/-- A compare-exchange leaves the flag set, whether it succeeds or not. -/
theorem pipe_compareExchange_owed (hstep : pipeStep capacity s (.compareExchange t) = some s') :
    PipeOwed s' := by
  obtain ⟨_, hstep⟩ := Option.ite_none_right_eq_some.mp hstep
  split at hstep
  · cases hstep
    exact .inl Nat.one_ne_zero
  · next hpending =>
    cases hstep
    exact .inl hpending

/-- Only the start of the callback settles what is owed. -/
theorem PipeOwed.step (h : PipeOwed s) (ha : a ≠ .startCallback)
    (hstep : pipeStep capacity s a = some s') : PipeOwed s' := by
  cases a with
  | startCallback => exact absurd rfl ha
  | compareExchange t => exact pipe_compareExchange_owed hstep
  | storePending =>
    obtain ⟨_, rfl⟩ := of_guard hstep
    exact .inr rfl
  | write | writeInterrupted | sendReturn =>
    obtain ⟨_, rfl⟩ := of_guard hstep
    exact h
  | read =>
    obtain ⟨hloop, hstep⟩ := Option.ite_none_right_eq_some.mp hstep
    have hpending : s.pending ≠ 0 := by
      -- the loop is draining, so what is owed is in the flag
      apply h.resolve_right
      rw [hloop]
      exact LoopPc.noConfusion
    split at hstep
    · cases hstep
      exact .inl hpending
    · cases hstep
      exact .inl hpending
  | poll | readInterrupted | finishCallback =>
    obtain ⟨hloop, rfl⟩ := of_guard hstep
    refine .inl (h.resolve_right fun hcleared => ?_)
    simp [hcleared] at hloop

theorem PipeOwed.run {as : List (Action T)} (h : PipeOwed s)
    (hrun : Run (pipeStep capacity) (fun _ _ => True) s as s') (has : .startCallback ∉ as) :
    PipeOwed s' := by
  induction hrun with
  | nil => exact h
  | cons _ hstep _ ih =>
    apply ih (h.step _ hstep)
    · exact fun hmem => has (List.mem_cons_of_mem _ hmem)
    · rintro rfl
      exact has List.mem_cons_self

/-- **No lost wake-up on a pipe.** Whatever signals interrupt, a send that no callback has followed
has a byte in the pipe, a sender that is about to write, or a loop on its way to the callback. -/
theorem pipe_no_lost_wakeup (capacity : ℕ) (hcap : 0 < capacity) (as : List (Action T))
    (s : PipeState T) (hrun : Run (pipeStep capacity) (fun _ _ => True) (.fresh T) as s)
    (before after : List (Action T)) (t : T) (has : as = before ++ .compareExchange t :: after)
    (hnone : .startCallback ∉ after) :
    0 < s.bytes ∨ (∃ u, s.sender u = .writing) ∨ s.loop = .dispatched ∨ s.loop = .drained ∨
      s.loop = .cleared := by
  have hcarried : Carried s :=
    hrun.invariant (fun _ _ _ h _ hstep => h.step hcap hstep) fun hpending => absurd rfl hpending
  subst has
  obtain ⟨s₁, _, hrest⟩ := hrun.split
  cases hrest with
  | cons _ hstep hafter =>
    rcases (pipe_compareExchange_owed hstep).run hafter hnone with hpending | hcleared
    · rcases hcarried hpending with hbytes | hwriter | hdispatched | hdrained
      · exact .inl hbytes
      · exact .inr (.inl hwriter)
      · exact .inr (.inr (.inl hdispatched))
      · exact .inr (.inr (.inr (.inl hdrained)))
    · exact .inr (.inr (.inr (.inr hcleared)))

/-- The byte that an interrupted drain has left lets the loop clear the flag of thread 1 before that
thread has written. -/
theorem pipe_no_lost_wakeup_interrupted :
    ∃ s : PipeState ℕ, Run (pipeStep 1) (fun _ _ => True) (.fresh ℕ)
        [.compareExchange 0, .write 0, .sendReturn 0, .poll, .readInterrupted, .storePending,
          .startCallback, .finishCallback, .compareExchange 1, .poll, .read, .read,
          .storePending] s ∧
      s.pending = 0 ∧ s.bytes = 0 ∧ ((∃ u, s.sender u = .writing) ∨ s.loop = .dispatched ∨
        s.loop = .drained ∨ s.loop = .cleared) := by
  refine Run.exists_of_exec (f := fun s => (s.pending, s.bytes)) (b := (0, 0))
    (by decide +kernel) fun s hrun hval => ?_
  obtain ⟨hpending, hbytes⟩ := Prod.mk.inj hval
  have hway := pipe_no_lost_wakeup 1 (by decide) _ s hrun
    [.compareExchange 0, .write 0, .sendReturn 0, .poll, .readInterrupted, .storePending,
      .startCallback, .finishCallback] [.poll, .read, .read, .storePending] 1 rfl (by decide)
  refine ⟨hpending, hbytes, hway.resolve_left ?_⟩
  omega

end Loopy.Async
