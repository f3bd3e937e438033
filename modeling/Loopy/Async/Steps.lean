import Loopy.Async.Wakeup

/-!
# What the steps of a `loopyAsync` do

The parts of the handle that each step reads and changes, for the systems that are built over it.
-/

namespace Loopy.Async

open Loopy.Lib

variable {T : Type} [DecidableEq T] {async async' : AsyncState T} {t : T}

theorem compareExchange_spec (h : step async (.compareExchange t) = some async') :
    async.sender t = .idle ∧ async'.loop = async.loop ∧ async'.counter = async.counter ∧
      ∃ pc, (pc = .writing ∨ pc = .returning) ∧
        async'.sender = Function.update async.sender t pc := by
  obtain ⟨hidle, h⟩ := Option.ite_none_right_eq_some.mp h
  split at h
  · cases h
    exact ⟨hidle, rfl, rfl, .writing, .inl rfl, rfl⟩
  · cases h
    exact ⟨hidle, rfl, rfl, .returning, .inr rfl, rfl⟩

theorem write_spec (h : step async (.write t) = some async') :
    async.sender t = .writing ∧ async'.loop = async.loop ∧
      async'.sender = Function.update async.sender t .returning := by
  obtain ⟨hwriting, rfl⟩ := of_guard h
  exact ⟨hwriting, rfl, rfl⟩

theorem sendReturn_spec (h : step async (.sendReturn t) = some async') :
    async.sender t = .returning ∧ async'.loop = async.loop ∧ async'.counter = async.counter ∧
      async'.sender = Function.update async.sender t .idle := by
  obtain ⟨hreturning, rfl⟩ := of_guard h
  exact ⟨hreturning, rfl, rfl, rfl⟩

/-- What the loop does to the handle, from one of its points to the next. -/
theorem loop_spec {a : Action T} {p q : LoopPc}
    (ha : (a, p, q) = (.poll, .waiting, .dispatched) ∨ (a, p, q) = (.read, .dispatched, .drained) ∨
      (a, p, q) = (.storePending, .drained, .cleared) ∨
      (a, p, q) = (.startCallback, .cleared, .running) ∨
      (a, p, q) = (.finishCallback, .running, .waiting))
    (h : step async a = some async') :
    async.loop = p ∧ async'.loop = q ∧ async'.sender = async.sender := by
  rcases ha with ha | ha | ha | ha | ha
  all_goals
    cases ha
    obtain ⟨hloop, rfl⟩ := of_guard h
  · exact ⟨hloop.1, rfl, rfl⟩
  all_goals exact ⟨hloop, rfl, rfl⟩

omit [DecidableEq T] in
/-- A poll reports a counter that is positive, and so it still is before the read. -/
theorem Token.counter_of_dispatched (h : Token async) (hloop : async.loop = .dispatched) :
    0 < async.counter := by
  cases h with
  | none _ _ _ hne => exact absurd hloop hne
  | sender _ _ _ _ hne => exact absurd hloop hne
  | counter _ hcounter => omega
  | loop _ _ _ hdrained =>
    rw [hloop] at hdrained
    cases hdrained

end Loopy.Async
