import Loopy.Lib.Run

/-!
# A bell that coalesces

Many callers raise the bell, one servant answers it: it takes the call and then serves it. Calls
that are raised before the servant takes one are answered together. Nothing is served that nobody
has raised, and nothing that was raised stays unanswered.
-/

namespace Loopy.Lib

/-- The bell: somebody has raised it, and the servant has taken a call. -/
structure Bell where
  owed : Bool
  taken : Bool
deriving DecidableEq, Repr

namespace Bell

inductive Input
  | raise
  | take
  | serve
deriving DecidableEq, Repr

/-- Nobody has raised it. -/
def silent : Bell := { owed := false, taken := false }

def step (b : Bell) : Input → Option Bell
  | .raise => some { b with owed := true }
  | .take => if b.owed ∧ b.taken = false then some { owed := false, taken := true } else none
  | .serve => if b.taken then some { b with taken := false } else none

/-- The calls that are still to be served. -/
def outstanding (b : Bell) : ℕ := (if b.owed then 1 else 0) + if b.taken then 1 else 0

variable {b b' : Bell} {is : List Input}

theorem outstanding_step {i : Input} (hstep : step b i = some b') :
    b'.outstanding + [i].count .serve ≤ b.outstanding + [i].count .raise := by
  obtain ⟨owed, taken⟩ := b
  cases i with
  | raise =>
    cases hstep
    cases owed <;> cases taken <;> decide
  | take =>
    obtain ⟨⟨howed, htaken⟩, rfl⟩ := of_guard hstep
    obtain rfl : owed = true := howed
    obtain rfl : taken = false := htaken
    decide
  | serve =>
    obtain ⟨htaken, rfl⟩ := of_guard hstep
    obtain rfl : taken = true := htaken
    cases owed <;> decide

/-- Every service answers a call of its own. -/
theorem serve_le_raise (hrun : Run step (fun _ _ => True) b is b') :
    b'.outstanding + is.count .serve ≤ b.outstanding + is.count .raise := by
  induction hrun with
  | nil => exact Nat.le_refl _
  | @cons b b₁ b' i is _ hstep _ ih =>
    have hfirst := outstanding_step hstep
    rw [List.count_cons, List.count_cons]
    simp only [List.count_singleton] at hfirst
    omega

/-- A call that was raised is served, or still outstanding. -/
theorem answered (hrun : Run step (fun _ _ => True) b is b') (hserve : .serve ∉ is)
    (hb : b.owed ∨ b.taken) : b'.owed ∨ b'.taken := by
  induction hrun with
  | nil => exact hb
  | @cons b b₁ b' i is _ hstep _ ih =>
    apply ih fun hmem => hserve (List.mem_cons_of_mem i hmem)
    cases i with
    | raise =>
      cases hstep
      exact .inl rfl
    | take =>
      obtain ⟨_, rfl⟩ := of_guard hstep
      exact .inr rfl
    | serve => exact absurd List.mem_cons_self hserve

end Bell

end Loopy.Lib
