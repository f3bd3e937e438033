import Mathlib.Data.List.Nodup
import Loopy.Pipe.Basic

/-!
# Asynchronous writes of a pipe

`loopyPipeWriteAsync` calls `write` once, and `pipeWriteEventCallback` does not write at all: what
the one `write` has not taken is lost, and the event reports success. There is one `writeCallback`,
so a second call that has to wait takes the place of the first one. `writes_complete_iff` says in
which runs the writes are complete all the same.
-/

namespace Loopy.Pipe

open Loopy.EventLoop Loopy.Lib

/-! ## The promise -/

/-- No event of the write end can come. -/
def LoopyPipe.Settled (p : LoopyPipe) : Prop :=
  ∀ loop, (p.mask loop p.writeEnd).write = false

/-- The callback of every call that has returned `true` is called at most once, and it has been
called when no event can come any more; success is reported of calls whose buffers have been
taken; and what the kernel has been given are the buffers in the order of the calls. -/
structure Complete (p : LoopyPipe) : Prop where
  atMostOnce : ∀ n, p.called.count n ≤ 1
  once : p.Settled → ∀ n c, p.asyncCalls[n]? = some c → c.cb ≠ 0 → p.called.count n = 1
  whole : ∀ n ∈ p.called, ∃ c, p.asyncCalls[n]? = some c ∧ c.taken = c.buf.length
  bytes : p.kernel = (p.asyncCalls.map AsyncCall.buf).flatten

/-- The steps of the promise: asynchronous writes whose registrations succeed, events of the write
end, and the ends of callbacks. -/
def OnlyWrites : Action → Prop
  | .writeAsync _ _ _ _ _ register => register = true
  | .writable _ | .ret => True
  | _ => False

/-- The callback that waits for an event has not been called. -/
def LoopyPipe.Awaits (p : LoopyPipe) : Prop :=
  p.writeCallback ≠ 0 ∧ ∃ n ∈ p.waiting, n ∉ p.called

instance (p : LoopyPipe) : Decidable p.Awaits := inferInstanceAs (Decidable (_ ∧ _))

/-- `write` takes the whole buffer or fails, or the buffer is empty and no other callback waits; and
a callback that waits is called by the next event. -/
def TakesAll (p : LoopyPipe) : Action → Prop
  | .writeAsync loop buf _ _ written _ =>
    loop = 0 ∨ p.writeFd < 0 ∨ buf = none ∨ written = .error ∨
      written = .bytes (buf.getD []).length ∨ buf = some [] ∧ written = .again ∧ ¬ p.Awaits
  | .writable _ => p.writeCallback ≠ 0 → p.Awaits
  | .ret => p.frames.head? = some .pipeWriteEventCallback → ¬ p.Awaits
  | _ => True

instance : ∀ a, Decidable (OnlyWrites a)
  | .writeAsync .. => inferInstanceAs (Decidable (_ = _))
  | .writable _ | .ret => isTrue trivial
  | .readStart .. | .readStop | .closeRead | .closeWrite | .readable _ => isFalse not_false

instance (p : LoopyPipe) : ∀ a, Decidable (TakesAll p a)
  | .writeAsync .. => inferInstanceAs (Decidable (_ ∨ _))
  | .writable _ | .ret => inferInstanceAs (Decidable (_ → _))
  | .readStart .. | .readStop | .closeRead | .closeWrite | .readable _ => isTrue trivial

/-! ## The record of the calls -/

/-- The part of the state that the promise is about. -/
structure WriteInv (p : LoopyPipe) : Prop where
  taken : ∀ c ∈ p.asyncCalls, c.taken ≤ c.buf.length
  kernel : p.kernel = (p.asyncCalls.map fun c => c.buf.take c.taken).flatten
  called : ∀ n ∈ p.called, ∃ c, p.asyncCalls[n]? = some c ∧ c.cb ≠ 0
  waiting : ∀ n ∈ p.waiting, ∃ c, p.asyncCalls[n]? = some c ∧ c.cb = p.writeCallback
  noCallback : p.waiting = none → p.writeCallback = 0
  writeFd : p.writeFd ≥ 0 → p.writeFd = p.writeEnd
  registered : p.Awaits → (p.mask p.loop p.writeEnd).write = true

/-- Nothing is lost so far: every buffer has been taken, and every callback has been called once or
is the one that waits. -/
structure Clean (p : LoopyPipe) : Prop where
  whole : ∀ c ∈ p.asyncCalls, c.taken = c.buf.length
  kept : ∀ n c, p.asyncCalls[n]? = some c → c.cb ≠ 0 → n ∈ p.called ∨ p.waiting = some n
  once : p.called.Nodup

variable {p : LoopyPipe} {α : Type*} {n : ℕ}

theorem Created.writeInv (h : Created p) : WriteInv p := by
  cases h <;> exact ⟨nofun, rfl, nofun, nofun, fun _ => rfl, by first | exact fun _ => rfl | nofun,
    fun hawaits => absurd rfl hawaits.1⟩

theorem Created.clean (h : Created p) : Clean p := by
  cases h <;> exact ⟨nofun, nofun, List.nodup_nil⟩

/-! ## One step -/

/-- The entries of a list that has been extended. -/
theorem getElem?_concat {l : List α} {x y : α} :
    (l ++ [x])[n]? = some y ↔ l[n]? = some y ∨ n = l.length ∧ y = x := by
  rcases lt_trichotomy n l.length with hn | hn | hn
  · rw [List.getElem?_append_left hn]
    exact ⟨.inl, fun h => h.resolve_right fun hlast => absurd hlast.1 (by omega)⟩
  · rw [hn, List.getElem?_concat_length, List.getElem?_eq_none (Nat.le_refl _)]
    constructor
    · intro h
      exact .inr ⟨rfl, (Option.some.inj h).symm⟩
    · rintro (h | ⟨-, rfl⟩)
      · cases h
      · rfl
  · have hlong : (l ++ [x]).length ≤ n := by
      rw [List.length_append, List.length_singleton]
      omega
    rw [List.getElem?_eq_none hlong, List.getElem?_eq_none (Nat.le_of_lt hn)]
    exact ⟨nofun, fun h => h.elim nofun fun hlast => absurd hlast.1 (by omega)⟩

theorem exists_concat {l : List α} {x : α} {P : α → Prop} (h : ∃ c, l[n]? = some c ∧ P c) :
    ∃ c, (l ++ [x])[n]? = some c ∧ P c := by
  obtain ⟨c, hc, hP⟩ := h
  exact ⟨c, getElem?_concat.mpr (.inl hc), hP⟩

theorem forall_mem_concat {l : List α} {x : α} {P : α → Prop} :
    (∀ c ∈ l ++ [x], P c) ↔ (∀ c ∈ l, P c) ∧ P x := by
  rw [List.forall_mem_append, List.forall_mem_singleton]

/-- What a step of the promise does to the record, and under which condition nothing is lost. -/
inductive Records (p : LoopyPipe) : Prop → LoopyPipe → Prop
  /-- Nothing is recorded. -/
  | keeps {p' : LoopyPipe} (asyncCalls : p'.asyncCalls = p.asyncCalls) (kernel : p'.kernel = p.kernel)
      (called : p'.called = p.called) (waiting : p'.waiting = p.waiting)
      (callback : p'.writeCallback = p.writeCallback) (mask : p'.mask = p.mask)
      (loop : p'.loop = p.loop) : Records p True p'
  /-- A buffer is taken, and the callback is called at once. -/
  | takes {p' : LoopyPipe} (buf : List UInt8) (cb : ℕ)
      (asyncCalls : p'.asyncCalls = p.asyncCalls ++ [⟨buf, cb, buf.length⟩])
      (kernel : p'.kernel = p.kernel ++ buf)
      (called : p'.called = p.called ++ if cb = 0 then [] else [p.asyncCalls.length])
      (waiting : p'.waiting = p.waiting) (callback : p'.writeCallback = p.writeCallback)
      (mask : p'.mask = p.mask) (loop : p'.loop = p.loop) : Records p True p'
  /-- A call waits for an event. -/
  | waits {p' : LoopyPipe} (buf : List UInt8) (cb taken : ℕ) (htaken : taken ≤ buf.length)
      (asyncCalls : p'.asyncCalls = p.asyncCalls ++ [⟨buf, cb, taken⟩])
      (kernel : p'.kernel = p.kernel ++ buf.take taken) (called : p'.called = p.called)
      (waiting : p'.waiting = some p.asyncCalls.length) (callback : p'.writeCallback = cb)
      (mask : (p'.mask p'.loop p.writeEnd).write = true) :
      Records p (taken = buf.length ∧ ¬ p.Awaits) p'
  /-- The callback that waits is called. -/
  | reports {p' : LoopyPipe} (n : ℕ) (hn : p.waiting = some n) (hcallback : p.writeCallback ≠ 0)
      (asyncCalls : p'.asyncCalls = p.asyncCalls) (kernel : p'.kernel = p.kernel)
      (called : p'.called = p.called ++ [n]) (waiting : p'.waiting = p.waiting)
      (callback : p'.writeCallback = p.writeCallback) : Records p (n ∉ p.called) p'
  /-- No callback waits any more. -/
  | clears {p' : LoopyPipe} (asyncCalls : p'.asyncCalls = p.asyncCalls) (kernel : p'.kernel = p.kernel)
      (called : p'.called = p.called) (waiting : p'.waiting = none)
      (callback : p'.writeCallback = 0) : Records p (¬ p.Awaits) p'

section records

variable {p p' t : LoopyPipe} {ok : Prop}

variable {n : ℕ} {calls : List AsyncCall}

theorem WriteInv.lt_length (h : WriteInv p) (hn : n ∈ p.called) : n < p.asyncCalls.length := by
  obtain ⟨c, hc, -⟩ := h.called n hn
  exact (List.getElem?_eq_some_iff.mp hc).1

theorem WriteInv.kernel_concat (h : WriteInv p) (c : AsyncCall) :
    p.kernel ++ c.buf.take c.taken =
      ((p.asyncCalls ++ [c]).map fun c => c.buf.take c.taken).flatten := by
  rw [List.map_append, List.flatten_append, ← h.kernel, List.map_singleton, List.flatten_singleton]

/-- The record keeps its invariant. -/
theorem WriteInv.records (h : WriteInv p) (hrec : Records p ok p')
    (hfd : p'.writeFd = p.writeFd) (hend : p'.writeEnd = p.writeEnd) : WriteInv p' := by
  have hwriteFd : p'.writeFd ≥ 0 → p'.writeFd = p'.writeEnd := by
    rw [hfd, hend]
    exact h.writeFd
  cases hrec with
  | keeps hcalls hkernel hcalled hwaiting hcallback hmask hloop =>
    refine ⟨?_, ?_, ?_, ?_, ?_, hwriteFd, ?_⟩
    · rw [hcalls]
      exact h.taken
    · rw [hkernel, hcalls]
      exact h.kernel
    · rw [hcalled, hcalls]
      exact h.called
    · rw [hwaiting, hcalls, hcallback]
      exact h.waiting
    · rw [hwaiting, hcallback]
      exact h.noCallback
    · unfold LoopyPipe.Awaits
      rw [hcallback, hwaiting, hcalled, hmask, hloop, hend]
      exact h.registered
  | takes buf cb hcalls hkernel hcalled hwaiting hcallback hmask hloop =>
    refine ⟨?_, ?_, ?_, ?_, ?_, hwriteFd, ?_⟩
    · rw [hcalls]
      exact forall_mem_concat.mpr ⟨h.taken, Nat.le_refl _⟩
    · rw [hkernel, hcalls, ← h.kernel_concat, List.take_length]
    · rw [hcalled, hcalls]
      intro n hn
      rcases List.mem_append.mp hn with hn | hn
      · exact exists_concat (h.called n hn)
      · split_ifs at hn with hcb
        · cases hn
        · exact ⟨_, getElem?_concat.mpr (.inr ⟨List.mem_singleton.mp hn, rfl⟩), hcb⟩
    · rw [hwaiting, hcalls, hcallback]
      exact fun n hn => exists_concat (h.waiting n hn)
    · rw [hwaiting, hcallback]
      exact h.noCallback
    · unfold LoopyPipe.Awaits
      rw [hcallback, hwaiting, hcalled, hmask, hloop, hend]
      rintro ⟨hcb, n, hn, hnot⟩
      exact h.registered ⟨hcb, n, hn, fun hmem => hnot (List.mem_append_left _ hmem)⟩
  | waits buf cb taken htaken hcalls hkernel hcalled hwaiting hcallback hmask =>
    refine ⟨?_, ?_, ?_, ?_, ?_, hwriteFd, ?_⟩
    · rw [hcalls]
      exact forall_mem_concat.mpr ⟨h.taken, htaken⟩
    · rw [hkernel, hcalls, ← h.kernel_concat]
    · rw [hcalled, hcalls]
      exact fun n hn => exists_concat (h.called n hn)
    · rw [hwaiting, hcalls, hcallback]
      intro n hn
      exact ⟨_, getElem?_concat.mpr (.inr ⟨(Option.some.inj hn).symm, rfl⟩), rfl⟩
    · rw [hwaiting]
      exact nofun
    · rw [hend]
      exact fun _ => hmask
  | reports n hn hcb hcalls hkernel hcalled hwaiting hcallback =>
    refine ⟨?_, ?_, ?_, ?_, ?_, hwriteFd, ?_⟩
    · rw [hcalls]
      exact h.taken
    · rw [hkernel, hcalls]
      exact h.kernel
    · rw [hcalled, hcalls]
      intro m hm
      rcases List.mem_append.mp hm with hm | hm
      · exact h.called m hm
      · obtain ⟨c, hc, hcallback⟩ := h.waiting n hn
        rw [List.mem_singleton.mp hm]
        exact ⟨c, hc, by rw [hcallback]; exact hcb⟩
    · rw [hwaiting, hcalls, hcallback]
      exact h.waiting
    · rw [hwaiting, hcallback]
      exact h.noCallback
    · -- the callback that waits has been called now
      rintro ⟨-, m, hm, hnot⟩
      rw [hwaiting, hn] at hm
      obtain rfl := Option.some.inj hm
      rw [hcalled] at hnot
      exact absurd (List.mem_append_right _ List.mem_cons_self) hnot
  | clears hcalls hkernel hcalled hwaiting hcallback =>
    refine ⟨?_, ?_, ?_, ?_, ?_, hwriteFd, ?_⟩
    · rw [hcalls]
      exact h.taken
    · rw [hkernel, hcalls]
      exact h.kernel
    · rw [hcalled, hcalls]
      exact h.called
    · rw [hwaiting]
      exact nofun
    · exact fun _ => hcallback
    · exact fun hawaits => absurd hcallback hawaits.1

/-- The callback that waits is lost when another one takes its place. -/
theorem WriteInv.kept_of_called (h : WriteInv p) (hkept : ¬ p.Awaits) {c : AsyncCall}
    (hc : p.asyncCalls[n]? = some c) (hcb : c.cb ≠ 0) (hn : n ∈ p.called ∨ p.waiting = some n) :
    n ∈ p.called := by
  rcases hn with hn | hn
  · exact hn
  · by_contra hnot
    obtain ⟨d, hd, hcallback⟩ := h.waiting n hn
    rw [hc] at hd
    obtain rfl := Option.some.inj hd
    refine hkept ⟨?_, n, hn, hnot⟩
    rw [← hcallback]
    exact hcb

/-- A callback that waits is not called when something else waits. -/
theorem WriteInv.not_awaits (h : WriteInv p)
    (hcalled : ∀ n c, p.asyncCalls[n]? = some c → c.cb ≠ 0 → p.waiting = some n → n ∈ p.called) :
    ¬ p.Awaits := by
  rintro ⟨hcb, n, hn, hnot⟩
  obtain ⟨c, hc, hcallback⟩ := h.waiting n hn
  rw [← hcallback] at hcb
  exact hnot (hcalled n c hc hcb hn)

/-- What is clean, said of the parts of a state. -/
theorem clean_iff_of {called : List ℕ} {waiting : Option ℕ} (hcalls : p'.asyncCalls = calls)
    (hcalled : p'.called = called) (hwaiting : p'.waiting = waiting) :
    Clean p' ↔ (∀ c ∈ calls, c.taken = c.buf.length) ∧
      (∀ n c, calls[n]? = some c → c.cb ≠ 0 → n ∈ called ∨ waiting = some n) ∧ called.Nodup := by
  subst hcalls hcalled hwaiting
  exact ⟨fun h => ⟨h.whole, h.kept, h.once⟩, fun ⟨hwhole, hkept, honce⟩ => ⟨hwhole, hkept, honce⟩⟩

/-- Exactly under that condition nothing is lost. -/
theorem WriteInv.clean_iff (h : WriteInv p) (hrec : Records p ok p') :
    Clean p' ↔ Clean p ∧ ok := by
  cases hrec with
  | keeps hcalls hkernel hcalled hwaiting hcallback hmask hloop =>
    rw [and_true, clean_iff_of hcalls hcalled hwaiting, clean_iff_of rfl rfl rfl]
  | takes buf cb hcalls hkernel hcalled hwaiting hcallback hmask hloop =>
    have hnew : ∀ n ∈ p.called ++ (if cb = 0 then [] else [p.asyncCalls.length]),
        n ∈ p.called ∨ n = p.asyncCalls.length ∧ cb ≠ 0 := by
      intro n hn
      rcases List.mem_append.mp hn with hn | hn
      · exact .inl hn
      · split_ifs at hn with hcb
        · cases hn
        · exact .inr ⟨List.mem_singleton.mp hn, hcb⟩
    rw [and_true, clean_iff_of hcalls hcalled hwaiting, forall_mem_concat]
    constructor
    · rintro ⟨⟨hwhole, -⟩, hkept, honce⟩
      refine ⟨hwhole, fun n c hc hcb => ?_, (List.nodup_append.mp honce).1⟩
      rcases hkept n c (getElem?_concat.mpr (.inl hc)) hcb with hn | hn
      · -- the number of the new call is not that of an old one
        have hlt := (List.getElem?_eq_some_iff.mp hc).1
        exact .inl ((hnew n hn).resolve_right fun hlast => absurd hlast.1 (by omega))
      · exact .inr hn
    · rintro ⟨hwhole, hkept, honce⟩
      refine ⟨⟨hwhole, rfl⟩, fun n c hc hcb => ?_, ?_⟩
      · rcases getElem?_concat.mp hc with hc | ⟨rfl, rfl⟩
        · exact (hkept n c hc hcb).imp_left (List.mem_append_left _)
        · have hcb' : cb ≠ 0 := hcb
          rw [if_neg hcb']
          exact .inl (List.mem_append_right _ List.mem_cons_self)
      · split_ifs
        · rw [List.append_nil]
          exact honce
        · rw [← List.concat_eq_append]
          exact List.Nodup.concat (fun hmem => Nat.lt_irrefl _ (h.lt_length hmem)) honce
  | waits buf cb taken htaken hcalls hkernel hcalled hwaiting hcallback hmask =>
    rw [clean_iff_of hcalls hcalled hwaiting, forall_mem_concat]
    constructor
    · rintro ⟨⟨hwhole, htook⟩, hkept, honce⟩
      -- an older call whose callback has not been called has lost its place
      have hall : ∀ n c, p.asyncCalls[n]? = some c → c.cb ≠ 0 → n ∈ p.called := by
        intro n c hc hcb
        refine (hkept n c (getElem?_concat.mpr (.inl hc)) hcb).resolve_right fun hn => ?_
        have hlt := (List.getElem?_eq_some_iff.mp hc).1
        have hlast := Option.some.inj hn
        omega
      exact ⟨⟨hwhole, fun n c hc hcb => .inl (hall n c hc hcb), honce⟩, htook,
        h.not_awaits fun n c hc hcb _ => hall n c hc hcb⟩
    · rintro ⟨⟨hwhole, hkept, honce⟩, htook, hfree⟩
      refine ⟨⟨hwhole, htook⟩, fun n c hc hcb => ?_, honce⟩
      rcases getElem?_concat.mp hc with hc | ⟨rfl, rfl⟩
      · exact .inl (h.kept_of_called hfree hc hcb (hkept n c hc hcb))
      · exact .inr rfl
  | reports n hn hcb hcalls hkernel hcalled hwaiting hcallback =>
    have hnodup : (p.called ++ [n]).Nodup ↔ p.called.Nodup ∧ n ∉ p.called := by
      rw [← List.concat_eq_append, List.nodup_concat, and_comm]
    rw [clean_iff_of hcalls hcalled hwaiting, hnodup]
    constructor
    · rintro ⟨hwhole, hkept, honce, hnot⟩
      refine ⟨⟨hwhole, fun m c hc hcb => ?_, honce⟩, hnot⟩
      rcases hkept m c hc hcb with hm | hm
      · rcases List.mem_append.mp hm with hm | hm
        · exact .inl hm
        · rw [List.mem_singleton.mp hm]
          exact .inr hn
      · exact .inr hm
    · rintro ⟨⟨hwhole, hkept, honce⟩, hnot⟩
      exact ⟨hwhole, fun m c hc hcb => (hkept m c hc hcb).imp_left (List.mem_append_left _),
        honce, hnot⟩
  | clears hcalls hkernel hcalled hwaiting hcallback =>
    rw [clean_iff_of hcalls hcalled hwaiting]
    constructor
    · rintro ⟨hwhole, hkept, honce⟩
      have hall : ∀ n c, p.asyncCalls[n]? = some c → c.cb ≠ 0 → n ∈ p.called :=
        fun n c hc hcb => (hkept n c hc hcb).resolve_right nofun
      exact ⟨⟨hwhole, fun n c hc hcb => .inl (hall n c hc hcb), honce⟩,
        h.not_awaits fun n c hc hcb _ => hall n c hc hcb⟩
    · rintro ⟨⟨hwhole, hkept, honce⟩, hfree⟩
      exact ⟨hwhole, fun n c hc hcb => .inl (h.kept_of_called hfree hc hcb (hkept n c hc hcb)),
        honce⟩

/-- A step of the promise, with its record. -/
structure Recorded (p : LoopyPipe) (a : Action) (p' : LoopyPipe) : Prop where
  records : ∃ ok, Records p ok p' ∧ (TakesAll p a ↔ ok)
  writeFd : p'.writeFd = p.writeFd
  writeEnd : p'.writeEnd = p.writeEnd

theorem WriteInv.waits (h : WriteInv p) {loop : ℕ} (hfd : p.writeFd ≥ 0) {buf : List UInt8}
    {taken : ℕ} (htaken : taken ≤ buf.length) (cb userData : ℕ) :
    Records p (taken = buf.length ∧ ¬ p.Awaits)
      (p.waitForEvent loop buf cb userData taken true).2 := by
  have hmask : ((p.waitForEvent loop buf cb userData taken true).2.mask loop p.writeEnd).write =
      true := by
    rw [← h.writeFd hfd]
    show (Function.update p.mask loop (Function.update (p.mask loop) p.writeFd
      ((p.mask loop p.writeFd).union .WRITE)) loop p.writeFd).write = true
    rw [Function.update_self, Function.update_self]
    exact Bool.or_true _
  exact .waits buf cb taken htaken rfl rfl rfl rfl rfl hmask

theorem WriteInv.writeAsync (h : WriteInv p) (loop : ℕ) (buf : Option (List UInt8))
    (cb userData : ℕ) (written : Written) (hanswers : LoopyPipe.Answers buf written) :
    Recorded p (.writeAsync loop buf cb userData written true)
      (p.loopyPipeWriteAsync loop buf cb userData written true).2 := by
  have hkeeps : Records p True p := .keeps rfl rfl rfl rfl rfl rfl rfl
  unfold LoopyPipe.loopyPipeWriteAsync
  cases buf with
  | none => exact ⟨⟨True, hkeeps, iff_true_intro (.inr (.inr (.inl rfl)))⟩, rfl, rfl⟩
  | some buf =>
    dsimp only
    split_ifs with hloop hclosed
    · exact ⟨⟨True, hkeeps, iff_true_intro (.inl hloop)⟩, rfl, rfl⟩
    · exact ⟨⟨True, hkeeps, iff_true_intro (.inr (.inl hclosed))⟩, rfl, rfl⟩
    · have hfd : p.writeFd ≥ 0 := by omega
      cases written with
      | bytes taken =>
        dsimp only
        split_ifs with hwhole
        · subst hwhole
          refine ⟨⟨True, ?_, iff_true_intro (.inr (.inr (.inr (.inr (.inl rfl)))))⟩, ?_, ?_⟩
          · unfold LoopyPipe.report LoopyPipe.call LoopyPipe.took
            split_ifs with hcb
            · refine .takes buf cb rfl ?_ ?_ rfl rfl rfl rfl
              · exact congrArg (p.kernel ++ ·) (List.take_length ..)
              · rw [if_pos hcb, List.append_nil]
            · refine .takes buf cb rfl ?_ ?_ rfl rfl rfl rfl
              · exact congrArg (p.kernel ++ ·) (List.take_length ..)
              · rw [if_neg hcb]
                rfl
          all_goals
            unfold LoopyPipe.report LoopyPipe.call LoopyPipe.took
            split_ifs <;> rfl
        · refine ⟨⟨_, h.waits hfd hanswers cb userData, ?_⟩, rfl, rfl⟩
          -- a short write is none of the cases
          constructor
          · rintro (hnull | hneg | hbuf | herror | hall | ⟨-, hagain, -⟩)
            · exact absurd hnull hloop
            · exact absurd hneg hclosed
            · cases hbuf
            · cases herror
            · exact absurd (Written.bytes.inj hall) hwhole
            · cases hagain
          · rintro ⟨htook, -⟩
            exact absurd htook hwhole
      | again =>
        refine ⟨⟨_, h.waits hfd (Nat.zero_le _) cb userData, ?_⟩, rfl, rfl⟩
        constructor
        · rintro (hnull | hneg | hbuf | herror | hall | ⟨hempty, -, hfree⟩)
          · exact absurd hnull hloop
          · exact absurd hneg hclosed
          · cases hbuf
          · cases herror
          · cases hall
          · rw [Option.some.inj hempty]
            exact ⟨rfl, hfree⟩
        · rintro ⟨hempty, hfree⟩
          have hnil : buf = [] := List.eq_nil_of_length_eq_zero hempty.symm
          exact .inr (.inr (.inr (.inr (.inr ⟨congrArg some hnil, rfl, hfree⟩))))
      | error =>
        refine ⟨⟨True, ?_, iff_true_intro (.inr (.inr (.inr (.inl rfl))))⟩, ?_, ?_⟩ <;>
        · unfold LoopyPipe.call
          dsimp only
          split_ifs
          all_goals first | exact .keeps rfl rfl rfl rfl rfl rfl rfl | rfl

theorem WriteInv.writable (h : WriteInv p) (loop : ℕ) :
    Recorded p (.writable loop) p.pipeWriteEventCallback := by
  -- what the loop watches is not recorded
  obtain ⟨mask, hmask⟩ : ∃ mask, (if p.loop ≠ 0 ∧ p.writeFd ≥ 0 then
      p.loopyUnregisterWrite p.loop p.writeFd else p) = { p with mask := mask } := by
    split_ifs
    · exact ⟨_, rfl⟩
    · exact ⟨p.mask, rfl⟩
  unfold LoopyPipe.pipeWriteEventCallback LoopyPipe.report LoopyPipe.call
  dsimp only
  rw [hmask]
  dsimp only
  by_cases hcb : p.writeCallback = 0
  · rw [if_pos hcb]
    refine ⟨⟨_, .clears rfl rfl rfl rfl rfl, ?_⟩, rfl, rfl⟩
    exact ⟨fun _ hawaits => hawaits.1 hcb, fun _ hne => absurd hcb hne⟩
  · rw [if_neg hcb, if_neg hcb, if_neg hcb]
    obtain ⟨n, hn⟩ := Option.ne_none_iff_exists'.mp fun hnone => hcb (h.noCallback hnone)
    refine ⟨⟨_, .reports n hn hcb rfl rfl ?_ rfl rfl, ?_⟩, rfl, rfl⟩
    · dsimp only
      rw [hn]
      rfl
    · constructor
      · intro hawaits
        obtain ⟨-, m, hm, hnot⟩ := hawaits hcb
        rw [hn] at hm
        rw [Option.some.inj hm]
        exact hnot
      · exact fun hnot _ => ⟨hcb, n, hn, hnot⟩

theorem WriteInv.recorded {a : Action} (h : WriteInv p) (ha : OnlyWrites a)
    (hstep : p.step a = some p') : Recorded p a p' := by
  cases a with
  | readStart | readStop | closeRead | closeWrite | readable => cases ha
  | writeAsync loop buf cb userData written register =>
    obtain rfl : register = true := ha
    obtain ⟨hanswers, rfl⟩ := of_guard hstep
    exact h.writeAsync loop buf cb userData written hanswers
  | writable loop =>
    obtain ⟨-, rfl⟩ := of_guard hstep
    exact h.writable loop
  | ret =>
    rw [LoopyPipe.step] at hstep
    have htakes : TakesAll p .ret ↔ (p.frames.head? = some .pipeWriteEventCallback → ¬ p.Awaits) :=
      Iff.rfl
    cases hframes : p.frames with
    | nil =>
      rw [hframes] at hstep
      cases hstep
    | cons frame frames =>
      rw [hframes, List.head?_cons] at htakes
      rw [hframes] at hstep
      cases frame <;> cases hstep
      · exact ⟨⟨True, .keeps rfl rfl rfl rfl rfl rfl rfl, htakes.trans (iff_true_intro nofun)⟩,
          rfl, rfl⟩
      · exact ⟨⟨True, .keeps rfl rfl rfl rfl rfl rfl rfl, htakes.trans (iff_true_intro nofun)⟩,
          rfl, rfl⟩
      · exact ⟨⟨_, .clears rfl rfl rfl rfl rfl, htakes.trans (forall_prop_of_true rfl)⟩, rfl, rfl⟩

/-! ## The promise of a record -/

/-- Buffers that have been taken as a whole. -/
theorem WriteInv.bytes_of_whole (h : WriteInv p) (hwhole : ∀ c ∈ p.asyncCalls, c.taken = c.buf.length) :
    p.kernel = (p.asyncCalls.map AsyncCall.buf).flatten := by
  rw [h.kernel]
  refine congrArg List.flatten (List.map_congr_left fun c hc => ?_)
  rw [hwhole c hc, List.take_length]

/-- If as many bytes have been taken as the buffers have, each buffer has been taken as a whole. -/
theorem whole_of_length (htaken : ∀ c ∈ calls, c.taken ≤ c.buf.length)
    (hlength : (calls.map AsyncCall.buf).flatten.length ≤
      (calls.map fun c => c.buf.take c.taken).flatten.length) :
    ∀ c ∈ calls, c.taken = c.buf.length := by
  have hle (l : List AsyncCall) : (l.map fun c => c.buf.take c.taken).flatten.length ≤
      (l.map AsyncCall.buf).flatten.length := by
    induction l with
    | nil => exact Nat.le_refl _
    | cons c l ih =>
      simp only [List.map_cons, List.flatten_cons, List.length_append, List.length_take]
      omega
  induction calls with
  | nil => exact nofun
  | cons c calls ih =>
    have hc := htaken c List.mem_cons_self
    have hrest := hle calls
    simp only [List.map_cons, List.flatten_cons, List.length_append, List.length_take] at hlength
    intro d hd
    rcases List.mem_cons.mp hd with rfl | hd
    · omega
    · exact ih (fun d hd => htaken d (List.mem_cons_of_mem c hd)) (by omega) d hd

/-- Where nothing is lost the promise is kept. -/
theorem Clean.complete (h : Clean p) (hinv : WriteInv p) : Complete p where
  atMostOnce n := List.nodup_iff_count_le_one.mp h.once n
  once hsettled n c hc hcb := by
    -- a callback that waits would be called by an event
    have hfree : ¬ p.Awaits := by
      intro hawaits
      have hwatched := hinv.registered hawaits
      rw [hsettled p.loop] at hwatched
      cases hwatched
    exact List.count_eq_one_of_mem h.once (hinv.kept_of_called hfree hc hcb (h.kept n c hc hcb))
  whole n hn := by
    obtain ⟨c, hc, -⟩ := hinv.called n hn
    exact ⟨c, hc, h.whole c (List.mem_of_getElem? hc)⟩
  bytes := hinv.bytes_of_whole h.whole

/-- Where no event can come any more the promise is kept only if nothing has been lost. -/
theorem Complete.clean (h : Complete p) (hinv : WriteInv p) (hsettled : p.Settled) : Clean p where
  whole := by
    refine whole_of_length hinv.taken (Nat.le_of_eq ?_)
    rw [← hinv.kernel, h.bytes]
  kept n c hc hcb := by
    have hcount := h.once hsettled n c hc hcb
    exact .inl (List.count_pos_iff.mp (by omega))
  once := List.nodup_iff_count_le_one.mpr h.atMostOnce

/-- **Asynchronous writes are complete** in every state of a run in which `write` takes every buffer
as a whole and no callback loses its place; and a run in which no event can come any more has kept
the promise only if it is one of these. -/
theorem writes_complete_iff {as : List Action} (hp : Created p)
    (h : Run LoopyPipe.step (fun _ a => OnlyWrites a) p as t) :
    (Run LoopyPipe.step (fun p a => OnlyWrites a ∧ TakesAll p a) p as t → Complete t) ∧
    (t.Settled → Complete t →
      Run LoopyPipe.step (fun p a => OnlyWrites a ∧ TakesAll p a) p as t) := by
  have hkeep : ∀ p a p', WriteInv p → OnlyWrites a → LoopyPipe.step p a = some p' →
      WriteInv p' := by
    intro p a p' hinv ha hstep
    obtain ⟨⟨ok, hrec, -⟩, hfd, hend⟩ := hinv.recorded ha hstep
    exact hinv.records hrec hfd hend
  have hclean : Clean t ↔ Run LoopyPipe.step (fun p a => OnlyWrites a ∧ TakesAll p a) p as t := by
    refine h.clean_iff_within hkeep ?_ hp.writeInv hp.clean
    intro p a p' hinv ha hstep
    obtain ⟨⟨ok, hrec, hok⟩, -, -⟩ := hinv.recorded ha hstep
    rw [hok]
    exact hinv.clean_iff hrec
  have hinv : WriteInv t := h.invariant hkeep hp.writeInv
  exact ⟨fun hrun => (hclean.mpr hrun).complete hinv,
    fun hsettled hcomplete => hclean.mp (hcomplete.clean hinv hsettled)⟩

end records

/-- One write is taken as a whole, and one of nothing has to wait. -/
theorem writes_complete_iff_whole :
    ∃ p as t, Created p ∧ as = [.writeAsync 1 (some [1, 2]) 8 0 (.bytes 2) true, .ret,
      .writeAsync 1 (some []) 9 0 .again true, .writable 1, .ret] ∧
      Run LoopyPipe.step (fun _ a => OnlyWrites a) p as t ∧ t.kernel = [1, 2] ∧ Complete t := by
  obtain ⟨t, hrun, ht⟩ : ∃ t, Run LoopyPipe.step (fun p a => OnlyWrites a ∧ TakesAll p a)
      (.of 3 4 3 4) [.writeAsync 1 (some [1, 2]) 8 0 (.bytes 2) true, .ret,
        .writeAsync 1 (some []) 9 0 .again true, .writable 1, .ret] t ∧ t.kernel = [1, 2] :=
    Run.of_exec_map (by decide)
  have hp : Created (.of 3 4 3 4) := .pair 3 4 (by decide)
  have hbase : Run LoopyPipe.step (fun _ a => OnlyWrites a) _ _ t := hrun.mono fun _ _ hok => hok.1
  exact ⟨_, _, t, hp, rfl, hbase, ht, (writes_complete_iff hp hbase).1 hrun⟩

/-- Of three bytes `write` takes one, and the event reports success. -/
theorem writes_not_complete :
    ∃ p as t, Created p ∧ as = [.writeAsync 1 (some [1, 2, 3]) 8 0 (.bytes 1) true, .writable 1,
      .ret] ∧ Run LoopyPipe.step (fun _ a => OnlyWrites a) p as t ∧ t.called = [0] ∧
      t.kernel = [1] ∧ ¬ Complete t := by
  obtain ⟨t, hrun, ht⟩ : ∃ t, Run LoopyPipe.step (fun _ a => OnlyWrites a) (.of 3 4 3 4)
      [.writeAsync 1 (some [1, 2, 3]) 8 0 (.bytes 1) true, .writable 1, .ret] t ∧
      (t.called, t.kernel, t.asyncCalls) = ([0], [1], [⟨[1, 2, 3], 8, 1⟩]) :=
    Run.of_exec_map (by decide)
  obtain ⟨hcalled, hrest⟩ := Prod.mk.inj ht
  obtain ⟨hkernel, hcalls⟩ := Prod.mk.inj hrest
  refine ⟨_, _, t, .pair 3 4 (by decide), rfl, hrun, hcalled, hkernel, fun hcomplete => ?_⟩
  have hbytes := hcomplete.bytes
  rw [hkernel, hcalls] at hbytes
  exact absurd hbytes (by decide)

end Loopy.Pipe
