import Loopy.IoUring.Theorems

/-!
# Each completion is consumed once

The completion loop works on a private copy of the head of the completion queue, which it
publishes when it ends. A completion loop entered in the meantime, by a completion callback
that polls, starts from the head published last and reads the same entries again. Where that
does not happen (`NoReentry`), entries are read once and in order, and the published head
never moves back.

The invariant `ConsumedOk` counts the entries read so far: they are the published ones while
no completion loop runs, and those up to its private head while one does (`Stage`).
-/

namespace Loopy.IoUring

open Loopy.EventLoop Loopy.Lib Loopy.Epoll

/-! ## What has been consumed -/

/-- The completion loops on a stack. -/
def pollsOn (fs : List Frame) : List Poll :=
  fs.filterMap fun f => match f with
    | .poll p => some p
    | _ => none

/-- The positions of the queue that were read, in the order they were. -/
def positions (events : List Event) : List ℕ :=
  events.reverse.filterMap fun e => match e with
    | .processed pos _ => some pos
    | _ => none

/-- The entries that were read, in the order they were. -/
def readCqes (events : List Event) : List Cqe :=
  events.reverse.filterMap fun e => match e with
    | .processed _ cqe => some cqe
    | _ => none

/-- The heads that were published, in the order they were. -/
def heads (events : List Event) : List ℕ :=
  events.reverse.filterMap fun e => match e with
    | .published head => some head
    | _ => none

/-- The completion belongs to the operation. -/
def Cqe.isOf (id : ℕ) (cqe : Cqe) : Bool := isFileOp cqe.userData && fileOpId cqe.userData == id

/-- How often a callback of the operation was called. -/
def callbacks (id : ℕ) (events : List Event) : ℕ :=
  events.countP fun e => match e with
    | .completed _ _ i (some _) => i == id
    | _ => false

/-- Every entry of the queue was read at most once and in order, all published ones were,
the published head never moved back, and an operation with one completion had one callback
at most. -/
def ConsumedOnce (m : Machine) : Prop :=
  ∃ u k, m.loop.state = some u ∧ positions m.events = List.range k ∧
    readCqes m.events = u.kernel.cq.take k ∧ (pollsOn m.frames = [] → k = u.cqHead) ∧
    (heads m.events).Pairwise (· ≤ ·) ∧
    ∀ id, u.kernel.cq.countP (Cqe.isOf id) ≤ 1 → callbacks id m.events ≤ 1

section

variable (e : Event) (es : List Event) (f : Frame) (fs : List Frame)

theorem positions_cons : positions (e :: es) = positions es ++ positions [e] := by
  simp [positions]

theorem readCqes_cons : readCqes (e :: es) = readCqes es ++ readCqes [e] := by
  simp [readCqes]

theorem heads_cons : heads (e :: es) = heads es ++ heads [e] := by simp [heads]

theorem callbacks_cons (id : ℕ) : callbacks id (e :: es) = callbacks id es + callbacks id [e] := by
  simp only [callbacks, List.countP_cons, List.countP_nil]
  omega

@[simp] theorem pollsOn_poll (p : Poll) : pollsOn (.poll p :: fs) = p :: pollsOn fs := rfl

@[simp] theorem pollsOn_pool (p : PoolCall) : pollsOn (.pool p :: fs) = pollsOn fs := rfl

@[simp] theorem pollsOn_callback (call : Invocation) : pollsOn (.callback call :: fs) = pollsOn fs :=
  rfl

end

variable {fs : List Frame} {u u' : IoUringState} {k : ℕ} {ps : List Poll} {p : Poll}
  {m m' : Machine} {cqe : Cqe}

theorem Machine.PollStack.pollsOn_eq {gs : List Frame} (h : PollStack fs gs) :
    pollsOn gs = pollsOn fs := by
  cases h with
  | user => rfl
  | pool => rfl

/-! ## The invariant -/

/-- The position behind the entries an activation has read. -/
def Poll.next (p : Poll) : ℕ :=
  match p.pc with
  | .loop => p.head
  | .returned _ _ _ => p.head + 1

/-- Where the completion loop is when `k` entries were read: at most one runs, and the head
published last is behind it. -/
inductive Stage (u : IoUringState) (k : ℕ) : List Poll → Prop
  | idle (hk : k = u.cqHead) (hlen : k ≤ u.kernel.cq.length) : Stage u k []
  | running {p : Poll} (hhead : u.cqHead ≤ p.head) (hk : p.next = k) (hk' : k ≤ p.tail)
      (hlen : p.tail ≤ u.kernel.cq.length) : Stage u k [p]

/-- What holds when `k` entries were read. -/
structure ConsumedOk (m : Machine) (u : IoUringState) (k : ℕ) : Prop where
  state : m.loop.state = some u
  positions : positions m.events = List.range k
  cqes : readCqes m.events = u.kernel.cq.take k
  stage : Stage u k (pollsOn m.frames)
  heads : (heads m.events).Pairwise (· ≤ ·)
  heads_le : ∀ h ∈ IoUring.heads m.events, h ≤ u.cqHead
  calls : ∀ id, callbacks id m.events ≤ (readCqes m.events).countP (Cqe.isOf id)

theorem Stage.le_length (h : Stage u k ps) : k ≤ u.kernel.cq.length := by
  cases h with
  | idle _ hlen => exact hlen
  | running _ _ hk' hlen => exact hk'.trans hlen

theorem Stage.quiet (h : Stage u k ps) (hq : Quiet u u') : Stage u' k ps := by
  have hlen := hq.cq_length
  cases h with
  | idle hk hk' => exact .idle (hk.trans hq.cqHead.symm) (hk'.trans hlen)
  | running hhead hk hk' htail =>
    exact .running (by rw [hq.cqHead]; exact hhead) hk hk' (htail.trans hlen)

/-- The activation that is innermost is the only one. -/
theorem Stage.poll (h : Stage u k (p :: ps)) :
    ps = [] ∧ u.cqHead ≤ p.head ∧ p.next = k ∧ k ≤ p.tail ∧ p.tail ≤ u.kernel.cq.length := by
  cases h with
  | running h1 h2 h3 h4 => exact ⟨rfl, h1, h2, h3, h4⟩

/-- An event that is no matter of consumption. -/
def Event.Aside (e : Event) : Prop :=
  IoUring.positions [e] = [] ∧ readCqes [e] = [] ∧ IoUring.heads [e] = [] ∧
    ∀ id, callbacks id [e] = 0

/-- A step that touches neither the consumer's side nor its record. -/
theorem ConsumedOk.aside (h : ConsumedOk m u k) (hs : m'.loop.state = some u') (hq : Quiet u u')
    (hfs : pollsOn m'.frames = pollsOn m.frames)
    (hev : m'.events = m.events ∨ ∃ e : Event, e.Aside ∧ m'.events = e :: m.events) :
    ConsumedOk m' u' k := by
  have htake : u'.kernel.cq.take k = u.kernel.cq.take k := by
    obtain ⟨rest, hrest⟩ := hq.cq
    rw [← hrest, List.take_append_of_le_length h.stage.le_length]
  have hrecord : IoUring.positions m'.events = IoUring.positions m.events ∧
      readCqes m'.events = readCqes m.events ∧ IoUring.heads m'.events = IoUring.heads m.events ∧
      ∀ id, callbacks id m'.events = callbacks id m.events := by
    rcases hev with hev | ⟨e, ⟨h1, h2, h3, h4⟩, hev⟩
    · rw [hev]
      exact ⟨rfl, rfl, rfl, fun _ => rfl⟩
    · rw [hev, positions_cons, readCqes_cons, heads_cons, h1, h2, h3]
      refine ⟨List.append_nil _, List.append_nil _, List.append_nil _, fun id => ?_⟩
      rw [callbacks_cons, h4 id, Nat.add_zero]
  obtain ⟨h1, h2, h3, h4⟩ := hrecord
  refine ⟨hs, h1.trans h.positions, ?_, ?_, h3 ▸ h.heads, ?_, fun id => ?_⟩
  · rw [h2, htake]; exact h.cqes
  · rw [hfs]; exact h.stage.quiet hq
  · rw [h3, hq.cqHead]; exact h.heads_le
  · rw [h4 id, h2]; exact h.calls id

/-- The completion loop reads its next entry. -/
theorem ConsumedOk.read (h : ConsumedOk m u k) (hr : m.Reads u p cqe fs) (p' : Poll)
    (new : List Event) (hs : m'.loop.state = some u') (hq : Quiet u u')
    (hfs : pollsOn m'.frames = p' :: pollsOn fs) (hnext : p'.next = p.head + 1)
    (hhead : p.head ≤ p'.head) (htail : p'.tail = p.tail)
    (hev : m'.events = new ++ .processed p.head cqe :: m.events)
    (hpos : IoUring.positions new = []) (hcqes : readCqes new = [])
    (hheads : IoUring.heads new = [])
    (hcalls : ∀ id, callbacks id new ≤ if cqe.isOf id then 1 else 0) :
    ConsumedOk m' u' (k + 1) := by
  have hstage := h.stage
  rw [hr.frames, pollsOn_poll] at hstage
  obtain ⟨hnil, hle, hk, hkt, hlen⟩ := hstage.poll
  have hk' : p.head = k := by rw [← hk, Poll.next, hr.pc]
  have hlt : p.head < p.tail := by have := hr.more; omega
  have hget : u'.kernel.cq[k]? = some cqe := by
    obtain ⟨rest, hrest⟩ := hq.cq
    have hklen : k < u.kernel.cq.length := by omega
    rw [← hrest, List.getElem?_append_left hklen, ← hk']
    exact hr.cqe
  have htake : u'.kernel.cq.take k = u.kernel.cq.take k := by
    obtain ⟨rest, hrest⟩ := hq.cq
    rw [← hrest, List.take_append_of_le_length (by omega)]
  -- the record before, the entry, and what the step adds to it
  have happend : ∀ {β : Type} (f : Event → Option β), m'.events.reverse.filterMap f =
      m.events.reverse.filterMap f ++ (f (.processed p.head cqe)).toList ++
        new.reverse.filterMap f := by
    intro β f
    rw [hev]
    simp [List.filterMap_append, List.filterMap_cons]
    cases f (.processed p.head cqe) <;> simp
  have hpositions : IoUring.positions m'.events = List.range (k + 1) := by
    have hnew : IoUring.positions m'.events = IoUring.positions m.events ++ [p.head] ++
      IoUring.positions new := happend _
    rw [hnew, hpos, h.positions, hk', List.append_nil, List.range_succ]
  have hread : readCqes m'.events = readCqes m.events ++ [cqe] := by
    have hnew : readCqes m'.events = readCqes m.events ++ [cqe] ++ readCqes new := happend _
    rw [hnew, hcqes, List.append_nil]
  have hsame : IoUring.heads m'.events = IoUring.heads m.events := by
    have hnew : IoUring.heads m'.events = IoUring.heads m.events ++ [] ++ IoUring.heads new :=
      happend _
    rw [hnew, hheads, List.append_nil, List.append_nil]
  refine ⟨hs, hpositions, ?_, ?_, hsame ▸ h.heads, ?_, fun id => ?_⟩
  · rw [hread, h.cqes, ← htake, List.take_add_one, hget]
    rfl
  · rw [hfs, hnil]
    refine .running ?_ (hnext.trans (by rw [hk'])) ?_ ?_
    · rw [hq.cqHead]; omega
    · rw [htail]; omega
    · rw [htail]
      exact hlen.trans hq.cq_length
  · rw [hsame, hq.cqHead]; exact h.heads_le
  · have hcall := hcalls id
    have hold := h.calls id
    have hcount : callbacks id m'.events = callbacks id new + callbacks id m.events := by
      rw [hev]
      simp [callbacks, List.countP_append]
    rw [hcount, hread, List.countP_append, List.countP_singleton]
    omega

/-! ## The machine -/

/-- No completion loop is entered while another one runs: a poll made meanwhile fails in its
`io_uring_enter`. -/
def NoReentry (m : Machine) : Input → Prop
  | .poll .ok | .poll .soft => pollsOn m.frames = []
  | _ => True

instance (m : Machine) : (i : Input) → Decidable (NoReentry m i)
  | .poll .ok | .poll .soft => inferInstanceAs (Decidable (pollsOn m.frames = []))
  | .poll .hard | .go _ | .call _ | .ret | .ready _ _ | .failed _ _ | .complete _ _ _ =>
    isTrue trivial

/-- The completion loop is entered, no other one running. -/
theorem ConsumedOk.entered (h : ConsumedOk m u k) (hidle : pollsOn m.frames = [])
    (hq : Quiet u u') (hfs : Machine.PollStack m.frames fs) :
    ConsumedOk ((m.withState u').withFrames (.poll ⟨u'.cqHead, u'.kernel.cq.length, 0, .loop⟩ :: fs))
      u' k := by
  have hbase : ConsumedOk (m.withState u') u' k := h.aside rfl hq rfl (Or.inl rfl)
  have hstage := h.stage
  rw [hidle] at hstage
  refine ⟨rfl, hbase.positions, hbase.cqes, ?_, hbase.heads, hbase.heads_le, hbase.calls⟩
  show Stage u' k (_ :: pollsOn fs)
  rw [hfs.pollsOn_eq, hidle]
  cases hstage with
  | idle hk hlen =>
    refine .running le_rfl ?_ (hlen.trans hq.cq_length) le_rfl
    rw [hk, ← hq.cqHead]
    rfl

/-- The callback of a completion is the one of the operation the completion belongs to. -/
theorem completed_isOf {fileOp : SlotPtr} (pos : ℕ) (call : Option Invocation)
    (hfile : isFileOp cqe.userData = true)
    (hfind : ioUringFileOpFind u.fileState (fileOpId cqe.userData) = some fileOp) (id : ℕ) :
    callbacks id [.completed pos cqe (u.fileState.load fileOp).id call] ≤
      if cqe.isOf id then 1 else 0 := by
  obtain ⟨-, -, -, hid⟩ := ioUringFileOpFind_inv hfind
  rw [fileOpId_fileOpId] at hid
  unfold Cqe.isOf
  rw [hfile, Bool.true_and, hid]
  by_cases heq : fileOpId cqe.userData = id
  · rw [if_pos (beq_iff_eq.mpr heq)]
    exact List.countP_le_length
  · rw [if_neg (by simpa using heq)]
    cases call <;> simp [callbacks, heq]

/-- The loop has ended: the head it has come to is published. -/
theorem ConsumedOk.published (h : ConsumedOk m u k) (hf : m.frames = .poll p :: fs)
    (hpc : p.pc = .loop) :
    ConsumedOk (((m.withState { u with cqHead := p.head }).emit (.published p.head)).withFrames fs)
      { u with cqHead := p.head } k := by
  have hstage := h.stage
  rw [hf, pollsOn_poll] at hstage
  obtain ⟨hnil, hle, hk, hkt, hlen⟩ := hstage.poll
  have hk' : p.head = k := by rw [← hk, Poll.next, hpc]
  refine ⟨rfl, ?_, ?_, ?_, ?_, ?_, fun id => ?_⟩
  · show IoUring.positions (.published p.head :: m.events) = _
    rw [positions_cons, h.positions]
    exact List.append_nil _
  · show readCqes (.published p.head :: m.events) = _
    rw [readCqes_cons, h.cqes]
    exact List.append_nil _
  · show Stage _ k (pollsOn fs)
    rw [hnil]
    exact .idle hk'.symm (hkt.trans hlen)
  · show (IoUring.heads (.published p.head :: m.events)).Pairwise _
    rw [heads_cons, List.pairwise_append]
    refine ⟨h.heads, List.pairwise_singleton _ _, fun a ha b hb => ?_⟩
    rw [List.mem_singleton.mp hb]
    exact (h.heads_le a ha).trans hle
  · intro a ha
    have ha' : a ∈ IoUring.heads (.published p.head :: m.events) := ha
    rw [heads_cons] at ha'
    rcases List.mem_append.mp ha' with ha' | ha'
    · exact (h.heads_le a ha').trans hle
    · exact (List.mem_singleton.mp ha').le
  · show callbacks id (.published p.head :: m.events) ≤
      (readCqes (.published p.head :: m.events)).countP _
    rw [callbacks_cons, readCqes_cons, List.countP_append]
    exact Nat.add_le_add (h.calls id) (Nat.zero_le _)

/-- The callback has returned: the loop goes on behind its completion. -/
theorem ConsumedOk.returned {fileOp : SlotPtr} {after : After} (h : ConsumedOk m u k)
    (hf : m.frames = .poll p :: fs) (hpc : p.pc = .returned fileOp after cqe) :
    ConsumedOk (((m.withState { u with fileState := u.fileState.finish fileOp after }).emit
        (.consumed p.head cqe)).withFrames
        (.poll { p with head := p.head + 1, pc := .loop } :: fs))
      { u with fileState := u.fileState.finish fileOp after } k := by
  have hstage := h.stage
  rw [hf, pollsOn_poll] at hstage
  obtain ⟨hnil, hle, hk, hkt, hlen⟩ := hstage.poll
  have hk' : p.head + 1 = k := by rw [← hk, Poll.next, hpc]
  have hbase : ConsumedOk (((m.withState { u with
      fileState := u.fileState.finish fileOp after }).emit (.consumed p.head cqe))) _ k :=
    h.aside rfl (u.withFileState_quiet _) rfl (Or.inr ⟨_, ⟨rfl, rfl, rfl, fun _ => rfl⟩, rfl⟩)
  refine ⟨rfl, hbase.positions, hbase.cqes, ?_, hbase.heads, hbase.heads_le, hbase.calls⟩
  show Stage _ k (_ :: pollsOn fs)
  rw [hnil]
  exact .running (hle.trans (Nat.le_succ _)) hk' hkt hlen

open Machine in
theorem ConsumedOk.step {i : Input} (h : ConsumedOk m u k) (hok : NoReentry m i)
    (hstep : m.step i = some m') : ∃ u' k', ConsumedOk m' u' k' := by
  obtain ⟨u₀, hs₀, htrans⟩ := step_inv hstep
  obtain rfl := Option.some.inj (h.state.symm.trans hs₀)
  have hpost : ∀ (v : IoUringState) (f : Kernel → Kernel), v.kernel.cq <+: (f v.kernel).cq →
      Quiet v (v.onKernel f) := fun v f hf => ⟨hf, rfl⟩
  cases htrans with
  | ready hp hne hsub =>
    exact ⟨_, k, h.aside rfl (hpost u _ (List.prefix_append _ _)) rfl
      (Or.inr ⟨_, ⟨rfl, rfl, rfl, fun _ => rfl⟩, rfl⟩)⟩
  | failed hp herr hne =>
    exact ⟨_, k, h.aside rfl (hpost u _ (List.prefix_append _ _)) rfl (Or.inl rfl)⟩
  | complete => exact ⟨_, k, h.aside rfl (hpost u _ (List.prefix_append _ _)) rfl (Or.inl rfl)⟩
  | table hu he =>
    obtain ⟨u', hs', hspares⟩ := tableEffect_spares h.state he
    exact ⟨u', k, h.aside hs' hspares.toQuiet rfl (Or.inl rfl)⟩
  | @submit r addr ok hu =>
    refine ⟨(u.submitRequest addr ok r).2, k, h.aside ?_ (u.submitRequest_quiet addr ok r) ?_ ?_⟩
    · rw [submitted_loop]
    · rw [submitted_frames]
    · rw [submitted_events]
      split
      · exact Or.inl rfl
      · exact Or.inr ⟨_, ⟨rfl, rfl, rfl, fun _ => rfl⟩, rfl⟩
  | addPoll hu => exact ⟨_, k, h.aside rfl (u.ioUringAddPoll_spares _ _ _).toQuiet rfl (Or.inl rfl)⟩
  | removePoll hu => exact ⟨_, k, h.aside rfl (u.ioUringRemovePoll_spares _ _).toQuiet rfl (Or.inl rfl)⟩
  | poolRefused hu => exact ⟨u, k, h⟩
  | @pool create pool ctx addr ok fs hu hfs =>
    refine ⟨_, k, h.aside ?_ (u.submitRequest_quiet addr ok (poolRequest create pool ctx)) ?_ ?_⟩
    · rw [withFrames_loop, submitted_loop]
    · show pollsOn fs = _
      rcases hfs with rfl | rfl
      · rfl
      · rfl
    · rw [withFrames_events, submitted_events]
      split
      · exact Or.inl rfl
      · exact Or.inr ⟨_, ⟨rfl, rfl, rfl, fun _ => rfl⟩, rfl⟩
  | ret hf =>
    refine ⟨u, k, h.aside h.state (.refl u) ?_ (Or.inl rfl)⟩
    rw [hf, pollsOn_callback]
    rfl
  | pollOk hu hfs => exact ⟨_, k, h.entered hok (u.ioUringEnter_spares _ true).toQuiet hfs⟩
  | pollSoft hu hfs => exact ⟨_, k, h.entered hok (.refl u) hfs⟩
  | pollHard hu hfs => exact ⟨u, k, h.aside h.state (.refl u) hfs.pollsOn_eq (Or.inl rfl)⟩
  | @ignored p cqe fs ok hr hfile hfind =>
    refine ⟨u, k + 1, h.read hr { p with head := p.head + 1 }
      [.consumed p.head cqe] h.state (.refl u) rfl ?_ (Nat.le_succ _) rfl rfl rfl
      rfl rfl fun id => Nat.zero_le _⟩
    rw [Poll.next, hr.pc]
  | @called p cqe fs ok fileOp call after hr hfile hfind hcall =>
    exact ⟨u, k + 1, h.read hr { p with pc := .returned fileOp after cqe }
      [.completed p.head cqe (u.fileState.load fileOp).id (some call)] h.state
        (.refl u) rfl rfl le_rfl rfl
      rfl rfl rfl rfl (completed_isOf p.head (some call) hfile hfind)⟩
  | @silent p cqe fs ok fileOp after hr hfile hfind hcall =>
    exact ⟨u, k + 1, h.read hr { p with pc := .returned fileOp after cqe }
      [.completed p.head cqe (u.fileState.load fileOp).id none] h.state (.refl u) rfl rfl le_rfl rfl
      rfl rfl rfl rfl (completed_isOf p.head none hfile hfind)⟩
  | @fired p cqe fs ok ev hr hfile hfires hev =>
    refine ⟨_, k + 1, h.read hr { p with head := p.head + 1, numevents := p.numevents + 1 }
      [.consumed p.head cqe, .fired ev cqe] rfl
      (u.rearm_spares cqe.userData ok).toQuiet rfl ?_ (Nat.le_succ _) rfl rfl rfl rfl rfl
      fun id => Nat.zero_le _⟩
    rw [Poll.next, hr.pc]
  | @skipped p cqe fs ok hr hfile hfires =>
    refine ⟨u, k + 1, h.read hr { p with head := p.head + 1 }
      [.consumed p.head cqe] h.state (.refl u) rfl ?_ (Nat.le_succ _) rfl rfl rfl
      rfl rfl fun id => Nat.zero_le _⟩
    rw [Poll.next, hr.pc]
  | published hf hpc hend => exact ⟨_, k, h.published hf hpc⟩
  | returned hf hpc => exact ⟨_, k, h.returned hf hpc⟩
  | poolDone hf =>
    refine ⟨_, k, h.aside rfl (u.setBufferGroup_spares _ _).toQuiet ?_ (Or.inl rfl)⟩
    rw [hf, pollsOn_pool]
    rfl
  | poolFailed hf =>
    refine ⟨u, k, h.aside h.state (.refl u) ?_ (Or.inl rfl)⟩
    rw [hf, pollsOn_pool]
    rfl

theorem ConsumedOk.start (bits ops n addr : ℕ) :
    ConsumedOk (.start bits ops n addr) (ioUringInit bits ops n) 0 where
  state := rfl
  positions := rfl
  cqes := rfl
  stage := .idle rfl le_rfl
  heads := List.Pairwise.nil
  heads_le := fun _ hh => absurd hh List.not_mem_nil
  calls := fun _ => Nat.zero_le _

theorem ConsumedOk.once (h : ConsumedOk m u k) : ConsumedOnce m := by
  refine ⟨u, k, h.state, h.positions, h.cqes, fun hidle => ?_, h.heads, fun id hone => ?_⟩
  · have hstage := h.stage
    rw [hidle] at hstage
    cases hstage with
    | idle hk _ => exact hk
  · -- every callback has a completion of its own among the entries read
    calc callbacks id m.events ≤ (readCqes m.events).countP (Cqe.isOf id) := h.calls id
      _ = (u.kernel.cq.take k).countP (Cqe.isOf id) := by rw [h.cqes]
      _ ≤ u.kernel.cq.countP (Cqe.isOf id) := (List.take_sublist k _).countP_le
      _ ≤ 1 := hone

/-- **Each completion is consumed once.** In every run in which no completion loop is entered
while another one runs, whatever the kernel posts and the callbacks do, the entries of the
completion queue are read once each and in order, the published head never moves back, and
an operation with one completion has one callback at most. -/
theorem completions_consumed_once (bits ops n addr : ℕ) (is : List Input) (m : Machine)
    (hrun : Run Machine.step NoReentry (.start bits ops n addr) is m) : ConsumedOnce m := by
  have hinv : ∃ u k, ConsumedOk m u k := by
    refine hrun.invariant (P := fun m => ∃ u k, ConsumedOk m u k) ?_ ⟨_, 0, .start bits ops n addr⟩
    rintro m i m' ⟨u, k, h⟩ hok hstep
    exact h.step hok hstep
  obtain ⟨u, k, h⟩ := hinv
  exact h.once

/-- A read completes; its callback submits a write and polls, in vain. The write completes
before the outer completion loop ends and is left for the next poll. -/
def vainPollRun : List Input :=
  [.call (.submit (.read 4 50 10 0 7 8) 200 true), .complete 1 10 0, .poll .ok, .go true,
    -- inside the callback
    .call (.submit (.write 4 50 10 0 7 9) 200 true), .complete 2 10 0, .poll .hard, .ret,
    .go true, .go true, .poll .ok, .go true, .ret, .go true, .go true]

theorem completions_consumed_once_vain_poll :
    ∃ m, Run Machine.step NoReentry (.start 3 100 16 1) vainPollRun m ∧
      positions m.events = [0, 1] ∧ heads m.events = [1, 2] ∧ ConsumedOnce m := by
  have hexec : (exec Machine.step NoReentry (.start 3 100 16 1) vainPollRun).map
      (fun m => (positions m.events, heads m.events)) = some ([0, 1], [1, 2]) := by decide +kernel
  obtain ⟨m, hrun, hrec⟩ := Run.of_exec_map hexec
  obtain ⟨hpos, hheads⟩ := Prod.mk.inj hrec
  exact ⟨m, hrun, hpos, hheads, completions_consumed_once 3 100 16 1 _ _ hrun⟩

/-- The callback of a read creates a buffer pool, which polls the ring. -/
def poolInCallbackRun : List Input :=
  [.call (.submit (.read 4 50 10 0 7 8) 200 true), .complete 1 10 0, .poll .ok, .go true,
    -- inside the callback
    .call (.poolNew ⟨1000, 64, 4, 0⟩ 300 200 true), .poll .ok, .go true]

/-- The completion of the read is read again, and its callback called again. -/
theorem completion_consumed_twice :
    ¬ ∀ is m, Run Machine.step (fun _ _ => True) (.start 3 100 16 1) is m → ConsumedOnce m := by
  intro hall
  have hexec : (exec Machine.step (fun _ _ => True) (.start 3 100 16 1) poolInCallbackRun).map
      (fun m => positions m.events) = some [0, 0] := by decide +kernel
  obtain ⟨m, hm, hpos⟩ := Run.of_exec_map hexec
  obtain ⟨u, k, -, hrange, -⟩ := hall _ _ hm
  rw [hpos] at hrange
  have hnodup : [0, 0].Nodup := hrange ▸ List.nodup_range
  exact absurd hnodup (by decide)

end Loopy.IoUring
