import Mathlib.Data.Fintype.Basic
import Loopy.Cluster.Basic
import Loopy.Lib.Run

/-!
# `loopyClusterRegistry.c`: failure detection

Threads that run `loopyClusterProcess`, `loopyClusterNodeHeartbeat`, `loopyClusterNodeSetState`
and `loopyClusterRegisterNode`, as a machine of loads and stores. The lock excludes a registration
from the loops of `loopyClusterProcess`; a heartbeat takes no lock. Every read of the clock finds
any time. Events are left out: they only read.

A node is marked although it was seen in two ways: `now - lastSeen` wraps for a node that was seen
after `now` was read, and a heartbeat can come between the loop that collects nodes and the one
that marks them. `failures_sound` is the law where neither happens.
-/

namespace Loopy.Cluster.Detection

open Loopy.Lib

/-! ## The machine -/

/-- Where a thread is; a `now` is a time that it has read. -/
inductive Pc
  | idle
  /-- `loopyClusterProcess`, before it reads the clock. -/
  | procNow
  /-- Before the lock. -/
  | procLock (now : UInt64)
  /-- With the lock; the nodes that it has still to visit and those that it has collected. -/
  | procScan (now : UInt64) (rest failedNodeIds : List CString)
  /-- About to load `lastSeen`. -/
  | procSeen (now : UInt64) (nodeId : CString) (rest failedNodeIds : List CString)
  /-- With the lock; the nodes that it has still to mark. -/
  | procMark (now : UInt64) (failedNodeIds : List CString)
  /-- `loopyClusterNodeHeartbeat`, before it reads the clock. -/
  | beatNow (nodeId : CString)
  | beatStore (nodeId : CString) (now : UInt64)
  /-- About to load `state`. -/
  | beatState (nodeId : CString)
  /-- `loopyClusterNodeSetState`, before it stores `state`. -/
  | setState (nodeId : CString) (state : LoopyNodeState)
  | setNow (nodeId : CString)
  | setStore (nodeId : CString) (now : UInt64)
  /-- `loopyClusterRegisterNode`, before the lock. -/
  | regLock (nodeId : CString) (address : Option CString) (roles : UInt32)
  | regNow (nodeId : CString) (address : Option CString) (roles : UInt32)
  | regStore (nodeId : CString) (address : Option CString) (roles : UInt32) (now : UInt64)
  | regUnlock
deriving DecidableEq, Repr

/-- The thread holds the lock. -/
def Pc.locked : Pc → Bool
  | .procScan .. | .procSeen .. | .procMark .. | .regNow .. | .regStore .. | .regUnlock => true
  | .idle | .procNow | .procLock _ | .beatNow _ | .beatStore .. | .beatState _ | .setState ..
  | .setNow _ | .setStore .. | .regLock .. => false

/-- The nodes that the thread is about to mark. -/
def Pc.failedNodeIds : Pc → List CString
  | .procScan _ _ ids | .procSeen _ _ _ ids | .procMark _ ids => ids
  | _ => []

/-- The node whose `lastSeen` the thread is about to load. -/
def Pc.suspect : Pc → Option CString
  | .procSeen _ nodeId _ _ => some nodeId
  | _ => none

/-- The time with which the thread compares. -/
def Pc.now : Pc → UInt64
  | .procLock now | .procScan now _ _ | .procSeen now _ _ _ | .procMark now _ => now
  | _ => 0

/-- A node was marked failed by a `loopyClusterProcess` that had read `now`. -/
structure Mark where
  nodeId : CString
  now : UInt64
  lastSeen : UInt64
deriving DecidableEq, Repr

/-- A registry with its threads and all that was marked. -/
structure Detector (T : Type) where
  registry : LoopyClusterRegistry
  lock : Option T
  thread : T → Pc
  marks : List Mark

/-- Before any of the calls. -/
def Detector.start (T : Type) (registry : LoopyClusterRegistry) : Detector T :=
  { registry, lock := none, thread := fun _ => .idle, marks := [] }

/-- The calls; a heartbeat and a state are for a registered node. -/
inductive Call
  | process
  | heartbeat (nodeId : CString)
  | nodeSetState (nodeId : CString) (state : LoopyNodeState)
  | registerNode (nodeId : CString) (address : Option CString) (roles : UInt32)
deriving DecidableEq, Repr

/-- What a step finds: the time, and which allocations succeed. -/
structure Env where
  now : UInt64
  strdup : Bool
  noMemory : List CString
  luck : RegisterLuck
deriving DecidableEq, Repr

/-- The actions of the threads. -/
inductive Action (T : Type)
  | call (t : T) (c : Call)
  | run (t : T) (env : Env)
deriving DecidableEq, Repr

variable {T : Type} [DecidableEq T]

/-- The thread `t` moves to `pc`. -/
def Detector.move (s : Detector T) (t : T) (pc : Pc) : Detector T :=
  { s with thread := Function.update s.thread t pc }

/-- Fields of a node are stored. -/
def Detector.write (s : Detector T) (nodeId : CString)
    (f : LoopyClusterNode → LoopyClusterNode) : Detector T :=
  match s.registry.nodes.find nodeId with
  | none => s
  | some node => { s with registry := s.registry.setNode nodeId (f node) }

/-- Where a call begins. -/
def Detector.enter (s : Detector T) : Call → Option Pc
  | .process => some .procNow
  | .heartbeat nodeId =>
    if (s.registry.nodes.find nodeId).isSome then some (.beatNow nodeId) else none
  | .nodeSetState nodeId state =>
    if (s.registry.nodes.find nodeId).isSome then some (.setState nodeId state) else none
  | .registerNode nodeId address roles => some (.regLock nodeId address roles)

/-- The expired entries are removed, under the lock. -/
def expireAll (r : LoopyClusterRegistry) (now : UInt64) (noMemory : List CString) :
    LoopyClusterRegistry :=
  ((r.expiredKeys now noMemory).foldl expireKey ([], r)).2

/-- The next node of the collecting loop: the local node and failed nodes are skipped. -/
def Detector.scan (s : Detector T) (t : T) (now : UInt64) (failedNodeIds : List CString) :
    List CString → Detector T
  | [] => s.move t (.procMark now failedNodeIds)
  | nodeId :: rest =>
    if failedNodeIds.length < 64 then
      match s.registry.nodes.find nodeId with
      | none => s.move t (.procScan now rest failedNodeIds)
      | some node =>
        if node.nodeId = s.registry.localNodeId then s.move t (.procScan now rest failedNodeIds)
        else if node.state = .failed then s.move t (.procScan now rest failedNodeIds)
        else s.move t (.procSeen now nodeId rest failedNodeIds)
    else s.move t (.procMark now failedNodeIds)

/-- `now - node->lastSeen > failureTimeout`. -/
def Detector.silent (s : Detector T) (now : UInt64) (nodeId : CString) : Bool :=
  match s.registry.nodes.find nodeId with
  | none => false
  | some node => decide (now - node.lastSeen > s.registry.failureTimeoutMs.toUInt64)

/-- A node is marked. -/
def Detector.mark (s : Detector T) (now : UInt64) (nodeId : CString) : Detector T :=
  match s.registry.nodes.find nodeId with
  | none => s
  | some node =>
    { s with
      registry := s.registry.setNode nodeId { node with state := .failed }
      marks := s.marks ++ [{ nodeId := node.nodeId, now, lastSeen := node.lastSeen }] }

/-- One load or store of the thread `t`. -/
def Detector.run (s : Detector T) (t : T) (env : Env) : Option (Detector T) :=
  match s.thread t with
  | .idle => none
  | .procNow => some (s.move t (.procLock env.now))
  | .procLock now =>
    if s.lock = none then
      some { s.move t (.procScan now s.registry.nodes.keys []) with
        lock := some t
        registry := expireAll s.registry now env.noMemory }
    else none
  | .procScan now rest failedNodeIds => some (s.scan t now failedNodeIds rest)
  | .procSeen now nodeId rest failedNodeIds =>
    some (s.move t (.procScan now rest
      (if s.silent now nodeId && env.strdup then failedNodeIds ++ [nodeId] else failedNodeIds)))
  | .procMark now (nodeId :: rest) => some ((s.mark now nodeId).move t (.procMark now rest))
  | .procMark _ [] => some { s.move t .idle with lock := none }
  | .beatNow nodeId => some (s.move t (.beatStore nodeId env.now))
  | .beatStore nodeId now =>
    some ((s.write nodeId fun node => { node with lastSeen := now }).move t (.beatState nodeId))
  | .beatState nodeId =>
    match s.registry.nodes.find nodeId with
    | none => some (s.move t .idle)
    | some node =>
      some (s.move t (if node.state = .joining then .setState nodeId .active else .idle))
  | .setState nodeId state =>
    some ((s.write nodeId fun node => { node with state }).move t (.setNow nodeId))
  | .setNow nodeId => some (s.move t (.setStore nodeId env.now))
  | .setStore nodeId now =>
    some ((s.write nodeId fun node => { node with lastSeen := now }).move t .idle)
  | .regLock nodeId address roles =>
    if s.lock = none then some { s.move t (.regNow nodeId address roles) with lock := some t }
    else none
  | .regNow nodeId address roles => some (s.move t (.regStore nodeId address roles env.now))
  | .regStore nodeId address roles now =>
    some { s.move t .regUnlock with
      registry := (s.registry.registerNode nodeId address roles env.luck now).2.2 }
  | .regUnlock => some { s.move t .idle with lock := none }

/-- One action. -/
def step (s : Detector T) : Action T → Option (Detector T)
  | .call t c => if s.thread t = .idle then (s.enter c).map (s.move t) else none
  | .run t env => s.run t env

/-! ## The law -/

/-- A node is only marked if it is not the local one and was last seen more than
`failureTimeoutMs` before. -/
structure FailureLaw (s : Detector T) : Prop where
  remote : ∀ m ∈ s.marks, m.nodeId ≠ s.registry.localNodeId
  late : ∀ m ∈ s.marks, m.lastSeen.toNat + s.registry.failureTimeoutMs.toNat < m.now.toNat

/-- A node that is about to be marked may be seen at `lastSeen`. -/
def Detector.MaySee (s : Detector T) (nodeId : CString) (lastSeen : UInt64) : Prop :=
  ∀ u, nodeId ∈ (s.thread u).failedNodeIds →
    lastSeen.toNat + s.registry.failureTimeoutMs.toNat < (s.thread u).now.toNat

/-- What the next step of a thread must not do. -/
def Detector.TimelyAt (s : Detector T) : Pc → Prop
  | .procSeen now nodeId _ _ =>
    ∀ node ∈ s.registry.nodes.find nodeId, node.lastSeen ≤ now ∨
      now - node.lastSeen ≤ s.registry.failureTimeoutMs.toUInt64
  | .beatStore nodeId now | .setStore nodeId now => s.MaySee nodeId now
  | _ => True

/-- No node is seen while it is about to be marked, and the difference of the times does not wrap
to a failure. -/
def Timely (s : Detector T) : Action T → Prop
  | .call .. => True
  | .run t _ => s.TimelyAt (s.thread t)

instance [Fintype T] (s : Detector T) (nodeId : CString) (lastSeen : UInt64) :
    Decidable (s.MaySee nodeId lastSeen) :=
  inferInstanceAs (Decidable (∀ u, nodeId ∈ (s.thread u).failedNodeIds →
    lastSeen.toNat + s.registry.failureTimeoutMs.toNat < (s.thread u).now.toNat))

instance [Fintype T] (s : Detector T) : ∀ pc, Decidable (s.TimelyAt pc)
  | .procSeen now nodeId _ _ =>
    inferInstanceAs (Decidable (∀ node ∈ s.registry.nodes.find nodeId, node.lastSeen ≤ now ∨
      now - node.lastSeen ≤ s.registry.failureTimeoutMs.toUInt64))
  | .beatStore nodeId now | .setStore nodeId now =>
    inferInstanceAs (Decidable (s.MaySee nodeId now))
  | .idle | .procNow | .procLock _ | .procScan .. | .procMark .. | .beatNow _ | .beatState _
  | .setState .. | .setNow _ | .regLock .. | .regNow .. | .regStore .. | .regUnlock =>
    isTrue trivial

instance [Fintype T] (s : Detector T) : ∀ a, Decidable (Timely s a)
  | .call .. => isTrue trivial
  | .run t _ => inferInstanceAs (Decidable (s.TimelyAt (s.thread t)))

/-! ## The nodes that are about to be marked -/

/-- What a thread knows of the nodes that it has collected. -/
structure Judged (r : LoopyClusterRegistry) (pc : Pc) : Prop where
  remote : ∀ nodeId, nodeId ∈ pc.failedNodeIds ∨ pc.suspect = some nodeId →
    ∀ node, r.nodes.find nodeId = some node → node.nodeId ≠ r.localNodeId
  late : ∀ nodeId ∈ pc.failedNodeIds, ∀ node, r.nodes.find nodeId = some node →
    node.lastSeen.toNat + r.failureTimeoutMs.toNat < pc.now.toNat

/-- The invariant: the lock has one holder, and only it has collected nodes. -/
structure DetectionInv (s : Detector T) : Prop where
  held : ∀ t, (s.thread t).locked = true → s.lock = some t
  judged : ∀ t, Judged s.registry (s.thread t)
  law : FailureLaw s

variable {r : LoopyClusterRegistry} {s s' : Detector T} {t : T} {pc : Pc} {nodeId : CString}
  {node node' : LoopyClusterNode}

/-- A thread that has collected nothing. -/
theorem Judged.nothing (hids : pc.failedNodeIds = []) (hsuspect : pc.suspect = none) :
    Judged r pc := by
  constructor
  · intro id hid
    rw [hids, hsuspect] at hid
    simp at hid
  · intro id hid
    rw [hids] at hid
    simp at hid

/-- A thread without the lock has collected nothing. -/
theorem Judged.free (hfree : pc.locked = false) : Judged r pc := by
  cases pc <;> first | exact .nothing rfl rfl | cases hfree

/-- A node is written. -/
theorem Judged.setNode (h : Judged r pc) (hnode : r.nodes.find nodeId = some node)
    (hid : node'.nodeId = node.nodeId)
    (hlate : nodeId ∈ pc.failedNodeIds →
      node'.lastSeen.toNat + r.failureTimeoutMs.toNat < pc.now.toNat) :
    Judged (r.setNode nodeId node') pc := by
  constructor
  · intro id hmem n hn
    by_cases heq : id = nodeId
    · subst heq
      rw [LoopyClusterRegistry.setNode, OrderedMap.find_insert_self] at hn
      rw [← Option.some.inj hn, hid]
      exact h.remote id hmem node hnode
    · rw [LoopyClusterRegistry.setNode, OrderedMap.find_insert_of_ne heq] at hn
      exact h.remote id hmem n hn
  · intro id hmem n hn
    by_cases heq : id = nodeId
    · subst heq
      rw [LoopyClusterRegistry.setNode, OrderedMap.find_insert_self] at hn
      rw [← Option.some.inj hn]
      exact hlate hmem
    · rw [LoopyClusterRegistry.setNode, OrderedMap.find_insert_of_ne heq] at hn
      exact h.late id hmem n hn

/-- The unsigned difference, where it does not wrap to a failure. -/
theorem late_of_silent {now lastSeen timeout : UInt64}
    (htimely : lastSeen ≤ now ∨ now - lastSeen ≤ timeout) (hsilent : now - lastSeen > timeout) :
    lastSeen.toNat + timeout.toNat < now.toNat := by
  have hle : lastSeen ≤ now := htimely.resolve_right (UInt64.not_le.mpr hsilent)
  have hsub : (now - lastSeen).toNat = now.toNat - lastSeen.toNat := UInt64.toNat_sub_of_le _ _ hle
  have hlt := UInt64.lt_iff_toNat_lt.mp hsilent
  rw [hsub] at hlt
  exact Nat.add_lt_of_lt_sub' hlt

/-! ## What a step does -/

theorem DetectionInv.move (h : DetectionInv s)
    (hlocked : pc.locked = true → (s.thread t).locked = true) (hpc : Judged s.registry pc) :
    DetectionInv (s.move t pc) := by
  refine ⟨?_, ?_, h.law.remote, h.law.late⟩
  · refine Function.forall_update_iff _ (fun u (p : Pc) => p.locked = true → s.lock = some u)
      |>.mpr ?_
    exact ⟨fun hl => h.held t (hlocked hl), fun u _ => h.held u⟩
  · exact Function.forall_update_iff _ (fun _ p => Judged s.registry p) |>.mpr
      ⟨hpc, fun u _ => h.judged u⟩

/-- A thread without the lock moves to a place without the lock. -/
theorem DetectionInv.moveFree (h : DetectionInv s) (hfree : pc.locked = false) :
    DetectionInv (s.move t pc) :=
  h.move (fun hl => by rw [hfree] at hl; cases hl) (.free hfree)

/-- The nodes change while no other thread has the lock. -/
theorem DetectionInv.exclusive (h : DetectionInv s)
    (hothers : ∀ u ≠ t, (s.thread u).locked = false) {lock : Option T}
    (hlock : pc.locked = true → lock = some t) (hlocal : r.localNodeId = s.registry.localNodeId)
    (htimeout : r.failureTimeoutMs = s.registry.failureTimeoutMs) (hpc : Judged r pc) :
    DetectionInv { s.move t pc with registry := r, lock } := by
  refine ⟨?_, ?_, ?_, ?_⟩
  · refine Function.forall_update_iff _ (fun u (p : Pc) => p.locked = true → lock = some u)
      |>.mpr ?_
    refine ⟨hlock, fun u hu hl => ?_⟩
    rw [hothers u hu] at hl
    cases hl
  · exact Function.forall_update_iff _ (fun _ p => Judged r p) |>.mpr
      ⟨hpc, fun u hu => .free (hothers u hu)⟩
  · intro m hm
    show m.nodeId ≠ r.localNodeId
    rw [hlocal]
    exact h.law.remote m hm
  · intro m hm
    show m.lastSeen.toNat + r.failureTimeoutMs.toNat < m.now.toNat
    rw [htimeout]
    exact h.law.late m hm

omit [DecidableEq T] in
/-- The other threads do not have the lock. -/
theorem DetectionInv.others (h : DetectionInv s) (ht : (s.thread t).locked = true) :
    ∀ u ≠ t, (s.thread u).locked = false := by
  intro u hu
  by_contra hl
  have hlock := h.held u (Bool.not_eq_false _ ▸ hl)
  rw [h.held t ht] at hlock
  exact hu (Option.some.inj hlock).symm

omit [DecidableEq T] in
theorem DetectionInv.unlocked (h : DetectionInv s) (hlock : s.lock = none) (u : T) :
    (s.thread u).locked = false := by
  by_contra hl
  have hsome := h.held u (Bool.not_eq_false _ ▸ hl)
  rw [hlock] at hsome
  cases hsome

omit [DecidableEq T] in
/-- A node is stored that may be seen. -/
theorem DetectionInv.write (h : DetectionInv s) {f : LoopyClusterNode → LoopyClusterNode}
    (hid : ∀ node, (f node).nodeId = node.nodeId)
    (hsee : ∀ node, s.registry.nodes.find nodeId = some node → s.MaySee nodeId (f node).lastSeen) :
    DetectionInv (s.write nodeId f) := by
  unfold Detector.write
  split
  · exact h
  · next node hnode =>
    exact ⟨h.held, fun u => (h.judged u).setNode hnode (hid node) (hsee node hnode u),
      h.law.remote, h.law.late⟩

omit [DecidableEq T] in
/-- A node that was collected is marked. -/
theorem DetectionInv.mark (h : DetectionInv s) (hmem : nodeId ∈ (s.thread t).failedNodeIds) :
    DetectionInv (s.mark (s.thread t).now nodeId) := by
  unfold Detector.mark
  split
  · exact h
  · next node hnode =>
    refine ⟨h.held, fun u => ?_, ?_, ?_⟩
    · exact (h.judged u).setNode hnode rfl fun hu => (h.judged u).late nodeId hu node hnode
    · intro m hm
      obtain hold | hnew := List.mem_append.mp hm
      · exact h.law.remote m hold
      · rw [List.mem_singleton.mp hnew]
        exact (h.judged t).remote nodeId (.inl hmem) node hnode
    · intro m hm
      obtain hold | hnew := List.mem_append.mp hm
      · exact h.law.late m hold
      · rw [List.mem_singleton.mp hnew]
        exact (h.judged t).late nodeId hmem node hnode

omit [DecidableEq T] in
theorem mark_thread (s : Detector T) (now : UInt64) (nodeId : CString) :
    (s.mark now nodeId).thread = s.thread := by
  unfold Detector.mark
  split <;> rfl

/-- The collecting loop goes on with what it has collected; it only asks for the time of a node
that is not the local one. -/
theorem scan_spec (s : Detector T) (t : T) (now : UInt64) (ids rest : List CString) :
    ∃ pc : Pc, s.scan t now ids rest = s.move t pc ∧ pc.locked = true ∧ pc.now = now ∧
      pc.failedNodeIds = ids ∧ ∀ nodeId, pc.suspect = some nodeId →
        ∀ node, s.registry.nodes.find nodeId = some node →
          node.nodeId ≠ s.registry.localNodeId := by
  have hmove (pc : Pc) (hl : pc.locked = true) (hnow : pc.now = now)
      (hids : pc.failedNodeIds = ids) (hs : pc.suspect = none) :
      ∃ p : Pc, s.move t pc = s.move t p ∧ p.locked = true ∧ p.now = now ∧
        p.failedNodeIds = ids ∧ ∀ nodeId, p.suspect = some nodeId →
          ∀ node, s.registry.nodes.find nodeId = some node →
            node.nodeId ≠ s.registry.localNodeId := by
    refine ⟨pc, rfl, hl, hnow, hids, fun nodeId hid => ?_⟩
    rw [hs] at hid
    cases hid
  unfold Detector.scan
  split
  · exact hmove _ rfl rfl rfl rfl
  · next nodeId rest =>
    split
    · split
      · exact hmove _ rfl rfl rfl rfl
      · next node hnode =>
        split
        · exact hmove _ rfl rfl rfl rfl
        · next hremote =>
          split
          · exact hmove _ rfl rfl rfl rfl
          · refine ⟨_, rfl, rfl, rfl, rfl, fun id hid n hn => ?_⟩
            rw [← Option.some.inj hid, hnode] at hn
            rw [← Option.some.inj hn]
            exact hremote
    · exact hmove _ rfl rfl rfl rfl

/-- Expiry leaves the nodes. -/
theorem expireAll_same (r : LoopyClusterRegistry) (now : UInt64) (noMemory : List CString) :
    (expireAll r now noMemory).nodes = r.nodes ∧
      (expireAll r now noMemory).localNodeId = r.localNodeId ∧
      (expireAll r now noMemory).failureTimeoutMs = r.failureTimeoutMs := by
  have hloop (keys : List CString) (x : List ClusterEvent × LoopyClusterRegistry) :
      (keys.foldl expireKey x).2.nodes = x.2.nodes ∧
        (keys.foldl expireKey x).2.localNodeId = x.2.localNodeId ∧
        (keys.foldl expireKey x).2.failureTimeoutMs = x.2.failureTimeoutMs := by
    induction keys generalizing x with
    | nil => exact ⟨rfl, rfl, rfl⟩
    | cons key keys ih =>
      obtain ⟨hnodes, hlocal, htimeout⟩ := ih (expireKey x key)
      rw [List.foldl_cons, hnodes, hlocal, htimeout]
      unfold expireKey
      split <;> exact ⟨rfl, rfl, rfl⟩
  exact hloop _ _

theorem registerNode_same (r : LoopyClusterRegistry) (nodeId : CString) (address : Option CString)
    (roles : UInt32) (luck : RegisterLuck) (now : UInt64) :
    (r.registerNode nodeId address roles luck now).2.2.localNodeId = r.localNodeId ∧
      (r.registerNode nodeId address roles luck now).2.2.failureTimeoutMs =
        r.failureTimeoutMs := by
  unfold LoopyClusterRegistry.registerNode
  split
  · exact ⟨rfl, rfl⟩
  · split
    · exact ⟨rfl, rfl⟩
    · split
      · exact ⟨rfl, rfl⟩
      · split <;> exact ⟨rfl, rfl⟩

omit [DecidableEq T] in
/-- The load of `lastSeen`: a node is only collected if it has timed out. -/
theorem DetectionInv.seen (h : DetectionInv s) {now : UInt64} {rest ids : List CString}
    (hpc : s.thread t = .procSeen now nodeId rest ids) (htimely : s.TimelyAt (s.thread t))
    (strdup : Bool) :
    Judged s.registry (.procScan now rest
      (if s.silent now nodeId && strdup then ids ++ [nodeId] else ids)) := by
  have hold := h.judged t
  rw [hpc] at hold htimely
  by_cases hsilent : s.silent now nodeId = true
  · cases strdup with
    | false =>
      rw [Bool.and_false, if_neg Bool.false_ne_true]
      exact ⟨fun id hid => hold.remote id (.inl (hid.resolve_right nofun)), hold.late⟩
    | true =>
      rw [Bool.and_true, if_pos hsilent]
      constructor
      · intro id hid
        obtain hmem | hnew := List.mem_append.mp (hid.resolve_right nofun)
        · exact hold.remote id (.inl hmem)
        · rw [List.mem_singleton.mp hnew]
          exact hold.remote nodeId (.inr rfl)
      · intro id hid n hn
        obtain hmem | hnew := List.mem_append.mp hid
        · exact hold.late id hmem n hn
        · rw [List.mem_singleton.mp hnew] at hn
          rw [Detector.silent, hn, decide_eq_true_iff] at hsilent
          have hlate := late_of_silent (htimely n hn) hsilent
          rwa [UInt32.toNat_toUInt64] at hlate
  · rw [Bool.not_eq_true] at hsilent
    rw [hsilent, Bool.false_and, if_neg Bool.false_ne_true]
    exact ⟨fun id hid => hold.remote id (.inl (hid.resolve_right nofun)), hold.late⟩

theorem DetectionInv.run (h : DetectionInv s) {env : Env} (htimely : s.TimelyAt (s.thread t))
    (hrun : s.run t env = some s') : DetectionInv s' := by
  have hlocked (hl : (s.thread t).locked = true) := h.others hl
  rw [Detector.run] at hrun
  split at hrun
  · cases hrun
  · rw [← Option.some.inj hrun]
    exact h.moveFree rfl
  · next now hpc =>
    obtain ⟨hlock, rfl⟩ := of_guard hrun
    obtain ⟨-, hlocal, htimeout⟩ := expireAll_same s.registry now env.noMemory
    exact h.exclusive (fun u _ => h.unlocked hlock u) (fun _ => rfl) hlocal htimeout
      (.nothing rfl rfl)
  · next now rest ids hpc =>
    rw [← Option.some.inj hrun]
    obtain ⟨pc, hscan, hl, hnow, hids, hsuspect⟩ := scan_spec s t now ids rest
    have hold := h.judged t
    rw [hpc] at hold
    rw [hscan]
    refine h.move (fun _ => by rw [hpc]; rfl) ⟨?_, ?_⟩
    · rintro id (hid | hid)
      · rw [hids] at hid
        exact hold.remote id (.inl hid)
      · exact hsuspect id hid
    · rw [hids, hnow]
      exact hold.late
  · next now nodeId rest ids hpc =>
    rw [← Option.some.inj hrun]
    exact h.move (fun _ => by rw [hpc]; rfl) (h.seen hpc htimely env.strdup)
  · next now nodeId rest hpc =>
    rw [← Option.some.inj hrun]
    have hmem : nodeId ∈ (s.thread t).failedNodeIds := by
      rw [hpc]
      exact List.mem_cons_self
    have hmark := h.mark hmem
    have hnow : (s.thread t).now = now := by rw [hpc]; rfl
    rw [hnow] at hmark
    have hold := hmark.judged t
    rw [mark_thread, hpc] at hold
    refine hmark.move (fun _ => by rw [mark_thread, hpc]; rfl) ⟨?_, ?_⟩
    · intro id hid
      exact hold.remote id (.inl (List.mem_cons_of_mem _ (hid.resolve_right nofun)))
    · intro id hid
      exact hold.late id (List.mem_cons_of_mem _ hid)
  · next now hpc =>
    rw [← Option.some.inj hrun]
    exact h.exclusive (hlocked (by rw [hpc]; rfl)) nofun rfl rfl (.free rfl)
  · rw [← Option.some.inj hrun]
    exact h.moveFree rfl
  · next nodeId now hpc =>
    rw [← Option.some.inj hrun]
    rw [hpc] at htimely
    have hwrite : DetectionInv (s.write nodeId fun node => { node with lastSeen := now }) :=
      h.write (fun _ => rfl) fun _ _ => htimely
    exact hwrite.moveFree rfl
  · next nodeId hpc =>
    split at hrun
    · rw [← Option.some.inj hrun]
      exact h.moveFree rfl
    · rw [← Option.some.inj hrun]
      refine h.moveFree ?_
      split <;> rfl
  · next nodeId state hpc =>
    rw [← Option.some.inj hrun]
    -- the state of a node says nothing about when it was seen
    have hwrite : DetectionInv (s.write nodeId fun node => { node with state }) :=
      h.write (fun _ => rfl) fun node hnode u hu => (h.judged u).late nodeId hu node hnode
    exact hwrite.moveFree rfl
  · rw [← Option.some.inj hrun]
    exact h.moveFree rfl
  · next nodeId now hpc =>
    rw [← Option.some.inj hrun]
    rw [hpc] at htimely
    have hwrite : DetectionInv (s.write nodeId fun node => { node with lastSeen := now }) :=
      h.write (fun _ => rfl) fun _ _ => htimely
    exact hwrite.moveFree rfl
  · next nodeId address roles hpc =>
    obtain ⟨hlock, rfl⟩ := of_guard hrun
    exact h.exclusive (fun u _ => h.unlocked hlock u) (fun _ => rfl) rfl rfl (.nothing rfl rfl)
  · next nodeId address roles hpc =>
    rw [← Option.some.inj hrun]
    exact h.move (fun _ => by rw [hpc]; rfl) (.nothing rfl rfl)
  · next nodeId address roles now hpc =>
    rw [← Option.some.inj hrun]
    have ht : (s.thread t).locked = true := by rw [hpc]; rfl
    obtain ⟨hlocal, htimeout⟩ :=
      registerNode_same s.registry nodeId address roles env.luck now
    exact h.exclusive (hlocked ht) (fun _ => h.held t ht) hlocal htimeout (.nothing rfl rfl)
  · next hpc =>
    rw [← Option.some.inj hrun]
    exact h.exclusive (hlocked (by rw [hpc]; rfl)) nofun rfl rfl (.free rfl)

theorem DetectionInv.step (h : DetectionInv s) {a : Action T} (hok : Timely s a)
    (hstep : step s a = some s') : DetectionInv s' := by
  cases a with
  | run t env => exact h.run hok hstep
  | call t c =>
    obtain ⟨-, hstep⟩ := Option.ite_none_right_eq_some.mp hstep
    obtain ⟨pc, henter, rfl⟩ := Option.map_eq_some_iff.mp hstep
    refine h.moveFree ?_
    cases c with
    | process | registerNode => cases henter; rfl
    | heartbeat | nodeSetState =>
      obtain ⟨-, rfl⟩ := of_guard henter
      rfl

omit [DecidableEq T] in
theorem DetectionInv.start (r : LoopyClusterRegistry) : DetectionInv (.start T r) :=
  ⟨nofun, fun _ => .free rfl, ⟨nofun, nofun⟩⟩

end Loopy.Cluster.Detection
