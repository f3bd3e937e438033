import Loopy.Cluster.Config
import Loopy.Cluster.Failures
import Loopy.Lib.Loops

/-!
# `loopyClusterRegistry.c`: maintenance in batches

A call of `loopyClusterProcess` takes the first 64 expired keys and the first 64 nodes that have timed
out. What is left for the next calls is the rest of both lists (`allExpired_process`,
`allTimedOut_process`), so that `batchOutputs_perm` counts the events.
-/

namespace Loopy.Cluster

open Loopy.Lib

/-! ## What there is to do -/

/-- The expired keys, in order. -/
def LoopyClusterRegistry.allExpired (r : LoopyClusterRegistry) (now : UInt64) : List CString :=
  r.configData.keys.filter fun key =>
    match r.configData.find key with
    | none => false
    | some entry => entry.expired now

/-- A node that is not the local one, has not failed before, and has not been seen for more than
`failureTimeoutMs`, in numbers that do not wrap. -/
def LoopyClusterNode.overdue (node : LoopyClusterNode) (localNodeId : CString)
    (failureTimeoutMs : UInt32) (now : UInt64) : Bool :=
  decide (node.nodeId ≠ localNodeId) && decide (node.state ≠ .failed) &&
    decide (node.lastSeen.toNat + failureTimeoutMs.toNat < now.toNat)

/-- The nodes that are overdue, in the order of their ids. -/
def LoopyClusterRegistry.allOverdue (r : LoopyClusterRegistry) (now : UInt64) : List CString :=
  r.nodes.keys.filter fun nodeId =>
    match r.nodes.find nodeId with
    | none => false
    | some node => node.overdue r.localNodeId r.failureTimeoutMs now

/-- The event for a key that is removed. -/
def LoopyClusterRegistry.expiredEvent (r : LoopyClusterRegistry) (key : CString) :
    Option ClusterEvent :=
  (r.configData.find key).map fun entry => .configChange (entry.toValue key)

/-- The event for a node that is marked. -/
def LoopyClusterRegistry.failedEvent (r : LoopyClusterRegistry) (nodeId : CString) :
    Option ClusterEvent :=
  (r.nodes.find nodeId).map fun node => .nodeFailed (nodeToInfo { node with state := .failed })

/-- Of the keys that have expired and the nodes that have failed, the first 64 each have been taken,
with one event for each, and nothing else has changed. -/
structure Processed (r : LoopyClusterRegistry) (expired failed : List CString)
    (result : List ClusterEvent × LoopyClusterRegistry) : Prop where
  events : result.1 =
    (expired.take 64).filterMap r.expiredEvent ++ (failed.take 64).filterMap r.failedEvent
  count : result.1.length = min 64 expired.length + min 64 failed.length
  removed : ∀ key, result.2.configData.find key =
    if key ∈ expired.take 64 then none else r.configData.find key
  marked : ∀ nodeId, result.2.nodes.find nodeId =
    if nodeId ∈ failed.take 64 then
      (r.nodes.find nodeId).map fun node => { node with state := .failed }
    else r.nodes.find nodeId
  localNodeId : result.2.localNodeId = r.localNodeId
  failureTimeoutMs : result.2.failureTimeoutMs = r.failureTimeoutMs
  configVersion : result.2.configVersion = r.configVersion

/-- No node was seen after `now`. -/
def LoopyClusterRegistry.SeenBy (r : LoopyClusterRegistry) (now : UInt64) : Prop :=
  ∀ id, ∀ node ∈ r.nodes.find id, node.lastSeen ≤ now

/-- The registry after a call of `loopyClusterProcess` at the time `now`. -/
def processed (now : UInt64) (r : LoopyClusterRegistry) : LoopyClusterRegistry :=
  (r.process now []).2

/-- The events of a call at the time `now`. -/
def processEvents (now : UInt64) (r : LoopyClusterRegistry) : List ClusterEvent :=
  (r.process now []).1

/-- Nothing is left to do, and there has been one event for everything that there was. -/
structure Finished (r : LoopyClusterRegistry) (now : UInt64) (n : ℕ) : Prop where
  expired : ((processed now)^[n] r).allExpired now = []
  overdue : ((processed now)^[n] r).allOverdue now = []
  events : (batchOutputs (processed now) (processEvents now) n r).Perm
    ((r.allExpired now).filterMap r.expiredEvent ++ (r.allOverdue now).filterMap r.failedEvent)
  idle : processEvents now ((processed now)^[n] r) = []

/-! ## Expired keys -/

section expire

variable {r : LoopyClusterRegistry} {now : UInt64} {keys : List CString} {key : CString}
  {s : List ClusterEvent × LoopyClusterRegistry}

theorem expiredKeys_eq : r.expiredKeys now [] = (r.allExpired now).take 64 := by
  unfold LoopyClusterRegistry.expiredKeys LoopyClusterRegistry.allExpired
  congr 2
  funext key
  cases r.configData.find key with
  | none => rfl
  | some entry => simp

theorem mem_allExpired : key ∈ r.allExpired now ↔
    ∃ entry, r.configData.find key = some entry ∧ entry.expired now = true := by
  rw [LoopyClusterRegistry.allExpired, List.mem_filter]
  constructor
  · rintro ⟨-, hexpired⟩
    split at hexpired
    · cases hexpired
    · next entry hfind => exact ⟨entry, hfind, hexpired⟩
  · rintro ⟨entry, hfind, hexpired⟩
    refine ⟨OrderedMap.mem_keys_of_find hfind, ?_⟩
    rw [hfind]
    exact hexpired

theorem sorted_allExpired : (r.allExpired now).Pairwise (· < ·) :=
  r.configData.sorted.sublist List.filter_sublist

/-- The events of the loop over expired keys. -/
theorem foldl_expireKey_events (hnodup : keys.Nodup) :
    (keys.foldl expireKey s).1 = s.1 ++ keys.filterMap s.2.expiredEvent := by
  induction keys generalizing s with
  | nil => exact (List.append_nil _).symm
  | cons k keys ih =>
    rw [List.nodup_cons] at hnodup
    have hother : keys.filterMap (expireKey s k).2.expiredEvent = keys.filterMap s.2.expiredEvent := by
      refine List.filterMap_congr fun key hkey => ?_
      have hne : key ≠ k := fun heq => hnodup.1 (heq ▸ hkey)
      unfold LoopyClusterRegistry.expiredEvent expireKey
      split
      · rfl
      · exact congrArg (Option.map _) (OrderedMap.find_erase_of_ne hne)
    rw [List.foldl_cons, ih hnodup.2, hother, List.filterMap_cons]
    unfold expireKey LoopyClusterRegistry.expiredEvent
    cases s.2.configData.find k with
    | none => rfl
    | some entry => exact List.append_assoc ..

end expire

/-! ## Nodes that have timed out -/

section fail

variable {r : LoopyClusterRegistry} {now : UInt64} {ids : List CString} {id : CString}
  {s : List ClusterEvent × LoopyClusterRegistry}

/-- The nodes that the code takes for silent, in order; the difference of the times may wrap. -/
def LoopyClusterRegistry.allTimedOut (r : LoopyClusterRegistry) (now : UInt64) : List CString :=
  r.nodes.keys.filter fun nodeId =>
    match r.nodes.find nodeId with
    | none => false
    | some node => node.timedOut r.localNodeId r.failureTimeoutMs now

theorem failedNodeIds_eq : r.failedNodeIds now [] = (r.allTimedOut now).take 64 := by
  unfold LoopyClusterRegistry.failedNodeIds LoopyClusterRegistry.allTimedOut
  congr 2
  funext nodeId
  cases r.nodes.find nodeId with
  | none => rfl
  | some node => simp

theorem mem_allTimedOut : id ∈ r.allTimedOut now ↔
    ∃ node, r.nodes.find id = some node ∧
      node.timedOut r.localNodeId r.failureTimeoutMs now = true := by
  rw [LoopyClusterRegistry.allTimedOut, List.mem_filter]
  constructor
  · rintro ⟨-, htimedOut⟩
    split at htimedOut
    · cases htimedOut
    · next node hfind => exact ⟨node, hfind, htimedOut⟩
  · rintro ⟨node, hfind, htimedOut⟩
    refine ⟨OrderedMap.mem_keys_of_find hfind, ?_⟩
    rw [hfind]
    exact htimedOut

theorem sorted_allTimedOut : (r.allTimedOut now).Pairwise (· < ·) :=
  r.nodes.sorted.sublist List.filter_sublist

/-- What marking a node does to the nodes. -/
theorem find_markFailed (s : List ClusterEvent × LoopyClusterRegistry) (k id : CString) :
    (markFailed s k).2.nodes.find id =
      if id = k then (s.2.nodes.find id).map fun node => { node with state := .failed }
      else s.2.nodes.find id := by
  unfold markFailed
  by_cases hid : id = k
  · subst hid
    rw [if_pos rfl]
    cases hfind : s.2.nodes.find id with
    | none => exact hfind
    | some node => exact OrderedMap.find_insert_self
  · rw [if_neg hid]
    split
    · rfl
    · exact OrderedMap.find_insert_of_ne hid

/-- The loop that marks nodes. -/
theorem foldl_markFailed_nodes (ids : List CString) (s : List ClusterEvent × LoopyClusterRegistry) :
    (ids.foldl markFailed s).2.localNodeId = s.2.localNodeId ∧
      (ids.foldl markFailed s).2.failureTimeoutMs = s.2.failureTimeoutMs ∧
      ∀ id, (ids.foldl markFailed s).2.nodes.find id =
        if id ∈ ids then (s.2.nodes.find id).map fun node => { node with state := .failed }
        else s.2.nodes.find id := by
  induction ids generalizing s with
  | nil => exact ⟨rfl, rfl, fun _ => rfl⟩
  | cons k ids ih =>
    obtain ⟨hlocal, htimeout, hfind⟩ := ih (markFailed s k)
    have hsame : (markFailed s k).2.localNodeId = s.2.localNodeId ∧
        (markFailed s k).2.failureTimeoutMs = s.2.failureTimeoutMs := by
      unfold markFailed
      split <;> exact ⟨rfl, rfl⟩
    refine ⟨hlocal.trans hsame.1, htimeout.trans hsame.2, fun id => ?_⟩
    rw [List.foldl_cons, hfind, find_markFailed]
    by_cases hid : id = k
    · rw [if_pos hid, if_pos (List.mem_cons.mpr (.inl hid)), Option.map_map]
      exact ite_id _
    · rw [if_neg hid]
      simp only [List.mem_cons, hid, false_or]

/-- The events of that loop. -/
theorem foldl_markFailed_events (ids : List CString) (s : List ClusterEvent × LoopyClusterRegistry) :
    (ids.foldl markFailed s).1 = s.1 ++ ids.filterMap s.2.failedEvent := by
  induction ids generalizing s with
  | nil => exact (List.append_nil _).symm
  | cons k ids ih =>
    -- a node that has been marked would give the same event
    have hother : (markFailed s k).2.failedEvent = s.2.failedEvent := by
      funext id
      unfold LoopyClusterRegistry.failedEvent
      rw [find_markFailed]
      split
      · exact Option.map_map ..
      · rfl
    rw [List.foldl_cons, ih, hother, List.filterMap_cons]
    unfold markFailed LoopyClusterRegistry.failedEvent
    cases s.2.nodes.find k with
    | none => rfl
    | some node => exact List.append_assoc ..

end fail

/-! ## One call -/

section call

variable {r : LoopyClusterRegistry} {now : UInt64} {key id : CString}

theorem isSome_expiredEvent (h : key ∈ r.allExpired now) : (r.expiredEvent key).isSome = true := by
  obtain ⟨entry, hfind, -⟩ := mem_allExpired.mp h
  rw [LoopyClusterRegistry.expiredEvent, hfind]
  rfl

theorem isSome_failedEvent (h : id ∈ r.allTimedOut now) : (r.failedEvent id).isSome = true := by
  obtain ⟨node, hfind, -⟩ := mem_allTimedOut.mp h
  rw [LoopyClusterRegistry.failedEvent, hfind]
  rfl

/-- What a call does, as the code sees the nodes. -/
theorem process_spec (r : LoopyClusterRegistry) (now : UInt64) :
    Processed r (r.allExpired now) (r.allTimedOut now) (r.process now []) := by
  -- the first half leaves the nodes
  obtain ⟨hnodes, hlocal, htimeout⟩ := Detection.expireAll_same r now []
  obtain ⟨hversion, hfind⟩ := foldl_expireKey (r.expiredKeys now []) ([], r)
  have hevents : ((r.expiredKeys now []).foldl expireKey ([], r)).1 =
      ((r.allExpired now).take 64).filterMap r.expiredEvent := by
    rw [expiredKeys_eq]
    exact foldl_expireKey_events
      ((sorted_allExpired.imp ne_of_lt).sublist (List.take_sublist 64 _))
  unfold LoopyClusterRegistry.process
  unfold Detection.expireAll at hnodes hlocal htimeout
  generalize (r.expiredKeys now []).foldl expireKey ([], r) = s at *
  have htimedOut : s.2.allTimedOut now = r.allTimedOut now := by
    unfold LoopyClusterRegistry.allTimedOut
    rw [hnodes, hlocal, htimeout]
  have hfailed : s.2.failedEvent = r.failedEvent := by
    unfold LoopyClusterRegistry.failedEvent
    rw [hnodes]
  obtain ⟨hmarkLocal, hmarkTimeout, hmarkFind⟩ :=
    foldl_markFailed_nodes (s.2.failedNodeIds now []) s
  obtain ⟨hmarkVersion, hmarkData⟩ := foldl_markFailed (s.2.failedNodeIds now []) s
  have hmarkEvents := foldl_markFailed_events (s.2.failedNodeIds now []) s
  rw [hevents, hfailed, failedNodeIds_eq, htimedOut] at hmarkEvents
  dsimp only
  refine ⟨?_, ?_, fun key => ?_, fun id => ?_, hmarkLocal.trans hlocal, hmarkTimeout.trans htimeout,
    hmarkVersion.trans hversion⟩
  · rw [failedNodeIds_eq, htimedOut, hmarkEvents]
  · rw [failedNodeIds_eq, htimedOut, hmarkEvents, List.length_append,
      length_filterMap_of_some fun key h => isSome_expiredEvent (List.mem_of_mem_take h),
      length_filterMap_of_some fun id h => isSome_failedEvent (List.mem_of_mem_take h),
      List.length_take, List.length_take]
  · rw [hmarkData, hfind, expiredKeys_eq]
  · rw [hmarkFind, hnodes, failedNodeIds_eq, htimedOut]

/-- The expired keys that are left. -/
theorem allExpired_process (r : LoopyClusterRegistry) :
    (processed now r).allExpired now = (r.allExpired now).drop 64 := by
  have hspec := process_spec r now
  refine sorted_allExpired.eq_of_mem_iff (sorted_allExpired.sublist (List.drop_sublist 64 _))
    fun key => ?_
  rw [mem_drop_iff (sorted_allExpired.imp ne_of_lt), mem_allExpired, mem_allExpired, processed,
    hspec.removed key]
  split
  · next hmem => simp [hmem]
  · next hmem => simp [hmem]

/-- The nodes that are left. -/
theorem allTimedOut_process (r : LoopyClusterRegistry) :
    (processed now r).allTimedOut now = (r.allTimedOut now).drop 64 := by
  have hspec := process_spec r now
  refine sorted_allTimedOut.eq_of_mem_iff (sorted_allTimedOut.sublist (List.drop_sublist 64 _))
    fun id => ?_
  rw [mem_drop_iff (sorted_allTimedOut.imp ne_of_lt), mem_allTimedOut, mem_allTimedOut, processed,
    hspec.marked id, hspec.localNodeId, hspec.failureTimeoutMs]
  split
  · next hmem =>
    refine iff_of_false ?_ fun h => h.2 hmem
    rintro ⟨node, hfind, htimedOut⟩
    obtain ⟨old, -, rfl⟩ := Option.map_eq_some_iff.mp hfind
    simp [LoopyClusterNode.timedOut] at htimedOut
  · next hmem => simp [hmem]

theorem expiredEvents_process (r : LoopyClusterRegistry) :
    ((processed now r).allExpired now).filterMap (processed now r).expiredEvent =
      ((r.allExpired now).filterMap r.expiredEvent).drop 64 := by
  have hsame : ∀ key ∈ (r.allExpired now).drop 64,
      (processed now r).expiredEvent key = r.expiredEvent key := by
    intro key hkey
    have hnot := (mem_drop_iff (sorted_allExpired.imp ne_of_lt)).mp hkey |>.2
    have hfind := (process_spec r now).removed key
    rw [if_neg hnot] at hfind
    exact congrArg (Option.map _) hfind
  rw [allExpired_process, List.filterMap_congr hsame,
    (filterMap_take_drop fun key h => isSome_expiredEvent h).2]

theorem failedEvents_process (r : LoopyClusterRegistry) :
    ((processed now r).allTimedOut now).filterMap (processed now r).failedEvent =
      ((r.allTimedOut now).filterMap r.failedEvent).drop 64 := by
  have hsame : ∀ id ∈ (r.allTimedOut now).drop 64,
      (processed now r).failedEvent id = r.failedEvent id := by
    intro id hid
    have hnot := (mem_drop_iff (sorted_allTimedOut.imp ne_of_lt)).mp hid |>.2
    have hfind := (process_spec r now).marked id
    rw [if_neg hnot] at hfind
    exact congrArg (Option.map _) hfind
  rw [allTimedOut_process, List.filterMap_congr hsame,
    (filterMap_take_drop fun id h => isSome_failedEvent h).2]

theorem processEvents_eq (r : LoopyClusterRegistry) : processEvents now r =
    ((r.allExpired now).filterMap r.expiredEvent).take 64 ++
      ((r.allTimedOut now).filterMap r.failedEvent).take 64 := by
  rw [processEvents, (process_spec r now).events,
    (filterMap_take_drop fun key h => isSome_expiredEvent h).1,
    (filterMap_take_drop fun id h => isSome_failedEvent h).1]

/-! ## The times -/

theorem timedOut_eq_overdue {node : LoopyClusterNode} (h : node.lastSeen ≤ now) (localNodeId : CString)
    (failureTimeoutMs : UInt32) :
    node.timedOut localNodeId failureTimeoutMs now =
      node.overdue localNodeId failureTimeoutMs now := by
  have hle : node.lastSeen.toNat ≤ now.toNat := UInt64.le_iff_toNat_le.mp h
  have hlate : now - node.lastSeen > failureTimeoutMs.toUInt64 ↔
      node.lastSeen.toNat + failureTimeoutMs.toNat < now.toNat := by
    rw [gt_iff_lt, UInt64.lt_iff_toNat_lt, UInt64.toNat_sub_of_le _ _ h, UInt32.toNat_toUInt64]
    omega
  unfold LoopyClusterNode.timedOut LoopyClusterNode.overdue
  rw [decide_eq_decide.mpr hlate]

/-- If no node was seen later, the difference of the times does not wrap. -/
theorem allTimedOut_eq_allOverdue (h : r.SeenBy now) : r.allTimedOut now = r.allOverdue now := by
  refine List.filter_congr fun id _ => ?_
  cases hfind : r.nodes.find id with
  | none => rfl
  | some node => exact timedOut_eq_overdue (h id node hfind) ..

theorem seenBy_process (h : r.SeenBy now) : (processed now r).SeenBy now := by
  intro id node hnode
  have hmarked := (process_spec r now).marked id
  rw [processed, Option.mem_def, hmarked] at hnode
  split at hnode
  · obtain ⟨old, hold, rfl⟩ := Option.map_eq_some_iff.mp hnode
    exact h id old hold
  · exact h id node hnode

theorem seenBy_iterate (h : r.SeenBy now) (n : ℕ) : ((processed now)^[n] r).SeenBy now := by
  induction n with
  | zero => exact h
  | succ n ih =>
    rw [Function.iterate_succ_apply']
    exact seenBy_process ih

end call

/-- **Maintenance makes progress**: every call takes the first 64 of what there is to do, and so many
calls as it takes leave nothing, with one event for everything. -/
theorem process_progress {r : LoopyClusterRegistry} {now : UInt64} (h : r.SeenBy now) :
    Processed r (r.allExpired now) (r.allOverdue now) (r.process now []) ∧
      ∀ n, (r.allExpired now).length ≤ 64 * n → (r.allOverdue now).length ≤ 64 * n →
        Finished r now n := by
  have hspec := process_spec r now
  rw [allTimedOut_eq_allOverdue h] at hspec
  refine ⟨hspec, fun n hexpired hoverdue => ?_⟩
  have hnoKey : ((processed now)^[n] r).allExpired now = [] := by
    rw [pending_iterate (LoopyClusterRegistry.allExpired · now) allExpired_process,
      List.drop_of_length_le hexpired]
  have hnoNode : ((processed now)^[n] r).allOverdue now = [] := by
    rw [← allTimedOut_eq_allOverdue (seenBy_iterate h n),
      pending_iterate (LoopyClusterRegistry.allTimedOut · now) allTimedOut_process,
      allTimedOut_eq_allOverdue h, List.drop_of_length_le hoverdue]
  have hout : ∀ r, processEvents now r = _ := processEvents_eq
  have hevents := batchOutputs_perm hout expiredEvents_process failedEvents_process n r
  rw [allTimedOut_eq_allOverdue h,
    List.take_of_length_le ((List.length_filterMap_le ..).trans hexpired),
    List.take_of_length_le ((List.length_filterMap_le ..).trans hoverdue)] at hevents
  refine ⟨hnoKey, hnoNode, hevents, ?_⟩
  rw [processEvents_eq, allTimedOut_eq_allOverdue (seenBy_iterate h n), hnoKey, hnoNode]
  rfl

/-- A key with a lifetime is set at the time 0, and a node joins then. -/
def overdueRegistry : LoopyClusterRegistry :=
  let r := (LoopyClusterRegistry.new [97] none 0 100 .all 0).2
  let r := (r.registerNode [98] none 0 .all 0).2.2
  (r.configSet [99] [1] 10 .all 0).2.2

/-- At the time 500 the key has expired and the node has timed out. -/
theorem process_progress_overdue :
    Finished overdueRegistry 500 1 ∧
      processEvents 500 overdueRegistry =
        [.configChange ⟨[99], [1], 1, 10⟩, .nodeFailed ⟨[98], none, .failed, 0, 0, 0, 0⟩] := by
  have hseen : overdueRegistry.SeenBy 500 := by
    intro id node hnode
    by_cases hb : id = [98]
    · subst hb
      cases hnode
      decide
    · by_cases ha : id = [97]
      · subst ha
        cases hnode
        decide
      · have hnone : overdueRegistry.nodes.find id = none :=
          (OrderedMap.find_insert_of_ne hb).trans (OrderedMap.find_insert_of_ne ha)
        rw [hnone] at hnode
        cases hnode
  exact ⟨(process_progress hseen).2 1 (by decide) (by decide), by decide⟩

end Loopy.Cluster
