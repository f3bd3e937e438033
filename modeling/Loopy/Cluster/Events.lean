import Loopy.Cluster.Basic
import Loopy.Lib.Transducer

/-!
# `loopyClusterRegistry.c`: the events of the nodes

An observer replays the events of a registry. `loopyClusterRegisterNode` for a node that is
registered already sets its roles without an event: the observer knows the nodes, their states
and the leaders exactly as long as no such call changes the leader bit (`events_complete`).
-/

namespace Loopy.Cluster

open Loopy.Lib
open Function (update update_eq_self update_self)

/-! ## The observer -/

/-- What an observer knows of a node. -/
structure Member where
  state : LoopyNodeState
  leader : Bool
deriving DecidableEq, Repr

/-- What an observer knows of a cluster. -/
abbrev Replica := CString → Option Member

/-- An event is replayed. -/
def replay (replica : Replica) : ClusterEvent → Replica
  | .nodeJoined node =>
    update replica node.nodeId
      (some { state := node.state, leader := isLeader node.roles })
  | .nodeLeft node => update replica node.nodeId none
  | .nodeFailed node | .nodeState node =>
    update replica node.nodeId
      ((replica node.nodeId).map fun member => { member with state := node.state })
  | .leaderChange node =>
    update replica node.nodeId
      ((replica node.nodeId).map fun member => { member with leader := isLeader node.roles })
  | .configChange _ => replica

/-- What there is to know of a node. -/
def LoopyClusterNode.member (node : LoopyClusterNode) : Member :=
  { state := node.state, leader := isLeader node.roles }

/-- What there is to know of a registry. -/
def LoopyClusterRegistry.view (r : LoopyClusterRegistry) : Replica :=
  fun nodeId => (r.nodes.find nodeId).map LoopyClusterNode.member

/-! ## The machine -/

/-- The calls; the last three are for the handle that `loopyClusterGetNode` returns. -/
inductive NodeCall
  | registerNode (nodeId : CString) (address : Option CString) (roles : UInt32)
    (luck : RegisterLuck) (now : UInt64)
  | unregisterNode (nodeId : CString)
  | process (now : UInt64) (noMemory : List CString)
  | nodeSetState (nodeId : CString) (state : LoopyNodeState) (now : UInt64)
  | nodeSetRoles (nodeId : CString) (roles : UInt32)
  | nodeHeartbeat (nodeId : CString) (now later : UInt64)
deriving DecidableEq, Repr

/-- A call with the handle of a node; there is none for a node that is not registered. -/
def LoopyClusterRegistry.withNode (r : LoopyClusterRegistry) (nodeId : CString)
    (f : LoopyClusterNode → List ClusterEvent × LoopyClusterRegistry) :
    List ClusterEvent × LoopyClusterRegistry :=
  match r.nodes.find nodeId with
  | none => ([], r)
  | some node => f node

/-- One call, with the events that it emits. -/
def LoopyClusterRegistry.nodeCall (r : LoopyClusterRegistry) :
    NodeCall → List ClusterEvent × LoopyClusterRegistry
  | .registerNode nodeId address roles luck now =>
    (r.registerNode nodeId address roles luck now).2
  | .unregisterNode nodeId => (r.unregisterNode nodeId).2
  | .process now noMemory => r.process now noMemory
  | .nodeSetState nodeId state now =>
    r.withNode nodeId fun node => r.nodeSetState nodeId node state now
  | .nodeSetRoles nodeId roles => r.withNode nodeId fun node => r.nodeSetRoles nodeId node roles
  | .nodeHeartbeat nodeId now later =>
    r.withNode nodeId fun node => r.nodeHeartbeat nodeId node now later

/-- A registry and its observer. -/
structure Observed where
  registry : LoopyClusterRegistry
  replica : Replica

/-- The observer replays the events of a call. -/
def Observed.step (s : Observed) (c : NodeCall) : List ClusterEvent × Observed :=
  let (events, registry) := s.registry.nodeCall c
  (events, { registry, replica := events.foldl replay s.replica })

/-- A new registry; the observer has seen the local node join. -/
def Observed.new (localNodeId : CString) (localAddress : Option CString)
    (localRoles failureTimeoutMs : UInt32) (luck : RegisterLuck) (now : UInt64) : Observed :=
  let (events, registry) :=
    LoopyClusterRegistry.new localNodeId localAddress localRoles failureTimeoutMs luck now
  { registry, replica := events.foldl replay fun _ => none }

/-- The observer knows the nodes, their states and the leaders. -/
def Observed.Complete (s : Observed) : Prop := s.replica = s.registry.view

/-- A node that is registered again keeps its leader bit. -/
def KeepsLeader (s : Observed) : NodeCall → Prop
  | .registerNode nodeId _ roles _ _ =>
    ∀ node ∈ s.registry.nodes.find nodeId, isLeader roles = isLeader node.roles
  | _ => True

instance (s : Observed) : ∀ c, Decidable (KeepsLeader s c)
  | .registerNode nodeId _ roles _ _ =>
    inferInstanceAs
      (Decidable (∀ node ∈ s.registry.nodes.find nodeId, isLeader roles = isLeader node.roles))
  | .unregisterNode _ | .process .. | .nodeSetState .. | .nodeSetRoles .. | .nodeHeartbeat .. =>
    isTrue trivial

/-! ## The nodes have their own ids -/

/-- A node is registered under its id. -/
def Named (r : LoopyClusterRegistry) : Prop :=
  ∀ nodeId node, r.nodes.find nodeId = some node → node.nodeId = nodeId

variable {r r' : LoopyClusterRegistry} {nodeId : CString} {node : LoopyClusterNode}

theorem Named.setNode (h : Named r) (hnode : node.nodeId = nodeId) :
    Named (r.setNode nodeId node) := by
  intro id n hn
  by_cases hid : id = nodeId
  · subst hid
    rw [LoopyClusterRegistry.setNode, OrderedMap.find_insert_self] at hn
    cases hn
    exact hnode
  · rw [LoopyClusterRegistry.setNode, OrderedMap.find_insert_of_ne hid] at hn
    exact h id n hn

theorem Named.erase (h : Named r) (nodeId : CString) :
    Named { r with nodes := r.nodes.erase nodeId } := by
  intro id n hn
  by_cases hid : id = nodeId
  · subst hid
    rw [OrderedMap.find_erase_self] at hn
    cases hn
  · rw [OrderedMap.find_erase_of_ne hid] at hn
    exact h id n hn

/-! ## What the observer sees of a write -/

theorem view_setNode : (r.setNode nodeId node).view =
    update r.view nodeId (some node.member) := by
  unfold LoopyClusterRegistry.view LoopyClusterRegistry.setNode
  rw [OrderedMap.find_insert]
  exact Function.comp_update (Option.map LoopyClusterNode.member) r.nodes.find nodeId (some node)

theorem view_erase : LoopyClusterRegistry.view { r with nodes := r.nodes.erase nodeId } =
    update r.view nodeId none := by
  unfold LoopyClusterRegistry.view
  rw [OrderedMap.find_erase]
  exact Function.comp_update (Option.map LoopyClusterNode.member) r.nodes.find nodeId none

theorem view_of_find (h : r.nodes.find nodeId = some node) : r.view nodeId = some node.member := by
  rw [LoopyClusterRegistry.view, h]
  rfl

/-- A node is written, and the observer sees the same of it. -/
theorem view_setNode_same {node' : LoopyClusterNode} (h : r.nodes.find nodeId = some node)
    (hmember : node'.member = node.member) : (r.setNode nodeId node').view = r.view := by
  rw [view_setNode, hmember, ← view_of_find h]
  exact update_eq_self _ _

/-- The events of a step bring the observer from one registry to the next one. -/
structure Follows (r : LoopyClusterRegistry) (s : List ClusterEvent × LoopyClusterRegistry) :
    Prop where
  named : Named s.2
  replayed : s.1.foldl replay r.view = s.2.view

theorem Follows.refl (h : Named r) : Follows r ([], r) := ⟨h, rfl⟩

/-- A write without an event. -/
theorem Follows.silent (h : Named r) (node' : LoopyClusterNode)
    (hnode : r.nodes.find nodeId = some node) (hid : node'.nodeId = node.nodeId)
    (hmember : node'.member = node.member) : Follows r ([], r.setNode nodeId node') :=
  ⟨h.setNode (hid.trans (h nodeId node hnode)), (view_setNode_same hnode hmember).symm⟩

/-- A write of the state, with an event. -/
theorem Follows.state (h : Named r) (node' : LoopyClusterNode)
    (hnode : r.nodes.find nodeId = some node) (hid : node'.nodeId = node.nodeId)
    (hroles : node'.roles = node.roles) {event : ClusterEvent}
    (hevent : event = .nodeState (nodeToInfo node') ∨ event = .nodeFailed (nodeToInfo node')) :
    Follows r ([event], r.setNode nodeId node') := by
  have hname : node'.nodeId = nodeId := hid.trans (h nodeId node hnode)
  refine ⟨h.setNode hname, ?_⟩
  have hreplay : replay r.view event = update r.view node'.nodeId
      ((r.view node'.nodeId).map fun member => { member with state := node'.state }) := by
    rcases hevent with rfl | rfl <;> rfl
  rw [List.foldl_cons, List.foldl_nil, hreplay, hname, view_of_find hnode, view_setNode]
  congr 1
  rw [Option.map_some, LoopyClusterNode.member, LoopyClusterNode.member, hroles]

/-- A write of the roles, with an event. -/
theorem Follows.roles (h : Named r) (node' : LoopyClusterNode)
    (hnode : r.nodes.find nodeId = some node) (hid : node'.nodeId = node.nodeId)
    (hstate : node'.state = node.state) :
    Follows r ([.leaderChange (nodeToInfo node')], r.setNode nodeId node') := by
  have hname : node'.nodeId = nodeId := hid.trans (h nodeId node hnode)
  refine ⟨h.setNode hname, ?_⟩
  show update r.view node'.nodeId ((r.view node'.nodeId).map fun member =>
    { member with leader := isLeader node'.roles }) = (r.setNode nodeId node').view
  rw [hname, view_of_find hnode, view_setNode]
  congr 1
  rw [Option.map_some, LoopyClusterNode.member, LoopyClusterNode.member, hstate]

/-! ## The calls -/

theorem nodeSetState_follows (h : Named r) (hnode : r.nodes.find nodeId = some node)
    (state : LoopyNodeState) (now : UInt64) :
    Follows r (r.nodeSetState nodeId node state now) := by
  unfold LoopyClusterRegistry.nodeSetState
  dsimp only
  split
  · exact .state h { node with state := state, lastSeen := now } hnode rfl rfl (.inl rfl)
  · next hsame =>
    refine .silent h { node with state := state, lastSeen := now } hnode rfl ?_
    rw [LoopyClusterNode.member, LoopyClusterNode.member, not_not.mp hsame]

theorem nodeSetRoles_follows (h : Named r) (hnode : r.nodes.find nodeId = some node)
    (roles : UInt32) : Follows r (r.nodeSetRoles nodeId node roles) := by
  unfold LoopyClusterRegistry.nodeSetRoles
  dsimp only
  split
  · exact .roles h { node with roles := roles } hnode rfl rfl
  · next hsame =>
    refine .silent h { node with roles := roles } hnode rfl ?_
    rw [LoopyClusterNode.member, LoopyClusterNode.member, not_not.mp hsame]

theorem nodeHeartbeat_follows (h : Named r) (hnode : r.nodes.find nodeId = some node)
    (now later : UInt64) : Follows r (r.nodeHeartbeat nodeId node now later) := by
  have hseen : Follows r ([], r.setNode nodeId { node with lastSeen := now }) :=
    .silent h { node with lastSeen := now } hnode rfl rfl
  unfold LoopyClusterRegistry.nodeHeartbeat
  dsimp only
  split
  · have hset := nodeSetState_follows hseen.named (OrderedMap.find_insert_self) .active later
    refine ⟨hset.named, ?_⟩
    have hview : r.view = (r.setNode nodeId { node with lastSeen := now }).view := hseen.replayed
    rw [hview]
    exact hset.replayed
  · exact hseen

theorem unregisterNode_follows (h : Named r) (nodeId : CString) :
    Follows r (r.unregisterNode nodeId).2 := by
  unfold LoopyClusterRegistry.unregisterNode
  split
  · exact .refl h
  · split
    · exact .refl h
    · next node hnode =>
      refine ⟨h.erase nodeId, ?_⟩
      show update r.view node.nodeId none = _
      rw [h nodeId node hnode, view_erase]

theorem newNode_follows (h : Named r) (hnode : node.nodeId = nodeId) :
    Follows r ([.nodeJoined (nodeToInfo node)], r.setNode nodeId node) := by
  refine ⟨h.setNode hnode, ?_⟩
  show update r.view node.nodeId (some node.member) = _
  rw [hnode, view_setNode]

/-- The first registration of a node is seen. -/
theorem registerNode_follows (h : Named r) (hnew : r.nodes.find nodeId = none)
    (address : Option CString) (roles : UInt32) (luck : RegisterLuck) (now : UInt64) :
    Follows r (r.registerNode nodeId address roles luck now).2 := by
  unfold LoopyClusterRegistry.registerNode
  rw [hnew]
  dsimp only
  split
  · exact .refl h
  · split
    · exact .refl h
    · split
      · exact .refl h
      · exact newNode_follows h rfl

theorem registerNode_again (hnode : r.nodes.find nodeId = some node) (address : Option CString)
    (roles : UInt32) (luck : RegisterLuck) (now : UInt64) :
    (r.registerNode nodeId address roles luck now).2 =
      ([], r.setNode nodeId (node.registerAgain address roles luck now)) := by
  unfold LoopyClusterRegistry.registerNode
  rw [hnode]

/-- The observer does not see a second registration. -/
theorem registerAgain_view (hnode : r.nodes.find nodeId = some node) (address : Option CString)
    (roles : UInt32) (luck : RegisterLuck) (now : UInt64) :
    r.view = (r.setNode nodeId (node.registerAgain address roles luck now)).view ↔
      isLeader roles = isLeader node.roles := by
  rw [view_setNode]
  constructor
  · intro hview
    have hat := congrFun hview nodeId
    rw [view_of_find hnode, update_self] at hat
    exact (congrArg Member.leader (Option.some.inj hat)).symm
  · intro hleader
    have hmember : (node.registerAgain address roles luck now).member = node.member := by
      show Member.mk node.state (isLeader roles) = Member.mk node.state (isLeader node.roles)
      rw [hleader]
    rw [hmember, ← view_of_find hnode, update_eq_self]

variable {s : List ClusterEvent × LoopyClusterRegistry}

/-- A loop that appends its events. -/
theorem Follows.foldl
    {f : List ClusterEvent × LoopyClusterRegistry → CString →
      List ClusterEvent × LoopyClusterRegistry}
    (hf : ∀ s id, Follows r s → Follows r (f s id)) (ids : List CString) (h : Follows r s) :
    Follows r (ids.foldl f s) := by
  induction ids generalizing s with
  | nil => exact h
  | cons id ids ih => exact ih (hf s id h)

theorem expireKey_follows (h : Follows r s) (key : CString) : Follows r (expireKey s key) := by
  unfold expireKey
  split
  · exact h
  · refine ⟨h.named, ?_⟩
    rw [List.foldl_append, h.replayed]
    rfl

theorem markFailed_follows (h : Follows r s) (nodeId : CString) :
    Follows r (markFailed s nodeId) := by
  unfold markFailed
  split
  · exact h
  · next node hnode =>
    have hone : Follows s.2 ([.nodeFailed (nodeToInfo { node with state := .failed })],
        s.2.setNode nodeId { node with state := .failed }) :=
      .state h.named { node with state := .failed } hnode rfl rfl (.inr rfl)
    refine ⟨hone.named, ?_⟩
    rw [List.foldl_append, h.replayed]
    exact hone.replayed

theorem process_follows (h : Named r) (now : UInt64) (noMemory : List CString) :
    Follows r (r.process now noMemory) :=
  .foldl (fun _ id hs => markFailed_follows hs id) _
    (.foldl (fun _ key hs => expireKey_follows hs key) _ (.refl h))

theorem withNode_follows (h : Named r) (nodeId : CString)
    {f : LoopyClusterNode → List ClusterEvent × LoopyClusterRegistry}
    (hf : ∀ node, r.nodes.find nodeId = some node → Follows r (f node)) :
    Follows r (r.withNode nodeId f) := by
  unfold LoopyClusterRegistry.withNode
  split
  · exact .refl h
  · next node hnode => exact hf node hnode

/-- Every call but a second registration is seen. -/
theorem nodeCall_follows (h : Named r) (c : NodeCall)
    (hc : ∀ nodeId address roles luck now, c = .registerNode nodeId address roles luck now →
      r.nodes.find nodeId = none) : Follows r (r.nodeCall c) := by
  cases c with
  | registerNode nodeId address roles luck now =>
    exact registerNode_follows h (hc _ _ _ _ _ rfl) address roles luck now
  | unregisterNode nodeId => exact unregisterNode_follows h nodeId
  | process now noMemory => exact process_follows h now noMemory
  | nodeSetState nodeId state now =>
    exact withNode_follows h nodeId fun node hnode => nodeSetState_follows h hnode state now
  | nodeSetRoles nodeId roles =>
    exact withNode_follows h nodeId fun node hnode => nodeSetRoles_follows h hnode roles
  | nodeHeartbeat nodeId now later =>
    exact withNode_follows h nodeId fun node hnode => nodeHeartbeat_follows h hnode now later

theorem nodeCall_named (h : Named r) (c : NodeCall) : Named (r.nodeCall c).2 := by
  by_cases hc : ∀ nodeId address roles luck now, c = .registerNode nodeId address roles luck now →
      r.nodes.find nodeId = none
  · exact (nodeCall_follows h c hc).named
  · push Not at hc
    obtain ⟨nodeId, address, roles, luck, now, rfl, hfind⟩ := hc
    obtain ⟨node, hnode⟩ := Option.ne_none_iff_exists'.mp hfind
    rw [LoopyClusterRegistry.nodeCall, registerNode_again hnode]
    exact h.setNode (h nodeId node hnode)

/-- **A call.** The observer still knows everything if and only if a node that is registered again
keeps its leader bit. -/
theorem step_complete (s : Observed) (c : NodeCall) (h : Named s.registry)
    (hcomplete : s.Complete) : (s.step c).2.Complete ↔ KeepsLeader s c := by
  have hstep : (s.step c).2.Complete ↔
      (s.registry.nodeCall c).1.foldl replay s.registry.view = (s.registry.nodeCall c).2.view := by
    rw [← hcomplete]
    rfl
  rw [hstep]
  by_cases hc : ∀ nodeId address roles luck now, c = .registerNode nodeId address roles luck now →
      s.registry.nodes.find nodeId = none
  · refine iff_of_true (nodeCall_follows h c hc).replayed ?_
    cases c with
    | registerNode nodeId address roles luck now =>
      intro node hnode
      rw [hc _ _ _ _ _ rfl] at hnode
      cases hnode
    | unregisterNode | process | nodeSetState | nodeSetRoles | nodeHeartbeat => trivial
  · push Not at hc
    obtain ⟨nodeId, address, roles, luck, now, rfl, hfind⟩ := hc
    obtain ⟨node, hnode⟩ := Option.ne_none_iff_exists'.mp hfind
    rw [LoopyClusterRegistry.nodeCall, registerNode_again hnode]
    refine (registerAgain_view hnode address roles luck now).trans ?_
    rw [KeepsLeader, hnode]
    exact ⟨fun hleader node' hnode' => by cases hnode'; exact hleader, fun hall => hall node rfl⟩

theorem named_empty (localNodeId : CString) (failureTimeoutMs : UInt32) :
    Named (.empty localNodeId failureTimeoutMs) := by
  intro nodeId node hfind
  cases hfind

theorem Observed.new_named (localNodeId : CString) (localAddress : Option CString)
    (localRoles failureTimeoutMs : UInt32) (luck : RegisterLuck) (now : UInt64) :
    Follows (.empty localNodeId failureTimeoutMs)
      (LoopyClusterRegistry.new localNodeId localAddress localRoles failureTimeoutMs luck now) :=
  registerNode_follows (named_empty localNodeId failureTimeoutMs) rfl localAddress localRoles luck
    now

/-- **The events are complete.** In every run the observer knows the nodes, their states and the
leaders after every call if and only if no call registers a node again with another leader bit. -/
theorem events_complete (localNodeId : CString) (localAddress : Option CString)
    (localRoles failureTimeoutMs : UInt32) (luck : RegisterLuck) (now : UInt64)
    (calls : List NodeCall) :
    (∀ n, (after Observed.step (.new localNodeId localAddress localRoles failureTimeoutMs luck now)
      (calls.take n)).Complete) ↔
    Along Observed.step KeepsLeader
      (.new localNodeId localAddress localRoles failureTimeoutMs luck now) calls := by
  have hnew := Observed.new_named localNodeId localAddress localRoles failureTimeoutMs luck now
  exact always_iff_along (P := fun s => Named s.registry) (fun s c h => nodeCall_named h c)
    step_complete calls hnew.named hnew.replayed

/-- Node `b` is registered a second time, as the leader. -/
theorem leader_unseen :
    ¬ ∀ (calls : List NodeCall) n, (after Observed.step (.new [97] none 0 5000 .all 0)
      (calls.take n)).Complete := by
  intro hall
  have hcomplete := hall [.registerNode [98] none 0 .all 1,
    .registerNode [98] none roleLeader .all 2] 2
  have hat := congrFun hcomplete [98]
  revert hat
  decide +kernel

end Loopy.Cluster
