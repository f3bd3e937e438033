import Loopy.Lib.Bytes
import Loopy.Lib.Keyed

/-!
# `loopyClusterRegistry.c`: the registry

A `loopyClusterRegistry` with its nodes and its configuration, and what its functions do when
nothing runs besides them. A function answers, emits events and changes the registry; the event
callback is not modelled. The clock and the success of allocations are arguments. Nodes are named
by their ids: a node that is unregistered is freed.
-/

namespace Loopy.Cluster

open Loopy.Lib

/-! ## Data -/

/-- `loopyNodeState`. -/
inductive LoopyNodeState
  | unknown
  | joining
  | active
  | draining
  | leaving
  | failed
deriving DecidableEq, Repr

/-- `LOOPY_ROLE_LEADER`. -/
def roleLeader : UInt32 := 2

/-- `roles & LOOPY_ROLE_LEADER`. -/
def isLeader (roles : UInt32) : Bool := decide (roles &&& roleLeader ≠ 0)

/-- `loopyClusterNode`. -/
structure LoopyClusterNode where
  nodeId : CString
  address : Option CString
  state : LoopyNodeState
  roles : UInt32
  joinTime : UInt64
  lastSeen : UInt64
  userData : ℕ
deriving DecidableEq, Repr

/-- `loopyNodeInfo`. -/
structure LoopyNodeInfo where
  nodeId : CString
  address : Option CString
  state : LoopyNodeState
  roles : UInt32
  joinTime : UInt64
  lastSeen : UInt64
  userData : ℕ
deriving DecidableEq, Repr

/-- `nodeToInfo`. -/
def nodeToInfo (node : LoopyClusterNode) : LoopyNodeInfo :=
  { nodeId := node.nodeId
    address := node.address
    state := node.state
    roles := node.roles
    joinTime := node.joinTime
    lastSeen := node.lastSeen
    userData := node.userData }

/-- `configEntry`. -/
structure ConfigEntry where
  value : List UInt8
  version : UInt64
  expireAt : UInt64
deriving DecidableEq, Repr

/-- `loopyConfigValue`. -/
structure LoopyConfigValue where
  key : CString
  value : List UInt8
  version : UInt64
  expireAt : UInt64
deriving DecidableEq, Repr

/-- The value of an entry, as callbacks see it. -/
def ConfigEntry.toValue (entry : ConfigEntry) (key : CString) : LoopyConfigValue :=
  { key, value := entry.value, version := entry.version, expireAt := entry.expireAt }

/-- `loopyClusterEventType`, with the data of the event. -/
inductive ClusterEvent
  | nodeJoined (node : LoopyNodeInfo)
  | nodeLeft (node : LoopyNodeInfo)
  | nodeFailed (node : LoopyNodeInfo)
  | nodeState (node : LoopyNodeInfo)
  | configChange (config : LoopyConfigValue)
  | leaderChange (node : LoopyNodeInfo)
deriving DecidableEq, Repr

/-- `loopyClusterRegistry`. -/
structure LoopyClusterRegistry where
  localNodeId : CString
  failureTimeoutMs : UInt32
  nodes : OrderedMap CString LoopyClusterNode
  configData : OrderedMap CString ConfigEntry
  configVersion : UInt64

/-- A registry without nodes. -/
def LoopyClusterRegistry.empty (localNodeId : CString) (failureTimeoutMs : UInt32) :
    LoopyClusterRegistry :=
  { localNodeId
    failureTimeoutMs
    nodes := .empty CString LoopyClusterNode
    configData := .empty CString ConfigEntry
    configVersion := 0 }

/-- A write to a node. -/
def LoopyClusterRegistry.setNode (r : LoopyClusterRegistry) (nodeId : CString)
    (node : LoopyClusterNode) : LoopyClusterRegistry :=
  { r with nodes := r.nodes.insert nodeId node }

/-! ## Nodes -/

/-- Which of the calls of `loopyClusterRegisterNode` succeed. -/
structure RegisterLuck where
  zcalloc : Bool
  strdupId : Bool
  strdupAddress : Bool
  raxTryInsert : Bool
deriving DecidableEq, Repr

/-- All of them succeed. -/
def RegisterLuck.all : RegisterLuck :=
  { zcalloc := true, strdupId := true, strdupAddress := true, raxTryInsert := true }

/-- What `loopyClusterRegisterNode` returns. -/
inductive NodeHandle
  | null
  /-- `RAX_NOT_FOUND`. -/
  | notFound
  | node (nodeId : CString)
deriving DecidableEq, Repr

/-- The node that `loopyClusterRegisterNode` makes. -/
def newNode (localNodeId nodeId : CString) (address : Option CString) (roles : UInt32)
    (luck : RegisterLuck) (now : UInt64) : LoopyClusterNode :=
  { nodeId
    address := if luck.strdupAddress then address else none
    state := if nodeId = localNodeId then .active else .joining
    roles
    joinTime := now
    lastSeen := now
    userData := 0 }

/-- What `loopyClusterRegisterNode` does to a node that is registered already. -/
def LoopyClusterNode.registerAgain (existing : LoopyClusterNode) (address : Option CString)
    (roles : UInt32) (luck : RegisterLuck) (now : UInt64) : LoopyClusterNode :=
  { existing with
    lastSeen := now
    address :=
      if existing.address = none then if luck.strdupAddress then address else none
      else existing.address
    roles }

namespace LoopyClusterRegistry

/-- `loopyClusterRegisterNode`. -/
def registerNode (r : LoopyClusterRegistry) (nodeId : CString)
    (address : Option CString) (roles : UInt32) (luck : RegisterLuck) (now : UInt64) :
    NodeHandle × List ClusterEvent × LoopyClusterRegistry :=
  match r.nodes.find nodeId with
  | some existing =>
    (.node nodeId, [], r.setNode nodeId (existing.registerAgain address roles luck now))
  | none =>
    if luck.zcalloc = false then (.null, [], r)
    else if luck.strdupId = false then (.null, [], r)
    else if luck.raxTryInsert = false then (.notFound, [], r)
    else
      let node := newNode r.localNodeId nodeId address roles luck now
      (.node nodeId, [.nodeJoined (nodeToInfo node)], r.setNode nodeId node)

/-- `loopyClusterRegistryNew`, once its allocations have succeeded; the local node may still not
be registered. -/
def new (localNodeId : CString) (localAddress : Option CString)
    (localRoles failureTimeoutMs : UInt32) (luck : RegisterLuck) (now : UInt64) :
    List ClusterEvent × LoopyClusterRegistry :=
  ((LoopyClusterRegistry.empty localNodeId failureTimeoutMs).registerNode localNodeId localAddress
    localRoles luck now).2

/-- `loopyClusterUnregisterNode`. -/
def unregisterNode (r : LoopyClusterRegistry) (nodeId : CString) :
    Bool × List ClusterEvent × LoopyClusterRegistry :=
  if nodeId = r.localNodeId then (false, [], r)
  else
    match r.nodes.find nodeId with
    | none => (false, [], r)
    | some node =>
      (true, [.nodeLeft (nodeToInfo node)], { r with nodes := r.nodes.erase nodeId })

/-- `loopyClusterNodeSetState`. -/
def nodeSetState (r : LoopyClusterRegistry) (nodeId : CString)
    (node : LoopyClusterNode) (state : LoopyNodeState) (now : UInt64) :
    List ClusterEvent × LoopyClusterRegistry :=
  let oldState := node.state
  let node := { node with state, lastSeen := now }
  (if oldState ≠ state then [.nodeState (nodeToInfo node)] else [], r.setNode nodeId node)

/-- `loopyClusterNodeSetRoles`. -/
def nodeSetRoles (r : LoopyClusterRegistry) (nodeId : CString)
    (node : LoopyClusterNode) (roles : UInt32) : List ClusterEvent × LoopyClusterRegistry :=
  let oldRoles := node.roles
  let node := { node with roles }
  (if isLeader oldRoles ≠ isLeader roles then [.leaderChange (nodeToInfo node)] else [],
    r.setNode nodeId node)

/-- `loopyClusterNodeHeartbeat`; it reads the clock a second time if the node is joining. -/
def nodeHeartbeat (r : LoopyClusterRegistry) (nodeId : CString)
    (node : LoopyClusterNode) (now later : UInt64) : List ClusterEvent × LoopyClusterRegistry :=
  let node := { node with lastSeen := now }
  let r := r.setNode nodeId node
  if node.state = .joining then r.nodeSetState nodeId node .active later else ([], r)

end LoopyClusterRegistry

/-! ## Configuration -/

/-- `entry->expireAt > 0 && now >= entry->expireAt`. -/
def ConfigEntry.expired (entry : ConfigEntry) (now : UInt64) : Bool :=
  decide (entry.expireAt > 0) && decide (now ≥ entry.expireAt)

/-- `ttlMs > 0 ? currentTimeMs() + ttlMs : 0`. -/
def deadline (ttlMs now : UInt64) : UInt64 := if ttlMs > 0 then now + ttlMs else 0

/-- Which of the calls of `loopyClusterConfigSet` succeed. -/
structure SetLuck where
  zcalloc : Bool
  zmalloc : Bool
  raxInsert : Bool
deriving DecidableEq, Repr

/-- All of them succeed. -/
def SetLuck.all : SetLuck := { zcalloc := true, zmalloc := true, raxInsert := true }

namespace LoopyClusterRegistry

/-- An entry is set. -/
def setEntry (r : LoopyClusterRegistry) (key : CString) (entry : ConfigEntry) :
    UInt64 × List ClusterEvent × LoopyClusterRegistry :=
  (entry.version, [.configChange (entry.toValue key)],
    { r with configData := r.configData.insert key entry, configVersion := entry.version })

/-- `loopyClusterConfigSet`. -/
def configSet (r : LoopyClusterRegistry) (key : CString) (value : List UInt8)
    (ttlMs : UInt64) (luck : SetLuck) (now : UInt64) :
    UInt64 × List ClusterEvent × LoopyClusterRegistry :=
  let entry := { value, version := r.configVersion + 1, expireAt := deadline ttlMs now }
  if value = [] then (0, [], r)
  else
    match r.configData.find key with
    | some _ => if luck.zmalloc = false then (0, [], r) else r.setEntry key entry
    | none =>
      if luck.zcalloc = false then (0, [], r)
      else if luck.zmalloc = false then (0, [], r)
      else if luck.raxInsert = false then (0, [], { r with configVersion := r.configVersion + 1 })
      else r.setEntry key entry

/-- `loopyClusterConfigGet`. -/
def configGet (r : LoopyClusterRegistry) (key : CString) (now : UInt64) :
    Option (List UInt8) :=
  match r.configData.find key with
  | none => none
  | some entry => if entry.expired now then none else some entry.value

/-- `loopyClusterConfigDelete`. -/
def configDelete (r : LoopyClusterRegistry) (key : CString) :
    Bool × List ClusterEvent × LoopyClusterRegistry :=
  match r.configData.find key with
  | none => (false, [], r)
  | some entry =>
    (true, [.configChange ({ entry with expireAt := 0 }.toValue key)],
      { r with configData := r.configData.erase key })

/-- `loopyClusterConfigExists`. -/
def configExists (r : LoopyClusterRegistry) (key : CString) (now : UInt64) :
    Bool :=
  match r.configData.find key with
  | none => false
  | some entry => decide (entry.expireAt = 0) || decide (now < entry.expireAt)

/-- `loopyClusterConfigVersion`; it does not ask whether the entry has expired. -/
def configVersionOf (r : LoopyClusterRegistry) (key : CString) : UInt64 :=
  match r.configData.find key with
  | none => 0
  | some entry => entry.version

/-- What `loopyClusterConfigIterate` tells a callback that does not stop: keys are copied to a
buffer of 256 bytes. The function returns the number of the calls. -/
def configIterate (r : LoopyClusterRegistry) (now : UInt64) :
    List LoopyConfigValue :=
  r.configData.keys.filterMap fun key =>
    match r.configData.find key with
    | none => none
    | some entry => if entry.expired now then none else some (entry.toValue (key.take 255))

/-! ## `loopyClusterProcess` -/

/-- The first 64 expired keys; `noMemory` are those that cannot be copied. -/
def expiredKeys (r : LoopyClusterRegistry) (now : UInt64)
    (noMemory : List CString) : List CString :=
  (r.configData.keys.filter fun key =>
    match r.configData.find key with
    | none => false
    | some entry => entry.expired now && decide (key ∉ noMemory)).take 64

end LoopyClusterRegistry

/-- An expired entry is removed. -/
def expireKey (s : List ClusterEvent × LoopyClusterRegistry) (key : CString) :
    List ClusterEvent × LoopyClusterRegistry :=
  match s.2.configData.find key with
  | none => s
  | some entry =>
    (s.1 ++ [.configChange (entry.toValue key)],
      { s.2 with configData := s.2.configData.erase key })

/-- A node that is not the local one, has not failed before, and has not been seen for
`failureTimeoutMs`. -/
def LoopyClusterNode.timedOut (node : LoopyClusterNode) (localNodeId : CString)
    (failureTimeoutMs : UInt32) (now : UInt64) : Bool :=
  decide (node.nodeId ≠ localNodeId) && decide (node.state ≠ .failed) &&
    decide (now - node.lastSeen > failureTimeoutMs.toUInt64)

/-- The ids of the first 64 nodes that have timed out. -/
def LoopyClusterRegistry.failedNodeIds (r : LoopyClusterRegistry) (now : UInt64)
    (noMemory : List CString) : List CString :=
  (r.nodes.keys.filter fun nodeId =>
    match r.nodes.find nodeId with
    | none => false
    | some node =>
      node.timedOut r.localNodeId r.failureTimeoutMs now && decide (nodeId ∉ noMemory)).take 64

/-- A node is marked failed. -/
def markFailed (s : List ClusterEvent × LoopyClusterRegistry) (nodeId : CString) :
    List ClusterEvent × LoopyClusterRegistry :=
  match s.2.nodes.find nodeId with
  | none => s
  | some node =>
    let node := { node with state := .failed }
    (s.1 ++ [.nodeFailed (nodeToInfo node)], s.2.setNode nodeId node)

/-- `loopyClusterProcess`; it returns the number of the events. -/
def LoopyClusterRegistry.process (r : LoopyClusterRegistry) (now : UInt64)
    (noMemory : List CString) : List ClusterEvent × LoopyClusterRegistry :=
  let s := (r.expiredKeys now noMemory).foldl expireKey ([], r)
  (s.2.failedNodeIds now noMemory).foldl markFailed s

end Loopy.Cluster
