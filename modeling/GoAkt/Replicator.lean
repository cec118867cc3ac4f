import GoAkt.Crdt

/-!
# Messages of the replicator

The commands local actors send, the protocol messages replicators exchange, and
what a handler reads from its surroundings while it processes one message. How a
replicated value is turned into bytes is a parameter, `Codec`; the key inside a
message is encoded and decoded here. Protocol messages are plain records, with
`Option` for the fields that may be missing.
-/
namespace GoAkt.Replication
open GoAkt.FiniteMaps GoAkt.Crdt

inductive DataType where
  | gCounter
  | pnCounter
  | lwwRegister
  | orSet
  | orMap
  | flag
  | mvRegister
  deriving DecidableEq, Repr

namespace DataType

def toInt : DataType → ℤ
  | gCounter => 0
  | pnCounter => 1
  | lwwRegister => 2
  | orSet => 3
  | orMap => 4
  | flag => 5
  | mvRegister => 6

def ofInt : ℤ → DataType
  | 1 => pnCounter
  | 2 => lwwRegister
  | 3 => orSet
  | 4 => orMap
  | 5 => flag
  | 6 => mvRegister
  | _ => gCounter

end DataType

structure Key where
  id : String
  dataType : DataType
  deriving DecidableEq, Repr

/-- The key on the wire; its data type is an open enumeration whose zero means
that nothing was specified. -/
structure CRDTKey where
  id : String
  dataType : ℤ
  deriving DecidableEq, Repr

def encodeCRDTKey (keyID : String) (dataType : DataType) : CRDTKey := ⟨keyID, dataType.toInt + 1⟩

def decodeCRDTKey : Option CRDTKey → Except String (String × DataType)
  | none => .error "nil CRDTKey"
  | some pb =>
    if pb.dataType = 0 then
      .error ("unspecified CRDT data type for key=" ++ pb.id)
    else if pb.dataType < 1 ∨ pb.dataType > 7 then
      .error ("unknown CRDT data type " ++ toString pb.dataType ++ " for key=" ++ pb.id)
    else .ok (pb.id, .ofInt (pb.dataType - 1))

/-- Every encoded key is accepted and decodes to itself. -/
@[simp] lemma decodeCRDTKey_encodeCRDTKey (keyID : String) (dataType : DataType) :
    decodeCRDTKey (some (encodeCRDTKey keyID dataType)) = .ok (keyID, dataType) := by
  cases dataType <;> rfl

/-- Conversion of values of type `V` to and from their wire form `W`. -/
structure Codec (V W : Type*) where
  encodeCRDT : V → Option W
  decodeCRDT : W → Option V

/-- A missing wire value does not decode. -/
def Codec.decode {V W : Type*} (codec : Codec V W) (data : Option W) : Option V :=
  data.bind codec.decodeCRDT

/-- The internal form of a delta. -/
structure Delta (V : Type*) where
  keyID : String
  dataType : DataType
  delta : V
  origin : NodeID

structure CRDTDelta (W : Type*) where
  key : Option CRDTKey
  originNode : NodeID
  data : Option W

structure CRDTTombstone where
  key : Option CRDTKey
  deletedAtNanos : ℤ
  deletedByNode : NodeID

structure CRDTDigestEntry where
  key : Option CRDTKey
  version : ℕ

structure CRDTFullStateEntry (W : Type*) where
  key : Option CRDTKey
  data : Option W

structure CRDTReadRequest where
  key : Option CRDTKey
  fromNode : NodeID

structure CRDTReadResponse (W : Type*) where
  key : Option CRDTKey
  data : Option W
  fromNode : NodeID

structure CRDTSnapshotEntry (W : Type*) where
  key : CRDTKey
  data : W
  version : ℕ

structure DataCenter where
  name : String
  region : String
  zone : String
  deriving DecidableEq, Repr

structure CRDTDeltaBatch (W : Type*) where
  deltas : List (CRDTDelta W)
  tombstones : List CRDTTombstone
  originDc : Option DataCenter
  sentAtNanos : ℤ

/-- Zero in the source means that no coordination is asked for. -/
inductive Coordination where
  | unset
  | majority
  | all
  | dcMajority
  | dcAll
  deriving DecidableEq, Repr

structure Update (V : Type*) where
  key : Key
  initial : V
  modify : V → V
  writeTo : Coordination

abbrev ActorID := String

structure Peer where
  host : String
  remotingPort : ℕ
  deriving DecidableEq, Repr

abbrev Address := String

/-- What a handler reads from outside while it processes one message. `peers` is
`none` if the cluster cannot be asked, `draw` are the random choices, and `remoteAsk`
is `none` if the call fails and `some none` if the answer has another type. -/
structure Context (W : Type*) where
  sender : Option ActorID
  now : ℤ
  peers : Option (List Peer)
  draw : ℕ → ℕ
  remoteLookup : Peer → Option Address
  remoteAsk : Address → CRDTReadRequest → Option (Option (CRDTReadResponse W))
  isRunning : ActorID → Bool
  isLeader : Bool

inductive Message (V W : Type*) where
  | update (msg : Update V)
  | get (key : Key) (readFrom : Coordination)
  | subscribe (key : Key)
  | unsubscribe (key : Key)
  | delete (key : Key) (writeTo : Coordination)
  | terminated (actorID : ActorID)
  | protoDelta (msg : CRDTDelta W)
  | delta (msg : Delta V)
  | protoTombstone (msg : CRDTTombstone)
  | readRequest (msg : CRDTReadRequest)
  | digest (entries : List CRDTDigestEntry)
  | fullState (entries : List (CRDTFullStateEntry W))
  | batch (msg : CRDTDeltaBatch W)
  | dataCenterDigestRequest
  | dataCenterFlushTick
  | antiEntropyTick
  | pruneTick
  | snapshotTick

inductive Response (V W : Type*) where
  | updated
  | deleted
  | value (key : Key) (data : Option V)
  | read (msg : CRDTReadResponse W)
  | digest (entries : List CRDTDigestEntry)

/-- What a handler sends. `fail` reports an error to the supervisor. -/
inductive Effect (V W : Type*) where
  | respond (response : Response V W)
  | publishDelta (msgID topic : String) (msg : CRDTDelta W)
  | publishTombstone (msgID topic : String) (msg : CRDTTombstone)
  | tellDelta (target : Address) (msg : CRDTDelta W)
  | tellTombstone (target : Address) (msg : CRDTTombstone)
  | tellDigest (target : Address) (entries : List CRDTDigestEntry)
  | tellFullState (target : ActorID) (entries : List (CRDTFullStateEntry W))
  | sendBatch (msg : CRDTDeltaBatch W)
  | saveSnapshot (entries : Map String (CRDTSnapshotEntry W))
  | changed (watcher : ActorID) (data : V)
  | watch (actor : ActorID)
  | fail

/-- How many peers an operation contacts. The data center levels contact none. -/
def targetCount (peerCount : ℕ) : Coordination → ℕ
  | .majority =>
    let count := peerCount / 2 + 1
    if count > peerCount then peerCount else count
  | .all => peerCount
  | _ => 0

def swapAt {α : Type*} (l : List α) (i j : ℕ) : List α :=
  match l[i]?, l[j]? with
  | some a, some b => (l.set i b).set j a
  | _, _ => l

/-- A partial Fisher-Yates shuffle of a copy, cut after `count` positions. -/
def selectPeers (peers : List Peer) (count : ℕ) (draw : ℕ → ℕ) : List Peer :=
  if count ≥ peers.length then peers
  else if count = 0 then []
  else ((List.range count).foldl (fun shuffled i =>
    swapAt shuffled i (i + draw i % (shuffled.length - i))) peers).take count

/-!
## The replicator

One node's store of replicated values, as a state and one handler per message.
A handler returns the new state and what it sends. Values of `V` are used through
`ReplicatedData` only. The version of a key counts the writes of its value at
this node; it is a `uint64` in the source and a natural number here. Metrics, log
lines and the schedules that produce the ticks are left out.
-/
open GoAkt.Joins

def crdtTopic : String := "goakt.crdt.deltas"

/-- A deleted key, with the time and node of the deletion. -/
structure Tombstone where
  keyID : String
  dataType : DataType
  deletedAt : ℤ
  deletedBy : NodeID
  deriving DecidableEq, Repr

structure Config where
  tombstoneTTL : ℤ
  dataCenterEnabled : Bool
  snapshotEnabled : Bool

structure Replicator (V W : Type*) where
  nodeID : NodeID
  config : Config
  dc : DataCenter
  hasTopicActor : Bool
  store : Map String V
  keyTypes : Map String DataType
  subscriptions : Map String Unit
  watchers : Map String (List ActorID)
  tombstones : Map String Tombstone
  versions : Map String ℕ
  msgSeq : ℕ
  pendingDeltas : List (CRDTDelta W)
  pendingTombstones : List CRDTTombstone

/-- The state after start-up without a snapshot. -/
def newReplicator {V W : Type*} (nodeID : NodeID) (config : Config) (dc : DataCenter)
    (hasTopicActor : Bool) : Replicator V W where
  nodeID := nodeID
  config := config
  dc := dc
  hasTopicActor := hasTopicActor
  store := ∅
  keyTypes := ∅
  subscriptions := ∅
  watchers := ∅
  tombstones := ∅
  versions := ∅
  msgSeq := 0
  pendingDeltas := []
  pendingTombstones := []

abbrev Outcome (V W : Type*) := Replicator V W × List (Effect V W)

namespace Replicator
variable {V W : Type*} [ReplicatedData V]

section Helpers
omit [ReplicatedData V]

variable (codec : Codec V W) (r : Replicator V W) (ctx : Context W) (keyID : String)
  (dataType : DataType)

def isTombstoned : Bool := (r.tombstones.lookup keyID).isSome

/-- The version of a key; a missing one reads as zero. -/
def version : ℕ := (r.versions.lookup keyID).getD 0

/-- The data type of a key; a missing one reads as the zero type. -/
def keyType : DataType := (r.keyTypes.lookup keyID).getD .gCounter

def trackKey : Replicator V W :=
  { r with
    subscriptions := r.subscriptions.insert keyID ()
    keyTypes := r.keyTypes.insert keyID dataType }

/-- Store a value and count the write. -/
def setValue (data : V) : Replicator V W :=
  { r with
    store := r.store.insert keyID data
    versions := r.versions.insert keyID (r.version keyID + 1) }

def respondToSender (response : Response V W) : List (Effect V W) :=
  if ctx.sender.isSome then [.respond response] else []

/-- Tell the running watchers of a key, and forget the others. -/
def notifyChanged (data : V) : Outcome V W :=
  match r.watchers.lookup keyID with
  | none => (r, [])
  | some watchers =>
    let alive := watchers.filter ctx.isRunning
    let remaining :=
      if alive.length = 0 then r.watchers.erase keyID else r.watchers.insert keyID alive
    ({ r with watchers := remaining }, alive.map fun watcher => .changed watcher data)

/-- Remove the first occurrence, moving the last entry into its place. -/
def removeFirst (watchers : List ActorID) (actorID : ActorID) : List ActorID :=
  match watchers.findIdx? (fun w => w == actorID), watchers.getLast? with
  | some i, some last => (watchers.set i last).dropLast
  | _, _ => watchers

def removeWatcher (actorID : ActorID) : Replicator V W :=
  match r.watchers.lookup keyID with
  | none => r
  | some watchers => { r with watchers := r.watchers.insert keyID (removeFirst watchers actorID) }

def encodeDelta (d : Delta V) : Option (CRDTDelta W) := (codec.encodeCRDT d.delta).map fun data =>
    ⟨some (encodeCRDTKey d.keyID d.dataType), d.origin, some data⟩

def decodeDelta (pb : CRDTDelta W) : Option (Delta V) :=
  match codec.decode pb.data with
  | none => none
  | some data =>
    match decodeCRDTKey pb.key with
    | .error _ => none
    | .ok (keyID, dataType) => some ⟨keyID, dataType, data, pb.originNode⟩

def publishDelta (codec : Codec V W) (r : Replicator V W) (keyID : String) (dataType : DataType)
    (delta : V) : Outcome V W :=
  if !r.hasTopicActor then (r, [])
  else
    match encodeDelta codec ⟨keyID, dataType, delta, r.nodeID⟩ with
    -- The stored value stays although it could not be published.
    | none => (r, [.fail])
    | some pb =>
      let seq := r.msgSeq + 1
      ({ r with
          msgSeq := seq
          pendingDeltas :=
            if r.config.dataCenterEnabled then r.pendingDeltas ++ [pb] else r.pendingDeltas },
        [.publishDelta (r.nodeID ++ ":" ++ toString seq) crdtTopic pb])

/-- The peers a coordinated operation contacts; `none` if there are none to ask. -/
def contactedPeers (level : Coordination) : Option (List Peer) :=
  match ctx.peers with
  | none => none
  | some peers =>
    if peers.length = 0 then none
    else some (selectPeers peers (targetCount peers.length level) ctx.draw)

def coordinatedWrite (delta : V) (level : Coordination) : Outcome V W :=
  match contactedPeers ctx level with
  | none => publishDelta codec r keyID dataType delta
  | some selected =>
    match encodeDelta codec ⟨keyID, dataType, delta, r.nodeID⟩ with
    | none => publishDelta codec r keyID dataType delta
    | some pb =>
      let out := publishDelta codec r keyID dataType delta
      (out.1, (selected.filterMap ctx.remoteLookup).map (fun target => .tellDelta target pb) ++
        out.2)

/-- How an update leaves the node: by topic, or to peers first if it is coordinated. -/
def replicateUpdate (msg : Update V) : Option V → Outcome V W
  | none => (r, [])
  | some delta =>
    if msg.writeTo = .unset then publishDelta codec r msg.key.id msg.key.dataType delta
    else coordinatedWrite codec r ctx msg.key.id msg.key.dataType delta msg.writeTo

def coordinatedTombstone (pb : CRDTTombstone) (level : Coordination) : List (Effect V W) :=
  match contactedPeers ctx level with
  | none => []
  | some selected =>
    (selected.filterMap ctx.remoteLookup).map fun target => .tellTombstone target pb

def readRequest : CRDTReadRequest := ⟨some (encodeCRDTKey keyID (r.keyType keyID)), r.nodeID⟩

/-- The value a peer answers with, if the call succeeds and the data decodes. -/
def peerData (request : CRDTReadRequest) (peer : Peer) : Option V :=
  match ctx.remoteLookup peer with
  | none => none
  | some target =>
    match ctx.remoteAsk target request with
    | some (some response) => codec.decode response.data
    | _ => none

end Helpers

variable (codec : Codec V W) (r : Replicator V W) (ctx : Context W)

/-- Ask the selected peers and merge their answers into the local value. -/
def coordinatedRead (keyID : String) (current : Option V) (level : Coordination) : Option V :=
  match contactedPeers ctx level with
  | none => current
  | some selected =>
    selected.foldl (fun merged peer =>
      joinOption ReplicatedData.merge merged
        (peerData codec ctx (r.readRequest keyID) peer)) current

def handleUpdate (msg : Update V) : Outcome V W :=
  let keyID := msg.key.id
  if r.isTombstoned keyID then (r, respondToSender ctx .updated)
  else
    let (current, tracked) :=
      match r.store.lookup keyID with
      | some current => (current, r)
      | none => (msg.initial, r.trackKey keyID msg.key.dataType)
    let updated := msg.modify current
    let stored := tracked.setValue keyID (ReplicatedData.resetDelta updated)
    let published := replicateUpdate codec stored ctx msg (ReplicatedData.delta updated)
    let notified := published.1.notifyChanged ctx keyID (ReplicatedData.resetDelta updated)
    (notified.1, published.2 ++ notified.2 ++ respondToSender ctx .updated)

/-- A coordinated read writes its result back without looking at the tombstones
and without tracking the key. -/
def handleGet (key : Key) (readFrom : Coordination) : Outcome V W :=
  let data := r.store.lookup key.id
  if readFrom = .unset then (r, [.respond (.value key data)])
  else
    match coordinatedRead codec r ctx key.id data readFrom with
    | none => (r, [.respond (.value key data)])
    | some merged =>
      ({ r with store := r.store.insert key.id merged }, [.respond (.value key (some merged))])

section Housekeeping
omit [ReplicatedData V]

variable (r : Replicator V W) (ctx : Context W) (key : Key)

def handleSubscribe : Outcome V W :=
  match ctx.sender with
  | none => (r, [])
  | some sender =>
    ({ r with
        watchers := r.watchers.insert key.id ((r.watchers.lookup key.id).getD [] ++ [sender]) },
      [.watch sender])

def handleUnsubscribe : Outcome V W :=
  match ctx.sender with
  | none => (r, [])
  | some sender => (r.removeWatcher key.id sender, [])

def handleTerminated (actorID : ActorID) : Outcome V W := ({ r with
      watchers := collect r.watchers.keys fun keyID =>
        let remaining := removeFirst ((r.watchers.lookup keyID).getD []) actorID
        if remaining.length = 0 then none else some remaining }, [])

/-- Remove the value and its version and leave a tombstone. -/
def bury (keyID : String) (tombstone : Tombstone) : Replicator V W :=
  { r with
    store := r.store.erase keyID
    versions := r.versions.erase keyID
    tombstones := r.tombstones.insert keyID tombstone }

def handleDelete (writeTo : Coordination) : Outcome V W :=
  let keyID := key.id
  -- The tombstone is stored in any case; peers hear of it only if the data type is known.
  let buried := r.bury keyID ⟨keyID, r.keyType keyID, ctx.now, r.nodeID⟩
  match r.keyTypes.lookup keyID with
  | none => (buried, respondToSender ctx .deleted)
  | some dataType =>
    let pb : CRDTTombstone := ⟨some (encodeCRDTKey keyID dataType), ctx.now, r.nodeID⟩
    let direct := if writeTo = .unset then [] else coordinatedTombstone ctx pb writeTo
    let seq := if r.hasTopicActor then r.msgSeq + 1 else r.msgSeq
    let published :=
      if r.hasTopicActor then
        [.publishTombstone (r.nodeID ++ ":del:" ++ toString seq) crdtTopic pb]
      else []
    ({ buried with
        msgSeq := seq
        pendingTombstones :=
          if r.config.dataCenterEnabled then r.pendingTombstones ++ [pb]
          else r.pendingTombstones },
      direct ++ published ++ respondToSender ctx .deleted)

def handleProtoTombstone (msg : CRDTTombstone) : Outcome V W :=
  if msg.deletedByNode = r.nodeID then (r, [])
  else
    match decodeCRDTKey msg.key with
    | .error _ => (r, [])
    | .ok (keyID, dataType) =>
      (r.bury keyID ⟨keyID, dataType, msg.deletedAtNanos, msg.deletedByNode⟩, [])

end Housekeeping

variable (codec : Codec V W) (r : Replicator V W) (ctx : Context W)

/-- Adopt a value for a new key, or merge it into the stored one. -/
def mergeRemote (keyID : String) (dataType : DataType) (data : V) : Outcome V W :=
  match r.store.lookup keyID with
  | none => ((r.trackKey keyID dataType).setValue keyID data).notifyChanged ctx keyID data
  | some current =>
    let merged := ReplicatedData.merge current data
    (r.setValue keyID merged).notifyChanged ctx keyID merged

def handleDelta (msg : Delta V) : Outcome V W :=
  if msg.origin = r.nodeID then (r, [])
  else if r.isTombstoned msg.keyID then (r, [])
  else r.mergeRemote ctx msg.keyID msg.dataType msg.delta

def handleProtoDelta (msg : CRDTDelta W) : Outcome V W :=
  match decodeDelta codec msg with
  | none => (r, [])
  | some d => r.handleDelta ctx d

/-- One entry of a full state. -/
def handleFullStateEntry (out : Outcome V W) (entry : CRDTFullStateEntry W) : Outcome V W :=
  match decodeCRDTKey entry.key with
  | .error _ => out
  | .ok (keyID, dataType) =>
    if out.1.isTombstoned keyID then out
    else
      match codec.decode entry.data with
      | none => out
      | some data =>
        let next := out.1.mergeRemote ctx keyID dataType data
        (next.1, out.2 ++ next.2)

def handleFullState (entries : List (CRDTFullStateEntry W)) : Outcome V W :=
  entries.foldl (handleFullStateEntry codec ctx) (r, [])

section AntiEntropy
omit [ReplicatedData V]

variable (codec : Codec V W) (r : Replicator V W) (ctx : Context W) (entries : List CRDTDigestEntry)

def buildDigest : List CRDTDigestEntry := r.store.keys.map fun keyID =>
    ⟨some (encodeCRDTKey keyID (r.keyType keyID)), r.version keyID⟩

/-- Send the digest to one random peer. -/
def handleAntiEntropy : Outcome V W :=
  match ctx.peers with
  | none => (r, [])
  | some peers =>
    match peers[ctx.draw 0 % peers.length]? with
    | none => (r, [])
    | some peer =>
      match ctx.remoteLookup peer with
      | none => (r, [])
      | some target => (r, [.tellDigest target r.buildDigest])

/-- The versions of a digest by key; entries whose key does not decode are skipped. -/
def peerVersions : Map String ℕ := entries.foldl (fun versions e =>
    match decodeCRDTKey e.key with
    | .error _ => versions
    | .ok (keyID, _) => versions.insert keyID e.version) ∅

/-- The reply to a digest: every value that the peer lacks or has at a lower version. -/
def digestReply : List (CRDTFullStateEntry W) :=
  let peers := peerVersions entries
  r.store.entries.filterMap fun entry =>
    let isAhead := match peers.lookup entry.1 with
      | none => true
      | some peerVersion => decide (r.version entry.1 > peerVersion)
    if isAhead then
      (codec.encodeCRDT entry.2).map fun data =>
        ⟨some (encodeCRDTKey entry.1 (r.keyType entry.1)), some data⟩
    else none

def handleDigest : Outcome V W :=
  let reply := digestReply codec r entries
  -- Keys at which the peer is ahead are not asked for.
  match ctx.sender with
  | none => (r, [])
  | some sender => if reply.length > 0 then (r, [.tellFullState sender reply]) else (r, [])

def handleReadRequest (msg : CRDTReadRequest) : Outcome V W :=
  match decodeCRDTKey msg.key with
  | .error _ => (r, [])
  | .ok (keyID, dataType) =>
    match r.store.lookup keyID with
    | none => (r, respondToSender ctx (.read ⟨some (encodeCRDTKey keyID dataType), none, r.nodeID⟩))
    | some data =>
      match codec.encodeCRDT data with
      | none => (r, [])
      | some pbData => (r, respondToSender ctx
          (.read ⟨some (encodeCRDTKey keyID dataType), some pbData, r.nodeID⟩))

/-- One iteration of the snapshot loop; the first failure ends it. -/
def snapshotEntry (entries : Map String (CRDTSnapshotEntry W)) (entry : Sigma fun _ : String => V) :
    Except String (Map String (CRDTSnapshotEntry W)) :=
  match r.keyTypes.lookup entry.1 with
  | none => .error ("missing data type for key=" ++ entry.1)
  | some dataType =>
    match codec.encodeCRDT entry.2 with
    | none => .error ("encode snapshot for key=" ++ entry.1)
    | some pbData =>
      .ok (entries.insert entry.1 ⟨encodeCRDTKey entry.1 dataType, pbData, r.version entry.1⟩)

def buildSnapshotEntries : Except String (Map String (CRDTSnapshotEntry W)) :=
  r.store.entries.foldlM (snapshotEntry codec r) ∅

def handleSnapshot : Outcome V W :=
  if !r.config.snapshotEnabled then (r, [])
  else
    match buildSnapshotEntries codec r with
    | .error _ => (r, [])
    | .ok entries => (r, [.saveSnapshot entries])

def handleDataCenterDigestRequest : Outcome V W := (r, respondToSender ctx (.digest r.buildDigest))

/-- Only the leader forwards what is pending to the other data centers. -/
def handleDataCenterFlush : Outcome V W :=
  if r.pendingDeltas.length = 0 ∧ r.pendingTombstones.length = 0 then (r, [])
  else if !ctx.isLeader then (r, [])
  else
    ({ r with pendingDeltas := [], pendingTombstones := [] },
      [.sendBatch ⟨r.pendingDeltas, r.pendingTombstones, some r.dc, ctx.now⟩])

end AntiEntropy

variable (codec : Codec V W) (r : Replicator V W) (ctx : Context W)

/-- Drop expired tombstones and compact the values that can be compacted. -/
def handlePrune : Outcome V W := ({ r with
      tombstones := collect r.tombstones.keys fun keyID =>
        (r.tombstones.lookup keyID).bind fun ts =>
          if ctx.now - ts.deletedAt > r.config.tombstoneTTL then none else some ts
      store := collect r.store.keys fun keyID =>
        (r.store.lookup keyID).bind fun data =>
          some ((ReplicatedData.compactData data).getD data) }, [])

/-- Batches of the own data center are ignored. -/
def handleIncomingBatch (batch : CRDTDeltaBatch W) : Outcome V W :=
  -- Deltas first, then tombstones, so a deletion of the batch wins.
  if batch.originDc = some r.dc then (r, [])
  else
    let merged := batch.deltas.foldl (fun (out : Outcome V W) delta =>
      let next := handleProtoDelta codec out.1 ctx delta
      (next.1, out.2 ++ next.2)) (r, [])
    batch.tombstones.foldl (fun (out : Outcome V W) ts =>
      let next := out.1.handleProtoTombstone ts
      (next.1, out.2 ++ next.2)) merged

def handleMessage : Message V W → Outcome V W
  | .update msg => handleUpdate codec r ctx msg
  | .get key readFrom => handleGet codec r ctx key readFrom
  | .subscribe key => handleSubscribe r ctx key
  | .unsubscribe key => handleUnsubscribe r ctx key
  | .delete key writeTo => handleDelete r ctx key writeTo
  | .terminated actorID => handleTerminated r actorID
  | .protoDelta msg => handleProtoDelta codec r ctx msg
  | .delta msg => handleDelta r ctx msg
  | .protoTombstone msg => handleProtoTombstone r msg
  | .readRequest msg => handleReadRequest codec r ctx msg
  | .digest entries => handleDigest codec r ctx entries
  | .fullState entries => handleFullState codec r ctx entries
  | .batch msg => handleIncomingBatch codec r ctx msg
  | .dataCenterDigestRequest => handleDataCenterDigestRequest r ctx
  | .dataCenterFlushTick => handleDataCenterFlush r ctx
  | .antiEntropyTick => handleAntiEntropy r ctx
  | .pruneTick => handlePrune r ctx
  | .snapshotTick => handleSnapshot codec r

/-- The state after one message, processed in its own context. -/
def step (event : Context W × Message V W) : Replicator V W :=
  (handleMessage codec r event.1 event.2).1

def run (events : List (Context W × Message V W)) : Replicator V W := events.foldl (step codec) r

@[simp] lemma run_nil : run codec r [] = r := rfl

@[simp] lemma run_concat (events : List (Context W × Message V W))
    (event : Context W × Message V W) :
    run codec r (events ++ [event]) = step codec (run codec r events) event := by
  simp [run, List.foldl_append]

end Replicator
end GoAkt.Replication
