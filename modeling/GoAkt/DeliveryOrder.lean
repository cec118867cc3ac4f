import GoAkt.ReplicatorInvariants

/-!
# Delivery order of peer messages

Deltas, tombstones and full states of other nodes may arrive in any order and
more than once. For one key such a message does one of two things: it buries the
key for good, or it offers values that are joined to the stored one. What a whole
sequence of messages leaves for a key is therefore a fold of joins, unless one of
the messages buries the key, and only the set of messages matters.
-/
namespace GoAkt.Replication
open GoAkt.FiniteMaps GoAkt.Joins GoAkt.Crdt List
variable {V W : Type*}

/-- The messages of other nodes that carry replicated state. -/
def FromPeer (nodeID : NodeID) : Message V W → Prop
  | .protoDelta msg => msg.originNode ≠ nodeID
  | .protoTombstone msg => msg.deletedByNode ≠ nodeID
  | .fullState _ => True
  | _ => False

/-- The value an entry of a full state offers for a key. -/
def entryOffer (codec : Codec V W) (k : String) (entry : CRDTFullStateEntry W) : Option V :=
  match decodeCRDTKey entry.key with
  | .error _ => none
  | .ok (keyID, _) => if keyID = k then codec.decode entry.data else none

/-- The values a message offers for a key, in the order they are merged. -/
def offers (codec : Codec V W) (k : String) : Message V W → List V
  | .protoDelta msg =>
    match Replicator.decodeDelta codec msg with
    | none => []
    | some d => if d.keyID = k then [d.delta] else []
  | .fullState entries => entries.filterMap (entryOffer codec k)
  | _ => []

/-- The message is a tombstone of the key. -/
def buries (k : String) : Message V W → Bool
  | .protoTombstone msg =>
    match decodeCRDTKey msg.key with
    | .error _ => false
    | .ok (keyID, _) => decide (keyID = k)
  | _ => false

namespace Replicator
section PerKey
variable (codec : Codec V W) (r : Replicator V W) (ctx : Context W) (keyID : String)
  (tombstone : Tombstone) (dataType : DataType) (data : V) (k : String)

@[simp] lemma store_notifyChanged : (r.notifyChanged ctx keyID data).1.store = r.store :=
  congrArg Core.store (core_notifyChanged r ctx keyID data)

@[simp] lemma tombstones_notifyChanged :
    (r.notifyChanged ctx keyID data).1.tombstones = r.tombstones :=
  congrArg Core.tombstones (core_notifyChanged r ctx keyID data)

@[simp] lemma versions_notifyChanged : (r.notifyChanged ctx keyID data).1.versions = r.versions :=
  congrArg Core.versions (core_notifyChanged r ctx keyID data)

@[simp] lemma nodeID_notifyChanged : (r.notifyChanged ctx keyID data).1.nodeID = r.nodeID := by
  unfold notifyChanged
  split <;> rfl

lemma origin_of_decodeDelta {msg : CRDTDelta W} {d : Delta V}
    (hd : decodeDelta codec msg = some d) : d.origin = msg.originNode := by
  unfold decodeDelta at hd
  split at hd
  · cases hd
  · split at hd
    · cases hd
    · cases hd
      rfl

/-- What burying one key leaves for a key. -/
lemma bury_perKey :
    (r.bury keyID tombstone).isTombstoned k = (r.isTombstoned k || decide (keyID = k)) ∧
    (r.bury keyID tombstone).store.lookup k =
      if keyID = k then none else r.store.lookup k := by
  by_cases hk : keyID = k
  · subst hk
    simp [bury, isTombstoned]
  · simp [bury, isTombstoned, hk, Ne.symm hk]

variable [ReplicatedData V]

/-- Adopting and merging are one operation: joining to a value that may be absent. -/
lemma lookup_store_mergeRemote : (r.mergeRemote ctx keyID dataType data).1.store.lookup k =
      if k = keyID then joinOption ReplicatedData.merge (r.store.lookup keyID) (some data)
      else r.store.lookup k := by
  unfold mergeRemote
  cases h : r.store.lookup keyID with
  | none => simp [setValue, trackKey, lookup_insert_ite]
  | some current => simp [setValue, lookup_insert_ite]

lemma version_mergeRemote : (r.mergeRemote ctx keyID dataType data).1.version k =
      if k = keyID then r.version keyID + 1 else r.version k := by
  unfold mergeRemote version
  cases h : r.store.lookup keyID with
  | none =>
    simp only [versions_notifyChanged, setValue, trackKey, lookup_insert_ite, version]
    split_ifs <;> rfl
  | some current =>
    simp only [versions_notifyChanged, setValue, lookup_insert_ite, version]
    split_ifs <;> rfl

@[simp] lemma tombstones_mergeRemote :
    (r.mergeRemote ctx keyID dataType data).1.tombstones = r.tombstones := by
  unfold mergeRemote
  cases r.store.lookup keyID <;> simp [setValue, trackKey]

@[simp] lemma nodeID_mergeRemote : (r.mergeRemote ctx keyID dataType data).1.nodeID = r.nodeID := by
  unfold mergeRemote
  cases r.store.lookup keyID <;> simp [setValue, trackKey]

/-- Join a list of offered values to what is stored. -/
def joinAll (stored : Option V) (values : List V) : Option V :=
  (values.map some).foldl (joinOption ReplicatedData.merge) stored

@[simp] lemma joinAll_nil (stored : Option V) : joinAll stored [] = stored := rfl

@[simp] lemma joinAll_cons (stored : Option V) (v : V) (values : List V) :
    joinAll stored (v :: values) =
      joinAll (joinOption ReplicatedData.merge stored (some v)) values := rfl

lemma joinAll_append (stored : Option V) (values more : List V) :
    joinAll stored (values ++ more) = joinAll (joinAll stored values) more := by
  simp [joinAll, foldl_append]

/-- What one entry of a full state leaves for a key. -/
lemma handleFullStateEntry_perKey (out : Outcome V W) (entry : CRDTFullStateEntry W) (k : String) :
    let next := (handleFullStateEntry codec ctx out entry).1
    next.nodeID = out.1.nodeID ∧ next.tombstones = out.1.tombstones ∧
    next.store.lookup k = (if out.1.isTombstoned k then out.1.store.lookup k
      else joinAll (out.1.store.lookup k) (entryOffer codec k entry).toList) ∧
    next.version k = (if out.1.isTombstoned k then out.1.version k
      else out.1.version k + (entryOffer codec k entry).toList.length) := by
  unfold handleFullStateEntry entryOffer
  cases hkey : decodeCRDTKey entry.key with
  | error e => simp
  | ok keyType =>
    obtain ⟨keyID, dataType⟩ := keyType
    dsimp only
    by_cases htomb : out.1.isTombstoned keyID = true
    · rw [if_pos htomb]
      refine ⟨rfl, rfl, ?_⟩
      by_cases hk : keyID = k
      · subst hk
        simp [htomb]
      · simp [hk]
    · rw [if_neg htomb]
      cases hdata : codec.decode entry.data with
      | none => simp
      | some data =>
        simp only [nodeID_mergeRemote, tombstones_mergeRemote, lookup_store_mergeRemote,
          version_mergeRemote, true_and]
        by_cases hk : keyID = k
        · subst hk
          simp [htomb]
        · simp [hk, Ne.symm hk]

/-- What a full state leaves for a key: the offers of all entries are joined, unless
the key is deleted. -/
lemma handleFullState_perKey (entries : List (CRDTFullStateEntry W)) (out : Outcome V W)
    (k : String) :
    let final := (entries.foldl (handleFullStateEntry codec ctx) out).1
    final.nodeID = out.1.nodeID ∧ final.tombstones = out.1.tombstones ∧
    final.store.lookup k = (if out.1.isTombstoned k then out.1.store.lookup k
      else joinAll (out.1.store.lookup k) (entries.filterMap (entryOffer codec k))) ∧
    final.version k = (if out.1.isTombstoned k then out.1.version k
      else out.1.version k + (entries.filterMap (entryOffer codec k)).length) := by
  induction entries generalizing out with
  | nil => simp
  | cons entry entries ih =>
    obtain ⟨hnode, htombs, hstore, hversion⟩ := handleFullStateEntry_perKey codec ctx out entry k
    have htomb : (handleFullStateEntry codec ctx out entry).1.isTombstoned k =
        out.1.isTombstoned k := by rw [isTombstoned, htombs, isTombstoned]
    obtain ⟨ihnode, ihtombs, ihstore, ihversion⟩ := ih (handleFullStateEntry codec ctx out entry)
    have hsplit : (entry :: entries).filterMap (entryOffer codec k) =
        (entryOffer codec k entry).toList ++ entries.filterMap (entryOffer codec k) := by
      cases h : entryOffer codec k entry <;> simp [h]
    refine ⟨ihnode.trans hnode, ihtombs.trans htombs, ?_, ?_⟩
    · rw [foldl_cons, ihstore, htomb, hstore, hsplit, joinAll_append]
      split_ifs <;> rfl
    · rw [foldl_cons, ihversion, htomb, hversion, hsplit, length_append]
      split_ifs <;> omega

/-- What a delta of another node leaves for a key. -/
lemma handleDelta_perKey {d : Delta V} (horigin : d.origin ≠ r.nodeID) (k : String) :
    (r.handleDelta ctx d).1.nodeID = r.nodeID ∧
    (r.handleDelta ctx d).1.isTombstoned k = r.isTombstoned k ∧
    (r.handleDelta ctx d).1.store.lookup k = (if r.isTombstoned k then r.store.lookup k
      else joinAll (r.store.lookup k) (if d.keyID = k then [d.delta] else [])) := by
  unfold handleDelta
  rw [if_neg horigin]
  by_cases htomb : r.isTombstoned d.keyID = true
  · rw [if_pos htomb]
    by_cases hk : d.keyID = k
    · subst hk
      simp [htomb]
    · simp [hk]
  · rw [if_neg htomb]
    refine ⟨nodeID_mergeRemote r ctx _ _ _, ?_, ?_⟩
    · rw [isTombstoned, tombstones_mergeRemote, isTombstoned]
    · rw [lookup_store_mergeRemote]
      by_cases hk : d.keyID = k
      · subst hk
        simp [htomb]
      · simp [hk, Ne.symm hk]

/-- What one peer message leaves for a key. -/
lemma step_perKey {event : Context W × Message V W} (hpeer : FromPeer r.nodeID event.2)
    (k : String) :
    (step codec r event).nodeID = r.nodeID ∧
    (step codec r event).isTombstoned k = (r.isTombstoned k || buries k event.2) ∧
    (step codec r event).store.lookup k = (if buries k event.2 then none
      else if r.isTombstoned k then r.store.lookup k
      else joinAll (r.store.lookup k) (offers codec k event.2)) := by
  obtain ⟨ctx, msg⟩ := event
  cases msg with
  | protoDelta msg =>
    simp only [FromPeer] at hpeer
    simp only [step, handleMessage, handleProtoDelta, offers, buries]
    cases hd : decodeDelta codec msg with
    | none => simp
    | some d =>
      rw [← origin_of_decodeDelta codec hd] at hpeer
      simpa using handleDelta_perKey r ctx hpeer k
  | protoTombstone msg =>
    simp only [FromPeer] at hpeer
    rcases hkey : decodeCRDTKey msg.key with e | ⟨keyID, dataType⟩
    · simp [step, handleMessage, handleProtoTombstone, hpeer, hkey, buries, offers]
    · have hstep : step codec r (ctx, .protoTombstone msg) =
          r.bury keyID ⟨keyID, dataType, msg.deletedAtNanos, msg.deletedByNode⟩ := by
        simp [step, handleMessage, handleProtoTombstone, hpeer, hkey]
      have hburies : buries k (.protoTombstone msg : Message V W) = decide (keyID = k) := by
        simp [buries, hkey]
      obtain ⟨htomb, hstore⟩ := bury_perKey r keyID
        ⟨keyID, dataType, msg.deletedAtNanos, msg.deletedByNode⟩ k
      rw [hstep, hburies, htomb, hstore]
      refine ⟨rfl, rfl, ?_⟩
      by_cases hk : keyID = k <;> simp [hk, offers]
  | fullState entries =>
    obtain ⟨hnode, htombs, hstore, -⟩ := handleFullState_perKey codec ctx entries (r, []) k
    refine ⟨hnode, ?_, ?_⟩
    · change ((handleFullState codec r ctx entries).1.tombstones.lookup k).isSome = _
      rw [handleFullState, htombs]
      simp [buries, isTombstoned]
    · change (handleFullState codec r ctx entries).1.store.lookup k = _
      rw [handleFullState, hstore]
      simp [buries, offers]
  | _ => exact absurd hpeer (by simp [FromPeer])

/-- What a sequence of peer messages leaves for a key. -/
lemma run_perKey (events : List (Context W × Message V W))
    (hpeer : ∀ event ∈ events, FromPeer r.nodeID event.2) (k : String) :
    (run codec r events).nodeID = r.nodeID ∧
    (run codec r events).isTombstoned k =
      (r.isTombstoned k || (events.map Prod.snd).any (buries k)) ∧
    (run codec r events).store.lookup k = (if (events.map Prod.snd).any (buries k) then none
      else if r.isTombstoned k then r.store.lookup k
      else joinAll (r.store.lookup k) ((events.map Prod.snd).flatMap (offers codec k))) := by
  induction events using List.reverseRecOn with
  | nil => simp
  | append_singleton events event ih =>
    obtain ⟨ihnode, ihtomb, ihstore⟩ := ih fun e he => hpeer e (mem_append_left _ he)
    have hlast : FromPeer (run codec r events).nodeID event.2 := by
      rw [ihnode]
      exact hpeer event (by simp)
    obtain ⟨hnode, htomb, hstore⟩ := step_perKey codec (run codec r events) hlast k
    rw [run_concat, hnode, htomb, hstore, ihtomb, ihstore]
    simp only [map_append, map_cons, map_nil, any_append, any_cons,
      any_nil, flatMap_append, flatMap_cons, flatMap_nil, append_nil,
      Bool.or_false, joinAll_append]
    refine ⟨ihnode, Bool.or_assoc _ _ _, ?_⟩
    cases buries k event.2 <;> cases (events.map Prod.snd).any (buries k) <;>
      cases r.isTombstoned k <;> simp

end PerKey

/-- Two sequences of peer messages with the same members, whatever their order and
repetitions, leave equivalent values and the same deleted keys. -/
theorem delivery_order_irrelevant [ReplicatedData V] {S : String → V → Prop}
    {eqv : V → V → Prop} (hS : ∀ k, JoinOn (S k) eqv ReplicatedData.merge) (codec : Codec V W)
    (r : Replicator V W) (hstored : ∀ k, ∀ v ∈ r.store.lookup k, S k v)
    (events events' : List (Context W × Message V W))
    (hpeer : ∀ event ∈ events, FromPeer r.nodeID event.2)
    (hoffered : ∀ event ∈ events, ∀ k, ∀ v ∈ offers codec k event.2, S k v)
    (hsame : ∀ msg, msg ∈ events.map Prod.snd ↔ msg ∈ events'.map Prod.snd) (k : String) :
    Option.Rel eqv ((run codec r events).store.lookup k) ((run codec r events').store.lookup k) ∧
    (run codec r events).isTombstoned k = (run codec r events').isTombstoned k := by
  have hpeer' : ∀ event ∈ events', FromPeer r.nodeID event.2 := by
    intro event hevent
    obtain ⟨e, he, heq⟩ := mem_map.mp ((hsame event.2).mpr (mem_map.mpr ⟨event, hevent, rfl⟩))
    exact heq ▸ hpeer e he
  have hburies : (events.map Prod.snd).any (buries k) = (events'.map Prod.snd).any (buries k) := by
    rw [Bool.eq_iff_iff, any_eq_true, any_eq_true]
    exact exists_congr fun msg => and_congr_left fun _ => hsame msg
  obtain ⟨-, htomb, hstore⟩ := run_perKey codec r events hpeer k
  obtain ⟨-, htomb', hstore'⟩ := run_perKey codec r events' hpeer' k
  refine ⟨?_, by rw [htomb, htomb', hburies]⟩
  rw [hstore, hstore', hburies]
  have hrefl := (hS k).option.refl
  split_ifs
  · exact hrefl _
  · exact hrefl _
  · refine (hS k).option.foldl_eqv_of_same_members ?_ (fun o => ?_) (hstored k)
    · intro o ho v hv
      obtain ⟨u, hu, rfl⟩ := mem_map.mp ho
      obtain ⟨msg, hmsg, hmem⟩ := mem_flatMap.mp hu
      obtain ⟨event, hevent, rfl⟩ := mem_map.mp hmsg
      cases hv
      exact hoffered event hevent k v hmem
    · simp only [mem_map, mem_flatMap]
      refine exists_congr fun v => and_congr_left fun _ => exists_congr fun msg =>
        and_congr_left fun _ => ?_
      simpa only [mem_map] using hsame msg

section Example

def peerDelta (keyID : String) (value : UInt64) : Message GCounter GCounter :=
  .protoDelta ⟨some (encodeCRDTKey keyID .gCounter), "node-2",
    some (newGCounter.increment "node-2" value)⟩

def peerTombstone (keyID : String) : Message GCounter GCounter :=
  .protoTombstone ⟨some (encodeCRDTKey keyID .gCounter), 7, "node-2"⟩

/-- Deltas of two keys and a tombstone of the second one, from one other node. -/
def deliveredOnce : List (Context GCounter × Message GCounter GCounter) :=
  [(answeringContext, peerDelta "hits" 1), (answeringContext, peerTombstone "users"),
    (answeringContext, peerDelta "users" 2)]

/-- The same messages in another order, one of them twice. -/
def deliveredAgain : List (Context GCounter × Message GCounter GCounter) :=
  [(answeringContext, peerDelta "users" 2), (answeringContext, peerDelta "hits" 1),
    (answeringContext, peerTombstone "users"), (answeringContext, peerDelta "hits" 1)]

theorem delivery_order_irrelevant_delivered :
    Option.Rel GCounter.SameSlots
      ((run counterCodec startedReplicator deliveredOnce).store.lookup "hits")
      ((run counterCodec startedReplicator deliveredAgain).store.lookup "hits") ∧
    (run counterCodec startedReplicator deliveredOnce).isTombstoned "hits" =
      (run counterCodec startedReplicator deliveredAgain).isTombstoned "hits" := by
  refine delivery_order_irrelevant (S := fun _ _ => True) (fun _ => GCounter.merge_joinOn)
    counterCodec startedReplicator (fun _ _ _ => trivial) deliveredOnce deliveredAgain ?_
    (fun _ _ _ _ _ => trivial) ?_ "hits"
  · intro event hevent
    have hother : "node-2" ≠ startedReplicator.nodeID := by decide
    simp only [deliveredOnce, mem_cons, not_mem_nil, or_false] at hevent
    rcases hevent with rfl | rfl | rfl <;> exact hother
  · intro msg
    simp only [deliveredOnce, deliveredAgain, map_cons, map_nil, mem_cons, not_mem_nil, or_false]
    tauto

end Example
end Replicator

/-!
## Anti-entropy between two replicators

A digest lists the stored keys with their versions, and the peer answers with the
values of the keys it has at a higher version. A version counts the writes at one
node, so two nodes may reach the same version by different writes. This module
follows one key through an exchange in each direction and says exactly when the
two nodes end with the merge of what they held.
-/
open Option

/-- Every value of `S` survives encoding and decoding, up to `eqv`. -/
def Codec.RoundTrips (codec : Codec V W) (S : V → Prop) (eqv : V → V → Prop) : Prop :=
  ∀ v, S v → ∃ w v', codec.encodeCRDT v = some w ∧ codec.decodeCRDT w = some v' ∧ S v' ∧ eqv v' v

namespace Replicator
section Digest
variable (codec : Codec V W) (a b : Replicator V W)

/-- The digest tells the version of every stored key. -/
lemma lookup_peerVersions_buildDigest (k : String) :
    (peerVersions a.buildDigest).lookup k =
      if k ∈ a.store.keys then some (a.version k) else none := by
  have hcollect : peerVersions a.buildDigest =
      collect a.store.keys fun keyID => some (a.version keyID) := by
    simp only [peerVersions, buildDigest, collect, List.foldl_map, decodeCRDTKey_encodeCRDTKey,
      elim_some]
  rw [hcollect, lookup_collect]

/-- `b` answers a digest of `a` with its value of the key. -/
def IsAhead (k : String) : Prop := a.store.lookup k = none ∨ a.version k < b.version k

instance (k : String) : Decidable (a.IsAhead b k) :=
  decidable_of_iff ((a.store.lookup k).isNone = true ∨ a.version k < b.version k)
    (by rw [isNone_iff_eq_none, IsAhead])

/-- What `a` decodes from the answer of `b` for a key. -/
def answerFor (k : String) : Option V := (b.store.lookup k).bind fun data =>
    if a.IsAhead b k then codec.decode (codec.encodeCRDT data) else none

/-- The reply to a digest of `a` holds the values of the keys at which `b` is ahead. -/
lemma digestReply_buildDigest :
    digestReply codec b a.buildDigest = b.store.entries.filterMap fun entry =>
      if a.IsAhead b entry.1 then
        (codec.encodeCRDT entry.2).map fun data =>
          ⟨some (encodeCRDTKey entry.1 (b.keyType entry.1)), some data⟩
      else none := by
  simp only [digestReply, lookup_peerVersions_buildDigest]
  congr 1
  funext entry
  by_cases hmem : entry.1 ∈ a.store.keys
  · obtain ⟨v, hv⟩ := (mem_keys_iff_lookup a.store entry.1).mp hmem
    simp [hmem, IsAhead, hv]
  · have hnone : a.store.lookup entry.1 = none := by
      rw [AList.lookup_eq_none]
      exact hmem
    simp [hmem, IsAhead, hnone]

lemma offers_digestReply (k : String) :
    (digestReply codec b a.buildDigest).filterMap (entryOffer codec k) =
      (answerFor codec a b k).toList := by
  rw [answerFor, ← filterMap_entries, digestReply_buildDigest, List.filterMap_filterMap]
  congr 1
  funext entry
  obtain ⟨keyID, data⟩ := entry
  by_cases hk : keyID = k
  · subst hk
    cases henc : codec.encodeCRDT data <;> by_cases h : a.IsAhead b keyID <;>
      simp [h, entryOffer, Codec.decode]
  · cases henc : codec.encodeCRDT data <;> by_cases h : a.IsAhead b keyID <;>
      simp [h, hk, entryOffer]

end Digest

/-- An answer is a decoded copy of the value of the peer. -/
lemma answerFor_eqv {codec : Codec V W} (hcodec : codec.RoundTrips S eqv)
    (hb : ∀ y ∈ b.store.lookup k, S y) : (∀ y ∈ answerFor codec a b k, S y) ∧
    Option.Rel eqv (answerFor codec a b k) (if a.IsAhead b k then b.store.lookup k else none) := by
  unfold answerFor
  split_ifs with hahead
  · cases hy : b.store.lookup k with
    | none => exact ⟨by simp, .none⟩
    | some y =>
      obtain ⟨w, y', henc, hdec, hSy', heqv⟩ := hcodec y (hb y hy)
      simp only [bind_some, henc, Codec.decode, hdec]
      refine ⟨?_, .some heqv⟩
      rintro _ ⟨⟩
      exact hSy'
  · simp

variable [ReplicatedData V] (codec : Codec V W)

/-- A replicator processes the full states among the effects of its peer. -/
def receiveFullState (ctx : Context W) (r : Replicator V W) : Effect V W → Replicator V W
  | .tellFullState _ entries => step codec r (ctx, .fullState entries)
  | _ => r

/-- `a` sends its digest to `b`, and processes the answer. -/
def digestExchange (ctxDigest ctxReply : Context W) (a b : Replicator V W) :
    Replicator V W × Replicator V W :=
  let answered := handleMessage codec b ctxDigest (.digest a.buildDigest)
  (answered.2.foldl (receiveFullState codec ctxReply) a, answered.1)

/-- An exchange started by `a`, and then one started by `b`. -/
def antiEntropyRound (ctxDigest ctxReply : Context W) (a b : Replicator V W) :
    Replicator V W × Replicator V W :=
  let first := digestExchange codec ctxDigest ctxReply a b
  let second := digestExchange codec ctxDigest ctxReply first.2 first.1
  (second.2, second.1)

section Exchange
variable {ctxDigest : Context W} (ctxReply : Context W) (a b : Replicator V W)

@[simp] lemma digestExchange_snd (ctxDigest : Context W) :
    (digestExchange codec ctxDigest ctxReply a b).2 = b := by
  simp only [digestExchange, handleMessage, handleDigest]
  split
  · rfl
  · split_ifs <;> rfl

lemma digestExchange_fst (hsender : ctxDigest.sender.isSome) :
    (digestExchange codec ctxDigest ctxReply a b).1 =
      (handleFullState codec a ctxReply (digestReply codec b a.buildDigest)).1 := by
  obtain ⟨sender, hsender⟩ := isSome_iff_exists.mp hsender
  simp only [digestExchange, handleMessage, handleDigest, hsender]
  split_ifs with hlen
  · rfl
  · have hnil : digestReply codec b a.buildDigest = [] := by
      rw [← List.length_eq_zero_iff]
      omega
    rw [hnil]
    rfl

lemma joinAll_toList (stored offered : Option V) :
    joinAll stored offered.toList = joinOption ReplicatedData.merge stored offered := by
  cases offered <;> simp

/-- One exchange joins the answer to the value of the key and counts it. -/
lemma digestExchange_perKey (hsender : ctxDigest.sender.isSome) {k : String}
    (htomb : a.isTombstoned k = false) :
    (digestExchange codec ctxDigest ctxReply a b).1.store.lookup k =
      joinOption ReplicatedData.merge (a.store.lookup k) (answerFor codec a b k) ∧
    (digestExchange codec ctxDigest ctxReply a b).1.version k =
      a.version k + (answerFor codec a b k).toList.length := by
  obtain ⟨-, -, hstore, hversion⟩ := handleFullState_perKey codec ctxReply
    (digestReply codec b a.buildDigest) (a, []) k
  rw [digestExchange_fst codec ctxReply a b hsender, handleFullState, hstore, hversion,
    offers_digestReply, joinAll_toList]
  simp [htomb]

end Exchange

section Repair
variable {S : V → Prop} {eqv : V → V → Prop}

/-- A node whose version of the key is not lower holds everything the other holds. -/
def VersionsTell (eqv : V → V → Prop) (a b : Replicator V W) (k : String) : Prop :=
  ∀ x ∈ a.store.lookup k, ∀ y ∈ b.store.lookup k,
    (a.version k < b.version k ∨ Below eqv ReplicatedData.merge y x) ∧
    (b.version k < a.version k ∨ Below eqv ReplicatedData.merge x y)

variable {a b : Replicator V W} {k : String}
variable {ctxDigest : Context W}

/-- Up to `eqv`, an exchange merges the value of the peer if the peer is ahead. -/
lemma digestExchange_eqv (J : JoinOn S eqv ReplicatedData.merge) {codec : Codec V W}
    (hcodec : codec.RoundTrips S eqv) (ctxReply : Context W) (hsender : ctxDigest.sender.isSome)
    (htomb : a.isTombstoned k = false) (ha : ∀ x ∈ a.store.lookup k, S x)
    (hb : ∀ y ∈ b.store.lookup k, S y) :
    (∀ x ∈ (digestExchange codec ctxDigest ctxReply a b).1.store.lookup k, S x) ∧
    Option.Rel eqv ((digestExchange codec ctxDigest ctxReply a b).1.store.lookup k)
      (if a.IsAhead b k then joinOption ReplicatedData.merge (a.store.lookup k) (b.store.lookup k)
      else a.store.lookup k) := by
  obtain ⟨hstore, -⟩ := digestExchange_perKey codec ctxReply a b hsender htomb
  obtain ⟨hanswer, heqv⟩ := answerFor_eqv hcodec (a := a) hb
  rw [hstore]
  refine ⟨J.option.closed ha hanswer, ?_⟩
  split_ifs at heqv ⊢ with hahead
  · exact J.option.congr ha ha hanswer hb (J.option.refl _) heqv
  · have hnone : answerFor codec a b k = none := by
      cases h : answerFor codec a b k with
      | none => rfl
      | some y =>
        rw [h] at heqv
        cases heqv
    rw [hnone, joinOption_none_right]
    exact J.option.refl _

/-- The first exchange does not change which side is ahead in the second one: it
raises a version only where it was lower. -/
lemma isAhead_digestExchange_iff (codec : Codec V W)
    (ctxReply : Context W) (hsender : ctxDigest.sender.isSome)
    (htomb : a.isTombstoned k = false) {x : V} (hx : a.store.lookup k = some x) :
    b.IsAhead (digestExchange codec ctxDigest ctxReply a b).1 k ↔
      b.store.lookup k = none ∨ b.version k < a.version k := by
  obtain ⟨-, hversion⟩ := digestExchange_perKey codec ctxReply a b hsender htomb
  unfold IsAhead
  rw [hversion]
  refine or_congr_right ?_
  -- An answer arrives only from a higher version and adds one to the version of `a`,
  -- so it never lifts `a` above `b`.
  by_cases hlt : a.version k < b.version k
  · have hone : (answerFor codec a b k).toList.length ≤ 1 := length_toList_le
    omega
  · have hnone : answerFor codec a b k = none := by simp [answerFor, IsAhead, hx, hlt]
    simp [hnone]

/-- The condition on versions, in terms of who is ahead. -/
lemma versionsTell_iff (J : JoinOn S eqv ReplicatedData.merge) (codec : Codec V W)
    (ctxReply : Context W) (hsender : ctxDigest.sender.isSome) (htomb : a.isTombstoned k = false) :
    VersionsTell eqv a b k ↔
      (a.IsAhead b k ∨ Below (Option.Rel eqv) (joinOption ReplicatedData.merge)
        (b.store.lookup k) (a.store.lookup k)) ∧
      (b.IsAhead (digestExchange codec ctxDigest ctxReply a b).1 k ∨
        Below (Option.Rel eqv) (joinOption ReplicatedData.merge)
          (a.store.lookup k) (b.store.lookup k)) := by
  unfold VersionsTell
  cases hx : a.store.lookup k with
  | none => simpa [IsAhead, hx, Below] using Or.inr (J.option.refl _)
  | some x =>
    rw [isAhead_digestExchange_iff codec ctxReply hsender htomb hx]
    cases hy : b.store.lookup k with
    | none => simpa [Below] using Or.inr (J.refl x)
    | some y => simp [IsAhead, hx, below_option_some J.refl]

/-- After an exchange in each direction both nodes hold the merge of their values
exactly when versions tell apart everything that differs. -/
theorem antiEntropyRound_merges_iff (J : JoinOn S eqv ReplicatedData.merge) (codec : Codec V W)
    (hcodec : codec.RoundTrips S eqv) (ctxDigest ctxReply : Context W)
    (hsender : ctxDigest.sender.isSome) (a b : Replicator V W) (k : String)
    (hta : a.isTombstoned k = false) (htb : b.isTombstoned k = false)
    (ha : ∀ x ∈ a.store.lookup k, S x) (hb : ∀ y ∈ b.store.lookup k, S y) :
    (Option.Rel eqv ((antiEntropyRound codec ctxDigest ctxReply a b).1.store.lookup k)
        (joinOption ReplicatedData.merge (a.store.lookup k) (b.store.lookup k)) ∧
      Option.Rel eqv ((antiEntropyRound codec ctxDigest ctxReply a b).2.store.lookup k)
        (joinOption ReplicatedData.merge (a.store.lookup k) (b.store.lookup k))) ↔
      VersionsTell eqv a b k := by
  obtain ⟨hfirst, hA⟩ := digestExchange_eqv J hcodec ctxReply hsender hta ha hb
  obtain ⟨-, hB⟩ := digestExchange_eqv J hcodec ctxReply hsender htb hb hfirst
  have hround : antiEntropyRound codec ctxDigest ctxReply a b =
      ((digestExchange codec ctxDigest ctxReply a b).1, (digestExchange codec ctxDigest ctxReply b
        (digestExchange codec ctxDigest ctxReply a b).1).1) := by
    simp [antiEntropyRound]
  rw [hround, versionsTell_iff J codec ctxReply hsender hta]
  exact J.option.exchange_eqv_iff ha hb hfirst hA hB

end Repair

section Example

def senderContext : Context GCounter := { answeringContext with sender := some "replicator" }

/-- A local increment of one key. -/
def incrementHits (nodeID : NodeID) : Message GCounter GCounter :=
  .update ⟨⟨"hits", .gCounter⟩, newGCounter, fun c => c.increment nodeID 1, .unset⟩

/-- A node that counted twice. -/
def countedTwice : Replicator GCounter GCounter :=
  run counterCodec { startedReplicator with nodeID := "node-2" }
    [(answeringContext, incrementHits "node-2"), (answeringContext, incrementHits "node-2")]

/-- A node that received only the first of the two deltas. -/
def missedSecondDelta : Replicator GCounter GCounter :=
  run counterCodec startedReplicator [(answeringContext, peerDelta "hits" 1)]

theorem antiEntropyRound_merges_missed_delta :
    Option.Rel GCounter.SameSlots
      ((antiEntropyRound counterCodec senderContext senderContext missedSecondDelta
        countedTwice).1.store.lookup "hits")
      (joinOption GCounter.merge (missedSecondDelta.store.lookup "hits")
        (countedTwice.store.lookup "hits")) ∧
    Option.Rel GCounter.SameSlots
      ((antiEntropyRound counterCodec senderContext senderContext missedSecondDelta
        countedTwice).2.store.lookup "hits")
      (joinOption GCounter.merge (missedSecondDelta.store.lookup "hits")
        (countedTwice.store.lookup "hits")) := by
  have hcodec : counterCodec.RoundTrips (fun _ => True) GCounter.SameSlots :=
    fun v _ => ⟨v, v, rfl, rfl, trivial, fun _ => rfl⟩
  refine (antiEntropyRound_merges_iff GCounter.merge_joinOn counterCodec hcodec senderContext
    senderContext rfl missedSecondDelta countedTwice "hits" (by decide) (by decide)
    (fun _ _ => trivial) (fun _ _ => trivial)).mpr ?_
  rintro x ⟨⟩ y ⟨⟩
  exact ⟨.inl (by decide), .inr fun n => rfl⟩

/-- Each of two nodes counted once and the deltas were lost: both versions are one,
nothing is exchanged, and both keep a count of one where the merge is two. -/
theorem antiEntropyRound_equal_versions_not_merged :
    let a := run counterCodec startedReplicator [(answeringContext, incrementHits "node-1")]
    let b := run counterCodec { startedReplicator with nodeID := "node-2" }
      [(answeringContext, incrementHits "node-2")]
    let after := antiEntropyRound counterCodec senderContext senderContext a b
    a.isTombstoned "hits" = false ∧ b.isTombstoned "hits" = false ∧
    (after.1.store.lookup "hits").map GCounter.value = some 1 ∧
    (after.2.store.lookup "hits").map GCounter.value = some 1 ∧
    (joinOption GCounter.merge (a.store.lookup "hits") (b.store.lookup "hits")).map
      GCounter.value = some 2 := by
  decide

end Example
end Replicator
end GoAkt.Replication
