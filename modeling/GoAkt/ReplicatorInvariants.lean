import GoAkt.Replicator
import GoAkt.GuardedRuns
import GoAkt.Counters

/-!
# Invariants of the replicator's maps

Four maps of the replicator belong together: the store, the data types and
versions of its keys, and the tombstones. Every handler but that of a read moves
them by a few kinds of steps, all of which keep deleted keys deleted and the
bookkeeping complete. A coordinated read writes what its peers answered into the
store and touches none of the other maps; the theorems of this module say
exactly which reads break which property.
-/
namespace GoAkt.Replication
open GoAkt.FiniteMaps GoAkt.Joins GoAkt.Crdt GoAkt.GuardedRuns Option
variable {V W : Type*}

/-- The four maps that belong together. -/
structure Core (V : Type*) where
  store : Map String V
  keyTypes : Map String DataType
  versions : Map String ℕ
  tombstones : Map String Tombstone

def Replicator.core (r : Replicator V W) : Core V := ⟨r.store, r.keyTypes, r.versions, r.tombstones⟩

namespace Core

/-- What handlers other than reads do to the maps. -/
inductive Step : Core V → Core V → Prop
  | adopt {c : Core V} (keyID : String) (dataType : DataType) (data : V)
      (hlive : c.tombstones.lookup keyID = none) :
      Step c ⟨c.store.insert keyID data, c.keyTypes.insert keyID dataType,
        c.versions.insert keyID ((c.versions.lookup keyID).getD 0 + 1), c.tombstones⟩
  | replace {c : Core V} (keyID : String) (data : V) (hlive : c.tombstones.lookup keyID = none)
      (hheld : c.store.lookup keyID ≠ none) :
      Step c ⟨c.store.insert keyID data, c.keyTypes,
        c.versions.insert keyID ((c.versions.lookup keyID).getD 0 + 1), c.tombstones⟩
  | bury {c : Core V} (keyID : String) (tombstone : Tombstone) :
      Step c ⟨c.store.erase keyID, c.keyTypes, c.versions.erase keyID,
        c.tombstones.insert keyID tombstone⟩
  | sweep {c : Core V} (store : Map String V) (tombstones : Map String Tombstone)
      (hstore : ∀ k, store.lookup k = none ↔ c.store.lookup k = none)
      (htombstones : ∀ k, c.tombstones.lookup k = none → tombstones.lookup k = none) :
      Step c ⟨store, c.keyTypes, c.versions, tombstones⟩

/-- Any number of such steps. -/
abbrev Steps : Core V → Core V → Prop := Relation.ReflTransGen Step

variable {c d : Core V}

lemma Steps.keep {P : Core V → Prop} (hstep : ∀ {c d}, Step c d → P c → P d)
    (h : Steps c d) (hc : P c) : P d := by
  induction h with
  | refl => exact hc
  | tail _ hlast ih => exact hstep hlast ih

/-- Deleted keys have no value. -/
def TombstonedAbsent (c : Core V) : Prop :=
  ∀ k, c.tombstones.lookup k ≠ none → c.store.lookup k = none

/-- Stored keys have a data type and a positive version. -/
def Tracked (c : Core V) : Prop :=
  ∀ k, c.store.lookup k ≠ none → c.keyTypes.lookup k ≠ none ∧ 0 < (c.versions.lookup k).getD 0

/-- Only stored keys have a version. -/
def VersionsStored (c : Core V) : Prop := ∀ k, c.versions.lookup k ≠ none → c.store.lookup k ≠ none

lemma Step.tombstonedAbsent (h : Step c d) (hc : TombstonedAbsent c) : TombstonedAbsent d := by
  intro k hk
  cases h with
  | adopt keyID dataType data hlive | replace keyID data hlive hheld =>
    have hne : k ≠ keyID := by
      rintro rfl
      exact hk hlive
    simpa [lookup_insert_ite, hne] using hc k hk
  | bury keyID tombstone =>
    simp only [lookup_insert_ite, lookup_erase_ite] at hk ⊢
    split_ifs with hne
    · rfl
    · rw [if_neg hne] at hk
      exact hc k hk
  | sweep store tombstones hstore htombstones =>
    exact (hstore k).mpr (hc k fun h => hk (htombstones k h))

lemma Step.tracked (h : Step c d) (hc : Tracked c) : Tracked d := by
  intro k hk
  cases h with
  | adopt keyID dataType data hlive =>
    simp only [lookup_insert_ite] at hk ⊢
    split_ifs with hne
    · simp
    · rw [if_neg hne] at hk
      exact hc k hk
  | replace keyID data hlive hheld =>
    simp only [lookup_insert_ite] at hk ⊢
    split_ifs with hne
    · subst hne
      exact ⟨(hc k hheld).1, by simp⟩
    · rw [if_neg hne] at hk
      exact hc k hk
  | bury keyID tombstone =>
    simp only [lookup_erase_ite] at hk ⊢
    split_ifs with hne
    · rw [if_pos hne] at hk
      exact absurd rfl hk
    · rw [if_neg hne] at hk
      exact hc k hk
  | sweep store tombstones hstore htombstones => exact hc k fun h => hk ((hstore k).mpr h)

lemma Step.versionsStored (h : Step c d) (hc : VersionsStored c) : VersionsStored d := by
  intro k hk
  cases h with
  | adopt keyID dataType data hlive | replace keyID data hlive hheld =>
    simp only [lookup_insert_ite] at hk ⊢
    split_ifs with hne
    · simp
    · rw [if_neg hne] at hk
      exact hc k hk
  | bury keyID tombstone =>
    simp only [lookup_erase_ite] at hk ⊢
    split_ifs with hne
    · rw [if_pos hne] at hk
      exact absurd rfl hk
    · rw [if_neg hne] at hk
      exact hc k hk
  | sweep store tombstones hstore htombstones => exact fun h => hc k hk ((hstore k).mp h)

end Core

namespace Replicator
section Handlers
variable (codec : Codec V W) (r : Replicator V W) (ctx : Context W) (k : String) (msg : Update V)
  (keyID : String) (dataType : DataType) (data : V)

@[simp] lemma core_notifyChanged : (r.notifyChanged ctx keyID data).1.core = r.core := by
  unfold notifyChanged
  split <;> rfl

@[simp] lemma core_publishDelta (delta : V) :
    (publishDelta codec r keyID dataType delta).1.core = r.core := by
  unfold publishDelta
  by_cases htopic : r.hasTopicActor
  · simp only [htopic, Bool.not_true, Bool.false_eq_true, if_false]
    cases encodeDelta codec ⟨keyID, dataType, delta, r.nodeID⟩ <;> rfl
  · simp [htopic]

@[simp] lemma core_replicateUpdate (delta : Option V) :
    (replicateUpdate codec r ctx msg delta).1.core = r.core := by
  cases delta with
  | none => rfl
  | some delta =>
    simp only [replicateUpdate]
    split_ifs
    · exact core_publishDelta codec r _ _ delta
    · unfold coordinatedWrite
      cases contactedPeers ctx msg.writeTo with
      | none => exact core_publishDelta codec r _ _ delta
      | some selected =>
        cases encodeDelta codec ⟨msg.key.id, msg.key.dataType, delta, r.nodeID⟩ with
        | none | some pb => exact core_publishDelta codec r _ _ delta

lemma steps_bury (tombstone : Tombstone) : Core.Steps r.core (r.bury keyID tombstone).core :=
  .single (.bury (c := r.core) keyID tombstone)

lemma steps_handleDelete (key : Key) (writeTo : Coordination) :
    Core.Steps r.core (r.handleDelete ctx key writeTo).1.core := by
  unfold handleDelete
  dsimp only
  cases r.keyTypes.lookup key.id with
  | none | some dataType => exact steps_bury r key.id _

lemma steps_handleProtoTombstone (msg : CRDTTombstone) :
    Core.Steps r.core (r.handleProtoTombstone msg).1.core := by
  unfold handleProtoTombstone
  split_ifs
  · exact .refl
  · split
    · exact .refl
    · exact steps_bury r _ _

lemma lookup_of_not_isTombstoned {keyID : String} (h : ¬ r.isTombstoned keyID = true) :
    r.tombstones.lookup keyID = none := by
  simpa [isTombstoned] using h

lemma steps_adopt (hlive : r.tombstones.lookup keyID = none) :
    Core.Steps r.core ((r.trackKey keyID dataType).setValue keyID data).core :=
  .single (.adopt (c := r.core) keyID dataType data hlive)

lemma steps_setValue (hlive : r.tombstones.lookup keyID = none)
    (hheld : r.store.lookup keyID ≠ none) : Core.Steps r.core (r.setValue keyID data).core :=
  .single (.replace (c := r.core) keyID data hlive hheld)

/-- A loop over a list of items whose body performs steps performs steps. -/
lemma steps_foldl {ι : Type*} (body : Outcome V W → ι → Outcome V W)
    (hbody : ∀ out item, Core.Steps out.1.core (body out item).1.core) (items : List ι)
    (out : Outcome V W) : Core.Steps out.1.core (items.foldl body out).1.core := by
  induction items generalizing out with
  | nil => exact .refl
  | cons item items ih => exact (hbody out item).trans (ih (body out item))

variable [ReplicatedData V]

lemma steps_mergeRemote (hlive : r.tombstones.lookup keyID = none) :
    Core.Steps r.core (r.mergeRemote ctx keyID dataType data).1.core := by
  unfold mergeRemote
  cases hheld : r.store.lookup keyID with
  | none =>
    rw [core_notifyChanged]
    exact steps_adopt r keyID dataType data hlive
  | some current =>
    rw [core_notifyChanged]
    exact steps_setValue r keyID _ hlive (by simp [hheld])

lemma steps_handleUpdate : Core.Steps r.core (handleUpdate codec r ctx msg).1.core := by
  unfold handleUpdate
  dsimp only
  split_ifs with htomb
  · exact .refl
  · have hlive := lookup_of_not_isTombstoned r htomb
    rw [core_notifyChanged, core_replicateUpdate]
    cases hheld : r.store.lookup msg.key.id with
    | none => exact steps_adopt r msg.key.id msg.key.dataType _ hlive
    | some current => exact steps_setValue r msg.key.id _ hlive (by simp [hheld])

lemma steps_handleDelta (msg : Delta V) : Core.Steps r.core (r.handleDelta ctx msg).1.core := by
  unfold handleDelta
  split_ifs with horigin htomb
  · exact .refl
  · exact .refl
  · exact steps_mergeRemote r ctx _ _ _ (lookup_of_not_isTombstoned r htomb)

lemma steps_handleProtoDelta (msg : CRDTDelta W) :
    Core.Steps r.core (handleProtoDelta codec r ctx msg).1.core := by
  unfold handleProtoDelta
  split
  · exact .refl
  · exact steps_handleDelta r ctx _

lemma steps_handleFullStateEntry (out : Outcome V W) (entry : CRDTFullStateEntry W) :
    Core.Steps out.1.core (handleFullStateEntry codec ctx out entry).1.core := by
  unfold handleFullStateEntry
  split
  · exact .refl
  · split_ifs with htomb
    · exact .refl
    · split
      · exact .refl
      · exact steps_mergeRemote out.1 ctx _ _ _ (lookup_of_not_isTombstoned out.1 htomb)

lemma steps_handleIncomingBatch (batch : CRDTDeltaBatch W) :
    Core.Steps r.core (handleIncomingBatch codec r ctx batch).1.core := by
  unfold handleIncomingBatch
  split_ifs
  · exact .refl
  · refine (steps_foldl _ ?_ batch.deltas (r, [])).trans (steps_foldl _ ?_ batch.tombstones _)
    · exact fun out delta => steps_handleProtoDelta codec out.1 ctx delta
    · exact fun out ts => steps_handleProtoTombstone out.1 ts

lemma steps_handlePrune : Core.Steps r.core (r.handlePrune ctx).1.core := by
  refine .single (.sweep (c := r.core) _ _ (fun k => ?_) (fun k hk => ?_))
  · refine (lookup_collect_keys r.store _ k) ▸ ?_
    change _ ↔ r.store.lookup k = none
    cases r.store.lookup k <;> simp
  · have hk : r.tombstones.lookup k = none := hk
    refine (lookup_collect_keys r.tombstones _ k).trans ?_
    rw [hk, bind_none]

/-- Every handler but that of a read is a sequence of steps. -/
lemma steps_handleMessage (msg : Message V W)
    (hread : ∀ key readFrom, msg ≠ .get key readFrom) :
    Core.Steps r.core (handleMessage codec r ctx msg).1.core := by
  cases msg with
  | update msg => exact steps_handleUpdate codec r ctx msg
  | get key readFrom => exact absurd rfl (hread key readFrom)
  | delete key writeTo => exact steps_handleDelete r ctx key writeTo
  | terminated actorID | dataCenterDigestRequest => exact .refl
  | protoDelta msg => exact steps_handleProtoDelta codec r ctx msg
  | delta msg => exact steps_handleDelta r ctx msg
  | protoTombstone msg => exact steps_handleProtoTombstone r msg
  | fullState entries => exact steps_foldl _ (steps_handleFullStateEntry codec ctx) entries (r, [])
  | batch msg => exact steps_handleIncomingBatch codec r ctx msg
  | pruneTick => exact steps_handlePrune r ctx
  | subscribe key | unsubscribe key | readRequest msg | digest entries | dataCenterFlushTick
  | antiEntropyTick | snapshotTick =>
    simp only [handleMessage, handleSubscribe, handleUnsubscribe, removeWatcher, handleReadRequest,
      handleDigest, handleDataCenterFlush, handleAntiEntropy, handleSnapshot]
    repeat' split
    all_goals exact .refl

/-- Some contacted peer answers a coordinated read with data that decodes. -/
def Answered (readFrom : Coordination) : Prop :=
  ∃ selected, contactedPeers ctx readFrom = some selected ∧
    ∃ peer ∈ selected, peerData codec ctx (r.readRequest keyID) peer ≠ none

lemma coordinatedRead_eq_none_iff (current : Option V) (readFrom : Coordination) :
    coordinatedRead codec r ctx keyID current readFrom = none ↔
      current = none ∧ ¬ Answered codec r ctx keyID readFrom := by
  unfold coordinatedRead Answered
  cases contactedPeers ctx readFrom with
  | none => simp
  | some selected =>
    have hloop : ∀ (peers : List Peer) (merged : Option V),
        peers.foldl (fun merged peer => joinOption ReplicatedData.merge merged
          (peerData codec ctx (r.readRequest keyID) peer)) merged = none ↔
        merged = none ∧ ∀ peer ∈ peers, peerData codec ctx (r.readRequest keyID) peer = none := by
      intro peers
      induction peers with
      | nil => simp
      | cons peer peers ih =>
        intro merged
        rw [List.foldl_cons, ih, joinOption_eq_none, List.forall_mem_cons, and_assoc]
    simp [hloop]

variable {readFrom : Coordination} {key : Key}

lemma core_handleGet_of_unwritten (h : readFrom = .unset ∨
      coordinatedRead codec r ctx key.id (r.store.lookup key.id) readFrom = none) :
    (handleGet codec r ctx key readFrom).1.core = r.core := by
  unfold handleGet
  dsimp only
  split_ifs with hunset
  · rfl
  · rw [h.resolve_left hunset]

/-- A coordinated read with a result writes it to the store and nowhere else. -/
lemma core_handleGet_of_written {merged : V} (hset : readFrom ≠ .unset)
    (h : coordinatedRead codec r ctx key.id (r.store.lookup key.id) readFrom = some merged) :
    (handleGet codec r ctx key readFrom).1.core =
      ⟨r.store.insert key.id merged, r.keyTypes, r.versions, r.tombstones⟩ := by
  unfold handleGet
  dsimp only
  rw [if_neg hset, h]
  rfl

/-- Everything a message can do to the maps. -/
lemma step_cases (event : Context W × Message V W) :
    Core.Steps r.core (step codec r event).core ∨
    ∃ key readFrom merged, event.2 = .get key readFrom ∧ readFrom ≠ .unset ∧
      coordinatedRead codec r event.1 key.id (r.store.lookup key.id) readFrom = some merged ∧
      (step codec r event).core =
        ⟨r.store.insert key.id merged, r.keyTypes, r.versions, r.tombstones⟩ := by
  obtain ⟨ctx, msg⟩ := event
  by_cases hread : ∃ key readFrom, msg = .get key readFrom
  · obtain ⟨key, readFrom, rfl⟩ := hread
    by_cases hset : readFrom = .unset
    · refine .inl ?_
      rw [step, handleMessage, core_handleGet_of_unwritten codec r ctx (.inl hset)]
    · cases hmerged : coordinatedRead codec r ctx key.id (r.store.lookup key.id) readFrom with
      | none =>
        refine .inl ?_
        rw [step, handleMessage, core_handleGet_of_unwritten codec r ctx (.inr hmerged)]
      | some merged =>
        exact .inr ⟨key, readFrom, merged, rfl, hset, hmerged,
          core_handleGet_of_written codec r ctx hset hmerged⟩
  · exact .inl (steps_handleMessage codec r ctx msg fun key readFrom h => hread ⟨key, readFrom, h⟩)

/-- A read that peers answer always has a result. -/
lemma core_step_of_answered {event : Context W × Message V W}
    (hget : event.2 = .get key readFrom) (hset : readFrom ≠ .unset)
    (hanswered : Answered codec r event.1 key.id readFrom) : ∃ merged, (step codec r event).core =
      ⟨r.store.insert key.id merged, r.keyTypes, r.versions, r.tombstones⟩ := by
  obtain ⟨ctx, msg⟩ := event
  cases hget
  cases hmerged : coordinatedRead codec r ctx key.id (r.store.lookup key.id) readFrom with
  | none => exact absurd hanswered ((coordinatedRead_eq_none_iff codec r ctx _ _ _).mp hmerged).2
  | some merged => exact ⟨merged, core_handleGet_of_written codec r ctx hset hmerged⟩

end Handlers

/-! ## Deleted keys -/

section Deletion
variable [ReplicatedData V] (codec : Codec V W)

/-- The message is no coordinated read of a deleted key that peers answer. -/
def KeepsDeleted (r : Replicator V W) (event : Context W × Message V W) : Prop :=
  ∀ key readFrom, event.2 = .get key readFrom → readFrom ≠ .unset →
    r.isTombstoned key.id = true → ¬ Answered codec r event.1 key.id readFrom

lemma tombstonedAbsent_step {r : Replicator V W} (hr : r.core.TombstonedAbsent)
    {event : Context W × Message V W} (hkeeps : KeepsDeleted codec r event) :
    (step codec r event).core.TombstonedAbsent := by
  rcases step_cases codec r event with hsteps | ⟨key, readFrom, merged, hget, hset, hmerged, hcore⟩
  · exact hsteps.keep (fun h => h.tombstonedAbsent) hr
  · rw [hcore]
    intro k hk
    have hk : r.tombstones.lookup k ≠ none := hk
    have hne : k ≠ key.id := by
      rintro rfl
      have htomb : r.isTombstoned key.id = true := by simpa [isTombstoned, isSome_iff_ne_none]
      have hnone := (coordinatedRead_eq_none_iff codec r event.1 key.id _ readFrom).mpr
        ⟨hr key.id hk, hkeeps key readFrom hget hset htomb⟩
      rw [core, hmerged] at hnone
      cases hnone
    rw [lookup_insert_ite, if_neg hne]
    exact hr k hk

lemma not_tombstonedAbsent_step {r : Replicator V W} {event : Context W × Message V W}
    (hrevives : ¬ KeepsDeleted codec r event) :
    ¬ (step codec r event).core.TombstonedAbsent := by
  simp only [KeepsDeleted, not_forall, not_not] at hrevives
  obtain ⟨key, readFrom, hget, hset, htomb, hanswered⟩ := hrevives
  obtain ⟨merged, hcore⟩ := core_step_of_answered codec r hget hset hanswered
  rw [hcore]
  intro habsent
  have htomb : r.tombstones.lookup key.id ≠ none := by
    simpa [isTombstoned, isSome_iff_ne_none] using htomb
  have := habsent key.id htomb
  simp at this

/-- Deleted keys stay deleted in every state of a run exactly when no coordinated
read of a deleted key is answered with data. -/
theorem deleted_keys_absent_iff (nodeID : NodeID) (config : Config) (dc : DataCenter)
    (hasTopicActor : Bool) (events : List (Context W × Message V W)) :
    (∀ past, past <+: events →
      (run codec (newReplicator nodeID config dc hasTopicActor) past).core.TombstonedAbsent) ↔
    ∀ past event, past ++ [event] <+: events →
      KeepsDeleted codec (run codec (newReplicator nodeID config dc hasTopicActor) past) event :=
  holds_along_iff_guarded (step codec) (fun _ => True) (fun r => r.core.TombstonedAbsent)
    (KeepsDeleted codec) (fun _ _ h => h)
    (fun _ _ _ hr hkeeps => tombstonedAbsent_step codec hr hkeeps)
    (fun _ _ _ _ hrevives => not_tombstonedAbsent_step codec hrevives) trivial
    (fun k hk => absurd (AList.lookup_empty k) hk) events

end Deletion

section Example

/-- Values travel unchanged. -/
def counterCodec : Codec GCounter GCounter := ⟨some, some⟩

/-- One peer, which answers every read with a counter. -/
def answeringContext : Context GCounter where
  sender := none
  now := 0
  peers := some [⟨"host-2", 3322⟩]
  draw _ := 0
  remoteLookup _ := some "replicator@host-2:3322"
  remoteAsk _ request :=
    some (some ⟨request.key, some (newGCounter.increment "node-2" 1), "node-2"⟩)
  isRunning _ := false
  isLeader := false

def startedReplicator : Replicator GCounter GCounter :=
  newReplicator "node-1" ⟨1000, false, false⟩ ⟨"dc-1", "region-1", "zone-1"⟩ true

/-- A delete followed by a coordinated read that a peer answers. -/
theorem coordinated_read_revives_deleted_key :
    (run counterCodec startedReplicator
      [(answeringContext, .delete ⟨"hits", .gCounter⟩ .unset),
        (answeringContext, .get ⟨"hits", .gCounter⟩ .all)]).isTombstoned "hits" = true ∧
    ((run counterCodec startedReplicator
      [(answeringContext, .delete ⟨"hits", .gCounter⟩ .unset),
        (answeringContext, .get ⟨"hits", .gCounter⟩ .all)]).store.lookup "hits").isSome = true := by
  decide

end Example

/-! ## Bookkeeping of stored keys -/

section Bookkeeping
variable (codec : Codec V W)

/-- What the bookkeeping is for: the data types and versions are there, so a
snapshot succeeds and the digest lists every key with a non-zero version. -/
structure BookkeepingComplete (r : Replicator V W) : Prop where
  tracked : r.core.Tracked
  snapshot : (∀ k v, r.store.lookup k = some v → codec.encodeCRDT v ≠ none) →
    ∃ entries, buildSnapshotEntries codec r = .ok entries
  advertised : ∀ k, r.store.lookup k ≠ none → ∃ e ∈ r.buildDigest,
    e.key = some (encodeCRDTKey k (r.keyType k)) ∧ 0 < e.version

variable {r : Replicator V W}

lemma buildSnapshotEntries_ok (htracked : r.core.Tracked)
    (hencodable : ∀ k v, r.store.lookup k = some v → codec.encodeCRDT v ≠ none) :
    ∃ entries, buildSnapshotEntries codec r = .ok entries := by
  have hloop : ∀ (items : List (Sigma fun _ : String => V)),
      (∀ item ∈ items, r.keyTypes.lookup item.1 ≠ none ∧ codec.encodeCRDT item.2 ≠ none) →
      ∀ acc, ∃ entries, items.foldlM (snapshotEntry codec r) acc = .ok entries := by
    intro items
    induction items with
    | nil => exact fun _ acc => ⟨acc, rfl⟩
    | cons item items ih =>
      intro hitems acc
      obtain ⟨htype, hencode⟩ := hitems item List.mem_cons_self
      obtain ⟨dataType, hdataType⟩ := ne_none_iff_exists'.mp htype
      obtain ⟨data, hdata⟩ := ne_none_iff_exists'.mp hencode
      rw [List.foldlM_cons, snapshotEntry, hdataType, hdata]
      exact ih (fun item' h => hitems item' (List.mem_cons_of_mem item h)) _
  refine hloop r.store.entries (fun item hitem => ?_) ∅
  have hlookup := (mem_entries_iff_lookup r.store item.1 item.2).mp hitem
  refine ⟨(htracked item.1 ?_).1, hencodable item.1 item.2 hlookup⟩
  simp [core, hlookup]

lemma bookkeepingComplete_iff_tracked (r : Replicator V W) :
    BookkeepingComplete codec r ↔ r.core.Tracked := by
  constructor
  · exact fun h => h.tracked
  · intro htracked
    refine ⟨htracked, buildSnapshotEntries_ok codec htracked, fun k hk => ?_⟩
    have hmem := (mem_keys_iff_lookup _ _).mpr (ne_none_iff_exists'.mp hk)
    exact ⟨_, List.mem_map.mpr ⟨k, hmem, rfl⟩, rfl, (htracked k hk).2⟩

variable [ReplicatedData V]

/-- The message is no coordinated read of a missing key that peers answer. -/
def TracksReads (r : Replicator V W) (event : Context W × Message V W) : Prop :=
  ∀ key readFrom, event.2 = .get key readFrom → readFrom ≠ .unset →
    r.store.lookup key.id = none → ¬ Answered codec r event.1 key.id readFrom

lemma versionsStored_step (hr : r.core.VersionsStored)
    (event : Context W × Message V W) : (step codec r event).core.VersionsStored := by
  rcases step_cases codec r event with hsteps | ⟨key, readFrom, merged, -, -, -, hcore⟩
  · exact hsteps.keep (fun h => h.versionsStored) hr
  · rw [hcore]
    intro k hk
    rw [lookup_insert_ite]
    split_ifs
    · simp
    · exact hr k hk

lemma tracked_step (hr : r.core.Tracked) {event : Context W × Message V W}
    (htracks : TracksReads codec r event) : (step codec r event).core.Tracked := by
  rcases step_cases codec r event with hsteps | ⟨key, readFrom, merged, hget, hset, hmerged, hcore⟩
  · exact hsteps.keep (fun h => h.tracked) hr
  · rw [hcore]
    intro k hk
    refine hr k fun hnone => ?_
    have hk : (r.store.insert key.id merged).lookup k ≠ none := hk
    rw [lookup_insert_ite] at hk
    split_ifs at hk with hne
    · subst hne
      have hnothing := (coordinatedRead_eq_none_iff codec r event.1 key.id
        (r.store.lookup key.id) readFrom).mpr ⟨hnone, htracks key readFrom hget hset hnone⟩
      rw [hmerged] at hnothing
      cases hnothing
    · exact hk hnone

lemma not_tracked_step (hversions : r.core.VersionsStored)
    {event : Context W × Message V W} (huntracked : ¬ TracksReads codec r event) :
    ¬ (step codec r event).core.Tracked := by
  simp only [TracksReads, not_forall, not_not] at huntracked
  obtain ⟨key, readFrom, hget, hset, habsent, hanswered⟩ := huntracked
  obtain ⟨merged, hcore⟩ := core_step_of_answered codec r hget hset hanswered
  rw [hcore]
  intro htracked
  have hnone : r.versions.lookup key.id = none := by
    by_contra hne
    exact hversions key.id hne habsent
  have hpos := (htracked key.id (by simp)).2
  simp [hnone] at hpos

/-- The bookkeeping is complete in every state of a run exactly when no
coordinated read of a missing key is answered with data. -/
theorem bookkeeping_complete_iff (nodeID : NodeID) (config : Config) (dc : DataCenter)
    (hasTopicActor : Bool) (events : List (Context W × Message V W)) :
    (∀ past, past <+: events →
      BookkeepingComplete codec (run codec (newReplicator nodeID config dc hasTopicActor) past)) ↔
    ∀ past event, past ++ [event] <+: events →
      TracksReads codec (run codec (newReplicator nodeID config dc hasTopicActor) past) event := by
  simp only [bookkeepingComplete_iff_tracked]
  exact holds_along_iff_guarded (step codec) (fun r => r.core.VersionsStored)
    (fun r => r.core.Tracked) (TracksReads codec)
    (fun _ event h => versionsStored_step codec h event)
    (fun _ _ _ hr htracks => tracked_step codec hr htracks)
    (fun _ _ hversions _ huntracked => not_tracked_step codec hversions huntracked)
    (fun k hk => absurd (AList.lookup_empty k) hk)
    (fun k hk => absurd (AList.lookup_empty k) hk) events

/-- A coordinated read of a key that only a peer has leaves it without data type
and version, and from then on no snapshot succeeds. -/
theorem coordinated_read_leaves_key_untracked :
    ((run counterCodec startedReplicator
      [(answeringContext, .get ⟨"hits", .gCounter⟩ .all)]).store.lookup "hits").isSome = true ∧
    (run counterCodec startedReplicator
      [(answeringContext, .get ⟨"hits", .gCounter⟩ .all)]).keyTypes.lookup "hits" = none ∧
    (run counterCodec startedReplicator
      [(answeringContext, .get ⟨"hits", .gCounter⟩ .all)]).version "hits" = 0 ∧
    (buildSnapshotEntries counterCodec (run counterCodec startedReplicator
      [(answeringContext, .get ⟨"hits", .gCounter⟩ .all)])).isOk = false := by
  decide

end Bookkeeping
end Replicator
end GoAkt.Replication
