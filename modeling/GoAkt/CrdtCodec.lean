import GoAkt.Counters
import GoAkt.MVRegister
import GoAkt.ORMap
import GoAkt.SerializerDispatch
import GoAkt.Fallible

/-!
# The wire codec of replicated data

Every replicated type has a wire record, and a map carries the records of its values,
nested to any depth. Elements, keys and register values go through a serializer. The
encoder and the decoder are a pair of recursive functions over the data and over the
records; decoding what was encoded gives back data of the same type in the same
logical state. What tracks local changes (`changes` and `dirty`) is not sent.
-/
namespace GoAkt.Crdt
open GoAkt.FiniteMaps GoAkt.VersionVectors GoAkt.Fallible GoAkt.ByteStrings GoAkt.Remote

/-! ## Raw states -/

/-- An element of a set with its dots, in exported form. -/
structure Entry (α : Type*) where
  element : α
  dots : List Dot
  deriving DecidableEq, Repr

namespace ORSet
variable {α : Type*}

/-- Elements without dots are left out. -/
def rawState (s : ORSet α) : List (Entry α) × VersionVector NodeID :=
  (s.entries.entries.filterMap fun entry =>
    if entry.2.length = 0 then none else some ⟨entry.1, entry.2⟩, s.clock)

def fromRawState [DecidableEq α] (entries : List (Entry α)) (clock : VersionVector NodeID) :
    ORSet α :=
  ⟨entries.foldl (fun stored e => stored.insert e.element e.dots) ∅, clock, newORSetDelta⟩

end ORSet

namespace MVRegister
variable {β : Type*}

def rawState (r : MVRegister β) : List (MVEntry β) × VersionVector NodeID := (r.entries, r.clock)

def fromRawState (entries : List (MVEntry β)) (clock : VersionVector NodeID) : MVRegister β :=
  ⟨entries, clock, false⟩

end MVRegister

def GCounter.fromState (state : Map NodeID UInt64) : GCounter := ⟨state, ∅⟩

def PNCounter.fromState (increments decrements : Map NodeID UInt64) : PNCounter :=
  ⟨.fromState increments, .fromState decrements⟩

/-- The exported state of a map. -/
structure ORMapRawState (κ V : Type*) where
  keyEntries : List (Entry κ)
  keyClock : VersionVector NodeID
  values : Map κ V

namespace ORMap
variable {κ V : Type*}

def rawState (m : ORMap κ V) : ORMapRawState κ V :=
  ⟨m.keySet.rawState.1, m.keySet.rawState.2, m.values⟩

def fromRawState [DecidableEq κ] (state : ORMapRawState κ V) : ORMap κ V :=
  ⟨.fromRawState state.keyEntries state.keyClock, state.values, false⟩

end ORMap

/-! ## Replicated data of any of the types -/

/-- The values of the interface type `ReplicatedData`. The values of a map are given
by the list of their keys and a function on it, which makes a repeated key impossible
at every depth. -/
inductive Data (E : Type*) where
  | gCounter (c : GCounter)
  | pnCounter (c : PNCounter)
  | flag (f : Flag)
  | lwwRegister (r : LWWRegister E)
  | orSet (s : ORSet E)
  | mvRegister (r : MVRegister E)
  | orMap (keySet : ORSet E) (keys : List E) (nodup : keys.Nodup)
      (value : {k // k ∈ keys} → Data E) (dirty : Bool)

variable {E : Type*}

namespace Data

def ofORMap [DecidableEq E] (m : ORMap E (Data E)) : Data E :=
  .orMap m.keySet m.values.keys m.values.keys_nodup
    (fun k => (m.values.lookup k.1).get (AList.lookup_isSome.mpr (AList.mem_keys.mpr k.2))) m.dirty

end Data

/-! ## Wire records -/

structure GCounterData where
  state : Map NodeID UInt64

structure PNCounterData where
  increments : Option GCounterData
  decrements : Option GCounterData

structure FlagData where
  enabled : Bool

structure LWWRegisterData where
  value : Bytes
  timestampNanos : Int64
  nodeId : NodeID

structure ORSetEntry where
  element : Bytes
  dots : List Dot

structure ORSetData where
  entries : List ORSetEntry
  clock : VersionVector NodeID

structure MVRegisterEntry where
  value : Bytes
  nodeId : NodeID
  counter : ℕ

structure MVRegisterData where
  entries : List MVRegisterEntry
  clock : VersionVector NodeID

/-- The message with its `oneof`; `unset` is a message that carries none of the
types. An entry of a map is its key and its value, which may be missing. -/
inductive CRDTData where
  | unset
  | gCounter (pb : GCounterData)
  | pnCounter (pb : PNCounterData)
  | flag (pb : FlagData)
  | lwwRegister (pb : LWWRegisterData)
  | orSet (pb : ORSetData)
  | mvRegister (pb : MVRegisterData)
  | orMap (entries : List (Bytes × Option CRDTData)) (keySet : Option ORSetData)

/-! ## Encoding and decoding -/

def encodeGCounter (c : GCounter) : GCounterData := ⟨c.state⟩

def decodeGCounter (pb : GCounterData) : GCounter := .fromState pb.state

def encodePNCounter (c : PNCounter) : PNCounterData :=
  ⟨some ⟨c.increments.state⟩, some ⟨c.decrements.state⟩⟩

/-- A missing half reads as an empty one. -/
def decodePNCounter (pb : PNCounterData) : PNCounter :=
  .fromState (pb.increments.elim ∅ GCounterData.state) (pb.decrements.elim ∅ GCounterData.state)

def encodeFlag (f : Flag) : FlagData := ⟨f.enabled⟩

def decodeFlag (pb : FlagData) : Flag := if pb.enabled then newFlag.enable else newFlag

section Codec
variable (serializer : Serializer E)

def encodeLWWRegister (r : LWWRegister E) : Except String LWWRegisterData := do
  let val ← wrap "encode LWWRegister value" (serializer.serialize r.value)
  return ⟨val, r.timestamp, r.nodeID⟩

def decodeLWWRegister (pb : LWWRegisterData) : Except String (LWWRegister E) := do
  let val ← wrap "decode LWWRegister value" (serializer.deserialize pb.value)
  return .fromState val pb.timestampNanos pb.nodeId

def encodeORSetEntries (entries : List (Entry E)) (clock : VersionVector NodeID) :
    Except String ORSetData := do
  let pbEntries ← entries.mapM fun e => do
    let elem ← wrap "encode ORSet element" (serializer.serialize e.element)
    return (⟨elem, e.dots⟩ : ORSetEntry)
  return ⟨pbEntries, clock⟩

def decodeORSetEntries (pb : ORSetData) : Except String (List (Entry E)) :=
  pb.entries.mapM fun e => do
    let elem ← wrap "decode ORSet element" (serializer.deserialize e.element)
    return ⟨elem, e.dots⟩

def encodeORSet (s : ORSet E) : Except String ORSetData :=
  encodeORSetEntries serializer s.rawState.1 s.rawState.2

def decodeORSet [DecidableEq E] (pb : ORSetData) : Except String (ORSet E) := do
  let entries ← decodeORSetEntries serializer pb
  return .fromRawState entries pb.clock

def encodeMVRegister (r : MVRegister E) : Except String MVRegisterData := do
  let pbEntries ← r.rawState.1.mapM fun e => do
    let val ← wrap "encode MVRegister entry" (serializer.serialize e.value)
    return (⟨val, e.dot.nodeID, e.dot.counter⟩ : MVRegisterEntry)
  return ⟨pbEntries, r.rawState.2⟩

def decodeMVRegister (pb : MVRegisterData) : Except String (MVRegister E) := do
  let entries ← pb.entries.mapM fun e => do
    let val ← wrap "decode MVRegister entry" (serializer.deserialize e.value)
    return (⟨val, ⟨e.nodeId, e.counter⟩⟩ : MVEntry E)
  return .fromRawState entries pb.clock

/-- `format` prints a key inside an error text. -/
def encodeCRDT (format : E → String) : Data E → Except String CRDTData
  | .gCounter c => return .gCounter (encodeGCounter c)
  | .pnCounter c => return .pnCounter (encodePNCounter c)
  | .flag f => return .flag (encodeFlag f)
  | .lwwRegister r => do
    let lwwData ← encodeLWWRegister serializer r
    return .lwwRegister lwwData
  | .orSet s => do
    let orSetData ← encodeORSet serializer s
    return .orSet orSetData
  | .mvRegister r => do
    let mvData ← encodeMVRegister serializer r
    return .mvRegister mvData
  | .orMap keys stored _ value _ => do
    let keySet ← wrap "failed to encode ORMap key set"
      (encodeORSetEntries serializer keys.rawState.1 keys.rawState.2)
    let pbEntries ← stored.attach.mapM fun k => do
      let valData ← wrap ("failed to encode ORMap value for key=" ++ format k.1)
        (encodeCRDT format (value k))
      let keyBytes ← wrap ("failed to encode ORMap key=" ++ format k.1) (serializer.serialize k.1)
      return (keyBytes, some valData)
    return .orMap pbEntries (some keySet)

/-- A map without a key set decodes to one without keys. -/
def decodeKeySet (keySet : Option ORSetData) :
    Except String (List (Entry E) × VersionVector NodeID) :=
  match keySet with
  | none => return ([], ∅)
  | some ks => do
    let keyEntries ← wrap "failed to decode ORMap key set" (decodeORSetEntries serializer ks)
    return (keyEntries, ks.clock)

mutual

def decodeCRDT [DecidableEq E] (format : E → String) :
    Option CRDTData → Except String (Data E)
  | none => .error "nil CRDTData"
  | some .unset => .error "unsupported CRDTData type: <nil>"
  | some (.gCounter pb) => return .gCounter (decodeGCounter pb)
  | some (.pnCounter pb) => return .pnCounter (decodePNCounter pb)
  | some (.flag pb) => return .flag (decodeFlag pb)
  | some (.lwwRegister pb) => do
    let r ← decodeLWWRegister serializer pb
    return .lwwRegister r
  | some (.orSet pb) => do
    let s ← decodeORSet serializer pb
    return .orSet s
  | some (.mvRegister pb) => do
    let r ← decodeMVRegister serializer pb
    return .mvRegister r
  | some (.orMap entries keySet) => do
    let (keyEntries, keyClock) ← decodeKeySet serializer keySet
    let values ← decodeORMapEntries format entries ∅
    return .ofORMap (.fromRawState ⟨keyEntries, keyClock, values⟩)

/-- The loop over the entries of a map; a repeated key keeps its last value. -/
def decodeORMapEntries [DecidableEq E] (format : E → String) :
    List (Bytes × Option CRDTData) → Map E (Data E) → Except String (Map E (Data E))
  | [], values => return values
  | (keyBytes, value) :: rest, values => do
    let key ← wrap "failed to decode ORMap key" (serializer.deserialize keyBytes)
    let data ← wrap ("failed to decode ORMap value for key=" ++ format key)
      (decodeCRDT format value)
    decodeORMapEntries format rest (values.insert key data)

end
end Codec

/-! ## The logical state -/

def GCounter.SameState (c c' : GCounter) : Prop := ∀ n, c.state.lookup n = c'.state.lookup n

/-- The same dots for each element, in the same order, and the same clock. -/
def ORSet.SameState [DecidableEq E] (s s' : ORSet E) : Prop :=
  (∀ e, s.dots e = s'.dots e) ∧ ∀ n, s.clock.lookup n = s'.clock.lookup n

namespace Data

/-- The elements, keys and register values inside the data, at any depth. -/
def Mentions : Data E → E → Prop
  | .gCounter _, _ => False
  | .pnCounter _, _ => False
  | .flag _, _ => False
  | .lwwRegister r, e => r.value = e
  | .orSet s, e => e ∈ s.entries.keys
  | .mvRegister r, e => ∃ entry ∈ r.entries, entry.value = e
  | .orMap keySet keys _ value _, e =>
    e ∈ keySet.entries.keys ∨ e ∈ keys ∨ ∃ k, (value k).Mentions e

/-- The same type and the same logical state, at every depth. -/
def SameState [DecidableEq E] : Data E → Data E → Prop
  | .gCounter c, .gCounter c' => c.SameState c'
  | .pnCounter c, .pnCounter c' =>
    c.increments.SameState c'.increments ∧ c.decrements.SameState c'.decrements
  | .flag f, .flag f' => f.enabled = f'.enabled
  | .lwwRegister r, .lwwRegister r' =>
    r.value = r'.value ∧ r.timestamp = r'.timestamp ∧ r.nodeID = r'.nodeID
  | .orSet s, .orSet s' => s.SameState s'
  | .mvRegister r, .mvRegister r' =>
    r.entries = r'.entries ∧ ∀ n, r.clock.lookup n = r'.clock.lookup n
  | .orMap keySet keys _ value _, .orMap keySet' keys' _ value' _ =>
    keySet.SameState keySet' ∧ (∀ k, k ∈ keys ↔ k ∈ keys') ∧
      ∀ k (h : k ∈ keys) (h' : k ∈ keys'), (value ⟨k, h⟩).SameState (value' ⟨k, h'⟩)
  | _, _ => False

end Data

/-! ## Round trips of the flat types -/

section RoundTrip
variable {serializer : Serializer E}

lemma enabled_decodeFlag (f : Flag) : (decodeFlag (encodeFlag f)).enabled = f.enabled := by
  unfold decodeFlag encodeFlag
  cases h : f.enabled <;> rfl

lemma decodeLWWRegister_of_encode {r : LWWRegister E} {pb : LWWRegisterData}
    (hround : serializer.RoundTrips r.value) (henc : encodeLWWRegister serializer r = .ok pb) :
    decodeLWWRegister serializer pb = .ok (.fromState r.value r.timestamp r.nodeID) := by
  simp only [encodeLWWRegister, bind_eq_ok, wrap_eq_ok, pure_eq_ok] at henc
  obtain ⟨val, hval, rfl⟩ := henc
  simp only [decodeLWWRegister, bind_eq_ok, wrap_eq_ok, pure_eq_ok]
  exact ⟨r.value, hround val hval, rfl⟩

lemma decodeMVRegister_of_encode {r : MVRegister E} {pb : MVRegisterData}
    (hround : ∀ entry ∈ r.entries, serializer.RoundTrips entry.value)
    (henc : encodeMVRegister serializer r = .ok pb) :
    decodeMVRegister serializer pb = .ok (.fromRawState r.entries r.clock) := by
  simp only [encodeMVRegister, MVRegister.rawState, bind_eq_ok, pure_eq_ok] at henc
  obtain ⟨pbEntries, hentries, rfl⟩ := henc
  simp only [decodeMVRegister, bind_eq_ok, pure_eq_ok]
  refine ⟨r.entries, mapM_of_mapM ?_ hentries, rfl⟩
  intro entry hentry pbEntry henc
  simp only [bind_eq_ok, wrap_eq_ok, pure_eq_ok] at henc ⊢
  obtain ⟨val, hval, rfl⟩ := henc
  exact ⟨entry.value, hround entry hentry val hval, rfl⟩

lemma decodeORSetEntries_of_encode {entries : List (Entry E)} {clock : VersionVector NodeID}
    {pb : ORSetData} (hround : ∀ entry ∈ entries, serializer.RoundTrips entry.element)
    (henc : encodeORSetEntries serializer entries clock = .ok pb) :
    decodeORSetEntries serializer pb = .ok entries ∧ pb.clock = clock := by
  simp only [encodeORSetEntries, bind_eq_ok, pure_eq_ok] at henc
  obtain ⟨pbEntries, hentries, rfl⟩ := henc
  refine ⟨mapM_of_mapM ?_ hentries, rfl⟩
  intro entry hentry pbEntry henc
  simp only [bind_eq_ok, wrap_eq_ok, pure_eq_ok] at henc ⊢
  obtain ⟨elem, helem, rfl⟩ := henc
  exact ⟨entry.element, hround entry hentry elem helem, rfl⟩

lemma mem_keys_of_mem_rawState {s : ORSet E} {entry : Entry E} (h : entry ∈ s.rawState.1) :
    entry.element ∈ s.entries.keys := by
  simp only [ORSet.rawState, List.mem_filterMap, Option.ite_none_left_eq_some,
    Option.some.injEq] at h
  obtain ⟨stored, hstored, -, rfl⟩ := h
  exact List.mem_map_of_mem hstored

variable [DecidableEq E]

/-- The elements that the export leaves out have no dots. -/
lemma sameState_fromRawState (s : ORSet E) :
    s.SameState (.fromRawState s.rawState.1 s.rawState.2) := by
  refine ⟨fun e => ?_, fun n => rfl⟩
  have hfold : s.rawState.1.foldl
      (fun (stored : Map E (List Dot)) e => stored.insert e.element e.dots) ∅ =
      s.entries.foldl (fun (stored : Map E (List Dot)) e dots =>
        if dots.length = 0 then stored else stored.insert e dots) ∅ := by
    simp only [ORSet.rawState, List.foldl_filterMap, AList.foldl]
    congr 1
    funext stored entry
    split_ifs <;> rfl
  have hloop := lookup_foldl_own
    (fun (stored : Map E (List Dot)) e dots => if dots.length = 0 then stored
      else stored.insert e dots)
    (fun _ dots old => if dots.length = 0 then old else some dots)
    (fun acc k dots j => by
      by_cases hdots : dots.length = 0
      · by_cases hj : j = k
        · subst j
          simp [hdots]
        · simp [hdots, hj]
      · simp only [hdots, if_false, lookup_insert_ite]) s.entries ∅ e
  simp only [ORSet.dots, ORSet.fromRawState, hfold, hloop]
  cases hstored : s.entries.lookup e with
  | none => simp
  | some dots =>
    by_cases hdots : dots = []
    · simp [hdots]
    · simp [hdots]

lemma decodeORSet_of_encode {s : ORSet E} {pb : ORSetData}
    (hround : ∀ e ∈ s.entries.keys, serializer.RoundTrips e)
    (henc : encodeORSet serializer s = .ok pb) :
    decodeORSet serializer pb = .ok (.fromRawState s.rawState.1 s.rawState.2) := by
  obtain ⟨hdec, hclock⟩ := decodeORSetEntries_of_encode
    (fun entry hentry => hround _ (mem_keys_of_mem_rawState hentry)) henc
  simp only [decodeORSet, bind_eq_ok, pure_eq_ok]
  exact ⟨s.rawState.1, hdec, by rw [hclock]⟩

/-! ## Maps -/

/-- What the loop over the entries of an encoded map leaves: the values of the visited
keys decode to data in the same state, and the other keys keep what they had. -/
lemma decodeORMapEntries_of_encode {format : E → String} {keys : List E}
    {value : {k // k ∈ keys} → Data E}
    (hkeys : ∀ k ∈ keys, serializer.RoundTrips k)
    (hvalues : ∀ k pb, encodeCRDT serializer format (value k) = .ok pb →
      ∃ data, decodeCRDT serializer format (some pb) = .ok data ∧ (value k).SameState data)
    (visited : List {k // k ∈ keys}) (pbEntries : List (Bytes × Option CRDTData))
    (acc : Map E (Data E))
    (henc : visited.mapM (fun k => do
      let valData ← wrap ("failed to encode ORMap value for key=" ++ format k.1)
        (encodeCRDT serializer format (value k))
      let keyBytes ← wrap ("failed to encode ORMap key=" ++ format k.1) (serializer.serialize k.1)
      return (keyBytes, some valData)) = .ok pbEntries) :
    ∃ values, decodeORMapEntries serializer format pbEntries acc = .ok values ∧
      (∀ k ∈ visited, ∃ data, values.lookup k.1 = some data ∧ (value k).SameState data) ∧
      ∀ k, (∀ k' ∈ visited, k'.1 ≠ k) → values.lookup k = acc.lookup k := by
  induction visited generalizing pbEntries acc with
  | nil =>
    rw [mapM_nil_eq_ok] at henc
    subst henc
    exact ⟨acc, by rw [decodeORMapEntries, pure_eq_ok], by simp, fun _ _ => rfl⟩
  | cons k visited ih =>
    obtain ⟨pbEntry, pbRest, hentry, hrest, rfl⟩ := (mapM_cons_eq_ok _ k visited _).mp henc
    simp only [bind_eq_ok, wrap_eq_ok, pure_eq_ok] at hentry
    obtain ⟨valData, hval, keyBytes, hkey, rfl⟩ := hentry
    obtain ⟨data, hdata, hsame⟩ := hvalues k valData hval
    obtain ⟨values, hdec, hvisited, hother⟩ := ih pbRest (acc.insert k.1 data) hrest
    refine ⟨values, ?_, ?_, ?_⟩
    · rw [decodeORMapEntries]
      simp only [bind_eq_ok, wrap_eq_ok]
      exact ⟨k.1, hkeys k.1 k.2 keyBytes hkey, data, hdata, hdec⟩
    · refine List.forall_mem_cons.mpr ⟨?_, hvisited⟩
      by_cases hagain : k ∈ visited
      · exact hvisited k hagain
      · have hfresh : ∀ k' ∈ visited, k'.1 ≠ k.1 := by
          intro k' hk' he
          exact hagain (Subtype.ext he ▸ hk')
        exact ⟨data, by rw [hother k.1 hfresh, AList.lookup_insert], hsame⟩
    · intro j hj
      obtain ⟨hne, hj⟩ := List.forall_mem_cons.mp hj
      rw [hother j hj, AList.lookup_insert_ne (Ne.symm hne)]

/-- A map whose key set and values were recovered is in the same state. -/
lemma sameState_ofORMap {keySet : ORSet E} {keys : List E} {nodup : keys.Nodup}
    {value : {k // k ∈ keys} → Data E} {dirty : Bool} {m : ORMap E (Data E)}
    (hset : keySet.SameState m.keySet)
    (hvalues : ∀ k, ∃ data, m.values.lookup k.1 = some data ∧ (value k).SameState data)
    (hother : ∀ k, k ∉ keys → m.values.lookup k = none) :
    (Data.orMap keySet keys nodup value dirty).SameState (.ofORMap m) := by
  rw [Data.ofORMap, Data.SameState]
  refine ⟨hset, fun k => ?_, fun k hk hk' => ?_⟩
  · constructor
    · intro hk
      obtain ⟨data, hdata, -⟩ := hvalues ⟨k, hk⟩
      exact (mem_keys_iff_lookup m.values k).mpr ⟨data, hdata⟩
    · intro hk
      by_contra hnot
      obtain ⟨data, hdata⟩ := (mem_keys_iff_lookup m.values k).mp hk
      rw [hother k hnot] at hdata
      cases hdata
  · obtain ⟨data, hdata, hsame⟩ := hvalues ⟨k, hk⟩
    simpa only [hdata, Option.get_some] using hsame

/-- Decoding an encoded value succeeds and gives a value of the same type in the same
logical state, provided that the serializer recovers the values inside it. -/
theorem decodeCRDT_of_encodeCRDT (serializer : Serializer E) (format : E → String)
    (data : Data E) (hround : ∀ e, data.Mentions e → serializer.RoundTrips e) (pb : CRDTData)
    (henc : encodeCRDT serializer format data = .ok pb) :
    ∃ decoded, decodeCRDT serializer format (some pb) = .ok decoded ∧ data.SameState decoded := by
  induction data generalizing pb with
  | gCounter c =>
    rw [encodeCRDT, pure_eq_ok] at henc
    subst henc
    refine ⟨.gCounter (decodeGCounter (encodeGCounter c)), ?_, fun n => rfl⟩
    rw [decodeCRDT, pure_eq_ok]
  | pnCounter c =>
    rw [encodeCRDT, pure_eq_ok] at henc
    subst henc
    refine ⟨.pnCounter (decodePNCounter (encodePNCounter c)), ?_, fun n => rfl, fun n => rfl⟩
    rw [decodeCRDT, pure_eq_ok]
  | flag f =>
    rw [encodeCRDT, pure_eq_ok] at henc
    subst henc
    refine ⟨.flag (decodeFlag (encodeFlag f)), ?_, (enabled_decodeFlag f).symm⟩
    rw [decodeCRDT, pure_eq_ok]
  | lwwRegister r =>
    simp only [encodeCRDT, bind_eq_ok, pure_eq_ok] at henc
    obtain ⟨lwwData, hlww, rfl⟩ := henc
    have hdec := decodeLWWRegister_of_encode (hround r.value rfl) hlww
    refine ⟨.lwwRegister (.fromState r.value r.timestamp r.nodeID), ?_, rfl, rfl, rfl⟩
    rw [decodeCRDT, hdec, bind_eq_ok]
    exact ⟨_, rfl, rfl⟩
  | orSet s =>
    simp only [encodeCRDT, bind_eq_ok, pure_eq_ok] at henc
    obtain ⟨orSetData, hset, rfl⟩ := henc
    have hdec := decodeORSet_of_encode hround hset
    refine ⟨.orSet (.fromRawState s.rawState.1 s.rawState.2), ?_, sameState_fromRawState s⟩
    rw [decodeCRDT, hdec, bind_eq_ok]
    exact ⟨_, rfl, rfl⟩
  | mvRegister r =>
    simp only [encodeCRDT, bind_eq_ok, pure_eq_ok] at henc
    obtain ⟨mvData, hmv, rfl⟩ := henc
    have hdec := decodeMVRegister_of_encode
      (fun entry hentry => hround entry.value ⟨entry, hentry, rfl⟩) hmv
    refine ⟨.mvRegister (.fromRawState r.entries r.clock), ?_, rfl, fun n => rfl⟩
    rw [decodeCRDT, hdec, bind_eq_ok]
    exact ⟨_, rfl, rfl⟩
  | orMap keySet keys nodup value dirty ih =>
    simp only [encodeCRDT, bind_eq_ok, wrap_eq_ok, pure_eq_ok] at henc
    obtain ⟨keySetData, hkeySet, pbEntries, hentries, rfl⟩ := henc
    obtain ⟨hkeys, hclock⟩ := decodeORSetEntries_of_encode
      (fun entry hentry => hround _ (.inl (mem_keys_of_mem_rawState hentry))) hkeySet
    have hvalues : ∀ k pb, encodeCRDT serializer format (value k) = .ok pb →
        ∃ data, decodeCRDT serializer format (some pb) = .ok data ∧ (value k).SameState data :=
      fun k pb hpb => ih k (fun e he => hround e (.inr (.inr ⟨k, he⟩))) pb hpb
    obtain ⟨values, hdec, hvisited, hother⟩ := decodeORMapEntries_of_encode
      (fun k hk => hround k (.inr (.inl hk))) hvalues keys.attach pbEntries ∅ hentries
    refine ⟨.ofORMap (.fromRawState ⟨keySet.rawState.1, keySet.rawState.2, values⟩), ?_, ?_⟩
    · simp only [decodeCRDT, decodeKeySet, bind_eq_ok, wrap_eq_ok, pure_eq_ok]
      exact ⟨_, ⟨keySet.rawState.1, hkeys, rfl⟩, values, hdec, by rw [hclock]⟩
    · refine sameState_ofORMap (sameState_fromRawState keySet)
        (fun k => hvisited k (List.mem_attach keys k)) fun k hk => ?_
      rw [show (ORMap.fromRawState _).values.lookup k = values.lookup k from rfl, hother]
      · exact AList.lookup_empty k
      · rintro k' - rfl
        exact hk k'.2

end RoundTrip

/-- Numbers in unary, a serializer for tests. -/
def unarySerializer : Serializer ℕ where
  serialize n := .ok (List.replicate n 1)
  deserialize bytes := .ok bytes.length

/-- A map under whose key `7` there is a map with a flag under the key `2`. -/
def nestedMap : Data ℕ :=
  .orMap (newORSet.add "n1" 7) [7] (by decide)
    (fun _ => .orMap (newORSet.add "n2" 2) [2] (by decide) (fun _ => .flag newFlag.enable) true)
    true

theorem decodeCRDT_of_encodeCRDT_nestedMap :
    ∃ pb decoded, encodeCRDT unarySerializer toString nestedMap = .ok pb ∧
      decodeCRDT unarySerializer toString (some pb) = .ok decoded ∧
      nestedMap.SameState decoded := by
  have hround : ∀ e, nestedMap.Mentions e → unarySerializer.RoundTrips e := by
    rintro e - bytes hbytes
    cases hbytes
    simp [unarySerializer]
  obtain ⟨pb, hpb⟩ : ∃ pb, encodeCRDT unarySerializer toString nestedMap = .ok pb := ⟨_, rfl⟩
  obtain ⟨decoded, hdec, hsame⟩ :=
    decodeCRDT_of_encodeCRDT unarySerializer toString nestedMap hround pb hpb
  exact ⟨pb, decoded, hpb, hdec, hsame⟩

end GoAkt.Crdt
