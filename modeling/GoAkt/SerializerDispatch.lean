import GoAkt.ByteStrings

/-!
# Value serializers

The interface through which a value of an arbitrary Go type becomes a self-describing
byte slice and is recovered from it. Values range over one type `E`, which stands for
the values the interface type `any` can hold. An error is its text.
-/
namespace GoAkt.Remote
open GoAkt.ByteStrings

structure Serializer (E : Type*) where
  serialize : E → Except String Bytes
  deserialize : Bytes → Except String E

/-- Whatever the serializer makes of the value, it recovers the value from it. -/
def Serializer.RoundTrips {E : Type*} (s : Serializer E) (e : E) : Prop :=
  ∀ bytes, s.serialize e = .ok bytes → s.deserialize bytes = .ok e

/-!
## Serializer dispatch

A node holds a list of serializers, each bound to a concrete type or to an interface. A
message that is sent is encoded by the first serializer whose type matches the message.
Bytes that are received carry no mark of the serializer that produced them: the composite
serializer for the receive path asks the protobuf serializer first, if the frame names a
registered protobuf type, and then tries them all in order.
-/
variable {T E : Type} [DecidableEq T]

/-- What reflection tells about messages: the dynamic type, which a nil message does not
have, and the interfaces among the types. -/
structure Reflection (T E : Type) where
  typeOf : E → Option T
  isInterface : T → Bool
  implements : T → T → Bool

structure IfaceEntry (T E : Type) where
  iface : T
  serializer : Serializer E
  /-- The serializer is the built-in one for protobuf messages. -/
  isProtoSerializer : Bool

/-- The part of a client that chooses serializers. -/
structure Remoting (T E : Type) where
  reflection : Reflection T E
  serializers : List (IfaceEntry T E)
  /-- Whether the protobuf registry knows the name. -/
  findMessageType : Bytes → Bool

def errNoSerializerEncode : String := "remote: no serializer could encode the message"

def errNoSerializerDecode : String := "remote: no serializer could decode the message"

/-- The type name in the frame layout that the built-in serializers share. -/
def frameTypeName (data : Bytes) : Option Bytes :=
  if data.length < 8 then none
  else
    let totalLen := uint (data.take 4)
    let nameLen := uint ((data.drop 4).take 4)
    if totalLen < 8 ∨ data.length < totalLen ∨ nameLen ≤ 0 ∨ totalLen < 8 + nameLen then none
    else some ((data.drop 8).take nameLen)

/-- The first serializer that succeeds, or the error of the last one. -/
def firstSuccess {α : Type*} (attempt : Serializer E → Except String α) (noSerializer : String) :
    List (IfaceEntry T E) → Option String → Except String α
  | [], lastErr => .error (lastErr.getD noSerializer)
  | entry :: entries, _ =>
    match attempt entry.serializer with
    | .ok result => .ok result
    | .error err => firstSuccess attempt noSerializer entries (some err)

namespace Remoting
variable (r : Remoting T E)

/-- The first registered protobuf serializer, the target of the fast path. -/
def proto : Option (Serializer E) := (r.serializers.find? (·.isProtoSerializer)).map (·.serializer)

def dispatchSerialize (message : E) : Except String Bytes :=
  firstSuccess (·.serialize message) errNoSerializerEncode r.serializers none

/-- The decoding of a frame whose name the protobuf registry knows. -/
def dispatchProto (data : Bytes) : Option E := do
  let proto ← r.proto
  let name ← frameTypeName data
  if r.findMessageType name then (proto.deserialize data).toOption else none

def dispatchDeserialize (data : Bytes) : Except String E :=
  match r.dispatchProto data with
  | some message => .ok message
  | none => firstSuccess (·.deserialize data) errNoSerializerDecode r.serializers none

/-- The composite serializer of the receive path. -/
def dispatcher : Serializer E where
  serialize := r.dispatchSerialize
  deserialize := r.dispatchDeserialize

/-- An entry for an interface stands for the types that implement it, any other entry
for its own type. -/
def matchesEntry (msgType : T) (entry : IfaceEntry T E) : Bool :=
  if r.reflection.isInterface entry.iface then r.reflection.implements msgType entry.iface
  else msgType = entry.iface

def resolveSerializer (message : E) : Option (Serializer E) :=
  match r.reflection.typeOf message with
  | none => some r.dispatcher
  | some msgType => (r.serializers.find? (r.matchesEntry msgType)).map (·.serializer)

/-- Each serializer recovers the messages it encodes and rejects the frames it did not
produce, which are those of the other serializers. -/
structure WellBehaved (r : Remoting T E) : Prop where
  recovers : ∀ entry ∈ r.serializers, ∀ message, entry.serializer.RoundTrips message
  rejects : ∀ entry ∈ r.serializers, ∀ other ∈ r.serializers,
    entry.serializer ≠ other.serializer → ∀ message data,
      other.serializer.serialize message = .ok data →
        ∃ err, entry.serializer.deserialize data = .error err

/-- The message is of a type that matches an entry, and the serializer of the first such
entry encodes it. -/
structure Encodes (r : Remoting T E) (message : E) (serializer : Serializer E) (data : Bytes) :
    Prop where
  registered : (r.reflection.typeOf message).isSome
  resolved : r.resolveSerializer message = some serializer
  encoded : serializer.serialize message = .ok data

section Dispatch
variable {r : Remoting T E} {message : E} {serializer : Serializer E} {data : Bytes}

omit [DecidableEq T] in
lemma firstSuccess_eq_ok {α : Type*} {attempt : Serializer E → Except String α} {result : α}
    {entries : List (IfaceEntry T E)} {noSerializer : String}
    (hok : ∃ entry ∈ entries, attempt entry.serializer = .ok result)
    (hothers : ∀ entry ∈ entries, attempt entry.serializer = .ok result ∨
      ∃ err, attempt entry.serializer = .error err) (lastErr : Option String) :
    firstSuccess attempt noSerializer entries lastErr = .ok result := by
  induction entries generalizing lastErr with
  | nil => simp at hok
  | cons entry entries ih =>
    unfold firstSuccess
    obtain ⟨hentry, hrest⟩ := List.forall_mem_cons.mp hothers
    rcases hentry with hentry | ⟨err, hentry⟩
    · rw [hentry]
    · rw [hentry]
      refine ih ?_ hrest (some err)
      obtain ⟨found, hmem, hfound⟩ := hok
      rcases List.mem_cons.mp hmem with rfl | hmem
      · rw [hentry] at hfound
        cases hfound
      · exact ⟨found, hmem, hfound⟩

lemma Encodes.mem (h : r.Encodes message serializer data) :
    ∃ entry ∈ r.serializers, entry.serializer = serializer := by
  obtain ⟨msgType, htype⟩ := Option.isSome_iff_exists.mp h.registered
  have hresolved := h.resolved
  simp only [resolveSerializer, htype] at hresolved
  obtain ⟨entry, hfind, hserializer⟩ := Option.map_eq_some_iff.mp hresolved
  exact ⟨entry, List.mem_of_find?_eq_some hfind, hserializer⟩

section
variable (hr : r.WellBehaved) (h : r.Encodes message serializer data)
include hr h

lemma Encodes.deserialize : serializer.deserialize data = .ok message := by
  obtain ⟨entry, hentry, rfl⟩ := h.mem
  exact hr.recovers entry hentry message data h.encoded

/-- A registered serializer decodes a frame if and only if it produced it. -/
lemma Encodes.deserialize_iff {entry : IfaceEntry T E} (hentry : entry ∈ r.serializers) :
    entry.serializer.deserialize data = .ok message ↔ entry.serializer = serializer := by
  constructor
  · intro hdecoded
    obtain ⟨other, hother, rfl⟩ := h.mem
    by_contra hne
    obtain ⟨err, herr⟩ := hr.rejects entry hentry other hother hne message data h.encoded
    rw [hdecoded] at herr
    cases herr
  · rintro rfl
    exact h.deserialize hr

lemma Encodes.deserialize_or {entry : IfaceEntry T E} (hentry : entry ∈ r.serializers) :
    entry.serializer.deserialize data = .ok message ∨
      ∃ err, entry.serializer.deserialize data = .error err := by
  by_cases heq : entry.serializer = serializer
  · exact .inl ((h.deserialize_iff hr hentry).mpr heq)
  · obtain ⟨other, hother, rfl⟩ := h.mem
    exact .inr (hr.rejects entry hentry other hother heq message data h.encoded)

/-- The receive path recovers every message that a registered serializer encoded. -/
lemma dispatchDeserialize_of_encodes : r.dispatchDeserialize data = .ok message := by
  unfold dispatchDeserialize
  split
  next found hfound =>
    simp only [dispatchProto, Option.bind_eq_bind, Option.bind_eq_some_iff] at hfound
    obtain ⟨proto, hproto, name, -, hfound⟩ := hfound
    split_ifs at hfound
    obtain ⟨entry, hentry, rfl⟩ := Option.map_eq_some_iff.mp hproto
    rcases h.deserialize_or hr (List.mem_of_find?_eq_some hentry) with hok | ⟨err, herr⟩
    · rw [hok] at hfound
      rw [Option.some.inj hfound]
    · rw [herr] at hfound
      cases hfound
  next =>
    obtain ⟨entry, hentry, hserializer⟩ := h.mem
    refine firstSuccess_eq_ok ⟨entry, hentry, ?_⟩ (fun other => h.deserialize_or hr) none
    exact (h.deserialize_iff hr hentry).mpr hserializer

end
end Dispatch
end Remoting
end GoAkt.Remote
