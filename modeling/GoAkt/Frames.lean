import GoAkt.FiniteMaps
import GoAkt.ByteStrings
import GoAkt.Fallible

/-!
# Protobuf frames

A message travels in a frame that carries its length, its type name and its payload. A
second layout adds a metadata section after the name. The layouts have no tag: a
receiver reads the four bytes after the name length as the length of a metadata section
and decides by whether the lengths add up. In the layout without metadata these bytes
begin with the first letter of the name, so the length they spell exceeds any frame.

The server and the client decide by different rules. They recover the message from
every frame, except that the client does not look for metadata behind a name of 256
bytes or more.
-/
namespace GoAkt.Net
open GoAkt.FiniteMaps GoAkt.ByteStrings GoAkt.Fallible List

/-! ## Errors -/

inductive NetError where
  | clientClosed
  | frameTooLarge
  | unknownMessageType
  | marshalBinaryFailed
  | unmarshalBinaryFailed
  | invalidMessageLength
  | invalidMetadata
  | joined (err : NetError) (cause : String)
  deriving DecidableEq, Repr

/-- How a decoder can fail: by an index out of range, or by returning an error. -/
inductive Failure where
  | outOfRange
  | err (e : NetError)
  deriving DecidableEq, Repr

def failIf (condition : Prop) [Decidable condition] (e : NetError) : Except Failure Unit :=
  if condition then .error (.err e) else .ok ()

def cut (data : Bytes) (lo hi : ℕ) : Except Failure Bytes :=
  match slice data lo hi with
  | none => .error .outOfRange
  | some part => .ok part

def uintAt (width : ℕ) (data : Bytes) (pos : ℕ) : Except Failure ℕ := do
  let field ← cut data pos (pos + width)
  return uint field

@[simp] lemma failIf_eq_ok (condition : Prop) [Decidable condition] (e : NetError) (u : Unit) :
    failIf condition e = .ok u ↔ ¬condition := by
  unfold failIf
  split_ifs with h <;> simp [h]

lemma cut_append {lo hi : ℕ} (front middle rest : Bytes) (hlo : front.length = lo)
    (hhi : lo + middle.length = hi) : cut (front ++ (middle ++ rest)) lo hi = .ok middle := by
  rw [cut, slice_append front middle rest hlo hhi]

lemma cut_last {lo hi : ℕ} (front last : Bytes) (hlo : front.length = lo)
    (hhi : lo + last.length = hi) : cut (front ++ last) lo hi = .ok last := by
  simpa using cut_append front last [] hlo hhi

lemma uintAt_append {width pos n : ℕ} (front rest : Bytes) (hpos : front.length = pos)
    (hn : n < 256 ^ width) :
    uintAt width (front ++ (putUint width n ++ rest)) pos = .ok n := by
  have hcut := cut_append front (putUint width n) rest hpos
    (show pos + (putUint width n).length = pos + width by rw [length_putUint])
  rw [uintAt, hcut, ok_bind, uint_putUint_of_lt hn]
  rfl

/-! ## Metadata -/

/-- Headers and a deadline in nanoseconds; the deadline `0` means none. -/
structure Metadata where
  headers : Map Bytes Bytes
  deadlineNano : Int64

namespace Metadata

/-- The time left until the deadline. A remainder of exactly zero is moved to `-1`, so
that it is not read as no deadline. -/
def remaining (m : Metadata) (now : Int64) : Int64 :=
  if m.deadlineNano ≠ 0 then
    if m.deadlineNano - now = 0 then -1 else m.deadlineNano - now
  else 0

def marshalBinary (m : Metadata) (now : Int64) : Bytes :=
  putUint 2 m.headers.entries.length ++ m.headers.entries.flatMap (fun header =>
      putUint 2 header.1.length ++ header.1 ++ putUint 2 header.2.length ++ header.2) ++
    putUint 8 (m.remaining now).toUInt64.toNat

/-- The loop over the headers, from the position `pos` on. -/
def unmarshalHeaders (data : Bytes) : ℕ → ℕ → Map Bytes Bytes → Except Failure (Map Bytes Bytes × ℕ)
  | 0, pos, headers => return (headers, pos)
  | count + 1, pos, headers => do
    failIf (pos + 2 > data.length) .invalidMetadata
    let keyLen ← uintAt 2 data pos
    let pos := pos + 2
    failIf (pos + keyLen > data.length) .invalidMetadata
    let key ← cut data pos (pos + keyLen)
    let pos := pos + keyLen
    failIf (pos + 2 > data.length) .invalidMetadata
    let valLen ← uintAt 2 data pos
    let pos := pos + 2
    failIf (pos + valLen > data.length) .invalidMetadata
    let val ← cut data pos (pos + valLen)
    unmarshalHeaders data count (pos + valLen) (headers.insert key val)

def unmarshalBinary (data : Bytes) (now : Int64) : Except Failure Metadata := do
  failIf (data.length < 10) .invalidMetadata
  let count ← uintAt 2 data 0
  let (headers, pos) ← unmarshalHeaders data count 2 ∅
  failIf (pos + 8 > data.length) .invalidMetadata
  let remaining := (UInt64.ofNat (← uintAt 8 data pos)).toInt64
  return ⟨headers, if remaining ≠ 0 then now + remaining else 0⟩

lemma length_marshalBinary (m : Metadata) (now : Int64) : 10 ≤ (m.marshalBinary now).length := by
  simp only [marshalBinary, length_append, length_putUint]
  omega

end Metadata

/-! ## Frames -/

/-- The protobuf library: names and payloads of messages, and the registry of their
types. -/
structure Protobuf (M T : Type) where
  messageName : M → Bytes
  marshal : M → Except String Bytes
  findMessageType : Bytes → Except String T
  unmarshal : T → Bytes → Except String M

section Frames
variable {M T : Type} (pb : Protobuf M T)

def marshalBinaryTo (message : Option M) : Except NetError Bytes :=
  match message with
  | none => .error .unknownMessageType
  | some message =>
    let messageName := pb.messageName message
    if messageName.length = 0 then .error .unknownMessageType
    else match pb.marshal message with
      | .error err => .error (.joined .marshalBinaryFailed err)
      | .ok payload =>
        let totalLen := 4 + 4 + messageName.length + payload.length
        .ok (putUint 4 totalLen ++ (putUint 4 messageName.length ++ (messageName ++ payload)))

def findType (typeName : Bytes) : Except Failure T :=
  (pb.findMessageType typeName).mapError fun err => .err (.joined .unknownMessageType err)

def unmarshalPayload (msgType : T) (payload : Bytes) : Except Failure M :=
  (pb.unmarshal msgType payload).mapError fun err => .err (.joined .unmarshalBinaryFailed err)

/-- The message and its type name. -/
def unmarshalBinary (data : Bytes) : Except Failure (M × Bytes) := do
  failIf (data.length < 8) .invalidMessageLength
  let messageLength ← uintAt 4 data 0
  failIf (data.length < messageLength ∨ messageLength < 8) .invalidMessageLength
  let nameLen ← uintAt 4 data 4
  failIf (8 + nameLen > messageLength) .invalidMessageLength
  let typeName ← cut data 8 (8 + nameLen)
  let msgType ← findType pb typeName
  let payload ← cut data (8 + nameLen) messageLength
  let msg ← unmarshalPayload pb msgType payload
  return (msg, typeName)

/-- Without metadata the length of the section is written as zero. -/
def marshalBinaryWithMetadataTo (message : Option M) (md : Option Metadata) (now : Int64) :
    Except NetError Bytes :=
  match message with
  | none => .error .unknownMessageType
  | some message =>
    let messageName := pb.messageName message
    if messageName.length = 0 then .error .unknownMessageType
    else
      let metaBytes := md.elim [] fun md => md.marshalBinary now
      match pb.marshal message with
      | .error err => .error (.joined .marshalBinaryFailed err)
      | .ok payload =>
        let totalLen := 4 + 4 + messageName.length + 4 + metaBytes.length + payload.length
        .ok (putUint 4 totalLen ++ (putUint 4 messageName.length ++
          (putUint 4 metaBytes.length ++ (messageName ++ (metaBytes ++ payload)))))

def unmarshalSection (data : Bytes) (start metaLen : ℕ) (now : Int64) :
    Except Failure (Option Metadata) :=
  if metaLen > 0 then do
    let metaBytes ← cut data start (start + metaLen)
    let md ← Metadata.unmarshalBinary metaBytes now
    return some md
  else return none

/-- The message, its metadata and its type name. -/
def unmarshalBinaryWithMetadata (data : Bytes) (now : Int64) :
    Except Failure (M × Option Metadata × Bytes) := do
  failIf (data.length < 12) .invalidMessageLength
  let messageLength ← uintAt 4 data 0
  failIf (data.length < messageLength ∨ messageLength < 12) .invalidMessageLength
  let nameLen ← uintAt 4 data 4
  let metaLen ← uintAt 4 data 8
  failIf (12 + nameLen + metaLen > messageLength) .invalidMessageLength
  let typeName ← cut data 12 (12 + nameLen)
  let msgType ← findType pb typeName
  let md ← unmarshalSection data (12 + nameLen) metaLen now
  let payload ← cut data (12 + nameLen + metaLen) messageLength
  let msg ← unmarshalPayload pb msgType payload
  return (msg, md, typeName)

/-- The metadata of the context chooses the layout. -/
def marshalProtoWithContext (md : Option Metadata) (message : Option M) (now : Int64) :
    Except NetError Bytes :=
  match md with
  | some md => marshalBinaryWithMetadataTo pb message (some md) now
  | none => marshalBinaryTo pb message

/-- The client looks for metadata only if the name has a plausible length and the
lengths add up, and takes the other layout when that fails. -/
def unmarshalProtoResponse (frame : Bytes) (now : Int64) :
    Except Failure (M × Option Metadata) :=
  let legacy := do
    let (msg, _) ← unmarshalBinary pb frame
    return (msg, none)
  if frame.length < 12 then legacy
  else do
    let totalLen ← uintAt 4 frame 0
    let nameLen ← uintAt 4 frame 4
    let potentialMetaLen ← uintAt 4 frame 8
    if 0 < nameLen ∧ nameLen < 256 ∧ 12 + nameLen + potentialMetaLen ≤ totalLen then
      match unmarshalBinaryWithMetadata pb frame now with
      | .ok (msg, md, _) => return (msg, md)
      | .error .outOfRange => throw .outOfRange
      | .error (.err _) => legacy
    else legacy

/-- How `handleConn` decodes a frame: it tries the layout with metadata first, and the
other one only when the lengths do not add up. -/
def handleConnUnmarshal (frame : Bytes) (now : Int64) :
    Except Failure (M × Option Metadata × Bytes) :=
  let legacy := do
    let (msg, typeName) ← unmarshalBinary pb frame
    return (msg, none, typeName)
  if 12 ≤ frame.length then
    match unmarshalBinaryWithMetadata pb frame now with
    | .error (.err .invalidMessageLength) => legacy
    | result => result
  else legacy

def defaultMaxFrameSize : ℕ := 16 * 2 ^ 20

/-! ## The layout without metadata -/

/-- The frame of a name and a payload, without metadata. -/
def legacyFrame (name payload : Bytes) : Bytes :=
  putUint 4 (4 + 4 + name.length + payload.length) ++ (putUint 4 name.length ++ (name ++ payload))

lemma length_legacyFrame (name payload : Bytes) :
    (legacyFrame name payload).length = 8 + name.length + payload.length := by
  simp only [legacyFrame, length_append, length_putUint]
  omega

variable {name payload : Bytes}

section
variable (hsize : (legacyFrame name payload).length ≤ defaultMaxFrameSize)
include hsize

lemma uintAt_zero_legacyFrame :
    uintAt 4 (legacyFrame name payload) 0 = .ok (8 + name.length + payload.length) := by
  rw [length_legacyFrame] at hsize
  refine uintAt_append [] _ rfl ?_
  unfold defaultMaxFrameSize at hsize
  omega

lemma uintAt_four_legacyFrame : uintAt 4 (legacyFrame name payload) 4 = .ok name.length := by
  rw [length_legacyFrame] at hsize
  refine uintAt_append _ _ (length_putUint 4 _) ?_
  unfold defaultMaxFrameSize at hsize
  omega

end

variable {message : M}

lemma unmarshalBinary_legacyFrame {msgType : T}
    (hsize : (legacyFrame name payload).length ≤ defaultMaxFrameSize)
    (htype : pb.findMessageType name = .ok msgType)
    (hpayload : pb.unmarshal msgType payload = .ok message) :
    unmarshalBinary pb (legacyFrame name payload) = .ok (message, name) := by
  have hlen := length_legacyFrame name payload
  have hname : cut (legacyFrame name payload) 8 (8 + name.length) = .ok name := by
    rw [legacyFrame, ← append_assoc]
    exact cut_append _ name payload (by simp) rfl
  have hrest : cut (legacyFrame name payload) (8 + name.length)
      (8 + name.length + payload.length) = .ok payload := by
    rw [legacyFrame, ← append_assoc, ← append_assoc]
    exact cut_last _ payload (by simp; omega) rfl
  simp only [unmarshalBinary, bind_eq_ok, failIf_eq_ok, pure_eq_ok]
  refine ⟨(), by omega, _, uintAt_zero_legacyFrame hsize, (), by omega, _,
    uintAt_four_legacyFrame hsize, (), by omega, name, hname, msgType, ?_, payload, hrest,
    message, ?_, rfl⟩
  · rw [findType, htype]
    rfl
  · rw [unmarshalPayload, hpayload]
    rfl

def isLetter (b : UInt8) : Bool := (65 ≤ b && b ≤ 90) || (97 ≤ b && b ≤ 122)

lemma le_toNat_of_isLetter {b : UInt8} (h : isLetter b = true) : 65 ≤ b.toNat := by
  simp only [isLetter, Bool.or_eq_true, Bool.and_eq_true, decide_eq_true_eq,
    UInt8.le_iff_toNat_le] at h
  rcases h with h | h
  · exact h.1
  · exact le_trans (by decide) h.1

/-- What stands where the other layout has the length of the metadata begins with the
first letter of the name. -/
lemma uintAt_eight_legacyFrame {letter : UInt8} (hletter : isLetter letter = true)
    (hlong : 12 ≤ (legacyFrame (letter :: name) payload).length) :
    ∃ metaLen, uintAt 4 (legacyFrame (letter :: name) payload) 8 = .ok metaLen ∧
      defaultMaxFrameSize < metaLen := by
  have hfield : ((name ++ payload).take 3).length = 3 := by
    rw [length_legacyFrame] at hlong
    simp only [length_cons] at hlong
    rw [length_take, length_append]
    omega
  have hsplit : legacyFrame (letter :: name) payload =
      (putUint 4 (4 + 4 + (letter :: name).length + payload.length) ++
        putUint 4 (letter :: name).length) ++
      ((letter :: (name ++ payload).take 3) ++ (name ++ payload).drop 3) := by
    simp [legacyFrame]
  refine ⟨uint (letter :: (name ++ payload).take 3), ?_, ?_⟩
  · rw [uintAt, hsplit, cut_append _ (letter :: (name ++ payload).take 3) _ (by simp)
      (by rw [length_cons, hfield]), ok_bind]
    rfl
  · have hbound := le_uint_cons letter ((name ++ payload).take 3)
    have hbyte := le_toNat_of_isLetter hletter
    rw [hfield] at hbound
    unfold defaultMaxFrameSize
    omega

lemma unmarshalBinaryWithMetadata_legacyFrame {letter : UInt8}
    (now : Int64) (hletter : isLetter letter = true)
    (hlong : 12 ≤ (legacyFrame (letter :: name) payload).length)
    (hsize : (legacyFrame (letter :: name) payload).length ≤ defaultMaxFrameSize) :
    unmarshalBinaryWithMetadata pb (legacyFrame (letter :: name) payload) now =
      .error (.err .invalidMessageLength) := by
  obtain ⟨metaLen, hmeta, hlarge⟩ := uintAt_eight_legacyFrame hletter hlong
  have hlen := length_legacyFrame (letter :: name) payload
  have hshort : failIf ((legacyFrame (letter :: name) payload).length < 12)
      .invalidMessageLength = .ok () := by
    rw [failIf_eq_ok]
    omega
  have hconsistent : failIf ((legacyFrame (letter :: name) payload).length <
      8 + (letter :: name).length + payload.length ∨
      8 + (letter :: name).length + payload.length < 12) .invalidMessageLength = .ok () := by
    rw [failIf_eq_ok]
    omega
  have hexceeds : failIf (12 + (letter :: name).length + metaLen >
      8 + (letter :: name).length + payload.length) .invalidMessageLength =
      .error (.err .invalidMessageLength) := by
    rw [failIf, if_pos (by omega)]
  rw [unmarshalBinaryWithMetadata, hshort, ok_bind, uintAt_zero_legacyFrame hsize, ok_bind,
    hconsistent, ok_bind, uintAt_four_legacyFrame hsize, ok_bind, hmeta, ok_bind, hexceeds,
    error_bind]

/-! ## The layout with metadata -/

/-- The frame of a name, a metadata section and a payload. -/
def metadataFrame (name metaBytes payload : Bytes) : Bytes :=
  putUint 4 (4 + 4 + name.length + 4 + metaBytes.length + payload.length) ++
    (putUint 4 name.length ++ (putUint 4 metaBytes.length ++ (name ++ (metaBytes ++ payload))))

lemma length_metadataFrame (name metaBytes payload : Bytes) :
    (metadataFrame name metaBytes payload).length =
      12 + name.length + metaBytes.length + payload.length := by
  simp only [metadataFrame, length_append, length_putUint]
  omega

variable {name metaBytes payload : Bytes}

section
variable (hsize : (metadataFrame name metaBytes payload).length ≤ defaultMaxFrameSize)
include hsize

lemma uintAt_zero_metadataFrame : uintAt 4 (metadataFrame name metaBytes payload) 0 =
      .ok (12 + name.length + metaBytes.length + payload.length) := by
  rw [length_metadataFrame] at hsize
  have htotal : 4 + 4 + name.length + 4 + metaBytes.length + payload.length =
      12 + name.length + metaBytes.length + payload.length := by omega
  rw [metadataFrame, htotal]
  refine uintAt_append [] _ rfl ?_
  unfold defaultMaxFrameSize at hsize
  omega

lemma uintAt_four_metadataFrame :
    uintAt 4 (metadataFrame name metaBytes payload) 4 = .ok name.length := by
  rw [length_metadataFrame] at hsize
  refine uintAt_append _ _ (length_putUint 4 _) ?_
  unfold defaultMaxFrameSize at hsize
  omega

lemma uintAt_eight_metadataFrame :
    uintAt 4 (metadataFrame name metaBytes payload) 8 = .ok metaBytes.length := by
  rw [length_metadataFrame] at hsize
  rw [metadataFrame, ← append_assoc]
  refine uintAt_append _ _ (by simp) ?_
  unfold defaultMaxFrameSize at hsize
  omega

end

variable {md : Metadata} {now : Int64}

lemma unmarshalBinaryWithMetadata_metadataFrame {msgType : T}
    (hsize : (metadataFrame name metaBytes payload).length ≤ defaultMaxFrameSize)
    (htype : pb.findMessageType name = .ok msgType) (hpos : 0 < metaBytes.length)
    (hmd : Metadata.unmarshalBinary metaBytes now = .ok md)
    (hpayload : pb.unmarshal msgType payload = .ok message) :
    unmarshalBinaryWithMetadata pb (metadataFrame name metaBytes payload) now =
      .ok (message, some md, name) := by
  have hlen := length_metadataFrame name metaBytes payload
  have hname : cut (metadataFrame name metaBytes payload) 12 (12 + name.length) = .ok name := by
    rw [metadataFrame, ← append_assoc, ← append_assoc]
    exact cut_append _ name _ (by simp) rfl
  have hsection : cut (metadataFrame name metaBytes payload) (12 + name.length)
      (12 + name.length + metaBytes.length) = .ok metaBytes := by
    rw [metadataFrame, ← append_assoc, ← append_assoc, ← append_assoc]
    exact cut_append _ metaBytes payload (by simp; omega) rfl
  have hrest : cut (metadataFrame name metaBytes payload) (12 + name.length + metaBytes.length)
      (12 + name.length + metaBytes.length + payload.length) = .ok payload := by
    rw [metadataFrame, ← append_assoc, ← append_assoc, ← append_assoc, ← append_assoc]
    exact cut_last _ payload (by simp; omega) rfl
  simp only [unmarshalBinaryWithMetadata, bind_eq_ok, failIf_eq_ok, pure_eq_ok]
  refine ⟨(), by omega, _, uintAt_zero_metadataFrame hsize, (), by omega, _,
    uintAt_four_metadataFrame hsize, _, uintAt_eight_metadataFrame hsize, (), by omega, name,
    hname, msgType, ?_, some md, ?_, payload, hrest, message, ?_, rfl⟩
  · rw [findType, htype]
    rfl
  · rw [unmarshalSection, if_pos hpos, hsection, ok_bind, hmd, ok_bind]
    rfl
  · rw [unmarshalPayload, hpayload]
    rfl

/-! ## Both sides -/

/-- A registered message whose payload decodes to it, with a name that begins with a
letter. -/
structure Registered (message : M) (payload : Bytes) : Prop where
  letter : ∃ b rest, pb.messageName message = b :: rest ∧ isLetter b = true
  marshals : pb.marshal message = .ok payload
  unmarshals : ∃ msgType, pb.findMessageType (pb.messageName message) = .ok msgType ∧
    pb.unmarshal msgType payload = .ok message

variable {pb}

section
variable (hreg : Registered pb message payload)
include hreg

section
variable (now) (hsize : (legacyFrame (pb.messageName message) payload).length ≤ defaultMaxFrameSize)
include hsize

lemma handleConnUnmarshal_legacyFrame :
    handleConnUnmarshal pb (legacyFrame (pb.messageName message) payload) now =
      .ok (message, none, pb.messageName message) := by
  obtain ⟨msgType, htype, hpayload⟩ := hreg.unmarshals
  have hlegacy := unmarshalBinary_legacyFrame pb hsize htype hpayload
  unfold handleConnUnmarshal
  split_ifs with hlong
  · obtain ⟨b, rest, hname, hletter⟩ := hreg.letter
    rw [hname] at hlong hsize hlegacy ⊢
    simp only [unmarshalBinaryWithMetadata_legacyFrame pb now hletter hlong hsize, hlegacy]
    rfl
  · rw [hlegacy]
    rfl

lemma unmarshalProtoResponse_legacyFrame :
    unmarshalProtoResponse pb (legacyFrame (pb.messageName message) payload) now =
      .ok (message, none) := by
  obtain ⟨msgType, htype, hpayload⟩ := hreg.unmarshals
  have hlegacy := unmarshalBinary_legacyFrame pb hsize htype hpayload
  unfold unmarshalProtoResponse
  split_ifs with hlong
  · rw [hlegacy]
    rfl
  · obtain ⟨b, rest, hname, hletter⟩ := hreg.letter
    rw [hname] at hlong hsize hlegacy ⊢
    obtain ⟨metaLen, hmeta, hlarge⟩ := uintAt_eight_legacyFrame hletter (not_lt.mp hlong)
    rw [uintAt_zero_legacyFrame hsize, ok_bind, uintAt_four_legacyFrame hsize, ok_bind, hmeta,
      ok_bind, if_neg, hlegacy]
    · rfl
    · rw [length_legacyFrame] at hsize
      omega

end

variable (hpos : 0 < metaBytes.length) (hmd : Metadata.unmarshalBinary metaBytes now = .ok md)
  (hsize : (metadataFrame (pb.messageName message) metaBytes payload).length ≤ defaultMaxFrameSize)
include hpos hmd hsize

lemma handleConnUnmarshal_metadataFrame :
    handleConnUnmarshal pb (metadataFrame (pb.messageName message) metaBytes payload) now =
      .ok (message, some md, pb.messageName message) := by
  obtain ⟨msgType, htype, hpayload⟩ := hreg.unmarshals
  have hlong : 12 ≤ (metadataFrame (pb.messageName message) metaBytes payload).length := by
    rw [length_metadataFrame]
    omega
  simp only [handleConnUnmarshal, if_pos hlong,
    unmarshalBinaryWithMetadata_metadataFrame pb hsize htype hpos hmd hpayload]

/-- Behind a name that is too long the client reports no metadata, whatever the frame
holds. -/
lemma unmarshalProtoResponse_metadataFrame_iff :
    unmarshalProtoResponse pb (metadataFrame (pb.messageName message) metaBytes payload) now =
      .ok (message, some md) ↔ (pb.messageName message).length < 256 := by
  obtain ⟨msgType, htype, hpayload⟩ := hreg.unmarshals
  obtain ⟨b, rest, hname, -⟩ := hreg.letter
  have hnamePos : 0 < (pb.messageName message).length := by
    rw [hname]
    exact Nat.succ_pos _
  have hlong : ¬(metadataFrame (pb.messageName message) metaBytes payload).length < 12 := by
    rw [length_metadataFrame]
    omega
  rw [unmarshalProtoResponse, if_neg hlong, uintAt_zero_metadataFrame hsize, ok_bind,
    uintAt_four_metadataFrame hsize, ok_bind, uintAt_eight_metadataFrame hsize, ok_bind]
  by_cases hshort : (pb.messageName message).length < 256
  · rw [if_pos ⟨hnamePos, hshort, Nat.le_add_right _ _⟩,
      unmarshalBinaryWithMetadata_metadataFrame pb hsize htype hpos hmd hpayload]
    exact ⟨fun _ => hshort, fun _ => rfl⟩
  · rw [if_neg fun h => hshort h.2.1]
    simp only [bind_eq_ok, pure_eq_ok, Prod.mk.injEq, reduceCtorEq, and_false, exists_false, hshort]

end

/-- The server and the client recover the message and its metadata from every frame of
either layout, if and only if a name that stands before metadata is shorter than 256
bytes. -/
theorem frame_recovered_iff {message : M} {payload frame : Bytes} (sent received : Int64)
    (md decoded : Option Metadata) (hreg : Registered pb message payload)
    (hframe : marshalProtoWithContext pb md (some message) sent = .ok frame)
    (hsize : frame.length ≤ defaultMaxFrameSize)
    (hmd : md.map (fun m => Metadata.unmarshalBinary (m.marshalBinary sent) received) =
      decoded.map .ok) :
    (handleConnUnmarshal pb frame received = .ok (message, decoded, pb.messageName message) ∧
      unmarshalProtoResponse pb frame received = .ok (message, decoded)) ↔
      (md.isSome → (pb.messageName message).length < 256) := by
  obtain ⟨b, rest, hname, -⟩ := hreg.letter
  have hnonempty : ¬(pb.messageName message).length = 0 := by
    rw [hname]
    exact Nat.succ_ne_zero _
  cases md with
  | none =>
    cases decoded with
    | some _ => cases hmd
    | none =>
      have hlegacy : frame = legacyFrame (pb.messageName message) payload := by
        simp only [marshalProtoWithContext, marshalBinaryTo, hnonempty, if_false,
          hreg.marshals, Except.ok.injEq] at hframe
        exact hframe.symm
      subst hlegacy
      have hserver := handleConnUnmarshal_legacyFrame received hreg hsize
      have hclient := unmarshalProtoResponse_legacyFrame received hreg hsize
      exact ⟨fun _ h => absurd h (by simp), fun _ => ⟨hserver, hclient⟩⟩
  | some m =>
    cases decoded with
    | none => cases hmd
    | some m' =>
      have hmeta : frame =
          metadataFrame (pb.messageName message) (m.marshalBinary sent) payload := by
        simp only [marshalProtoWithContext, marshalBinaryWithMetadataTo, hnonempty, if_false,
          hreg.marshals, Except.ok.injEq, Option.elim_some] at hframe
        exact hframe.symm
      subst hmeta
      have hpos : 0 < (m.marshalBinary sent).length := by
        have := m.length_marshalBinary sent
        omega
      have haccepts : Metadata.unmarshalBinary (m.marshalBinary sent) received = .ok m' := by
        simpa using hmd
      have hserver := handleConnUnmarshal_metadataFrame hreg hpos haccepts hsize
      rw [unmarshalProtoResponse_metadataFrame_iff hreg hpos haccepts hsize]
      exact ⟨fun h _ => h.2, fun h => ⟨hserver, h rfl⟩⟩

end Frames

/-- Messages that are a name and a payload; names that begin with a letter are
registered. -/
def rawProtobuf : Protobuf (Bytes × Bytes) Bytes where
  messageName := Prod.fst
  marshal message := .ok message.2
  findMessageType name :=
    if name.head?.any isLetter then .ok name else .error "proto: not found"
  unmarshal name payload := .ok (name, payload)

set_option maxRecDepth 4096 in
/-- A frame with metadata behind a short name. -/
theorem frame_recovered_iff_short_name :
    ∃ frame, marshalProtoWithContext rawProtobuf (some ⟨∅, 0⟩) (some ([97, 46, 98], [7])) 0 =
        .ok frame ∧
      handleConnUnmarshal rawProtobuf frame 5 =
        .ok (([97, 46, 98], [7]), some ⟨∅, 0⟩, [97, 46, 98]) ∧
      unmarshalProtoResponse rawProtobuf frame 5 = .ok (([97, 46, 98], [7]), some ⟨∅, 0⟩) := by
  have hframe : marshalProtoWithContext rawProtobuf (some ⟨∅, 0⟩) (some ([97, 46, 98], [7])) 0 =
    .ok (metadataFrame [97, 46, 98] (putUint 2 0 ++ putUint 8 0) [7]) := rfl
  have hrecovered := (frame_recovered_iff 0 5 (some ⟨∅, 0⟩) (some ⟨∅, 0⟩)
    ⟨⟨97, [46, 98], rfl, by decide⟩, rfl, [97, 46, 98], rfl, rfl⟩ hframe
    (by rw [length_metadataFrame]; decide) rfl).mpr
    (fun _ => by decide)
  exact ⟨_, hframe, hrecovered⟩

set_option maxRecDepth 4096 in
/-- A valid frame with metadata behind a name of 256 letters: the server decodes it and
the client reports an unknown message type. -/
theorem long_name_misread :
    ∃ frame, marshalProtoWithContext rawProtobuf (some ⟨∅, 0⟩)
        (some (List.replicate 256 97, [])) 0 = .ok frame ∧
      frame.length ≤ defaultMaxFrameSize ∧
      handleConnUnmarshal rawProtobuf frame 0 =
        .ok ((List.replicate 256 97, []), some ⟨∅, 0⟩, List.replicate 256 97) ∧
      unmarshalProtoResponse rawProtobuf frame 0 =
        .error (.err (.joined .unknownMessageType "proto: not found")) :=
  ⟨metadataFrame (List.replicate 256 97) (putUint 2 0 ++ putUint 8 0) [], rfl,
    by rw [length_metadataFrame]; decide, rfl, rfl⟩

end GoAkt.Net
