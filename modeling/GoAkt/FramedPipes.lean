import GoAkt.ByteStrings

/-!
# Framed pipes

One direction of a connection: a writer puts frames into a reliable byte stream, in
pieces of any size, and a reader takes them out, first the header that states the length
of the frame and then the rest. The frames whose writing has begun and the number of
frames read are recorded, so that what the reader obtains can be compared with what was
written.
-/
namespace GoAkt.FramedPipes
open GoAkt.ByteStrings List

/-- A frame begins with its own length, in four bytes. -/
structure Framed (frame : Bytes) : Prop where
  header_le : 4 ≤ frame.length
  header_eq : uint (frame.take 4) = frame.length

structure Pipe (τ : Type*) where
  /-- All frames whose writing has begun, with their tags. -/
  frames : List (τ × Bytes)
  /-- What is still to be written of the last frame. -/
  unsent : Bytes
  stream : Bytes
  /-- The header of the frame that is being read, if it has been read. -/
  header : Bytes
  /-- The number of frames read. -/
  read : ℕ

namespace Pipe
variable {τ : Type*}

def empty : Pipe τ := ⟨[], [], [], [], 0⟩

def begin (p : Pipe τ) (tag : τ) (frame : Bytes) : Pipe τ :=
  { p with frames := p.frames ++ [(tag, frame)], unsent := p.unsent ++ frame }

/-- Up to `n` bytes reach the stream. -/
def push (p : Pipe τ) (n : ℕ) : Pipe τ :=
  { p with stream := p.stream ++ p.unsent.take n, unsent := p.unsent.drop n }

def readHeader (p : Pipe τ) : Option (Pipe τ) :=
  if p.header.length = 0 ∧ 4 ≤ p.stream.length then
    some { p with header := p.stream.take 4, stream := p.stream.drop 4 }
  else none

/-- The rest of the frame whose header has been read. -/
def readBody (p : Pipe τ) : Option (Bytes × Pipe τ) :=
  let rest := uint p.header - 4
  if p.header.length = 4 ∧ rest ≤ p.stream.length then
    some (p.header ++ p.stream.take rest,
      { p with header := [], stream := p.stream.drop rest, read := p.read + 1 })
  else none

/-- The bytes of the frames that have not been read are in the hands of the reader, in
the stream or still to be written. -/
structure Valid (p : Pipe τ) : Prop where
  framed : ∀ f ∈ p.frames, Framed f.2
  read_le : p.read ≤ p.frames.length
  bytes : (p.frames.drop p.read).flatMap Prod.snd = p.header ++ (p.stream ++ p.unsent)

lemma valid_empty : (empty : Pipe τ).Valid := ⟨by simp [empty], le_rfl, rfl⟩

variable {p : Pipe τ}

lemma Valid.begin (h : p.Valid) (tag : τ) {frame : Bytes} (hf : Framed frame) :
    (p.begin tag frame).Valid where
  framed f hmem := by
    rcases mem_append.mp hmem with hmem | hmem
    · exact h.framed f hmem
    · rw [mem_singleton.mp hmem]
      exact hf
  read_le := by
    have hle := h.read_le
    simp only [Pipe.begin, length_append]
    omega
  bytes := by
    change (List.drop p.read (p.frames ++ [(tag, frame)])).flatMap Prod.snd = _
    rw [drop_append_of_le_length h.read_le, flatMap_append, h.bytes]
    simp [Pipe.begin]

lemma Valid.push (h : p.Valid) (n : ℕ) : (p.push n).Valid where
  framed := h.framed
  read_le := h.read_le
  bytes := by
    change (p.frames.drop p.read).flatMap Prod.snd = _
    rw [h.bytes]
    simp [Pipe.push]

variable {p p' : Pipe τ}

lemma readHeader_counts (hread : p.readHeader = some p') :
    p'.frames = p.frames ∧ p'.read = p.read := by
  unfold Pipe.readHeader at hread
  split_ifs at hread
  cases hread
  exact ⟨rfl, rfl⟩

lemma Valid.readHeader (h : p.Valid) (hread : p.readHeader = some p') : p'.Valid := by
  unfold Pipe.readHeader at hread
  split_ifs at hread with hcond
  cases hread
  refine ⟨h.framed, h.read_le, ?_⟩
  change (p.frames.drop p.read).flatMap Prod.snd = _
  rw [h.bytes, length_eq_zero_iff.mp hcond.1, nil_append, ← append_assoc, take_append_drop]

/-- Reading a body completes exactly the next frame. -/
lemma Valid.readBody {frame : Bytes} (h : p.Valid) (hread : p.readBody = some (frame, p')) :
    p'.Valid ∧ p'.frames = p.frames ∧ p'.unsent = p.unsent ∧ p'.read = p.read + 1 ∧
      ∃ tag, p.frames[p.read]? = some (tag, frame) := by
  unfold Pipe.readBody at hread
  dsimp only at hread
  split_ifs at hread with hcond
  cases hread
  obtain ⟨hheader, hrest⟩ := hcond
  have hlt : p.read < p.frames.length := by
    by_contra hge
    have hbytes := h.bytes
    rw [drop_eq_nil_of_le (not_lt.mp hge)] at hbytes
    have hlen := congrArg List.length hbytes
    simp only [flatMap_nil, length_nil, length_append] at hlen
    omega
  obtain ⟨⟨tag, next⟩, hnext⟩ : ∃ f, p.frames[p.read]? = some f := ⟨_, List.getElem?_eq_getElem hlt⟩
  have hframed : Framed next := h.framed (tag, next) (mem_of_getElem? hnext)
  have hdrop : p.frames.drop p.read = (tag, next) :: p.frames.drop (p.read + 1) := by
    rw [drop_eq_getElem_cons hlt]
    rw [List.getElem?_eq_getElem hlt, Option.some.injEq] at hnext
    rw [hnext]
  have hbytes : next ++ (p.frames.drop (p.read + 1)).flatMap Prod.snd =
      p.header ++ (p.stream ++ p.unsent) := by
    rw [← h.bytes, hdrop, flatMap_cons]
  -- The four bytes of the header are the first four of the next frame.
  have hhead : p.header = next.take 4 := by
    have htake := congrArg (List.take 4) hbytes
    rw [take_append_of_le_length hframed.header_le, ← hheader, take_left, hheader] at htake
    exact htake.symm
  have hlen : uint p.header = next.length := by rw [hhead, hframed.header_eq]
  have hsplit : next = p.header ++ p.stream.take (uint p.header - 4) := by
    have htake := congrArg (List.take next.length) hbytes
    rw [take_left, take_append, take_of_length_le, hheader, ← hlen,
      take_append_of_le_length hrest] at htake
    · exact htake
    · have := hframed.header_le
      omega
  refine ⟨⟨h.framed, hlt, ?_⟩, rfl, rfl, rfl, tag, ?_⟩
  · have htail := hbytes
    rw [hsplit, append_assoc, append_cancel_left_eq] at htail
    have hstream : p.stream ++ p.unsent =
        p.stream.take (uint p.header - 4) ++ (p.stream.drop (uint p.header - 4) ++ p.unsent) := by
      rw [← append_assoc, take_append_drop]
    rw [hstream, append_cancel_left_eq] at htail
    exact htail
  · rw [hnext, ← hsplit]

/-- When all frames have been read nothing is left anywhere. -/
lemma Valid.drained (h : p.Valid) (hall : p.read = p.frames.length) :
    p.header = [] ∧ p.stream = [] ∧ p.unsent = [] := by
  have hbytes := h.bytes
  rw [hall, drop_length, flatMap_nil] at hbytes
  have := hbytes.symm
  simpa only [append_eq_nil_iff] using this

end Pipe
end GoAkt.FramedPipes
