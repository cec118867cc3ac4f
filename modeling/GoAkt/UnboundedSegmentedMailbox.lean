import GoAkt.Interleavings

/-!
# The segmented mailbox

Messages go into the slots of segments of a fixed size, and the segments of a mailbox are a
linked list. A producer reserves a slot by a fetch-add on the write index of the last segment
and stores its message there; when the segment is full it links a new one. The consumer reads
the slots in order and gives a segment that it has drained back to a pool, which all mailboxes
share. A step is one access to the memory by the constructor of a mailbox, by an `Enqueue` call
or by a `Dequeue` call. The indices are unbounded.

Beside the memory the state keeps, for each producer, the calls it made and, for each mailbox,
the messages in the order of their slots with the producer of each, and the results of its
`Dequeue` calls. No step depends on them.
-/
namespace GoAkt.Actor
open GoAkt.Interleavings Function

def segmentSize : ℕ := 256

structure Segment (μ : Type) where
  writeIdx : ℕ
  deqIdx : ℕ
  next : Option ℕ
  data : ℕ → Option μ

/-- How far an `Enqueue` call on the mailbox `m` is. -/
inductive SegmentedEnqueue (κ μ : Type) where
  | idle
  /-- At the top of the loop. -/
  | starting (m : κ) (msg : μ)
  | loaded (m : κ) (msg : μ) (tail : ℕ)
  | reserved (m : κ) (msg : μ) (tail idx : ℕ)
  | stored (m : κ)
  | full (m : κ) (msg : μ) (tail : ℕ)
  | getting (m : κ) (msg : μ) (tail : ℕ)
  /-- `newSegment` has made `i` of its stores. -/
  | resetting (m : κ) (msg : μ) (tail seg i : ℕ)
  | linking (m : κ) (msg : μ) (tail seg : ℕ)
  /-- The tail of the mailbox is going to be moved. -/
  | moving (m : κ) (msg : μ) (tail next : ℕ)
  deriving DecidableEq, Repr

/-- How far the constructor of a mailbox or its `Dequeue` call is. -/
inductive SegmentedDequeue (μ : Type) where
  | absent
  | creating (seg i : ℕ)
  | idle
  | looking (seg : ℕ)
  | bounded (seg enq : ℕ)
  | reading (seg deq : ℕ)
  | clearing (seg deq : ℕ) (val : μ)
  | advancing (seg deq : ℕ) (val : μ)
  | counting (val : μ)
  | drained (seg : ℕ)
  | moving (seg next : ℕ)
  | unlinking (seg next : ℕ)
  | putting (seg next : ℕ)
  deriving DecidableEq, Repr

structure SegmentedMailboxes (κ μ : Type) where
  segments : ℕ → Segment μ
  /-- The segments are numbered as they are allocated. -/
  allocated : ℕ
  pool : List ℕ
  head : κ → ℕ
  tail : κ → ℕ
  length : κ → ℤ
  producers : ℕ → SegmentedEnqueue κ μ
  consumers : κ → SegmentedDequeue μ
  called : ℕ → List (κ × μ)
  sent : κ → List (ℕ × μ)
  answers : κ → List (Option μ)

inductive SegmentedEvent (κ μ : Type) where
  /-- The next access of the constructor, and what the pool gives if it asks for a segment. -/
  | create (m : κ) (place : Option ℕ)
  | call (p : ℕ) (m : κ) (msg : μ)
  /-- The next access of an `Enqueue` call. -/
  | enqueue (p : ℕ) (place : Option ℕ)
  /-- The next access of `Dequeue`, and whether the pool keeps a segment. -/
  | dequeue (m : κ) (keep : Bool)

namespace Segment
variable {μ : Type}

def addWriteIdx (seg : Segment μ) : Segment μ := { seg with writeIdx := seg.writeIdx + 1 }

def storeData (idx : ℕ) (val : Option μ) (seg : Segment μ) : Segment μ :=
  { seg with data := update seg.data idx val }

def storeDeqIdx (deq : ℕ) (seg : Segment μ) : Segment μ := { seg with deqIdx := deq }

def storeNext (next : Option ℕ) (seg : Segment μ) : Segment μ := { seg with next }

/-- The stores of `newSegment`, in its order. -/
def reset : ℕ → Segment μ → Segment μ
  | 0, seg => { seg with writeIdx := 0 }
  | 1, seg => { seg with deqIdx := 0 }
  | 2, seg => { seg with next := none }
  | i + 3, seg => seg.storeData i none

end Segment

namespace SegmentedMailboxes
variable {κ μ : Type} (s : SegmentedMailboxes κ μ)

def setProducer (p : ℕ) (phase : SegmentedEnqueue κ μ) : SegmentedMailboxes κ μ :=
  { s with producers := update s.producers p phase }

/-- A store to one of the fields of a segment. -/
def modify (seg : ℕ) (store : Segment μ → Segment μ) : SegmentedMailboxes κ μ :=
  { s with segments := update s.segments seg (store (s.segments seg)) }

def setPool (pool : List ℕ) (allocated : ℕ) : SegmentedMailboxes κ μ :=
  { s with pool, allocated }

/-- `segmentPool.Get` gives the segment at a place of the pool, or a new one. -/
def get : Option ℕ → Option (ℕ × SegmentedMailboxes κ μ)
  | none => some (s.allocated, s.setPool s.pool (s.allocated + 1))
  | some i => (s.pool[i]?).map fun seg => (seg, s.setPool (s.pool.eraseIdx i) s.allocated)

/-- `segmentPool.Put` may keep the segment. -/
def put (seg : ℕ) (keep : Bool) : SegmentedMailboxes κ μ :=
  s.setPool (if keep then s.pool ++ [seg] else s.pool) s.allocated

def recordCall (p : ℕ) (m : κ) (msg : μ) : SegmentedMailboxes κ μ :=
  { s with called := update s.called p (s.called p ++ [(m, msg)]) }

variable [DecidableEq κ] (segmentSize : ℕ) (s : SegmentedMailboxes κ μ)

@[simps] def setConsumer (m : κ) (phase : SegmentedDequeue μ) : SegmentedMailboxes κ μ :=
  { s with consumers := update s.consumers m phase }

@[simps] def setHead (m : κ) (seg : ℕ) : SegmentedMailboxes κ μ :=
  { s with head := update s.head m seg }

@[simps] def setTail (m : κ) (seg : ℕ) : SegmentedMailboxes κ μ :=
  { s with tail := update s.tail m seg }

def addLength (m : κ) (delta : ℤ) : SegmentedMailboxes κ μ :=
  { s with length := update s.length m (s.length m + delta) }

/-- The producer has a slot for its message. -/
def recordSlot (p : ℕ) (m : κ) (msg : μ) : SegmentedMailboxes κ μ :=
  { s with sent := update s.sent m (s.sent m ++ [(p, msg)]) }

/-- `Dequeue` returns. -/
def answer (m : κ) (val : Option μ) : SegmentedMailboxes κ μ :=
  { s with
    consumers := update s.consumers m .idle
    answers := update s.answers m (s.answers m ++ [val]) }

/-- `NewUnboundedSegmentedMailbox`. Nobody sees the mailbox before the constructor returns, so
that the stores of its head and its tail are one step. -/
def create (m : κ) (place : Option ℕ) : Option (SegmentedMailboxes κ μ) :=
  match s.consumers m with
  | .absent => (s.get place).map fun (seg, s') => s'.setConsumer m (.creating seg 0)
  | .creating seg i =>
    if i < segmentSize + 3 then
      some ((s.modify seg (Segment.reset i)).setConsumer m (.creating seg (i + 1)))
    else some (((s.setHead m seg).setTail m seg).setConsumer m .idle)
  | _ => none

/-- A producer calls `Enqueue` on a mailbox that exists. -/
def call (p : ℕ) (m : κ) (msg : μ) : Option (SegmentedMailboxes κ μ) :=
  match s.producers p, s.consumers m with
  | _, .absent => none
  | _, .creating _ _ => none
  | .idle, _ => some ((s.recordCall p m msg).setProducer p (.starting m msg))
  | _, _ => none

def enqueue (p : ℕ) (place : Option ℕ) : Option (SegmentedMailboxes κ μ) :=
  match s.producers p with
  | .idle => none
  | .starting m msg => some (s.setProducer p (.loaded m msg (s.tail m)))
  | .loaded m msg tail =>
    let idx := (s.segments tail).writeIdx
    if idx < segmentSize then
      some (((s.modify tail Segment.addWriteIdx).recordSlot p m msg).setProducer p
        (.reserved m msg tail idx))
    else some ((s.modify tail Segment.addWriteIdx).setProducer p (.full m msg tail))
  | .reserved m msg tail idx =>
    some ((s.modify tail (Segment.storeData idx (some msg))).setProducer p (.stored m))
  | .stored m => some ((s.addLength m 1).setProducer p .idle)
  | .full m msg tail => some (s.setProducer p
      ((s.segments tail).next.elim (.getting m msg tail) (.moving m msg tail)))
  | .getting m msg tail =>
    (s.get place).map fun (seg, s') => s'.setProducer p (.resetting m msg tail seg 0)
  | .resetting m msg tail seg i =>
    some ((s.modify seg (Segment.reset i)).setProducer p
      (if i + 1 < segmentSize + 3 then .resetting m msg tail seg (i + 1)
        else .linking m msg tail seg))
  | .linking m msg tail seg =>
    if (s.segments tail).next = none then
      some ((s.modify tail (Segment.storeNext (some seg))).setProducer p (.moving m msg tail seg))
    else some (s.setProducer p (.starting m msg))
  | .moving m msg tail next =>
    some ((if s.tail m = tail then s.setTail m next else s).setProducer p (.starting m msg))

def dequeue (m : κ) (keep : Bool) : Option (SegmentedMailboxes κ μ) :=
  match s.consumers m with
  | .absent => none
  | .creating _ _ => none
  | .idle => some (s.setConsumer m (.looking (s.head m)))
  | .looking seg => some (s.setConsumer m (.bounded seg
      (min (s.segments seg).writeIdx segmentSize)))
  | .bounded seg enq =>
    let deq := (s.segments seg).deqIdx
    some (s.setConsumer m (if deq < enq then .reading seg deq else .drained seg))
  | .reading seg deq =>
    match (s.segments seg).data deq with
    | none => some (s.answer m none)
    | some val => some (s.setConsumer m (.clearing seg deq val))
  | .clearing seg deq val =>
    some ((s.modify seg (Segment.storeData deq none)).setConsumer m (.advancing seg deq val))
  | .advancing seg deq val =>
    some ((s.modify seg (Segment.storeDeqIdx (deq + 1))).setConsumer m (.counting val))
  | .counting val => some ((s.addLength m (-1)).answer m (some val))
  | .drained seg =>
    match (s.segments seg).next with
    | none => some (s.answer m none)
    | some next => some (s.setConsumer m (.moving seg next))
  | .moving seg next => some ((s.setHead m next).setConsumer m (.unlinking seg next))
  | .unlinking seg next =>
    some ((s.modify seg (Segment.storeNext none)).setConsumer m (.putting seg next))
  | .putting seg next => some ((s.put seg keep).setConsumer m (.looking next))

def step : SegmentedEvent κ μ → Option (SegmentedMailboxes κ μ)
  | .create m place => s.create segmentSize m place
  | .call p m msg => s.call p m msg
  | .enqueue p place => s.enqueue segmentSize p place
  | .dequeue m keep => s.dequeue segmentSize m keep

end SegmentedMailboxes

/-- Any number of mailboxes over one pool, with any number of producers and one caller of
`Dequeue` for each mailbox. -/
def segmentedSystem (κ μ : Type) [DecidableEq κ] (segmentSize : ℕ) :
    System (SegmentedMailboxes κ μ) (SegmentedEvent κ μ) where
  start := ⟨fun _ => ⟨0, 0, none, fun _ => none⟩, 0, [], fun _ => 0, fun _ => 0, fun _ => 0,
    fun _ => .idle, fun _ => .absent, fun _ => [], fun _ => [], fun _ => []⟩
  step := SegmentedMailboxes.step segmentSize

end GoAkt.Actor
