import GoAkt.UnboundedSegmentedMailbox
import GoAkt.Neighbours

/-!
# The lives of segments

A segment is in the pool, with a call that prepares it, in the list of one mailbox, or with the
consumer that took it out. The invariant places the slots of the segments in the sequence of all
messages of their mailbox: the segments of a list have consecutive bases, the write index of the
last one says how many messages there are, and a slot that is reserved holds its message or has a
producer that is going to store it.

It fails once a segment is used after its life: when the consumer leaves a segment that is not
drained, when it takes out the segment that is still the tail, or when the pool hands out a
segment that an `Enqueue` call still has as its tail.
-/
namespace GoAkt.Actor
open GoAkt.Interleavings GoAkt.Neighbours
variable {κ μ : Type}

/-- The segment that the call loaded as its tail. -/
def SegmentedEnqueue.tail : SegmentedEnqueue κ μ → Option ℕ
  | .loaded _ _ tail => some tail
  | .reserved _ _ tail _ => some tail
  | .full _ _ tail => some tail
  | .getting _ _ tail => some tail
  | .resetting _ _ tail _ _ => some tail
  | .linking _ _ tail _ => some tail
  | .moving _ _ tail _ => some tail
  | _ => none

/-- The segment that the call prepares. -/
def SegmentedEnqueue.newSeg : SegmentedEnqueue κ μ → Option ℕ
  | .resetting _ _ _ seg _ => some seg
  | .linking _ _ _ seg => some seg
  | _ => none

namespace SegmentedDequeue

def isOpen : SegmentedDequeue μ → Bool
  | .absent => false
  | .creating _ _ => false
  | _ => true

def newSeg : SegmentedDequeue μ → Option ℕ
  | .creating seg _ => some seg
  | _ => none

/-- The segment that was taken out of the list. -/
def oldSeg : SegmentedDequeue μ → Option ℕ
  | .unlinking seg _ => some seg
  | .putting seg _ => some seg
  | _ => none

/-- A value whose slot is given up and that is not returned yet. -/
def owed : SegmentedDequeue μ → List μ
  | .counting val => [val]
  | _ => []

/-- The first slot that was not cleared. -/
def cleared (deqIdx : ℕ) : SegmentedDequeue μ → ℕ
  | .advancing _ _ _ => deqIdx + 1
  | _ => deqIdx

end SegmentedDequeue

namespace SegmentedMailboxes

/-! ## Steps that use a segment after its life -/

variable (segmentSize : ℕ) (s : SegmentedMailboxes κ μ)

/-- The pool hands out a segment that a call still has as its tail. -/
def HandsOut (place : Option ℕ) : Prop :=
  ∃ i seg p, place = some i ∧ s.pool[i]? = some seg ∧ (s.producers p).tail = some seg

/-- The consumer leaves a segment that is not drained. It saw the segment drained before
producers filled it. -/
def LeavesMessages (m : κ) : Prop :=
  ∃ seg next, s.consumers m = .moving seg next ∧ (s.segments seg).deqIdx < segmentSize

/-- The consumer takes out the segment that is still the tail. -/
def UnlinksTail (m : κ) : Prop := ∃ next, s.consumers m = .unlinking (s.tail m) next

def Hazard : SegmentedEvent κ μ → Prop
  | .create m place => s.consumers m = .absent ∧ s.HandsOut place
  | .call _ _ _ => False
  | .enqueue p place => (∃ m msg tail, s.producers p = .getting m msg tail) ∧ s.HandsOut place
  | .dequeue m _ => s.LeavesMessages segmentSize m ∨ s.UnlinksTail m

/-! ## The invariant -/

inductive SegmentPlace (κ : Type) where
  | pool
  | producer (p : ℕ)
  | queue (m : κ)
  | oldSeg (m : κ)
  | newSeg (m : κ)
  deriving DecidableEq

def At (chain : κ → List ℕ) (s : SegmentedMailboxes κ μ) : SegmentPlace κ → ℕ → Prop
  | .pool, v => v ∈ s.pool
  | .producer p, v => (s.producers p).newSeg = some v
  | .queue m, v => v ∈ chain m
  | .oldSeg m, v => (s.consumers m).oldSeg = some v
  | .newSeg m, v => (s.consumers m).newSeg = some v

structure Owned (chain : κ → List ℕ) (s : SegmentedMailboxes κ μ) : Prop where
  unique : ∀ {a b v}, s.At chain a v → s.At chain b v → a = b
  born : ∀ {a v}, s.At chain a v → v < s.allocated
  pool_nodup : s.pool.Nodup
  chain_nodup : ∀ m, (chain m).Nodup

/-- The segment is in no list and nobody prepares it. -/
def Free (chain : κ → List ℕ) (s : SegmentedMailboxes κ μ) (v : ℕ) : Prop :=
  ∀ a, s.At chain a v → a = .pool ∨ ∃ m, a = .oldSeg m

/-- A full segment that is out of use. -/
structure Retired (n : ℕ) (chain : κ → List ℕ) (s : SegmentedMailboxes κ μ) (v : ℕ) : Prop where
  full : n ≤ (s.segments v).writeIdx
  born : v < s.allocated
  free : s.Free chain v

/-- `newSegment` has made its first `i` stores. -/
structure Reset (n i : ℕ) (seg : Segment μ) : Prop where
  writeIdx : 0 < i → seg.writeIdx = 0
  deqIdx : 1 < i → seg.deqIdx = 0
  next : 2 < i → seg.next = none
  data : ∀ j, j < n → j + 3 < i → seg.data j = none

/-- The segments of a mailbox and the messages in their slots. -/
structure Lane (n : ℕ) (segments : ℕ → Segment μ) (base : ℕ → ℕ) (chain : List ℕ)
    (head tail : ℕ) (sent : List (ℕ × μ)) (answers : List (Option μ))
    (consumer : SegmentedDequeue μ) (reserving : ℕ → μ → ℕ → ℕ → Prop) : Prop where
  opened : chain ≠ [] ↔ consumer.isOpen = true
  closed : chain = [] → sent = [] ∧ answers = []
  head_eq : ∀ {v}, chain.head? = some v → head = v
  linked : ∀ {a b}, [a, b] <:+: chain → (segments a).next = some b ∧
    n ≤ (segments a).writeIdx ∧ base b = base a + n
  last : ∀ {v}, chain.getLast? = some v → (segments v).next = none ∧
    sent.length = base v + min (segments v).writeIdx n
  within : ∀ {v}, v ∈ chain → base v + min (segments v).writeIdx n ≤ sent.length
  fresh : ∀ {v}, v ∈ chain.tail → (segments v).deqIdx = 0
  tail_mem : chain ≠ [] → tail ∈ chain ∨ ∃ x, consumer = .unlinking tail x
  deq_le : chain ≠ [] → (segments head).deqIdx ≤ min (segments head).writeIdx n
  answered : chain ≠ [] → answers.reduceOption ++ consumer.owed =
    (sent.take (base head + (segments head).deqIdx)).map Prod.snd
  unsent : ∀ {v i}, v ∈ chain → i < n → sent.length ≤ base v + i → (segments v).data i = none
  filled : ∀ {v i p msg}, v ∈ chain → i < n → sent[base v + i]? = some (p, msg) →
    (v = head → consumer.cleared (segments head).deqIdx ≤ i) →
    (segments v).data i = some msg ∨ (segments v).data i = none ∧ reserving p msg v i

/-- The slot that the consumer is at. -/
structure AtSlot (n : ℕ) (segments : ℕ → Segment μ) (head seg deq : ℕ) : Prop where
  head_eq : seg = head
  deq_eq : deq = (segments seg).deqIdx
  lt : deq < min (segments seg).writeIdx n

/-- What the consumer of a mailbox has loaded. -/
def CallerFits (n : ℕ) (segments : ℕ → Segment μ) (base : ℕ → ℕ) (head : ℕ)
    (sent : List (ℕ × μ)) : SegmentedDequeue μ → Prop
  | .absent => True
  | .creating seg i => Reset n i (segments seg)
  | .idle => True
  | .looking seg => seg = head
  | .bounded seg enq => seg = head ∧ enq ≤ min (segments seg).writeIdx n
  | .reading seg deq => AtSlot n segments head seg deq
  | .clearing seg deq val => AtSlot n segments head seg deq ∧ (segments seg).data deq = some val
  | .advancing seg deq val => AtSlot n segments head seg deq ∧
      ∃ p, sent[base seg + deq]? = some (p, val)
  | .counting _ => True
  | .drained seg => seg = head
  | .moving seg next => seg = head ∧ (segments seg).next = some next
  | .unlinking seg next => next = head ∧ (segments seg).next = some next ∧
      n ≤ (segments seg).writeIdx
  | .putting seg next => next = head ∧ n ≤ (segments seg).writeIdx

def cleared (s : SegmentedMailboxes κ μ) (m : κ) : ℕ :=
  (s.consumers m).cleared (s.segments (s.head m)).deqIdx

section Producers
variable (n : ℕ) (chain : κ → List ℕ) (base : ℕ → ℕ) (s : SegmentedMailboxes κ μ)

/-- The slot that a producer has reserved. -/
structure Reserves (p : ℕ) (m : κ) (msg : μ) (v i : ℕ) : Prop where
  mem : v ∈ chain m
  lt : i < n
  slot : (s.sent m)[base v + i]? = some (p, msg)
  vacant : (s.segments v).data i = none
  ahead : v = s.head m → s.cleared m ≤ i

/-- A call's tail is in the list of the mailbox or out of use. -/
structure Refers (m : κ) (tail : ℕ) : Prop where
  opened : chain m ≠ []
  alive : tail ∈ chain m ∨ s.Retired n chain tail

structure RefersFull (m : κ) (tail : ℕ) : Prop extends s.Refers n chain m tail where
  full : n ≤ (s.segments tail).writeIdx

/-- A segment that is or was in the list until its next pointer is erased. -/
def Leads (m : κ) (tail next : ℕ) : Prop :=
  (tail ∈ chain m ∨ ∃ x, s.consumers m = .unlinking tail x) → (s.segments tail).next = some next

def ProducerFits (p : ℕ) : SegmentedEnqueue κ μ → Prop
  | .idle => True
  | .starting m _ => chain m ≠ []
  | .loaded m _ tail => s.Refers n chain m tail
  | .reserved m msg tail idx => s.Reserves n chain base p m msg tail idx
  | .stored _ => True
  | .full m _ tail => s.RefersFull n chain m tail
  | .getting m _ tail => s.RefersFull n chain m tail
  | .resetting m _ tail seg i => s.RefersFull n chain m tail ∧ Reset n i (s.segments seg)
  | .linking m _ tail seg => s.RefersFull n chain m tail ∧ Reset n (n + 3) (s.segments seg)
  | .moving m _ tail next => s.RefersFull n chain m tail ∧ s.Leads chain m tail next

def LaneAt (m : κ) : Prop :=
  Lane n s.segments base (chain m) (s.head m) (s.tail m) (s.sent m) (s.answers m) (s.consumers m)
    fun p msg v i => s.producers p = .reserved m msg v i

structure Sound : Prop where
  owned : s.Owned chain
  lane : ∀ m, s.LaneAt n chain base m
  caller : ∀ m, CallerFits n s.segments base (s.head m) (s.sent m) (s.consumers m)
  producer : ∀ p, s.ProducerFits n chain base p (s.producers p)

end Producers

variable {n : ℕ} {chain chain' : κ → List ℕ} {base base' : ℕ → ℕ}
  {s s' : SegmentedMailboxes κ μ} {m : κ} {p : ℕ} {v w : ℕ} {a b : SegmentPlace κ}

/-! ## Places -/

lemma Owned.sub (h : s.Owned chain) (hat : ∀ a w, s'.At chain' a w → s.At chain a w)
    (halloc : s.allocated ≤ s'.allocated) (hpool : s'.pool.Nodup)
    (hchain : ∀ m, (chain' m).Nodup) : s'.Owned chain' where
  unique hv hw := h.unique (hat _ _ hv) (hat _ _ hw)
  born hv := (h.born (hat _ _ hv)).trans_le halloc
  pool_nodup := hpool
  chain_nodup := hchain

lemma Owned.move (h : s.Owned chain) (b : SegmentPlace κ) (v : ℕ)
    (hat : ∀ a w, s'.At chain' a w → w = v ∧ a = b ∨ s.At chain a w ∧ w ≠ v)
    (halloc : s.allocated ≤ s'.allocated) (hborn : v < s'.allocated) (hpool : s'.pool.Nodup)
    (hchain : ∀ m, (chain' m).Nodup) : s'.Owned chain' where
  unique {a a' w} hw hw' := by
    rcases hat a w hw with ⟨rfl, rfl⟩ | ⟨hold, hne⟩
    · rcases hat a' w hw' with ⟨-, rfl⟩ | ⟨-, hne⟩
      · rfl
      · exact absurd rfl hne
    · rcases hat a' w hw' with ⟨rfl, -⟩ | ⟨hold', -⟩
      · exact absurd rfl hne
      · exact h.unique hold hold'
  born {a w} hw := by
    rcases hat a w hw with ⟨rfl, -⟩ | ⟨hold, -⟩
    · exact hborn
    · exact (h.born hold).trans_le halloc
  pool_nodup := hpool
  chain_nodup := hchain

lemma Owned.not_mem_chain (h : s.Owned chain) (hv : s.At chain a v) (ha : a ≠ .queue m) :
    v ∉ chain m := by
  intro hmem
  have hqueue : s.At chain (.queue m) v := hmem
  exact ha (h.unique hv hqueue)

lemma Free.not_mem_chain (h : s.Free chain v) (m : κ) : v ∉ chain m := by
  intro hmem
  rcases h (.queue m) hmem with ha | ⟨m', ha⟩ <;> cases ha

lemma Retired.mono (h : s.Retired n chain v) (hat : ∀ a, s'.At chain' a v → s.At chain a v)
    (halloc : s.allocated ≤ s'.allocated)
    (hfull : n ≤ (s.segments v).writeIdx → n ≤ (s'.segments v).writeIdx) :
    s'.Retired n chain' v :=
  ⟨hfull h.full, h.born.trans_le halloc, fun a ha => h.free a (hat a ha)⟩

/-- A segment that the consumer holds is out of use. -/
lemma Owned.free_of_oldSeg (h : s.Owned chain) (hv : (s.consumers m).oldSeg = some v) :
    s.Free chain v := by
  intro a ha
  have hold : s.At chain (.oldSeg m) v := hv
  exact .inr ⟨m, h.unique ha hold⟩

lemma Refers.born (h : s.Refers n chain m v) (howned : s.Owned chain) : v < s.allocated := by
  rcases h.alive with hmem | hretired
  · have hqueue : s.At chain (.queue m) v := hmem
    exact howned.born hqueue
  · exact hretired.born

/-- A call that is not done with its tail refers to it. -/
lemma ProducerFits.refers {phase : SegmentedEnqueue κ μ} (h : s.ProducerFits n chain base p phase)
    (htail : phase.tail = some v) : ∃ m, s.Refers n chain m v := by
  cases phase with cases htail
  | loaded m msg t => exact ⟨m, h⟩
  | reserved m msg t i => exact ⟨m, List.ne_nil_of_mem h.mem, .inl h.mem⟩
  | full m msg t | getting m msg t => exact ⟨m, h.toRefers⟩
  | resetting m msg t seg i | linking m msg t seg | moving m msg t next => exact ⟨m, h.1.toRefers⟩

/-! ## What a step leaves alone -/

/-- A call keeps what it knows. -/
lemma ProducerFits.mono {phase : SegmentedEnqueue κ μ} (h : s.ProducerFits n chain base p phase)
    (hopen : ∀ m, chain m ≠ [] → chain' m ≠ [])
    (hrefers : ∀ m t, phase.tail = some t → s.Refers n chain m t → s'.Refers n chain' m t)
    (hfull : ∀ t, phase.tail = some t → n ≤ (s.segments t).writeIdx → n ≤ (s'.segments t).writeIdx)
    (hreset : ∀ v i, phase.newSeg = some v → Reset n i (s.segments v) → Reset n i (s'.segments v))
    (hreserves : ∀ m msg v i, phase = .reserved m msg v i →
      s.Reserves n chain base p m msg v i → s'.Reserves n chain' base' p m msg v i)
    (hleads : ∀ m msg t x, phase = .moving m msg t x → s.Leads chain m t x →
      s'.Leads chain' m t x) :
    s'.ProducerFits n chain' base' p phase := by
  cases phase with
  | idle | stored m => trivial
  | starting m msg => exact hopen m h
  | loaded m msg t => exact hrefers m t rfl h
  | reserved m msg t i => exact hreserves m msg t i rfl h
  | full m msg t | getting m msg t => exact ⟨hrefers m t rfl h.toRefers, hfull t rfl h.full⟩
  | resetting m msg t seg i =>
    exact ⟨⟨hrefers m t rfl h.1.toRefers, hfull t rfl h.1.full⟩, hreset seg i rfl h.2⟩
  | linking m msg t seg =>
    exact ⟨⟨hrefers m t rfl h.1.toRefers, hfull t rfl h.1.full⟩, hreset seg _ rfl h.2⟩
  | moving m msg t x =>
    exact ⟨⟨hrefers m t rfl h.1.toRefers, hfull t rfl h.1.full⟩, hleads m msg t x rfl h.2⟩

/-- What producers do to a segment of a list. -/
structure Grows (old new : Segment μ) : Prop where
  writeIdx : old.writeIdx ≤ new.writeIdx
  deqIdx : new.deqIdx = old.deqIdx
  next : ∀ x, old.next = some x → new.next = some x
  data : ∀ i val, old.data i = some val → new.data i = some val

lemma Grows.refl (seg : Segment μ) : Grows seg seg := ⟨le_rfl, rfl, fun _ => id, fun _ _ => id⟩

lemma AtSlot.mono {segments segments' : ℕ → Segment μ} {head seg deq : ℕ}
    (h : AtSlot n segments head seg deq) (hgrows : Grows (segments head) (segments' head)) :
    AtSlot n segments' head seg deq := by
  obtain ⟨rfl, hdeq, hlt⟩ := h
  refine ⟨rfl, ?_, hlt.trans_le (min_le_min_right n hgrows.writeIdx)⟩
  rw [hgrows.deqIdx]
  exact hdeq

lemma CallerFits.mono {segments segments' : ℕ → Segment μ} {head : ℕ}
    {sent sent' : List (ℕ × μ)} {phase : SegmentedDequeue μ}
    (h : CallerFits n segments base head sent phase)
    (hgrows : phase.isOpen = true → Grows (segments head) (segments' head))
    (hbase : phase.isOpen = true → base' head = base head) (hsent : sent <+: sent')
    (hnew : ∀ v i, phase.newSeg = some v → Reset n i (segments v) → Reset n i (segments' v))
    (hfull : ∀ v, phase.oldSeg = some v → n ≤ (segments v).writeIdx → n ≤ (segments' v).writeIdx)
    (hnext : ∀ v x, phase = .unlinking v x → (segments' v).next = (segments v).next) :
    CallerFits n segments' base' head sent' phase := by
  cases phase with
  | absent | idle | counting val => trivial
  | creating seg i => exact hnew seg i rfl h
  | looking seg | drained seg => exact h
  | bounded seg enq =>
    obtain ⟨rfl, hle⟩ := h
    exact ⟨rfl, hle.trans (min_le_min_right n (hgrows rfl).writeIdx)⟩
  | reading seg deq => exact AtSlot.mono h (hgrows rfl)
  | clearing seg deq val =>
    refine ⟨h.1.mono (hgrows rfl), ?_⟩
    obtain ⟨⟨rfl, -, -⟩, hdata⟩ := h
    exact (hgrows rfl).data _ _ hdata
  | advancing seg deq val =>
    refine ⟨h.1.mono (hgrows rfl), ?_⟩
    obtain ⟨⟨rfl, -, -⟩, p, hp⟩ := h
    obtain ⟨l, rfl⟩ := hsent
    refine ⟨p, ?_⟩
    rw [hbase rfl, List.getElem?_append_left (List.getElem?_eq_some_iff.mp hp).1]
    exact hp
  | moving seg x =>
    obtain ⟨rfl, hx⟩ := h
    exact ⟨rfl, (hgrows rfl).next _ hx⟩
  | unlinking seg x =>
    refine ⟨h.1, ?_, hfull seg rfl h.2.2⟩
    rw [hnext seg x rfl]
    exact h.2.1
  | putting seg x => exact ⟨h.1, hfull seg rfl h.2⟩

lemma Lane.head_mem {segments : ℕ → Segment μ} {chain : List ℕ} {head tail : ℕ}
    {sent : List (ℕ × μ)} {answers : List (Option μ)} {consumer : SegmentedDequeue μ}
    {reserving : ℕ → μ → ℕ → ℕ → Prop}
    (h : Lane n segments base chain head tail sent answers consumer reserving)
    (hne : chain ≠ []) : head ∈ chain := by
  obtain ⟨v, rest, rfl⟩ := List.exists_cons_of_ne_nil hne
  rw [h.head_eq rfl]
  exact List.mem_cons_self

/-- Two segments that differ at most in how far the write index is beyond the size. -/
structure Alike (n : ℕ) (old new : Segment μ) : Prop where
  writeIdx : min new.writeIdx n = min old.writeIdx n
  deqIdx : new.deqIdx = old.deqIdx
  next : new.next = old.next
  data : new.data = old.data

lemma Alike.of_eq {old new : Segment μ} (h : new = old) : Alike n old new := by
  subst h
  exact ⟨rfl, rfl, rfl, rfl⟩

/-- A field that the store does not write. -/
lemma update_field {β : Type} (field : Segment μ → β) (store : Segment μ → Segment μ)
    (hstore : ∀ seg, field (store seg) = field seg) (segments : ℕ → Segment μ) (v w : ℕ) :
    field (Function.update segments v (store (segments v)) w) = field (segments w) := by
  by_cases hw : w = v
  · subst hw
    rw [Function.update_self, hstore]
  · rw [Function.update_of_ne hw]

/-- What differs from the value that is replaced stays. -/
lemma update_keep {α β : Type*} [DecidableEq α] {f : α → β} {a a' : α} {b c x : β} (ha : f a = b)
    (ha' : f a' = c) (hne : b ≠ c) : Function.update f a x a' = c := by
  rw [Function.update_of_ne, ha']
  rintro rfl
  exact hne (ha.symm.trans ha')

section
variable {segments segments' : ℕ → Segment μ} {chain : List ℕ} {head tail : ℕ}
  {sent : List (ℕ × μ)} {answers : List (Option μ)} {consumer : SegmentedDequeue μ}
  {reserving reserving' : ℕ → μ → ℕ → ℕ → Prop}

section
variable (h : Lane n segments base chain head tail sent answers consumer reserving)
include h

/-- Only what the slots hold changes. -/
lemma Lane.refill (hwrite : ∀ v ∈ chain, min (segments' v).writeIdx n = min (segments v).writeIdx n)
    (hdeq : ∀ v ∈ chain, (segments' v).deqIdx = (segments v).deqIdx)
    (hnext : ∀ v ∈ chain, (segments' v).next = (segments v).next)
    (hbase : ∀ v ∈ chain, base' v = base v)
    (hunsent : ∀ {v i}, v ∈ chain → i < n → sent.length ≤ base v + i → (segments' v).data i = none)
    (hfilled : ∀ {v i p msg}, v ∈ chain → i < n → sent[base v + i]? = some (p, msg) →
      (v = head → consumer.cleared (segments head).deqIdx ≤ i) →
      (segments' v).data i = some msg ∨ (segments' v).data i = none ∧ reserving' p msg v i) :
    Lane n segments' base' chain head tail sent answers consumer reserving' := by
  have hhead := h.head_mem
  refine ⟨h.opened, h.closed, h.head_eq, fun {a b} hab => ?_, fun {v} hv => ?_, fun {v} hv => ?_,
    fun {v} hv => ?_, h.tail_mem, fun hne => ?_, fun hne => ?_, fun {v i} hv hi hlen => ?_,
    fun {v i p msg} hv hi hget hahead => ?_⟩
  · have ha := left_mem_of_neighbours hab
    rw [hnext a ha, ← min_eq_right_iff, hwrite a ha, min_eq_right_iff, hbase a ha,
      hbase b (right_mem_of_neighbours hab)]
    exact h.linked hab
  · have hmem := List.mem_of_getLast? hv
    rw [hnext v hmem, hwrite v hmem, hbase v hmem]
    exact h.last hv
  · rw [hwrite v hv, hbase v hv]
    exact h.within hv
  · rw [hdeq v (List.mem_of_mem_tail hv)]
    exact h.fresh hv
  · rw [hdeq head (hhead hne), hwrite head (hhead hne)]
    exact h.deq_le hne
  · rw [hdeq head (hhead hne), hbase head (hhead hne)]
    exact h.answered hne
  · rw [hbase v hv] at hlen
    exact hunsent hv hi hlen
  · rw [hbase v hv] at hget
    rw [hdeq head (hhead (List.ne_nil_of_mem hv))] at hahead
    exact hfilled hv hi hget hahead

lemma Lane.congr
    (hseg : ∀ v ∈ chain, Alike n (segments v) (segments' v)) (hbase : ∀ v ∈ chain, base' v = base v)
    (hres : ∀ p msg v i, v ∈ chain → reserving p msg v i → reserving' p msg v i) :
    Lane n segments' base' chain head tail sent answers consumer reserving' := by
  refine h.refill (fun v hv => (hseg v hv).writeIdx) (fun v hv => (hseg v hv).deqIdx)
    (fun v hv => (hseg v hv).next) hbase (fun {v i} hv hi hlen => ?_)
    (fun {v i p msg} hv hi hget hahead => ?_)
  · rw [(hseg v hv).data]
    exact h.unsent hv hi hlen
  · rw [(hseg v hv).data]
    rcases h.filled hv hi hget hahead with hdata | ⟨hdata, hp⟩
    · exact .inl hdata
    · exact .inr ⟨hdata, hres p msg v i hv hp⟩

end
end
end SegmentedMailboxes
end GoAkt.Actor
