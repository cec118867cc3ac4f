import GoAkt.Interleavings
import GoAkt.Rings

/-!
# The ready queue of the dispatcher

Each worker owns a bounded ring; what does not fit goes to a global ring that grows. A
worker takes from its own ring, then from the global ring, then from the rings of its
siblings, half of one at a time, and at last waits until something is pushed. A step is
one section under a lock or one read of an atomic size. Beside the state stand the items
pushed and taken so far, and those that went through the global ring.
-/
namespace GoAkt.Actor
open GoAkt.Interleavings GoAkt.Rings Function

def localQueueCap : ℕ := 256

def globalQueueInitialCap : ℕ := 64

structure LocalQueue (α : Type*) where
  ring : RingBuffer α
  /-- The size, for reads without the lock. -/
  sizeAtomic : ℕ

namespace LocalQueue
variable {α : Type*}

def new : LocalQueue α := ⟨.empty localQueueCap, 0⟩

def ofRing (ring : RingBuffer α) : LocalQueue α := ⟨ring, ring.size⟩

/-- Nothing is returned when the ring is full. -/
def pushBack (q : LocalQueue α) (s : α) : Option (LocalQueue α) :=
  if q.ring.size = localQueueCap then none else some (ofRing (q.ring.put (some s)))

def popFront (q : LocalQueue α) : Option α × LocalQueue α :=
  if q.ring.size = 0 then (none, q) else (q.ring.front, ofRing q.ring.remove)

/-- The first stolen item is returned and the others go to the thief, as far as there is
room. -/
def stealHalf (q dst : LocalQueue α) : Option α × LocalQueue α × LocalQueue α :=
  if q.ring.size = 0 then (none, q, dst)
  else
    let stolen := (q.ring.size + 1) / 2
    let moved := RingBuffer.transfer (stolen - 1) q.ring.remove dst.ring
    (q.ring.front, ofRing moved.1, ofRing moved.2)

end LocalQueue

open LocalQueue
namespace GlobalQueue
variable {α : Type*}

def grow (g : RingBuffer α) : RingBuffer α :=
  let newCap := g.cap * 2
  g.relocate (if newCap = 0 then globalQueueInitialCap else newCap)

def push (g : RingBuffer α) (s : α) : RingBuffer α :=
  (if g.size = g.cap then grow g else g).put (some s)

def pop (g : RingBuffer α) : Option α × RingBuffer α :=
  if g.size = 0 then (none, g) else (g.front, g.remove)

end GlobalQueue

open GlobalQueue

/-- Where a worker is. -/
inductive WorkerPhase (α : Type*) where
  /-- It runs what it has taken. -/
  | running
  /-- Its own ring was full, so the item goes to the global ring. -/
  | spilling (s : α)
  | probingLocal
  | poppingLocal
  | probingGlobal
  | poppingGlobal
  /-- It looks at the sibling at this distance. -/
  | probingVictim (i : ℕ)
  | stealing (i : ℕ)
  | parking
  | waiting
  | woken
  | exited

structure ReadyQueue (α : Type*) where
  locals : ℕ → LocalQueue α
  globalCount : Int32
  global : RingBuffer α
  parked : ℕ
  closed : Bool
  /-- The workers that wait on the condition variable, in the order of their waiting. -/
  waiters : List ℕ
  workers : ℕ → WorkerPhase α
  /-- The items that have been put into a ring. -/
  pushed : List α
  /-- The items that `take` has returned. -/
  taken : List α
  globalIn : List α
  globalOut : List α

def newReadyQueue {α : Type*} : ReadyQueue α where
  locals _ := .new
  globalCount := 0
  global := .empty globalQueueInitialCap
  parked := 0
  closed := false
  waiters := []
  workers _ := .running
  pushed := []
  taken := []
  globalIn := []
  globalOut := []

inductive QueueEvent (α : Type*) where
  | push (s : α)
  | pushLocal (w : ℕ) (s : α)
  | spill (w : ℕ)
  | take (w : ℕ)
  | probeLocal (w : ℕ)
  | popFront (w : ℕ)
  | probeGlobal (w : ℕ)
  | popGlobal (w : ℕ)
  | probeVictim (w : ℕ)
  | stealHalf (w : ℕ)
  | parkAndTake (w : ℕ)
  | close

namespace ReadyQueue
variable {α : Type*} (n : ℕ) (q : ReadyQueue α)

def setWorker (w : ℕ) (phase : WorkerPhase α) : ReadyQueue α :=
  { q with workers := update q.workers w phase }

def setLocal (w : ℕ) (queue : LocalQueue α) : ReadyQueue α :=
  { q with locals := update q.locals w queue }

/-- `take` returns an item, or goes on when it got none. -/
def deliver (w : ℕ) (item : Option α) (next : WorkerPhase α) : ReadyQueue α :=
  match item with
  | some s => { q with taken := q.taken ++ [s] }.setWorker w .running
  | none => q.setWorker w next

def signal : ReadyQueue α :=
  match q.waiters with
  | [] => q
  | w :: waiters => { q with waiters }.setWorker w .woken

def broadcast : ReadyQueue α :=
  { q with
    waiters := []
    workers := fun w => if w ∈ q.waiters then .woken else q.workers w }

def push (q : ReadyQueue α) (s : α) : ReadyQueue α :=
  let global := GlobalQueue.push q.global s
  let q' := { q with
    global
    globalCount := Int32.ofNat global.size
    pushed := q.pushed ++ [s]
    globalIn := q.globalIn ++ [s] }
  if q.parked > 0 then q'.signal else q'

def pushLocal (w : ℕ) (s : α) : ReadyQueue α :=
  match (q.locals w).pushBack s with
  | some queue => { q with pushed := q.pushed ++ [s] }.setLocal w queue
  | none => q.setWorker w (.spilling s)

/-- Remove the first item of the global ring. -/
def popGlobalRing : Option α × ReadyQueue α :=
  let (item, global) := GlobalQueue.pop q.global
  (item, { q with global, globalOut := q.globalOut ++ item.toList })

def storeGlobalCount : ReadyQueue α :=
  { q with globalCount := Int32.ofNat q.global.size }

def popGlobal (w : ℕ) : ReadyQueue α :=
  let (item, q') := q.popGlobalRing
  (if item.isSome then q'.storeGlobalCount else q').deliver w item (.probingVictim 1)

/-- The worker at distance `i`; a worker does not steal from itself. -/
def stealHalf (n : ℕ) (q : ReadyQueue α) (w i : ℕ) : ReadyQueue α :=
  let victim := (w + i) % n
  if victim = w then q.setWorker w (.probingVictim (i + 1))
  else
    let (item, source, dest) := (q.locals victim).stealHalf (q.locals w)
    ((q.setLocal victim source).setLocal w dest).deliver w item (.probingVictim (i + 1))

/-- One round of the loop of `parkAndTake`, from one acquisition of the lock to the end
of the call or to the wait. -/
def parkAndTake (w : ℕ) : ReadyQueue α :=
  if q.closed then q.setWorker w .exited
  else if q.global.size > 0 then
    let (item, q') := q.popGlobalRing
    q'.storeGlobalCount.deliver w item .probingLocal
  else
    { q with parked := q.parked + 1, waiters := q.waiters ++ [w] }.setWorker w .waiting

/-- The moves of a worker. -/
def workerStep (w : ℕ) : WorkerPhase α → QueueEvent α → Option (ReadyQueue α)
  | .running, .pushLocal _ s => some (q.pushLocal w s)
  | .spilling s, .spill _ => some ((q.push s).setWorker w .running)
  | .running, .take _ => some (q.setWorker w .probingLocal)
  | .probingLocal, .probeLocal _ => some (q.setWorker w
      (if (q.locals w).sizeAtomic = 0 then .probingGlobal else .poppingLocal))
  | .poppingLocal, .popFront _ =>
    let (item, queue) := (q.locals w).popFront
    some ((q.setLocal w queue).deliver w item .probingGlobal)
  | .probingGlobal, .probeGlobal _ => some (q.setWorker w
      (if q.globalCount = 0 then .probingVictim 1 else .poppingGlobal))
  | .poppingGlobal, .popGlobal _ => some (q.popGlobal w)
  | .probingVictim i, .probeVictim _ => some (q.setWorker w
      (if n ≤ i then .parking
      else if (q.locals ((w + i) % n)).sizeAtomic = 0 then .probingVictim (i + 1)
      else .stealing i))
  | .stealing i, .stealHalf _ => some (q.stealHalf n w i)
  | .parking, .parkAndTake _ => some (q.parkAndTake w)
  | .woken, .parkAndTake _ => some ({ q with parked := q.parked - 1 }.parkAndTake w)
  | _, _ => none

end ReadyQueue

/-- The worker that moves. -/
def QueueEvent.worker {α : Type*} : QueueEvent α → Option ℕ
  | .push _ => none
  | .pushLocal w _ => some w
  | .spill w => some w
  | .take w => some w
  | .probeLocal w => some w
  | .popFront w => some w
  | .probeGlobal w => some w
  | .popGlobal w => some w
  | .probeVictim w => some w
  | .stealHalf w => some w
  | .parkAndTake w => some w
  | .close => none

namespace ReadyQueue
variable {α : Type*}

def step (n : ℕ) (q : ReadyQueue α) (e : QueueEvent α) : Option (ReadyQueue α) :=
  match e.worker with
  | some w => if w < n then q.workerStep n w (q.workers w) e else none
  | none =>
    match e with
    | .push s => some (q.push s)
    | .close => some { q with closed := true }.broadcast
    | _ => none

/-- The ready queue of `n` workers. -/
def system (α : Type*) (n : ℕ) : System (ReadyQueue α) (QueueEvent α) where
  start := newReadyQueue
  step := step n

end ReadyQueue

/-! ## The rings -/

namespace LocalQueue
variable {α : Type*} {q q' dst dst' : LocalQueue α} {item : Option α}

def items (q : LocalQueue α) : List α := q.ring.items

structure WellFormed (q : LocalQueue α) : Prop where
  holds : q.ring.Holds q.items
  cap : q.ring.cap = localQueueCap
  size : q.sizeAtomic = q.ring.size

lemma wellFormed_ofRing {ring : RingBuffer α} {items : List α} (hring : ring.Holds items)
    (hcap : ring.cap = localQueueCap) :
    (ofRing ring).WellFormed ∧ (ofRing ring).items = items := by
  have hitems : (ofRing ring).items = items := hring.items_eq
  exact ⟨⟨hitems ▸ hring, hcap, rfl⟩, hitems⟩

lemma wellFormed_new : (new : LocalQueue α).WellFormed ∧ (new : LocalQueue α).items = [] :=
  wellFormed_ofRing (RingBuffer.holds_empty (by decide))
    (by simp [RingBuffer.cap, RingBuffer.empty])

lemma WellFormed.pushBack (h : q.WellFormed) {s : α} (hpush : q.pushBack s = some q') :
    q'.WellFormed ∧ q'.items = q.items ++ [s] := by
  unfold LocalQueue.pushBack at hpush
  split_ifs at hpush with hfull
  cases hpush
  have hlt : q.ring.size < q.ring.cap := by
    have hle := h.holds.size_le
    rw [h.cap] at hle ⊢
    exact lt_of_le_of_ne hle hfull
  exact wellFormed_ofRing (h.holds.put hlt s) (by rw [RingBuffer.cap_put, h.cap])

/-- What is popped is the first item, never nil unless the ring is empty. -/
lemma WellFormed.popFront (h : q.WellFormed) (hpop : q.popFront = (item, q')) :
    q'.WellFormed ∧ q.items = item.toList ++ q'.items := by
  unfold LocalQueue.popFront at hpop
  split_ifs at hpop with hempty <;> cases hpop
  · exact ⟨h, rfl⟩
  · have hholds := h.holds
    cases hitems : q.items with
    | nil =>
      rw [hitems] at hholds
      exact absurd hholds.size_eq hempty
    | cons s rest =>
      rw [hitems] at hholds
      obtain ⟨hwf, hrest⟩ := wellFormed_ofRing hholds.remove (by rw [RingBuffer.cap_remove, h.cap])
      rw [hholds.front, hrest]
      exact ⟨hwf, rfl⟩

/-- The items that go to the thief besides the one that is returned. -/
def moved (q dst : LocalQueue α) : List α :=
  (q.items.drop 1).take (min ((q.items.length + 1) / 2 - 1) (localQueueCap - dst.items.length))

/-- Stealing splits the victim's items into the one that is returned, those that are
appended to the thief's and those that stay, in this order. -/
structure Splits (q dst q' dst' : LocalQueue α) (item : Option α) : Prop where
  source : q'.WellFormed
  dest : dst'.WellFormed
  victim : q.items = item.toList ++ (moved q dst ++ q'.items)
  thief : dst'.items = dst.items ++ moved q dst

lemma WellFormed.stealHalf (h : q.WellFormed) (hdst : dst.WellFormed)
    (hsteal : q.stealHalf dst = (item, q', dst')) : Splits q dst q' dst' item := by
  unfold LocalQueue.stealHalf at hsteal
  split_ifs at hsteal with hempty <;> cases hsteal
  · have hnil : q.items = [] := by
      rw [← List.length_eq_zero_iff, ← h.holds.size_eq]
      exact hempty
    exact ⟨h, hdst, by simp [moved, hnil], by simp [moved, hnil]⟩
  · have hholds := h.holds
    cases hitems : q.items with
    | nil =>
      rw [hitems] at hholds
      exact absurd hholds.size_eq hempty
    | cons s rest =>
      rw [hitems] at hholds
      have hsize : q.ring.size = rest.length + 1 := hholds.size_eq
      have hle : (q.ring.size + 1) / 2 - 1 ≤ rest.length := by omega
      obtain ⟨hsource, hdest, hsourceCap, hdestCap⟩ := hholds.remove.transfer hdst.holds hle
      have hmoved : moved q dst = rest.take
          (min ((q.ring.size + 1) / 2 - 1) (dst.ring.cap - dst.ring.size)) := by
        rw [moved, hitems, hdst.cap, hdst.holds.size_eq, hsize]
        rfl
      obtain ⟨hwf, hrest⟩ := wellFormed_ofRing hsource
        (by rw [hsourceCap, RingBuffer.cap_remove, h.cap])
      obtain ⟨hwfDst, hrestDst⟩ := wellFormed_ofRing hdest (by rw [hdestCap, hdst.cap])
      refine ⟨hwf, hwfDst, ?_, by rw [hrestDst, hmoved]⟩
      rw [hitems, hholds.front, hrest, hmoved, List.take_append_drop]
      rfl

end LocalQueue

namespace GlobalQueue
variable {α : Type*} {g g' : RingBuffer α}

lemma holds_push {items : List α} (h : g.Holds items) (s : α) :
    (push g s).Holds (items ++ [s]) := by
  unfold push
  split_ifs with hfull
  · have hpos : 0 < g.cap := Nat.zero_lt_of_lt h.head_lt
    have hlt : g.size < g.cap * 2 := by omega
    have hne : ¬g.cap * 2 = 0 := by omega
    have hgrow : grow g = g.relocate (g.cap * 2) := by
      unfold grow
      simp only [hne, if_false]
    rw [hgrow]
    refine (h.relocate hlt).put ?_ s
    rw [g.cap_relocate hlt.le]
    exact hlt
  · exact h.put (lt_of_le_of_ne h.size_le hfull) s

lemma holds_pop {items : List α} {item : Option α} (h : g.Holds items)
    (hpop : pop g = (item, g')) : ∃ rest, g'.Holds rest ∧ items = item.toList ++ rest := by
  unfold pop at hpop
  split_ifs at hpop with hempty <;> cases hpop
  · exact ⟨items, h, rfl⟩
  · cases items with
    | nil => exact absurd h.size_eq hempty
    | cons s rest => exact ⟨rest, h.remove, by rw [h.front]; rfl⟩

end GlobalQueue

/-! ## The whole queue -/

/-- The items in the rings of the first `n` workers. -/
def localItems {α : Type*} (n : ℕ) (locals : ℕ → LocalQueue α) : Multiset α :=
  ∑ w ∈ Finset.range n, ((locals w).items : Multiset α)

namespace ReadyQueue
variable {α : Type*} {n : ℕ} {q : ReadyQueue α}

/-- All rings are well formed, nothing is lost or duplicated, and the global ring is a
queue. -/
structure Conserved (n : ℕ) (q : ReadyQueue α) : Prop where
  locals : ∀ w, (q.locals w).WellFormed
  global : q.global.Holds q.global.items
  balance : (q.pushed : Multiset α) = q.taken + (q.global.items + localItems n q.locals)
  fifo : q.globalIn = q.globalOut ++ q.global.items

variable {locals : ℕ → LocalQueue α} {w : ℕ}

lemma localItems_update (hw : w < n) (queue : LocalQueue α) : localItems n (update locals w queue) =
      queue.items + ∑ v ∈ Finset.range n \ {w}, ((locals v).items : Multiset α) := by
  have hmem : w ∈ Finset.range n := Finset.mem_range.mpr hw
  have hsame : ∀ v ∈ Finset.range n,
      ((update locals w queue v).items : Multiset α) =
        update (fun v => ((locals v).items : Multiset α)) w queue.items v := by
    intro v _
    by_cases hv : v = w
    · subst hv
      simp
    · simp [hv]
  rw [localItems, Finset.sum_congr rfl hsame, Finset.sum_update_of_mem hmem]

lemma localItems_eq (hw : w < n) : localItems n locals =
      (locals w).items + ∑ v ∈ Finset.range n \ {w}, ((locals v).items : Multiset α) := by
  rw [← localItems_update hw, update_eq_self]

variable {queue : LocalQueue α}

lemma localItems_push (hw : w < n)
    {added : List α} (hitems : queue.items = (locals w).items ++ added) :
    localItems n (update locals w queue) = localItems n locals + added := by
  rw [localItems_update hw, localItems_eq hw, hitems, ← Multiset.coe_add]
  abel

lemma localItems_pop (hw : w < n)
    {removed : List α} (hitems : (locals w).items = removed ++ queue.items) :
    localItems n locals = removed + localItems n (update locals w queue) := by
  rw [localItems_update hw, localItems_eq hw, hitems, ← Multiset.coe_add]
  abel

variable {q' : ReadyQueue α}

section
variable (h : q.Conserved n)
include h

/-- What does not touch the rings and the records keeps the invariant. -/
lemma Conserved.congr (hlocals : q'.locals = q.locals)
    (hglobal : q'.global = q.global) (hpushed : q'.pushed = q.pushed) (htaken : q'.taken = q.taken)
    (hin : q'.globalIn = q.globalIn) (hout : q'.globalOut = q.globalOut) : q'.Conserved n := by
  refine ⟨?_, ?_, ?_, ?_⟩
  · rw [hlocals]
    exact h.locals
  · rw [hglobal]
    exact h.global
  · rw [hpushed, htaken, hglobal, hlocals]
    exact h.balance
  · rw [hin, hout, hglobal]
    exact h.fifo

lemma Conserved.setWorker (w : ℕ) (phase : WorkerPhase α) : (q.setWorker w phase).Conserved n :=
  h.congr rfl rfl rfl rfl rfl rfl

lemma Conserved.signal : q.signal.Conserved n := by
  unfold ReadyQueue.signal
  split
  · exact h
  · exact h.congr rfl rfl rfl rfl rfl rfl

lemma Conserved.push (s : α) : (q.push s).Conserved n := by
  have hholds := GlobalQueue.holds_push h.global s
  have hitems := hholds.items_eq
  have hpushed : ({ q with
      global := GlobalQueue.push q.global s
      globalCount := Int32.ofNat (GlobalQueue.push q.global s).size
      pushed := q.pushed ++ [s]
      globalIn := q.globalIn ++ [s] } : ReadyQueue α).Conserved n := by
    refine ⟨h.locals, hitems.symm ▸ hholds, ?_, ?_⟩
    · simp only [hitems, ← Multiset.coe_add, h.balance]
      abel
    · simp only [hitems, h.fifo, List.append_assoc]
  unfold ReadyQueue.push
  dsimp only
  split_ifs
  · exact hpushed.signal
  · exact hpushed

lemma Conserved.pushLocal (hw : w < n) (s : α) : (q.pushLocal w s).Conserved n := by
  unfold ReadyQueue.pushLocal
  split
  next queue hqueue =>
    obtain ⟨hwf, hitems⟩ := (h.locals w).pushBack hqueue
    refine ⟨?_, h.global, ?_, h.fifo⟩
    · exact (forall_update_iff q.locals fun _ l => l.WellFormed).mpr ⟨hwf, fun v _ => h.locals v⟩
    · simp only [setLocal, localItems_push hw hitems, ← Multiset.coe_add, h.balance]
      abel
  · exact h.setWorker w _

end

/-- The state while `take` has an item in hand that it has not returned yet. -/
structure InHand (n : ℕ) (q : ReadyQueue α) (item : Option α) : Prop where
  locals : ∀ w, (q.locals w).WellFormed
  global : q.global.Holds q.global.items
  balance : (q.pushed : Multiset α) =
    q.taken + item.toList + (q.global.items + localItems n q.locals)
  fifo : q.globalIn = q.globalOut ++ q.global.items

variable {item : Option α}

lemma InHand.deliver (h : q.InHand n item) (w : ℕ) (next : WorkerPhase α) :
    (q.deliver w item next).Conserved n := by
  have hbalance := h.balance
  cases item with
  | none =>
    refine ⟨h.locals, h.global, ?_, h.fifo⟩
    simpa [deliver, setWorker] using hbalance
  | some s =>
    refine ⟨h.locals, h.global, ?_, h.fifo⟩
    simpa [deliver, setWorker, ← Multiset.coe_add] using hbalance

lemma Conserved.popFront (h : q.Conserved n) (hw : w < n)
    (hpop : (q.locals w).popFront = (item, queue)) : (q.setLocal w queue).InHand n item := by
  obtain ⟨hwf, hitems⟩ := (h.locals w).popFront hpop
  refine ⟨?_, h.global, ?_, h.fifo⟩
  · exact (forall_update_iff q.locals fun _ l => l.WellFormed).mpr ⟨hwf, fun v _ => h.locals v⟩
  · simp only [setLocal]
    rw [h.balance, localItems_pop hw hitems]
    abel

lemma Conserved.popGlobalRing (h : q.Conserved n)
    (hpop : q.popGlobalRing = (item, q')) : q'.InHand n item := by
  unfold ReadyQueue.popGlobalRing at hpop
  cases hglobal : pop q.global with
  | mk popped global =>
    rw [hglobal] at hpop
    cases hpop
    obtain ⟨rest, hholds, hitems⟩ := holds_pop h.global hglobal
    have hrest := hholds.items_eq
    refine ⟨h.locals, hrest.symm ▸ hholds, ?_, ?_⟩
    · simp only [hrest]
      rw [h.balance, hitems, ← Multiset.coe_add]
      abel
    · simp only [hrest]
      rw [h.fifo, hitems, List.append_assoc]

lemma InHand.storeGlobalCount (h : q.InHand n item) : q.storeGlobalCount.InHand n item :=
  ⟨h.locals, h.global, h.balance, h.fifo⟩

section
variable (h : q.Conserved n)
include h

lemma Conserved.popGlobal (w : ℕ) : (q.popGlobal w).Conserved n := by
  unfold ReadyQueue.popGlobal
  cases hpop : q.popGlobalRing with
  | mk item q' =>
    have hhand := h.popGlobalRing hpop
    dsimp only
    split_ifs
    · exact hhand.storeGlobalCount.deliver w _
    · exact hhand.deliver w _

lemma Conserved.stealHalf (hw : w < n) (i : ℕ) : (q.stealHalf n w i).Conserved n := by
  have hn : 0 < n := Nat.zero_lt_of_lt hw
  unfold ReadyQueue.stealHalf
  dsimp only
  split_ifs with hself
  · exact h.setWorker w _
  · have hvictim : (w + i) % n < n := Nat.mod_lt _ hn
    cases hsteal : (q.locals ((w + i) % n)).stealHalf (q.locals w) with
    | mk item queues =>
      obtain ⟨source, dest⟩ := queues
      have hsplit := (h.locals _).stealHalf (h.locals w) hsteal
      have hhand : ((q.setLocal ((w + i) % n) source).setLocal w dest).InHand n item := by
        refine ⟨?_, h.global, ?_, h.fifo⟩
        · refine (forall_update_iff _ fun _ l => LocalQueue.WellFormed l).mpr
            ⟨hsplit.dest, fun v _ => ?_⟩
          exact (forall_update_iff q.locals fun _ l => l.WellFormed).mpr
            ⟨hsplit.source, fun v _ => h.locals v⟩ v
        · -- The victim loses what is returned and what is moved, the thief gains what is moved.
          have hvictimItems : (q.locals ((w + i) % n)).items =
              (item.toList ++ moved (q.locals ((w + i) % n)) (q.locals w)) ++
                source.items := by
            rw [List.append_assoc]
            exact hsplit.victim
          have hloses := localItems_pop hvictim hvictimItems
          have hthief : dest.items =
              (update q.locals ((w + i) % n) source w).items ++
                moved (q.locals ((w + i) % n)) (q.locals w) := by
            rw [update_of_ne (Ne.symm hself)]
            exact hsplit.thief
          have hgains := localItems_push hw hthief
          simp only [setLocal, hgains]
          rw [h.balance, hloses, ← Multiset.coe_add]
          abel
      exact hhand.deliver w _

lemma Conserved.parkAndTake (w : ℕ) : (q.parkAndTake w).Conserved n := by
  unfold ReadyQueue.parkAndTake
  split_ifs
  · exact h.setWorker w _
  · cases hpop : q.popGlobalRing with
    | mk item q' => exact (h.popGlobalRing hpop).storeGlobalCount.deliver w _
  · exact h.congr rfl rfl rfl rfl rfl rfl

lemma conserved_workerStep (hw : w < n)
    {phase : WorkerPhase α} {e : QueueEvent α} (hstep : q.workerStep n w phase e = some q') :
    q'.Conserved n := by
  unfold workerStep at hstep
  split at hstep
  · cases hstep
    exact h.pushLocal hw _
  · cases hstep
    exact (h.push _).setWorker w _
  · cases hstep
    exact h.setWorker w _
  · cases hstep
    exact h.setWorker w _
  · cases hpop : (q.locals w).popFront with
    | mk item queue =>
      rw [hpop] at hstep
      cases hstep
      exact (h.popFront hw hpop).deliver w _
  · cases hstep
    exact h.setWorker w _
  · cases hstep
    exact h.popGlobal w
  · cases hstep
    exact h.setWorker w _
  · cases hstep
    exact h.stealHalf hw _
  · cases hstep
    exact h.parkAndTake w
  · cases hstep
    refine Conserved.parkAndTake ?_ w
    exact h.congr rfl rfl rfl rfl rfl rfl
  · cases hstep

lemma conserved_step {e : QueueEvent α} (hstep : q.step n e = some q') : q'.Conserved n := by
  unfold step at hstep
  split at hstep
  · split_ifs at hstep with hw
    exact conserved_workerStep h hw hstep
  · split at hstep <;> cases hstep
    · exact h.push _
    · exact h.congr rfl rfl rfl rfl rfl rfl

end

lemma conserved_start : (newReadyQueue : ReadyQueue α).Conserved n := by
  have hglobal : (RingBuffer.empty globalQueueInitialCap : RingBuffer α).Holds [] :=
    RingBuffer.holds_empty (by decide)
  have hitems := hglobal.items_eq
  refine ⟨fun _ => wellFormed_new.1, hitems.symm ▸ hglobal, ?_, ?_⟩
  · simp [newReadyQueue, localItems, wellFormed_new.2, hitems]
  · simp [newReadyQueue, hitems]

/-! ## What was handed in -/

end ReadyQueue

/-- The item that is handed to the queue. -/
def QueueEvent.item {α : Type*} : QueueEvent α → Option α
  | .push s => some s
  | .pushLocal _ s => some s
  | _ => none

/-- The item that is handed to the global ring. -/
def QueueEvent.globalItem {α : Type*} : QueueEvent α → Option α
  | .push s => some s
  | _ => none

/-- The item that a worker has on its way to the global ring. -/
def WorkerPhase.hand {α : Type*} : WorkerPhase α → Multiset α
  | .spilling s => {s}
  | _ => 0

namespace ReadyQueue
variable {α : Type*} {n w : ℕ} {q q' : ReadyQueue α} {events : List (QueueEvent α)}
  {e : QueueEvent α} {phase : WorkerPhase α}

def hands (n : ℕ) (workers : ℕ → WorkerPhase α) : Multiset α :=
  ∑ w ∈ Finset.range n, (workers w).hand

lemma filterMap_concat_none {f : QueueEvent α → Option α} (hf : f e = none) :
    (events ++ [e]).filterMap f = events.filterMap f := by
  rw [List.filterMap_append, List.filterMap_cons_none hf, List.filterMap_nil, List.append_nil]

lemma filterMap_concat_some {f : QueueEvent α → Option α} {s : α} (hf : f e = some s) :
    (events ++ [e]).filterMap f = events.filterMap f ++ [s] := by
  rw [List.filterMap_append, List.filterMap_cons_some hf, List.filterMap_nil]

lemma hands_update (hw : w < n) (workers : ℕ → WorkerPhase α) (phase : WorkerPhase α) :
    hands n (update workers w phase) + (workers w).hand = hands n workers + phase.hand := by
  have hmem := Finset.mem_range.mpr hw
  have hothers : ∀ v ∈ (Finset.range n).erase w, (update workers w phase v).hand =
      (workers v).hand := fun v hv => by rw [update_of_ne (Finset.ne_of_mem_erase hv)]
  rw [hands, hands, ← Finset.sum_erase_add _ _ hmem, ← Finset.sum_erase_add _ _ hmem,
    Finset.sum_congr rfl hothers, update_self]
  abel

/-- The condition variable has the workers that wait, each once. -/
structure Parked (q : ReadyQueue α) : Prop where
  nodup : q.waiters.Nodup
  waiting : ∀ w ∈ q.waiters, q.workers w = .waiting

/-- A worker that is woken has nothing in its hands. -/
lemma Parked.signal (h : q.Parked) : q.signal.Parked ∧ q.signal.pushed = q.pushed ∧
    q.signal.globalIn = q.globalIn ∧
    ∀ v, (q.signal.workers v).hand = (q.workers v).hand ∧
      (q.workers v ≠ .waiting → q.signal.workers v = q.workers v) := by
  unfold ReadyQueue.signal
  split
  · exact ⟨h, rfl, rfl, fun _ => ⟨rfl, fun _ => rfl⟩⟩
  · next w waiters hwaiters =>
    obtain ⟨hnodup, hwaiting⟩ := h
    rw [hwaiters] at hnodup hwaiting
    obtain ⟨hnot, hnodup⟩ := List.nodup_cons.mp hnodup
    have hw := hwaiting w List.mem_cons_self
    refine ⟨⟨hnodup, fun v hv => ?_⟩, rfl, rfl, fun v => ?_⟩
    · exact (update_of_ne (ne_of_mem_of_not_mem hv hnot) _ _).trans
        (hwaiting v (List.mem_cons_of_mem _ hv))
    · simp only [setWorker, update_apply]
      split_ifs with hvw
      · subst hvw
        exact ⟨by rw [hw]; rfl, fun hne => absurd hw hne⟩
      · exact ⟨rfl, fun _ => rfl⟩

lemma Parked.push (h : q.Parked) (s : α) : (q.push s).Parked ∧ (q.push s).pushed = q.pushed ++ [s] ∧
    (q.push s).globalIn = q.globalIn ++ [s] ∧
    ∀ v, ((q.push s).workers v).hand = (q.workers v).hand ∧
      (q.workers v ≠ .waiting → (q.push s).workers v = q.workers v) := by
  unfold ReadyQueue.push
  dsimp only
  split_ifs
  · exact Parked.signal ⟨h.nodup, h.waiting⟩
  · exact ⟨⟨h.nodup, h.waiting⟩, rfl, rfl, fun _ => ⟨rfl, fun _ => rfl⟩⟩

lemma Parked.setWorker (h : q.Parked) {w : ℕ} (hw : q.workers w ≠ .waiting)
    (phase : WorkerPhase α) : (q.setWorker w phase).Parked := by
  refine ⟨h.nodup, fun v hv => (update_of_ne ?_ _ _).trans (h.waiting v hv)⟩
  rintro rfl
  exact hw (h.waiting v hv)

/-- Every item that was handed in is counted as pushed or in the hand of a worker, and those for the
global ring come in the order of the calls. -/
structure Accounted (n : ℕ) (events : List (QueueEvent α)) (q : ReadyQueue α) : Prop where
  parked : q.Parked
  items : (events.filterMap QueueEvent.item : Multiset α) = q.pushed + hands n q.workers
  order : (events.filterMap QueueEvent.globalItem).Sublist q.globalIn

/-- A step of a worker with empty hands that hands nothing in. -/
structure Moves (w : ℕ) (q q' : ReadyQueue α) : Prop where
  pushed : q'.pushed = q.pushed
  globalIn : q'.globalIn = q.globalIn
  moved : ∃ phase, q'.workers = update q.workers w phase ∧ phase.hand = 0 ∧
    (q'.waiters = q.waiters ∨ q'.waiters = q.waiters ++ [w] ∧ phase = .waiting)

lemma moves_setWorker (hhand : phase.hand = 0) : Moves w q (q.setWorker w phase) :=
  ⟨rfl, rfl, phase, rfl, hhand, .inl rfl⟩

lemma moves_deliver (item : Option α) (hhand : phase.hand = 0) :
    Moves w q (q.deliver w item phase) := by
  cases item with
  | none => exact moves_setWorker hhand
  | some s => exact ⟨rfl, rfl, .running, rfl, rfl, .inl rfl⟩

/-- The rings do not matter. -/
lemma Moves.congr {q₁ : ReadyQueue α} (h : Moves w q₁ q') (hpushed : q₁.pushed = q.pushed)
    (hglobalIn : q₁.globalIn = q.globalIn) (hworkers : q₁.workers = q.workers)
    (hwaiters : q₁.waiters = q.waiters) : Moves w q q' := by
  obtain ⟨hpushed', hglobalIn', hmoved⟩ := h
  rw [hworkers, hwaiters] at hmoved
  exact ⟨hpushed'.trans hpushed, hglobalIn'.trans hglobalIn, hmoved⟩

lemma moves_parkAndTake : Moves w q (q.parkAndTake w) := by
  unfold parkAndTake
  split_ifs
  · exact moves_setWorker rfl
  · exact (moves_deliver _ rfl).congr rfl rfl rfl rfl
  · exact ⟨rfl, rfl, .waiting, rfl, rfl, .inr ⟨rfl, rfl⟩⟩

lemma moves_stealHalf (i : ℕ) : Moves w q (q.stealHalf n w i) := by
  unfold stealHalf
  dsimp only
  split_ifs
  · exact moves_setWorker rfl
  · exact (moves_deliver _ rfl).congr rfl rfl rfl rfl

lemma moves_popGlobal : Moves w q (q.popGlobal w) := by
  unfold popGlobal
  dsimp only
  split_ifs
  all_goals exact (moves_deliver _ rfl).congr rfl rfl rfl rfl

namespace Accounted
variable (h : Accounted n events q)
include h

lemma move (hw : w < n) (hhand : (q.workers w).hand = 0) (hawake : q.workers w ≠ .waiting)
    (hmoves : Moves w q q') (hitem : e.item = none) (hglobal : e.globalItem = none) :
    Accounted n (events ++ [e]) q' := by
  obtain ⟨hpushed, hglobalIn, phase, hworkers, hphase, hwaiters⟩ := hmoves
  have hnot : w ∉ q.waiters := fun hmem => hawake (h.parked.waiting w hmem)
  have hothers : ∀ v ∈ q.waiters, update q.workers w phase v = .waiting := fun v hv => by
    rw [update_of_ne (ne_of_mem_of_not_mem hv hnot), h.parked.waiting v hv]
  have hhands := hands_update hw q.workers phase
  rw [hhand, hphase, add_zero, add_zero] at hhands
  have hparked : q'.Parked := by
    rcases hwaiters with heq | ⟨heq, rfl⟩
    · exact ⟨heq ▸ h.parked.nodup, by rw [heq, hworkers]; exact hothers⟩
    · refine ⟨heq ▸ List.nodup_append.mpr ⟨h.parked.nodup, List.nodup_singleton w, ?_⟩, ?_⟩
      · rintro v hv _ hw' rfl
        exact hnot (List.mem_singleton.mp hw' ▸ hv)
      rw [heq, hworkers, List.forall_mem_append, List.forall_mem_singleton]
      exact ⟨hothers, update_self ..⟩
  refine ⟨hparked, ?_, ?_⟩
  · rw [hpushed, hworkers, hhands, ← h.items, filterMap_concat_none hitem]
  · rw [hglobalIn, filterMap_concat_none hglobal]
    exact h.order

/-- An item goes to the global ring, from outside or from the hand of a worker. -/
lemma hands_push (s : α) : hands n (q.push s).workers = hands n q.workers :=
  Finset.sum_congr rfl fun v _ => ((h.parked.push s).2.2.2 v).1

lemma pushed (s : α) : Accounted n (events ++ [.push s]) (q.push s) := by
  obtain ⟨hparked, hpushed, hglobalIn, -⟩ := h.parked.push s
  refine ⟨hparked, ?_, ?_⟩
  · rw [hpushed, h.hands_push, ← Multiset.coe_add, add_right_comm, ← h.items,
      filterMap_concat_some rfl]
    rfl
  · rw [hglobalIn, filterMap_concat_some rfl]
    exact h.order.append_right [s]

lemma spilled (hw : w < n) {s : α} (hphase : q.workers w = .spilling s) :
    Accounted n (events ++ [.spill w]) ((q.push s).setWorker w .running) := by
  obtain ⟨hparked, hpushed, hglobalIn, hworkers⟩ := h.parked.push s
  have hsame : (q.push s).workers w = .spilling s :=
    ((hworkers w).2 (by rw [hphase]; exact nofun)).trans hphase
  have hhands := hands_update hw (q.push s).workers .running
  rw [hsame, h.hands_push] at hhands
  refine ⟨hparked.setWorker (by rw [hsame]; exact nofun) _, ?_, ?_⟩
  · have hmoved : hands n q.workers = hands n (update (q.push s).workers w .running) + {s} :=
      (hhands.trans (add_zero _)).symm
    simp only [setWorker, hpushed, ← Multiset.coe_add]
    rw [filterMap_concat_none rfl, h.items, hmoved,
      Multiset.coe_singleton, add_comm (hands n _), add_assoc]
  · simp only [setWorker, hglobalIn]
    rw [filterMap_concat_none rfl]
    exact h.order.trans (List.sublist_append_left _ _)

lemma pushLocal (hw : w < n) (hphase : q.workers w = .running) (s : α) :
    Accounted n (events ++ [.pushLocal w s]) (q.pushLocal w s) := by
  unfold ReadyQueue.pushLocal
  split
  · refine ⟨⟨h.parked.nodup, h.parked.waiting⟩, ?_, ?_⟩
    · simp only [setLocal, ← Multiset.coe_add]
      rw [add_right_comm, ← h.items, filterMap_concat_some rfl]
      rfl
    · rw [filterMap_concat_none rfl]
      exact h.order
  · refine ⟨h.parked.setWorker (by rw [hphase]; exact nofun) _, ?_, ?_⟩
    · have hhands := hands_update hw q.workers (.spilling s)
      rw [hphase] at hhands
      simp only [setWorker]
      rw [show hands n (update q.workers w (.spilling s)) = _ from (add_zero _).symm.trans hhands,
        ← add_assoc, ← h.items, filterMap_concat_some rfl]
      rfl
    · rw [filterMap_concat_none rfl]
      exact h.order

lemma closed : Accounted n (events ++ [.close]) { q with closed := true }.broadcast := by
  refine ⟨⟨List.nodup_nil, nofun⟩, ?_, ?_⟩
  · have hhands : hands n (fun w => if w ∈ q.waiters then .woken else q.workers w) =
        hands n q.workers := by
      refine Finset.sum_congr rfl fun w _ => ?_
      dsimp only
      split_ifs with hmem
      · rw [h.parked.waiting w hmem]
        rfl
      · rfl
    simp only [broadcast]
    rw [hhands, ← h.items, filterMap_concat_none rfl]
  · rw [filterMap_concat_none rfl]
    exact h.order

lemma workerStep (hw : w < n) (hworker : e.worker = some w)
    (hstep : q.workerStep n w (q.workers w) e = some q') : Accounted n (events ++ [e]) q' := by
  generalize hphase : q.workers w = phase at hstep
  unfold ReadyQueue.workerStep at hstep
  split at hstep <;> cases hstep <;> cases hworker
  · exact h.pushLocal hw hphase _
  · exact h.spilled hw hphase
  all_goals
    refine h.move hw (by rw [hphase]; rfl) (by rw [hphase]; exact nofun) ?_ rfl rfl
  · exact moves_setWorker rfl
  · exact moves_setWorker (by split_ifs <;> rfl)
  · exact (moves_deliver _ rfl).congr rfl rfl rfl rfl
  · exact moves_setWorker (by split_ifs <;> rfl)
  · exact moves_popGlobal
  · exact moves_setWorker (by split_ifs <;> rfl)
  · exact moves_stealHalf _
  · exact moves_parkAndTake
  · exact moves_parkAndTake.congr rfl rfl rfl rfl

lemma step (hstep : q.step n e = some q') : Accounted n (events ++ [e]) q' := by
  unfold ReadyQueue.step at hstep
  split at hstep
  · next w hworker =>
    split_ifs at hstep with hw
    exact h.workerStep hw hworker hstep
  · split at hstep <;> cases hstep
    · exact h.pushed _
    · exact h.closed

end Accounted

/-- In every interleaving, the items that were handed in have been pushed or are on their way to the
global ring, and the rings hold exactly the items that were pushed and not yet taken. All indices
are consistent and all other slots nil, the global ring is first in, first out, and stealing keeps
the order of what is stolen and of what stays. -/
theorem ready_queue_conserves (n : ℕ) (events : List (QueueEvent α)) (q : ReadyQueue α)
    (hrun : (system α n).run events = some q) :
    (events.filterMap QueueEvent.item : Multiset α) = q.pushed + hands n q.workers ∧
      (events.filterMap QueueEvent.globalItem).Sublist q.globalIn ∧ q.Conserved n ∧
      ∀ v w item source dest,
        (q.locals v).stealHalf (q.locals w) = (item, source, dest) →
          LocalQueue.Splits (q.locals v) (q.locals w) source dest item := by
  have h : q.Conserved n := by
    refine System.run_invariant conserved_start (fun q e q' h hstep => ?_) hrun
    exact conserved_step h hstep
  have haccounted : Accounted n events q := by
    refine System.run_induction (P := Accounted n) ?_ ?_ hrun
    · exact ⟨⟨List.nodup_nil, nofun⟩, by simp [system, newReadyQueue, hands, WorkerPhase.hand],
        List.nil_sublist _⟩
    · exact fun _ _ _ _ _ h hstep => h.step hstep
  exact ⟨haccounted.items, haccounted.order, h,
    fun v w item source dest hsteal => (h.locals v).stealHalf (h.locals w) hsteal⟩

/-- Of one item from outside and two of the first worker, the second worker takes the one from
outside and steals one, and the first one takes the other. -/
def oneTheft : List (QueueEvent ℕ) :=
  [.push 5, .pushLocal 0 7, .pushLocal 0 8, .take 1, .probeLocal 1, .probeGlobal 1, .popGlobal 1,
    .take 1, .probeLocal 1, .probeGlobal 1, .probeVictim 1, .stealHalf 1, .take 0, .probeLocal 0,
    .popFront 0]

set_option maxRecDepth 4096 in
theorem ready_queue_conserves_oneTheft :
    ∃ q, (system ℕ 2).run oneTheft = some q ∧ q.taken = [5, 7, 8] ∧ q.Conserved 2 :=
  ⟨_, rfl, rfl, (ready_queue_conserves 2 oneTheft _ rfl).2.2.1⟩

end ReadyQueue
end GoAkt.Actor
