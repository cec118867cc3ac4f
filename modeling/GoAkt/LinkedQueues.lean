import GoAkt.Interleavings

/-!
# Linked queues whose nodes are recycled

Any number of queues share nodes and a pool. A queue is a list linked from a sentinel: a
producer swaps the tail for its node and links the node behind its predecessor in a second
step, so that the list may have gaps. A consumer moves the head to the next node, which
becomes the sentinel, and gives the old sentinel back to the pool. Every operation below
is one access to the memory.

Beside the memory the state keeps, for each queue, its nodes in the order of the swaps,
what was enqueued and returned, and the node that was returned last. No operation depends
on them.
-/
namespace GoAkt.LinkedQueues
open Function

/-- A queue is created with its sentinel; the other nodes are numbered as they are
allocated. -/
inductive Node (κ : Type*) where
  | sentinel (q : κ)
  | allocated (n : ℕ)
  deriving DecidableEq, Repr

/-- How far a producer is with a node and the value it enqueues. -/
inductive Producer (κ μ : Type*) where
  | idle
  | acquired (v : Node κ)
  | written (v : Node κ) (m : μ)
  | cleared (v : Node κ) (m : μ)
  /-- The tail was swapped; the predecessor is not linked yet. -/
  | swapped (q : κ) (pred v : Node κ)
  deriving DecidableEq, Repr

/-- How far the consumer of a queue is. The old sentinel is cleaned in two steps, in either
order. -/
inductive Consumer (κ : Type*) where
  | idle
  | loaded (head : Node κ)
  | found (head next : Node κ)
  | retiring (old next : Node κ) (valueErased nextErased : Bool)
  deriving DecidableEq, Repr

structure Memory (κ π μ : Type*) where
  next : Node κ → Option (Node κ)
  value : Node κ → Option μ
  head : κ → Node κ
  tail : κ → Node κ
  pool : List (Node κ)
  allocated : ℕ
  producers : π → Producer κ μ
  consumers : κ → Consumer κ
  chain : κ → List (Node κ)
  enqueued : κ → List μ
  returned : κ → List (Option μ)
  last : κ → Option (Node κ)

namespace Memory
variable {κ π μ : Type*}

/-- Empty queues, and a pool of `n` nodes. -/
def empty (n : ℕ) : Memory κ π μ where
  next _ := none
  value _ := none
  head := .sentinel
  tail := .sentinel
  pool := (List.range n).map .allocated
  allocated := n
  producers _ := .idle
  consumers _ := .idle
  chain q := [.sentinel q]
  enqueued _ := []
  returned _ := []
  last _ := none

section Stores
variable [DecidableEq κ] [DecidableEq π] (s : Memory κ π μ) (v : Node κ)

def setProducer (p : π) (phase : Producer κ μ) : Memory κ π μ :=
  { s with producers := update s.producers p phase }

def setConsumer (q : κ) (phase : Consumer κ) : Memory κ π μ :=
  { s with consumers := update s.consumers q phase }

def setNext (w : Option (Node κ)) : Memory κ π μ :=
  { s with next := update s.next v w }

def setValue (m : Option μ) : Memory κ π μ :=
  { s with value := update s.value v m }

def setPool (pool : List (Node κ)) : Memory κ π μ :=
  { s with pool }

/-- The node becomes the last one of the queue. -/
def append (q : κ) (v : Node κ) (m : μ) : Memory κ π μ :=
  { s with
    tail := update s.tail q v
    chain := update s.chain q (s.chain q ++ [v])
    enqueued := update s.enqueued q (s.enqueued q ++ [m]) }

/-- The next node becomes the sentinel of the queue. -/
def advance (q : κ) (next : Node κ) : Memory κ π μ :=
  { s with
    head := update s.head q next
    chain := update s.chain q (s.chain q).tail }

def recordReturn (q : κ) (v : Node κ) : Memory κ π μ :=
  { s with
    returned := update s.returned q (s.returned q ++ [s.value v])
    last := update s.last q (some v) }

end Stores

section Reads
variable (s : Memory κ π μ)

section Producers
variable [DecidableEq π]

@[simp] lemma setProducer_self (p : π) (phase : Producer κ μ) :
    (s.setProducer p phase).producers p = phase :=
  update_self ..

lemma setProducer_of_ne {p p' : π} (h : p' ≠ p) (phase : Producer κ μ) :
    (s.setProducer p phase).producers p' = s.producers p' :=
  update_of_ne h ..

variable {s} in
lemma producer_cases {p p' : π} {phase phase' : Producer κ μ}
    (h : (s.setProducer p phase).producers p' = phase') :
    p' = p ∧ phase = phase' ∨ p' ≠ p ∧ s.producers p' = phase' := by
  by_cases hp : p' = p
  · subst hp
    rw [setProducer_self] at h
    exact .inl ⟨rfl, h⟩
  · rw [s.setProducer_of_ne hp] at h
    exact .inr ⟨hp, h⟩

end Producers

variable [DecidableEq κ]

@[simp] lemma setConsumer_self (q : κ) (phase : Consumer κ) :
    (s.setConsumer q phase).consumers q = phase :=
  update_self ..

variable {q q' : κ}

lemma setConsumer_of_ne (h : q' ≠ q) (phase : Consumer κ) :
    (s.setConsumer q phase).consumers q' = s.consumers q' :=
  update_of_ne h ..

variable {s} in
lemma consumer_cases {phase phase' : Consumer κ}
    (h : (s.setConsumer q phase).consumers q' = phase') :
    q' = q ∧ phase = phase' ∨ q' ≠ q ∧ s.consumers q' = phase' := by
  by_cases hq : q' = q
  · subst hq
    rw [setConsumer_self] at h
    exact .inl ⟨rfl, h⟩
  · rw [s.setConsumer_of_ne hq] at h
    exact .inr ⟨hq, h⟩

@[simp] lemma setNext_self (v : Node κ) (w : Option (Node κ)) : (s.setNext v w).next v = w :=
  update_self ..

lemma setNext_of_ne {v v' : Node κ} (h : v' ≠ v) (w : Option (Node κ)) :
    (s.setNext v w).next v' = s.next v' :=
  update_of_ne h ..

@[simp] lemma setValue_self (v : Node κ) (m : Option μ) : (s.setValue v m).value v = m :=
  update_self ..

@[simp] lemma append_chain_self (q : κ) (v : Node κ) (m : μ) :
    (s.append q v m).chain q = s.chain q ++ [v] :=
  update_self ..

lemma append_chain_of_ne (h : q' ≠ q) (v : Node κ) (m : μ) :
    (s.append q v m).chain q' = s.chain q' :=
  update_of_ne h ..

@[simp] lemma append_tail_self (q : κ) (v : Node κ) (m : μ) : (s.append q v m).tail q = v :=
  update_self ..

@[simp] lemma advance_chain_self (q : κ) (n : Node κ) :
    (s.advance q n).chain q = (s.chain q).tail :=
  update_self ..

lemma advance_chain_of_ne (h : q' ≠ q) (n : Node κ) : (s.advance q n).chain q' = s.chain q' :=
  update_of_ne h ..

@[simp] lemma advance_head_self (q : κ) (n : Node κ) : (s.advance q n).head q = n := update_self ..

lemma advance_head_of_ne (h : q' ≠ q) (n : Node κ) : (s.advance q n).head q' = s.head q' :=
  update_of_ne h ..

end Reads

variable [DecidableEq κ] [DecidableEq π]

/-- Take the node at a place of the pool, or allocate one. -/
def acquire (s : Memory κ π μ) (p : π) (place : Option ℕ) : Option (Memory κ π μ) :=
  match s.producers p, place with
  | .idle, none => some
      ({ s with allocated := s.allocated + 1 }.setProducer p (.acquired (.allocated s.allocated)))
  | .idle, some i =>
    (s.pool[i]?).map fun v => (s.setPool (s.pool.eraseIdx i)).setProducer p (.acquired v)
  | _, _ => none

def write (s : Memory κ π μ) (p : π) (m : μ) : Option (Memory κ π μ) :=
  match s.producers p with
  | .acquired v => some ((s.setValue v (some m)).setProducer p (.written v m))
  | _ => none

def clear (s : Memory κ π μ) (p : π) : Option (Memory κ π μ) :=
  match s.producers p with
  | .written v m => some ((s.setNext v none).setProducer p (.cleared v m))
  | _ => none

def swap (s : Memory κ π μ) (p : π) (q : κ) : Option (Memory κ π μ) :=
  match s.producers p with
  | .cleared v m => some ((s.append q v m).setProducer p (.swapped q (s.tail q) v))
  | _ => none

def link (s : Memory κ π μ) (p : π) : Option (Memory κ π μ) :=
  match s.producers p with
  | .swapped _ pred v => some ((s.setNext pred (some v)).setProducer p .idle)
  | _ => none

def loadHead (s : Memory κ π μ) (q : κ) : Option (Memory κ π μ) :=
  match s.consumers q with
  | .idle => some (s.setConsumer q (.loaded (s.head q)))
  | _ => none

/-- Without a next node the consumer gives up. -/
def loadNext (s : Memory κ π μ) (q : κ) : Option (Memory κ π μ) :=
  match s.consumers q with
  | .loaded head => some (s.setConsumer q ((s.next head).elim .idle (.found head)))
  | _ => none

def storeHead (s : Memory κ π μ) (q : κ) : Option (Memory κ π μ) :=
  match s.consumers q with
  | .found head next => some ((s.advance q next).setConsumer q (.retiring head next false false))
  | _ => none

def eraseValue (s : Memory κ π μ) (q : κ) : Option (Memory κ π μ) :=
  match s.consumers q with
  | .retiring old next _ nextErased =>
    some ((s.setValue old none).setConsumer q (.retiring old next true nextErased))
  | _ => none

def eraseNext (s : Memory κ π μ) (q : κ) : Option (Memory κ π μ) :=
  match s.consumers q with
  | .retiring old next valueErased _ =>
    some ((s.setNext old none).setConsumer q (.retiring old next valueErased true))
  | _ => none

/-- The old sentinel goes into the pool or is dropped, and the consumer returns the value
of the new one. -/
def release (s : Memory κ π μ) (q : κ) (keep : Bool) : Option (Memory κ π μ) :=
  match s.consumers q with
  | .retiring old next true true =>
    some (((s.setPool (if keep then s.pool ++ [old] else s.pool)).recordReturn q
      next).setConsumer q .idle)
  | _ => none

/-- The values that were enqueued and not returned. -/
def waiting (s : Memory κ π μ) (q : κ) : List μ := (s.enqueued q).drop (s.returned q).length

/-- All nodes that are linked behind a node. -/
def Behind (s : Memory κ π μ) (v : Node κ) : List (Node κ) → Prop
  | [] => s.next v = none
  | w :: l => s.next v = some w ∧ s.Behind w l

/-! ## What an operation does -/

section Inversion
variable {s s' : Memory κ π μ} {p : π} {q : κ}

omit [DecidableEq κ] in
lemma acquire_inv {place : Option ℕ} (hop : s.acquire p place = some s') :
    s.producers p = .idle ∧
      (s' = { s with allocated := s.allocated + 1 }.setProducer p
          (.acquired (.allocated s.allocated)) ∨
        ∃ i v, s.pool[i]? = some v ∧
          s' = (s.setPool (s.pool.eraseIdx i)).setProducer p (.acquired v)) := by
  unfold acquire at hop
  split at hop
  next hp =>
    cases hop
    exact ⟨hp, .inl rfl⟩
  next i hp =>
    obtain ⟨v, hv, rfl⟩ := Option.map_eq_some_iff.mp hop
    exact ⟨hp, .inr ⟨i, v, hv, rfl⟩⟩
  · cases hop

lemma write_inv {m : μ} (hop : s.write p m = some s') :
    ∃ v, s.producers p = .acquired v ∧
      s' = (s.setValue v (some m)).setProducer p (.written v m) := by
  unfold write at hop
  split at hop
  next v hp =>
    cases hop
    exact ⟨v, hp, rfl⟩
  · cases hop

lemma clear_inv (hop : s.clear p = some s') :
    ∃ v m, s.producers p = .written v m ∧ s' = (s.setNext v none).setProducer p (.cleared v m) := by
  unfold clear at hop
  split at hop
  next v m hp =>
    cases hop
    exact ⟨v, m, hp, rfl⟩
  · cases hop

lemma swap_inv (hop : s.swap p q = some s') :
    ∃ v m, s.producers p = .cleared v m ∧
      s' = (s.append q v m).setProducer p (.swapped q (s.tail q) v) := by
  unfold swap at hop
  split at hop
  next v m hp =>
    cases hop
    exact ⟨v, m, hp, rfl⟩
  · cases hop

lemma link_inv (hop : s.link p = some s') :
    ∃ q pred v, s.producers p = .swapped q pred v ∧
      s' = (s.setNext pred (some v)).setProducer p .idle := by
  unfold link at hop
  split at hop
  next q pred v hp =>
    cases hop
    exact ⟨q, pred, v, hp, rfl⟩
  · cases hop

omit [DecidableEq π]

lemma loadHead_inv (hop : s.loadHead q = some s') :
    s.consumers q = .idle ∧ s' = s.setConsumer q (.loaded (s.head q)) := by
  unfold loadHead at hop
  split at hop
  next hq =>
    cases hop
    exact ⟨hq, rfl⟩
  · cases hop

lemma loadNext_inv (hop : s.loadNext q = some s') :
    ∃ head, s.consumers q = .loaded head ∧
      s' = s.setConsumer q ((s.next head).elim .idle (.found head)) := by
  unfold loadNext at hop
  split at hop
  next head hq =>
    cases hop
    exact ⟨head, hq, rfl⟩
  · cases hop

lemma storeHead_inv (hop : s.storeHead q = some s') :
    ∃ head next, s.consumers q = .found head next ∧
      s' = (s.advance q next).setConsumer q (.retiring head next false false) := by
  unfold storeHead at hop
  split at hop
  next head next hq =>
    cases hop
    exact ⟨head, next, hq, rfl⟩
  · cases hop

lemma eraseValue_inv (hop : s.eraseValue q = some s') :
    ∃ old next a b, s.consumers q = .retiring old next a b ∧
      s' = (s.setValue old none).setConsumer q (.retiring old next true b) := by
  unfold eraseValue at hop
  split at hop
  next old next a b hq =>
    cases hop
    exact ⟨old, next, a, b, hq, rfl⟩
  · cases hop

lemma eraseNext_inv (hop : s.eraseNext q = some s') :
    ∃ old next a b, s.consumers q = .retiring old next a b ∧
      s' = (s.setNext old none).setConsumer q (.retiring old next a true) := by
  unfold eraseNext at hop
  split at hop
  next old next a b hq =>
    cases hop
    exact ⟨old, next, a, b, hq, rfl⟩
  · cases hop

lemma release_inv {keep : Bool} (hop : s.release q keep = some s') :
    ∃ old next, s.consumers q = .retiring old next true true ∧
      s' = ((s.setPool (if keep then s.pool ++ [old] else s.pool)).recordReturn q
        next).setConsumer q .idle := by
  unfold release at hop
  split at hop
  next old next hq =>
    cases hop
    exact ⟨old, next, hq, rfl⟩
  · cases hop

end Inversion
end Memory
end GoAkt.LinkedQueues
