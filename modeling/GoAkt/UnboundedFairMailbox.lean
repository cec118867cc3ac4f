import GoAkt.UnboundedMailbox
import GoAkt.SenderDraining

/-!
# The fair mailbox

The messages of each sender go to a mailbox of their own, and a linked queue holds the
senders that are active. All mailboxes use the shared pool of receive contexts; the queue
of active senders has a pool of its own, which may give back any of its nodes or none. A
step is one access to the memory by one `Enqueue` call or by the `Dequeue` caller. The
counters are unbounded.

The mailbox runs the protocol of the active senders: a tail swap of a sender's mailbox
stores a message there, a return of its `Dequeue` takes one, and likewise a swap and a
return on the queue of senders push and pop a sender.
-/
namespace GoAkt.Actor
open GoAkt.Interleavings GoAkt.LinkedQueues Function

/-- How far an `Enqueue` call is. -/
inductive EnqueuePhase (κ : Type) where
  | idle
  /-- The map has no mailbox for the sender. -/
  | storing (k : κ)
  | linking (k : κ)
  | counting (k : κ)
  | announcing (k : κ)
  | activating (k : κ)
  | pushing (k : κ)
  deriving DecidableEq, Repr

/-- How far a `Dequeue` call is. -/
inductive DequeuePhase (κ : Type) where
  | idle
  | popping
  /-- The value of the new sentinel was loaded. -/
  | popped (sender : Option κ)
  | draining (k : κ)
  | deactivating (k : κ)
  | discounting (k : κ)
  | settling (k : κ)
  | resetting (k : κ)
  | finishing (k : κ)
  | rechecking (k : κ)
  | reactivating (k : κ)
  | pushing (k : κ)
  deriving DecidableEq, Repr

structure UnboundedFairMailbox (κ μ : Type) where
  /-- The senders that have a mailbox. -/
  senders : κ → Bool
  mailboxes : Memory κ ℕ μ
  active : κ → Bool
  pending : κ → ℤ
  /-- `Enqueue` calls and the caller of `Dequeue` push senders. -/
  activeSenders : Memory Unit (Option ℕ) κ
  length : ℤ
  producers : ℕ → EnqueuePhase κ
  consumer : DequeuePhase κ
  /-- The messages in the order in which they were stored and returned, and the number of
  `Dequeue` calls that are over. -/
  sent : List μ
  delivered : List (Option μ)
  calls : ℕ

inductive FairEvent (μ : Type) where
  | getContext (p : ℕ)
  | build (p : ℕ) (msg : μ)
  /-- The next access of an `Enqueue` call, and what the pool gives if it asks for a node. -/
  | enqueue (p : ℕ) (place : Option ℕ)
  /-- The next access of `Dequeue`, what the pool gives, and whether it keeps a node. -/
  | dequeue (place : Option ℕ) (keep : Bool)

namespace UnboundedFairMailbox
variable {κ μ : Type} (s : UnboundedFairMailbox κ μ) (a : Memory Unit (Option ℕ) κ)

def setProducer (p : ℕ) (phase : EnqueuePhase κ) : UnboundedFairMailbox κ μ :=
  { s with producers := update s.producers p phase }

def setConsumer (phase : DequeuePhase κ) : UnboundedFairMailbox κ μ :=
  { s with consumer := phase }

def setMailboxes (mailboxes : Memory κ ℕ μ) : UnboundedFairMailbox κ μ :=
  { s with mailboxes }

def setActiveSenders : UnboundedFairMailbox κ μ :=
  { s with activeSenders := a }

/-- A message is stored in the mailbox of its sender. -/
def store (mailboxes : Memory κ ℕ μ) (msg : μ) : UnboundedFairMailbox κ μ :=
  { s with mailboxes, sent := s.sent ++ [msg] }

/-- The mailbox of a sender returned a message. -/
def deliver (mailboxes : Memory κ ℕ μ) (msg : Option μ)
    (phase : DequeuePhase κ) : UnboundedFairMailbox κ μ :=
  { s with mailboxes, delivered := s.delivered ++ [msg], consumer := phase }

def finishCall : UnboundedFairMailbox κ μ :=
  { s with consumer := .idle, calls := s.calls + 1 }

/-- The next access of `activeSenders.enqueue`. -/
def push (who : Option ℕ) (k : κ) (place : Option ℕ) : Option (Memory Unit (Option ℕ) κ) :=
  match a.producers who with
  | .idle => a.acquire who place
  | .acquired _ => a.write who k
  | .written _ _ => a.clear who
  | .cleared _ _ => a.swap who ()
  | .swapped _ _ _ => a.link who

/-- The last access of an enqueue is the link. -/
def isLast {κ μ : Type} : Producer κ μ → Bool
  | .swapped _ _ _ => true
  | _ => false

variable [DecidableEq κ] (deriveSenderKey : μ → κ) (contextPoolSize : ℕ)
  (s : UnboundedFairMailbox κ μ)

def setActive (k : κ) (flag : Bool) : UnboundedFairMailbox κ μ :=
  { s with active := update s.active k flag }

def setPending (k : κ) (n : ℤ) : UnboundedFairMailbox κ μ :=
  { s with pending := update s.pending k n }

def enqueue (p : ℕ) (place : Option ℕ) : Option (UnboundedFairMailbox κ μ) :=
  match s.producers p with
  | .idle =>
    match s.mailboxes.producers p with
    | .written _ msg =>
      let k := deriveSenderKey msg
      some (s.setProducer p (if s.senders k then .linking k else .storing k))
    | _ => none
  | .storing k => some ({ s with senders := update s.senders k true }.setProducer p (.linking k))
  | .linking k =>
    match s.mailboxes.producers p with
    | .written _ _ => (s.mailboxes.clear p).map s.setMailboxes
    | .cleared _ msg => (s.mailboxes.swap p k).map fun m => s.store m msg
    | .swapped _ _ _ => (s.mailboxes.link p).map fun m =>
        (s.setMailboxes m).setProducer p (.counting k)
    | _ => none
  | .counting k => some ({ s with length := s.length + 1 }.setProducer p (.announcing k))
  | .announcing k => some ((s.setPending k (s.pending k + 1)).setProducer p
      (if s.pending k + 1 = 1 then .activating k else .idle))
  | .activating k => some (if s.active k then s.setProducer p .idle
      else (s.setActive k true).setProducer p (.pushing k))
  | .pushing k => (push s.activeSenders (some p) k place).map fun a =>
      (s.setActiveSenders a).setProducer p
        (if isLast (s.activeSenders.producers (some p)) then .idle else .pushing k)

/-- `activeSenders.dequeue` up to the load of the value. -/
def pop : Option (UnboundedFairMailbox κ μ) :=
  match s.activeSenders.consumers () with
  | .loaded head => (s.activeSenders.loadNext ()).map fun a =>
      if (s.activeSenders.next head).isNone then (s.setActiveSenders a).finishCall
      else s.setActiveSenders a
  | .found _ _ => (s.activeSenders.storeHead ()).map s.setActiveSenders
  | .retiring _ next _ _ => some (s.setConsumer (.popped (s.activeSenders.value next)))
  | .idle => none

/-- The rest of `activeSenders.dequeue`. -/
def retire (sender : Option κ) (keep : Bool) : Option (UnboundedFairMailbox κ μ) :=
  match s.activeSenders.consumers () with
  | .retiring _ _ _ false => (s.activeSenders.eraseNext ()).map s.setActiveSenders
  | .retiring _ _ false true => (s.activeSenders.eraseValue ()).map s.setActiveSenders
  | .retiring _ _ true true => (s.activeSenders.release () keep).map fun a =>
      sender.elim (s.setActiveSenders a).finishCall
        fun k => (s.setActiveSenders a).setConsumer (.draining k)
  | _ => none

/-- `Dequeue` on the mailbox of a sender. -/
def drain (k : κ) : Option (UnboundedFairMailbox κ μ) :=
  match s.mailboxes.consumers k with
  | .idle => (s.mailboxes.loadHead k).map s.setMailboxes
  | .loaded head => (s.mailboxes.loadNext k).map fun m => (s.setMailboxes m).setConsumer
      (if (s.mailboxes.next head).isNone then .deactivating k else .draining k)
  | .found _ _ => (s.mailboxes.storeHead k).map s.setMailboxes
  | .retiring _ _ false _ => (s.mailboxes.eraseValue k).map s.setMailboxes
  | .retiring _ _ true false => (s.mailboxes.eraseNext k).map s.setMailboxes
  | .retiring _ next true true =>
    (s.mailboxes.release k (s.mailboxes.pool.length < contextPoolSize)).map fun m =>
      s.deliver m (s.mailboxes.value next) (.discounting k)

def dequeue (place : Option ℕ) (keep : Bool) : Option (UnboundedFairMailbox κ μ) :=
  match s.consumer with
  | .idle => (s.activeSenders.loadHead ()).map fun a => (s.setActiveSenders a).setConsumer .popping
  | .popping => s.pop
  | .popped sender => s.retire sender keep
  | .draining k => s.drain contextPoolSize k
  | .deactivating k => some (s.setActive k false).finishCall
  | .discounting k => some ({ s with length := s.length - 1 }.setConsumer (.settling k))
  | .settling k => some ((s.setPending k (s.pending k - 1)).setConsumer
      (if 0 < s.pending k - 1 then .pushing k
        else if s.pending k - 1 < 0 then .resetting k else .finishing k))
  | .resetting k => some ((s.setPending k 0).setConsumer (.finishing k))
  | .finishing k => some ((s.setActive k false).setConsumer (.rechecking k))
  | .rechecking k => some (if 0 < s.pending k then s.setConsumer (.reactivating k)
      else s.finishCall)
  | .reactivating k => some (if s.active k then s.finishCall
      else (s.setActive k true).setConsumer (.pushing k))
  | .pushing k => (push s.activeSenders none k place).map fun a =>
      if isLast (s.activeSenders.producers none) then (s.setActiveSenders a).finishCall
      else s.setActiveSenders a

def step : FairEvent μ → Option (UnboundedFairMailbox κ μ)
  | .getContext p =>
    if s.producers p = .idle then
      (UnboundedMailbox.getContext s.mailboxes p).map s.setMailboxes
    else none
  | .build p msg =>
    if s.producers p = .idle then (s.mailboxes.write p msg).map s.setMailboxes else none
  | .enqueue p place => s.enqueue deriveSenderKey p place
  | .dequeue place keep => s.dequeue contextPoolSize place keep

end UnboundedFairMailbox

/-- A mailbox with any number of producers and one caller of `Dequeue`. -/
def fairSystem {κ μ : Type} [DecidableEq κ] (deriveSenderKey : μ → κ) (contextPoolSize : ℕ) :
    System (UnboundedFairMailbox κ μ) (FairEvent μ) where
  start := ⟨fun _ => false, Memory.empty contextPoolSize, fun _ => false, fun _ => 0,
    Memory.empty 0, 0, fun _ => .idle, .idle, [], [], 0⟩
  step := UnboundedFairMailbox.step deriveSenderKey contextPoolSize

end GoAkt.Actor
