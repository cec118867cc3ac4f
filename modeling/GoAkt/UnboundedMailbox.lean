import GoAkt.LinkedQueueSoundness

/-!
# The default mailbox

Unbounded mailboxes are linked queues whose nodes are the receive contexts themselves, and
all of them share one pool of contexts, a channel of bounded capacity. A producer takes a
context from the pool, fills it and enqueues it. A step is one access to the shared memory
or to the pool.
-/
namespace GoAkt.Actor
open GoAkt.Interleavings GoAkt.LinkedQueues
namespace UnboundedMailbox
variable {κ μ : Type} [DecidableEq κ]

/-- The mailboxes are numbered by `κ`, the producers by `ℕ`. -/
abbrev Contexts (κ μ : Type) := Memory κ ℕ μ

inductive Event (κ μ : Type) where
  | getContext (p : ℕ)
  | build (p : ℕ) (msg : μ)
  /-- `Enqueue` clears the next pointer of the context, swaps the tail and links. -/
  | storeNextNil (p : ℕ)
  | swapTail (p : ℕ) (m : κ)
  | storePrevNext (p : ℕ)
  /-- `Dequeue` moves the head, resets the old sentinel and puts it into the pool. -/
  | loadHead (m : κ)
  | loadNext (m : κ)
  | storeHead (m : κ)
  | reset (m : κ)
  | storeHeadNextNil (m : κ)
  | put (m : κ)

variable (contextPoolSize : ℕ) (s : Contexts κ μ)

/-- The channel gives its first context, and a new one is allocated when it is empty. -/
def getContext (p : ℕ) : Option (Contexts κ μ) := s.acquire p (if s.pool = [] then none else some 0)

/-- A context is reset before its next pointer is cleared. -/
def reset (m : κ) : Option (Contexts κ μ) :=
  match s.consumers m with
  | .retiring _ _ false false => s.eraseValue m
  | _ => none

def storeHeadNextNil (m : κ) : Option (Contexts κ μ) :=
  match s.consumers m with
  | .retiring _ _ true false => s.eraseNext m
  | _ => none

def step : Event κ μ → Option (Contexts κ μ)
  | .getContext p => getContext s p
  | .build p msg => s.write p msg
  | .storeNextNil p => s.clear p
  | .swapTail p m => s.swap p m
  | .storePrevNext p => s.link p
  | .loadHead m => s.loadHead m
  | .loadNext m => s.loadNext m
  | .storeHead m => s.storeHead m
  | .reset m => reset s m
  | .storeHeadNextNil m => storeHeadNextNil s m
  | .put m => s.release m (s.pool.length < contextPoolSize)

/-- The pool is filled at the start. The program has room for 8192 contexts in it. -/
def system : System (Contexts κ μ) (Event κ μ) where
  start := Memory.empty contextPoolSize
  step := step contextPoolSize

lemma sound_step {contextPoolSize : ℕ} {s s' : Contexts κ μ} {e : Event κ μ} (h : s.Sound)
    (hstep : step contextPoolSize s e = some s') : s'.Sound := by
  cases e with
  | getContext p => exact h.acquire hstep
  | build p msg => exact h.write hstep
  | storeNextNil p => exact h.clear hstep
  | swapTail p m => exact h.swap hstep
  | storePrevNext p => exact h.link hstep
  | loadHead m => exact h.loadHead hstep
  | loadNext m => exact h.loadNext hstep
  | storeHead m => exact h.storeHead hstep
  | reset m =>
    simp only [step, reset] at hstep
    split at hstep
    · exact h.eraseValue hstep
    · cases hstep
  | storeHeadNextNil m =>
    simp only [step, storeHeadNextNil] at hstep
    split at hstep
    · exact h.eraseNext hstep
    · cases hstep
  | put m => exact h.release hstep

lemma sound_run {contextPoolSize : ℕ} {events : List (Event κ μ)} {s : Contexts κ μ}
    (hrun : (system contextPoolSize).run events = some s) : s.Sound := by
  refine System.run_invariant ?_ (fun s e s' h hstep => ?_) hrun
  · exact Memory.sound_empty contextPoolSize
  · exact sound_step h hstep

/-- The producer is between the first and the last store of `Enqueue`. -/
def Enqueueing : Producer κ μ → Prop
  | .cleared _ _ => True
  | .swapped _ _ _ => True
  | _ => False

/-- What was enqueued on a mailbox, in the order of the tail swaps, is what it returned and
then what its contexts hold. These are linked in this order from the sentinel to the tail,
up to the links that producers have yet to store. A pooled context is not linked into a
mailbox, not a sentinel or a tail, and not the one last returned. A `Dequeue` that finds no
next context while nobody enqueues has returned everything. -/
structure Delivering (s : Contexts κ μ) : Prop where
  conserved : ∀ m, (s.enqueued m).map some = s.returned m ++ (s.unreturned m).map s.value
  chained : ∀ m, (s.chain m).head? = some (s.head m) ∧ (s.chain m).getLast? = some (s.tail m) ∧
    ∀ u v, [u, v] <:+: s.chain m → s.next u = some v ∨ ∃ p, s.producers p = .swapped m u v
  pooled : ∀ v ∈ s.pool, ∀ m, v ∉ s.chain m ∧ v ≠ s.head m ∧ v ≠ s.tail m ∧
    s.last m ≠ some v ∧ ∀ u, s.next u ≠ some v
  drained : (∀ p, ¬Enqueueing (s.producers p)) → ∀ m head, s.consumers m = .loaded head →
    s.next head = none → s.returned m = (s.enqueued m).map some

theorem mailboxes_deliver (contextPoolSize : ℕ) (events : List (Event κ μ))
    (s : Contexts κ μ) (hrun : (system contextPoolSize).run events = some s) :
    Delivering s := by
  have hsound := sound_run hrun
  refine ⟨hsound.filled.logged, fun m => ?_, fun v hv m => hsound.pool_apart hv m,
    fun hquiet m head hm hnext => ?_⟩
  · exact ⟨hsound.linked.head_eq m, hsound.linked.tail_eq m, fun u v => hsound.linked.joined⟩
  · rw [hsound.linked.loaded hm] at hnext
    refine hsound.returned_eq (fun p a b hp => ?_) ?_ hnext
    · refine hquiet p ?_
      rw [hp]
      trivial
    · rw [hm]
      rfl

/-- A context is dequeued from one mailbox, recycled and enqueued on another, while another
producer has swapped the tail of the first mailbox and not linked yet. -/
def recycledContext : List (Event Bool ℕ) :=
  [.getContext 0, .build 0 7, .storeNextNil 0, .swapTail 0 true, .storePrevNext 0,
    .getContext 1, .build 1 8, .storeNextNil 1, .swapTail 1 true, .loadHead true, .loadNext true,
    .storeHead true, .reset true, .storeHeadNextNil true, .put true, .getContext 2, .build 2 9,
    .storeNextNil 2, .swapTail 2 false, .storePrevNext 2, .storePrevNext 1]

theorem mailboxes_deliver_recycledContext :
    ∃ s, (system 2).run recycledContext = some s ∧
      s.chain false = [.sentinel false, .sentinel true] ∧ s.returned true = [some 7] ∧
      Delivering s :=
  ⟨_, rfl, rfl, rfl, mailboxes_deliver 2 recycledContext _ rfl⟩

end UnboundedMailbox
end GoAkt.Actor
