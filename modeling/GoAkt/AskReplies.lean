import GoAkt.Interleavings
import GoAkt.Pools

/-!
# Asks and their replies

An Ask puts its message into a `ReceiveContext` from a pool, together with a reply channel
from another pool, and waits at the channel. The handler of the message answers through the
context: a compare-and-swap on its closed flag, then a send that does not block. The Ask marks
the context closed when it has a reply or gives up, drains the channel and returns it to its
pool. The context is recycled by the mailbox, when the next message is dequeued. A message that
is stashed, or returned from the stash, moves to another context from the pool.

Any number of Asks, Tells and actors run at the same time, and a step is one atomic operation
on what they share. Between the operations that are put together in one step, only the closed
flag of a context can change, and it is not read. A pool hands out any of its objects, or a new
one. The mailboxes are the default (unbounded) ones; the context that a mailbox was made with
is not followed.

A reply is a value together with the Ask whose message was handled when it was sent, and `log`
is what was passed to `Response` for each Ask; both are bookkeeping.
-/
namespace GoAkt.Actor
open GoAkt.Interleavings GoAkt.Pools Function Option

/-- What a context carries: nothing after a reset, a message of a Tell, or that of an Ask. -/
inductive Carried (α : Type*)
  | nothing
  | tell
  | ask (a : α)
deriving DecidableEq

structure AskContext (α κ : Type*) where
  message : Carried α
  response : Option κ
  responseClosed : Bool

namespace AskContext
variable {α κ : Type*}

def new : AskContext α κ := ⟨.nothing, none, false⟩

def build (a : α) (k : κ) : AskContext α κ := ⟨.ask a, some k, false⟩

def buildAsync (c : AskContext α κ) : AskContext α κ := { c with message := .tell }

/-- The closed flag is not reset. -/
def reset (c : AskContext α κ) : AskContext α κ := { c with message := .nothing, response := none }

/-- The closed flag is not copied. -/
def cloneContext (dst src : AskContext α κ) : AskContext α κ :=
  { dst with message := src.message, response := src.response }

end AskContext

inductive BoxKind
  | mailbox
  | systemMailbox
  | stash
deriving DecidableEq

/-- Where `doReceive` puts a message. -/
def BoxKind.receiving (control : Bool) : BoxKind := if control then .systemMailbox else .mailbox

/-- A mailbox: the context dequeued last, and those that wait. -/
structure ContextBox (χ : Type*) where
  sentinel : Option χ
  queue : List χ

def ContextBox.contents {χ : Type*} (box : ContextBox χ) : List χ :=
  box.sentinel.toList ++ box.queue

/-- The place of an Ask, with its context and its channel. A `none` for the reply stands for
the error of an Ask that has given up. -/
inductive AskPlace (χ κ ρ : Type*)
  | idle
  | built (x : χ) (k : κ)
  | waiting (x : χ) (k : κ)
  | selected (x : χ) (k : κ) (reply : Option ρ)
  | marked (k : κ) (reply : Option ρ)
  | drained (k : κ) (reply : Option ρ)
  | returned (reply : Option ρ)

namespace AskPlace
variable {χ κ ρ : Type*}

/-- The context that the Ask has not enqueued yet. -/
def holds : AskPlace χ κ ρ → Option χ
  | .built x _ => some x
  | _ => none

/-- The context that the Ask has yet to mark. -/
def unmarked : AskPlace χ κ ρ → Option χ
  | .built x _ | .waiting x _ | .selected x _ _ => some x
  | _ => none

/-- The channel of an Ask that has not drained it. -/
def openChannel : AskPlace χ κ ρ → Option κ
  | .built _ k | .waiting _ k | .selected _ k _ | .marked k _ => some k
  | _ => none

/-- The context and the channel of an Ask that waits for its reply. -/
def awaited : AskPlace χ κ ρ → Option (χ × κ)
  | .waiting x k => some (x, k)
  | _ => none

/-- The channel that the Ask has not returned. -/
def channel : AskPlace χ κ ρ → Option κ
  | .built _ k | .waiting _ k | .selected _ k _ | .marked k _ | .drained k _ => some k
  | _ => none

lemma channel_of_open {p : AskPlace χ κ ρ} {k : κ} (hopen : p.openChannel = some k) :
    p.channel = some k := by
  cases p with
  | idle | drained _ _ | returned _ => exact nomatch hopen
  | built _ _ | waiting _ _ | selected _ _ _ | marked _ _ => exact hopen

def released : AskPlace χ κ ρ → Bool
  | .drained _ _ | .returned _ => true
  | _ => false

def reply : AskPlace χ κ ρ → Option ρ
  | .selected _ _ reply | .marked _ reply | .drained _ reply | .returned reply => reply
  | _ => none

end AskPlace

/-- The place of an actor: the context it handles, the value that `Response` is about to send,
the context just dequeued from the stash. -/
inductive HandlerPlace (χ β : Type*)
  | idle
  | handling (x : χ)
  | responding (x : χ) (v : β)
  | unstashing (x z : χ)

def HandlerPlace.context {χ β : Type*} : HandlerPlace χ β → Option χ
  | .idle => none
  | .handling x | .responding x _ | .unstashing x _ => some x

structure Exchange (α ι χ κ β : Type*) where
  context : χ → AskContext α κ
  contextPool : Pool χ
  buffer : κ → Option (β × α)
  channelPool : Pool κ
  place : α → AskPlace χ κ (β × α)
  boxes : ι × BoxKind → ContextBox χ
  handler : ι → HandlerPlace χ β
  log : List (α × β)

namespace Exchange
variable {α ι χ κ β : Type*} [DecidableEq α] [DecidableEq ι] [DecidableEq χ] [DecidableEq κ]

/-- The steps of an Ask, a Tell, and the steps of an actor. The contexts and channels named are
those that the pools hand out; `accepted` tells whether `doReceive` takes the message, and
`kept` whether a pool has room. -/
inductive Event (α ι χ κ β : Type*)
  | ask (a : α) (x : χ) (k : κ)
  | enqueue (a : α) (control accepted : Bool)
  | receive (a : α)
  | giveUp (a : α)
  | mark (a : α)
  | drain (a : α)
  | pool (a : α) (kept : Bool)
  | tell (i : ι) (x : χ) (control accepted : Bool)
  | dispatch (i : ι) (control kept : Bool)
  | response (i : ι) (v : β)
  | send (i : ι)
  | finish (i : ι)
  | stash (i : ι) (y : χ)
  | unstash (i : ι) (kept : Bool)
  | reenter (i : ι) (y : χ) (control accepted : Bool)

variable (callee : α → ι) (s : Exchange α ι χ κ β)

def setContext (x : χ) (c : AskContext α κ) : Exchange α ι χ κ β :=
  { s with context := update s.context x c }

def goto (a : α) (place : AskPlace χ κ (β × α)) : Exchange α ι χ κ β :=
  { s with place := update s.place a place }

def setBuffer (k : κ) (reply : Option (β × α)) : Exchange α ι χ κ β :=
  { s with buffer := update s.buffer k reply }

def turn (i : ι) (place : HandlerPlace χ β) : Exchange α ι χ κ β :=
  { s with handler := update s.handler i place }

/-- A context from the pool is as it was left there. -/
def getContext (x : χ) : Option (Exchange α ι χ κ β) := (s.contextPool.take x).map fun pool =>
    { (if x ∈ s.contextPool.free then s else s.setContext x .new) with contextPool := pool }

def enqueue (box : ι × BoxKind) (x : χ) : Exchange α ι χ κ β :=
  let waiting := (s.boxes box).queue
  { s with boxes := update s.boxes box { s.boxes box with queue := waiting ++ [x] } }

def doReceive (i : ι) (x : χ) (control accepted : Bool) : Exchange α ι χ κ β :=
  if accepted then s.enqueue (i, .receiving control) x else s

/-- The context dequeued before is reset and goes to the pool. -/
def recycle (sentinel : Option χ) (kept : Bool) : Exchange α ι χ κ β :=
  match sentinel with
  | none => s
  | some x => { s.setContext x (s.context x).reset with contextPool := s.contextPool.put x kept }

def dequeue (box : ι × BoxKind) (kept : Bool) : Option (χ × Exchange α ι χ κ β) :=
  match (s.boxes box).queue with
  | [] => none
  | x :: queue =>
    some (x, { s.recycle (s.boxes box).sentinel kept with
      boxes := update s.boxes box ⟨some x, queue⟩ })

/-- What `Response` is called with, for the Ask whose message is handled. -/
def record (x : χ) (v : β) : Exchange α ι χ κ β :=
  match (s.context x).message with
  | .ask a => { s with log := s.log ++ [(a, v)] }
  | _ => s

/-- `callee` is the actor that an Ask is for. -/
def step : Event α ι χ κ β → Option (Exchange α ι χ κ β)
  | .ask a x k =>
    match s.place a, s.getContext x, s.channelPool.take k with
    | .idle, some s, some channels =>
      some (({ s with channelPool := channels }.setContext x (.build a k)).goto a (.built x k))
    | _, _, _ => none
  | .enqueue a control accepted =>
    match s.place a with
    | .built x k => some ((s.doReceive (callee a) x control accepted).goto a (.waiting x k))
    | _ => none
  | .receive a =>
    match s.place a with
    | .waiting x k =>
      match s.buffer k with
      | some reply => some ((s.setBuffer k none).goto a (.selected x k (some reply)))
      | none => none
    | _ => none
  | .giveUp a =>
    match s.place a with
    | .waiting x k => some (s.goto a (.selected x k none))
    | _ => none
  | .mark a =>
    match s.place a with
    | .selected x k reply =>
      some ((s.setContext x { s.context x with responseClosed := true }).goto a (.marked k reply))
    | _ => none
  | .drain a =>
    match s.place a with
    | .marked k reply => some ((s.setBuffer k none).goto a (.drained k reply))
    | _ => none
  | .pool a kept =>
    match s.place a with
    | .drained k reply =>
      some ({ s with channelPool := s.channelPool.put k kept }.goto a (.returned reply))
    | _ => none
  | .tell i x control accepted =>
    (s.getContext x).map fun s =>
      (s.setContext x (s.context x).buildAsync).doReceive i x control accepted
  | .dispatch i control kept =>
    match s.handler i with
    | .idle => (s.dequeue (i, .receiving control) kept).map fun (x, s) => s.turn i (.handling x)
    | _ => none
  | .response i v =>
    match s.handler i with
    | .handling x =>
      match (s.context x).response with
      | none => some s
      | some _ =>
        let s := s.record x v
        if (s.context x).responseClosed then some s
        else
          some ((s.setContext x { s.context x with responseClosed := true }).turn i
            (.responding x v))
    | _ => none
  | .send i =>
    match s.handler i with
    | .responding x v =>
      match (s.context x).message, (s.context x).response with
      | .ask a, some k =>
        let s := s.turn i (.handling x)
        -- a full channel drops the reply
        some (if (s.buffer k).isNone then s.setBuffer k (some (v, a)) else s)
      | _, _ => some (s.turn i (.handling x))
    | _ => none
  | .finish i =>
    match s.handler i with
    | .handling _ => some (s.turn i .idle)
    | _ => none
  | .stash i y =>
    match s.handler i, s.getContext y with
    | .handling x, some s =>
      some ((s.setContext y ((s.context y).cloneContext (s.context x))).enqueue (i, .stash) y)
    | _, _ => none
  | .unstash i kept =>
    match s.handler i with
    | .handling x => (s.dequeue (i, .stash) kept).map fun (z, s) => s.turn i (.unstashing x z)
    | _ => none
  | .reenter i y control accepted =>
    match s.handler i, s.getContext y with
    | .unstashing x z, some s =>
      some (((s.setContext y ((s.context y).cloneContext (s.context z))).doReceive i y control
        accepted).turn i (.handling x))
    | _, _ => none

/-- What a step can do. -/
inductive Move : Event α ι χ κ β → Exchange α ι χ κ β → Prop
  | ask {a x k s₁ channels} (hidle : s.place a = .idle) (hget : s.getContext x = some s₁)
      (htake : s.channelPool.take k = some channels) :
      Move (.ask a x k)
        (({ s₁ with channelPool := channels }.setContext x (.build a k)).goto a (.built x k))
  | enqueue {a x k} (hbuilt : s.place a = .built x k) (control accepted : Bool) :
      Move (.enqueue a control accepted)
        ((s.doReceive (callee a) x control accepted).goto a (.waiting x k))
  | receive {a x k reply} (hwaiting : s.place a = .waiting x k)
      (hbuffer : s.buffer k = some reply) :
      Move (.receive a) ((s.setBuffer k none).goto a (.selected x k (some reply)))
  | giveUp {a x k} (hwaiting : s.place a = .waiting x k) :
      Move (.giveUp a) (s.goto a (.selected x k none))
  | mark {a x k reply} (hselected : s.place a = .selected x k reply) :
      Move (.mark a)
        ((s.setContext x { s.context x with responseClosed := true }).goto a (.marked k reply))
  | drain {a k reply} (hmarked : s.place a = .marked k reply) :
      Move (.drain a) ((s.setBuffer k none).goto a (.drained k reply))
  | pool {a k reply} (hdrained : s.place a = .drained k reply) (kept : Bool) :
      Move (.pool a kept)
        ({ s with channelPool := s.channelPool.put k kept }.goto a (.returned reply))
  | tell {x s₁} (i : ι) (hget : s.getContext x = some s₁) (control accepted : Bool) :
      Move (.tell i x control accepted)
        ((s₁.setContext x (s₁.context x).buildAsync).doReceive i x control accepted)
  | dispatch {i control kept x s₁} (hidle : s.handler i = .idle)
      (hdequeue : s.dequeue (i, .receiving control) kept = some (x, s₁)) :
      Move (.dispatch i control kept) (s₁.turn i (.handling x))
  | noResponse {i x} (hhandling : s.handler i = .handling x)
      (hresponse : (s.context x).response = none) (v : β) : Move (.response i v) s
  | tooLate {i x k} (hhandling : s.handler i = .handling x)
      (hresponse : (s.context x).response = some k)
      (hclosed : (s.context x).responseClosed = true) (v : β) :
      Move (.response i v) (s.record x v)
  | respond {i x k} (hhandling : s.handler i = .handling x)
      (hresponse : (s.context x).response = some k)
      (hopen : (s.context x).responseClosed = false) (v : β) :
      Move (.response i v) (((s.record x v).setContext x
        { s.context x with responseClosed := true }).turn i (.responding x v))
  | deliver {i x v a k} (hresponding : s.handler i = .responding x v)
      (hasked : (s.context x).message = .ask a) (hresponse : (s.context x).response = some k)
      (hempty : s.buffer k = none) :
      Move (.send i) ((s.turn i (.handling x)).setBuffer k (some (v, a)))
  | discard {i x v} (hresponding : s.handler i = .responding x v)
      (hfull : ∀ a k, (s.context x).message = .ask a → (s.context x).response = some k →
        s.buffer k ≠ none) : Move (.send i) (s.turn i (.handling x))
  | finish {i x} (hhandling : s.handler i = .handling x) :
      Move (.finish i) (s.turn i .idle)
  | stash {i x y s₁} (hhandling : s.handler i = .handling x) (hget : s.getContext y = some s₁) :
      Move (.stash i y)
        ((s₁.setContext y ((s₁.context y).cloneContext (s₁.context x))).enqueue (i, .stash) y)
  | unstash {i kept x z s₁} (hhandling : s.handler i = .handling x)
      (hdequeue : s.dequeue (i, .stash) kept = some (z, s₁)) :
      Move (.unstash i kept) (s₁.turn i (.unstashing x z))
  | reenter {i x y z s₁} (hunstashing : s.handler i = .unstashing x z)
      (hget : s.getContext y = some s₁) (control accepted : Bool) :
      Move (.reenter i y control accepted)
        (((s₁.setContext y ((s₁.context y).cloneContext (s₁.context z))).doReceive i y control
          accepted).turn i (.handling x))

omit [DecidableEq α] [DecidableEq ι] [DecidableEq χ] [DecidableEq κ] in
lemma context_record (x : χ) (v : β) : (s.record x v).context = s.context := by
  unfold record
  split
  all_goals rfl

lemma move_of_step {callee : α → ι} {s s' : Exchange α ι χ κ β} {e : Event α ι χ κ β}
    (hstep : s.step callee e = some s') : Move callee s e s' := by
  cases e with dsimp only [step] at hstep
  | ask a x k =>
    split at hstep <;> cases hstep
    next hidle hget htake => exact .ask hidle hget htake
  | enqueue a control accepted =>
    split at hstep <;> cases hstep
    next hbuilt => exact .enqueue hbuilt control accepted
  | receive a =>
    split at hstep
    next hwaiting =>
      split at hstep <;> cases hstep
      next hbuffer => exact .receive hwaiting hbuffer
    · exact nomatch hstep
  | giveUp a =>
    split at hstep <;> cases hstep
    next hwaiting => exact .giveUp hwaiting
  | mark a =>
    split at hstep <;> cases hstep
    next hselected => exact .mark hselected
  | drain a =>
    split at hstep <;> cases hstep
    next hmarked => exact .drain hmarked
  | pool a kept =>
    split at hstep <;> cases hstep
    next hdrained => exact .pool hdrained kept
  | tell i x control accepted =>
    obtain ⟨s₁, hget, rfl⟩ := map_eq_some_iff.mp hstep
    exact .tell i hget control accepted
  | dispatch i control kept =>
    split at hstep
    next hidle =>
      obtain ⟨⟨x, s₁⟩, hdequeue, rfl⟩ := map_eq_some_iff.mp hstep
      exact .dispatch hidle hdequeue
    · exact nomatch hstep
  | response i v =>
    split at hstep
    next x hhandling =>
      split at hstep
      next hresponse => cases hstep; exact .noResponse hhandling hresponse v
      next hresponse =>
        rw [context_record] at hstep
        split_ifs at hstep with hclosed <;> cases hstep
        · exact .tooLate hhandling hresponse hclosed v
        · exact .respond hhandling hresponse (Bool.eq_false_iff.mpr hclosed) v
    · exact nomatch hstep
  | send i =>
    split at hstep
    next x v hresponding =>
      split at hstep
      next a k hasked hresponse =>
        split_ifs at hstep with hbuffer <;> cases hstep
        · exact .deliver hresponding hasked hresponse (isNone_iff_eq_none.mp hbuffer)
        · refine .discard hresponding fun a' k' _ hresponse' hnone => hbuffer ?_
          obtain rfl : k = k' := Option.some.inj (hresponse.symm.trans hresponse')
          exact isNone_iff_eq_none.mpr hnone
      next hneither =>
        cases hstep
        exact .discard hresponding fun a k hasked hresponse => (hneither a k hasked hresponse).elim
    · exact nomatch hstep
  | finish i =>
    split at hstep <;> cases hstep
    next hhandling => exact .finish hhandling
  | stash i y =>
    split at hstep <;> cases hstep
    next hhandling hget => exact .stash hhandling hget
  | unstash i kept =>
    split at hstep
    next hhandling =>
      obtain ⟨⟨z, s₁⟩, hdequeue, rfl⟩ := map_eq_some_iff.mp hstep
      exact .unstash hhandling hdequeue
    · exact nomatch hstep
  | reenter i y control accepted =>
    split at hstep <;> cases hstep
    next hunstashing hget => exact .reenter hunstashing hget control accepted

/-- At the start nothing is under way. The contexts in the pool have been used before and may
be marked closed. -/
def system (pool : List χ) (closed : χ → Bool) (β κ : Type*) [DecidableEq κ] :
    System (Exchange α ι χ κ β) (Event α ι χ κ β) where
  start :=
    { context := fun x => ⟨.nothing, none, closed x⟩, contextPool := ⟨pool.dedup, pool.dedup⟩
      buffer := fun _ => none, channelPool := ⟨[], []⟩, place := fun _ => .idle
      boxes := fun _ => ⟨none, []⟩, handler := fun _ => .idle, log := [] }
  step := step callee

end Exchange
end GoAkt.Actor
