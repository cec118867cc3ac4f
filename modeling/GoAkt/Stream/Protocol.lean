import Mathlib.Tactic

/-!
# The messages of a stream and the stages that handle them

Each stage of a materialized stream is an actor. Elements and the end of the stream travel
downstream, requests and cancellations upstream. A stage handles one message at a time, and
what it does in this turn is a new state, the messages it tells its two neighbours and whether
it shuts down. Identifiers, sequence numbers, metrics and tracing play no part in what a stage
decides and are left out.
-/
namespace GoAkt.Stream

/-- The error of a stream: one of the user's functions, or a text of the package. -/
inductive Failure (E : Type*)
  | user (e : E)
  | text (message : String)
deriving DecidableEq

/-- What travels downstream: `streamElement`, `streamComplete` and `streamError`. -/
inductive Signal (V E : Type*)
  | element (v : V)
  | complete
  | error (e : Failure E)
deriving DecidableEq

/-- What travels upstream: `streamRequest` and `streamCancel`. -/
inductive Upward
  | request (n : ℤ)
  | cancel
deriving DecidableEq

/-- The messages that a stage receives. Those of type `ι` are its own: ticks of a timer,
results of its workers and sub-pipelines. -/
inductive Inbox (V E ι : Type*)
  | stageWire
  | signal (s : Signal V E)
  | upward (u : Upward)
  | own (message : ι)

/-- What a stage does in one turn. -/
structure Turn (A V E : Type*) where
  actor : A
  up : List Upward
  down : List (Signal V E)
  stopped : Bool

namespace Turn
variable {A B V E : Type*}

@[simps, grind =] def idle (a : A) : Turn A V E := ⟨a, [], [], false⟩

variable (t : Turn A V E) (s : Signal V E)

@[simps, grind =] def tellUp (u : Upward) : Turn A V E :=
  { t with up := t.up ++ [u] }

@[simps, grind =] def tellDown : Turn A V E :=
  { t with down := t.down ++ [s] }

@[simps, grind =] def shutdown : Turn A V E := { t with stopped := true }

@[simps, grind =] def modify (f : A → A) : Turn A V E :=
  { t with actor := f t.actor }

/-- The end of a stage: a last signal downstream. -/
@[simps!, grind =] def finish : Turn A V E := (t.tellDown s).shutdown

/-- A failure: the upstream is cancelled and the downstream gets the error. -/
@[simps!, grind =] def fail (e : Failure E) : Turn A V E :=
  ((t.tellUp .cancel).tellDown (.error e)).shutdown

end Turn

/-- The elements among the signals of a channel. -/
def elements {V E : Type*} : List (Signal V E) → List V
  | [] => []
  | .element v :: rest => v :: elements rest
  | _ :: rest => elements rest

section Elements
variable {V E : Type*}

@[simp, grind =] lemma elements_nil : elements ([] : List (Signal V E)) = [] := rfl

@[simp, grind =] lemma elements_element (v : V) (rest : List (Signal V E)) :
    elements (.element v :: rest) = v :: elements rest := rfl

@[simp, grind =] lemma elements_complete (rest : List (Signal V E)) :
    elements (.complete :: rest) = elements rest := rfl

@[simp, grind =] lemma elements_error (e : Failure E) (rest : List (Signal V E)) :
    elements (.error e :: rest) = elements rest := rfl

@[simp, grind =] lemma elements_append (ss ts : List (Signal V E)) :
    elements (ss ++ ts) = elements ss ++ elements ts := by
  induction ss with
  | nil => rfl
  | cons s ss ih =>
    cases s with
    | element v => exact congrArg (v :: ·) ih
    | complete => exact ih
    | error e => exact ih

@[simp, grind =] lemma elements_map (vs : List V) :
    elements (vs.map (Signal.element (E := E))) = vs := by
  induction vs with
  | nil => rfl
  | cons v vs ih => exact congrArg (v :: ·) ih

end Elements

/-- The demand in the messages of a channel. -/
def requested : List Upward → ℤ
  | [] => 0
  | .request n :: rest => n + requested rest
  | .cancel :: rest => requested rest

section Requested

@[simp, grind =] lemma requested_nil : requested [] = 0 := rfl

@[simp, grind =] lemma requested_request (n : ℤ) (rest : List Upward) :
    requested (.request n :: rest) = n + requested rest := rfl

@[simp, grind =] lemma requested_cancel (rest : List Upward) :
    requested (.cancel :: rest) = requested rest := rfl

@[simp, grind =] lemma requested_append (us ws : List Upward) :
    requested (us ++ ws) = requested us + requested ws := by
  induction us with
  | nil => exact (Int.zero_add _).symm
  | cons u us ih =>
    cases u with
    | request n => rw [List.cons_append, requested_request, requested_request, ih, Int.add_assoc]
    | cancel => exact ih

/-- No message asks for a negative number of elements. -/
@[grind] def Asks (us : List Upward) : Prop := ∀ n, Upward.request n ∈ us → 0 ≤ n

lemma Asks.requested_nonneg {us : List Upward} (hus : Asks us) : 0 ≤ requested us := by
  fun_induction requested us with
  | case1 => exact le_rfl
  | case2 n rest ih =>
    have hn : 0 ≤ n := hus n List.mem_cons_self
    have hrest : 0 ≤ requested rest := ih fun k hk => hus k (List.mem_cons_of_mem _ hk)
    exact Int.add_nonneg hn hrest
  | case3 rest ih => exact ih fun k hk => hus k (List.mem_cons_of_mem _ hk)

end Requested

/-- The part of a stage's configuration that its handlers read. Every configuration of the
package has a positive initial demand and a threshold that is not negative. -/
structure StageConfig where
  initialDemand : ℤ
  refillThreshold : ℤ
  initialDemand_pos : 0 < initialDemand
  refillThreshold_nonneg : 0 ≤ refillThreshold

def defaultStageConfig : StageConfig where
  initialDemand := 224
  refillThreshold := 64
  initialDemand_pos := by decide
  refillThreshold_nonneg := by decide

/-- The type assertion of a typed stage on an element, and the name of the element's type. -/
structure ElementType (V : Type*) where
  has : V → Bool
  typeName : V → String

/-!
## The options of a stage

A builder such as `WithName` copies the stage, changes the configuration of the copy and wraps the
factory of the actor. The new factory ignores the configuration that it is given and passes the
copy's own to the old one, so of a chain of builders the first one decides what reaches the actor.
Fusion replaces a run of stateless stages by one stage with a factory of its own and the
configuration of the last of them.
-/

/-- How a stage handles an error of one element. -/
inductive ErrorStrategy
  | failFast
  | resume
  | retry
  | supervise
deriving DecidableEq

inductive OverflowStrategy
  | dropHead
  | dropTail
  | backpressureSource
  | failSource
deriving DecidableEq

/-- `StageConfig`. Mailboxes, tracers, the actor system and metrics are pointers, and `rest` has the
fields that no builder sets. -/
structure Options (P R : Type*) where
  errorStrategy : ErrorStrategy
  maxAttempts : ℤ
  overflowStrategy : OverflowStrategy
  system : Option P
  metrics : Option P
  mailbox : Option P
  name : String
  tags : List (String × String)
  tracer : Option P
  rest : R
deriving DecidableEq

/-- The builders. A flow and a sink have all but the last, a source has the last two. -/
inductive Builder (P : Type*)
  | withErrorStrategy (strategy : ErrorStrategy)
  | withRetryConfig (maxAttempts : ℤ)
  | withMailbox (mailbox : Option P)
  | withName (name : String)
  | withTags (tags : List (String × String))
  | withTracer (tracer : Option P)
  | withOverflowStrategy (strategy : OverflowStrategy)

variable {P R : Type*}

namespace Options

def default (rest : R) : Options P R :=
  ⟨.failFast, 1, .dropTail, none, none, none, "", [], none, rest⟩

def set (o : Options P R) : Builder P → Options P R
  | .withErrorStrategy errorStrategy => { o with errorStrategy }
  | .withRetryConfig maxAttempts => { o with maxAttempts := max maxAttempts 1 }
  | .withMailbox mailbox => { o with mailbox }
  | .withName name => { o with name }
  | .withTags tags => { o with tags }
  | .withTracer tracer => { o with tracer }
  | .withOverflowStrategy overflowStrategy => { o with overflowStrategy }

end Options

/-- A stage with the configuration that its actor is made with. It may be fused if it is a flow
with a `fuseFn` and its configuration allows it, which no builder changes. -/
structure Stage (P R : Type*) where
  fusable : Bool
  config : Options P R
  actorFn : Options P R → Options P R

namespace Stage

/-- `Map`, `ForEach`, `Range` and all other constructors. -/
def new (fusable : Bool) (rest : R) : Stage P R := ⟨fusable, .default rest, id⟩

def call (s : Stage P R) (builder : Builder P) : Stage P R :=
  let config := s.config.set builder
  ⟨s.fusable, config, fun _ => s.actorFn config⟩

end Stage

/-- The constructor of a stage with the builders that are called on it. -/
structure Built (P R : Type*) where
  fusable : Bool
  rest : R
  calls : List (Builder P)

namespace Built

def stage (b : Built P R) : Stage P R := b.calls.foldl Stage.call (.new b.fusable b.rest)

variable (b : Built P R) (system : P) (metrics : Option P) (generated : String)

end Built

end GoAkt.Stream
