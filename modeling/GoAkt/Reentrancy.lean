import GoAkt.Interleavings

/-!
# Asynchronous requests of an actor

An actor that allows reentrancy sends requests and goes on with other messages. Each
request is registered under its correlation ID until it is completed by a response, a
timeout, an error or a cancellation. Two counters follow the registered requests and those
in stash mode; while there is one in stash mode, the actor's messages are stashed.

Any number of calls run at the same time, each at its own place: registering a request and
sending it, completing one, cancelling all, dispatching a message. A step is one atomic
operation on a counter, one operation of the locked map, or one section under a request's
mutex. A timeout, an error and a cancellation by the user come as a completion with that
outcome, at any time.

The field `status` is bookkeeping: where a request is on its way in and out of the books.
-/
namespace GoAkt.Actor
open GoAkt.Interleavings

inductive ReentrancyMode
  | allowAll
  | stashNonReentrant
deriving DecidableEq

/-- The state of a request: its outcome once it is completed, whether a continuation is
registered, how sending it ended, and the outcomes its continuation was invoked with. -/
structure RequestState (ρ : Type*) where
  mode : ReentrancyMode
  outcome : Option ρ
  callback : Bool
  sent : Option Bool
  invoked : List ρ

def newRequestState (ρ : Type*) (mode : ReentrancyMode) : RequestState ρ :=
  ⟨mode, none, false, none, []⟩

/-- What the call that has a request in its hands has done with the counters: nothing yet,
counted it, counted it as blocking if it is, taken it off the table, uncounted it. -/
inductive Handling
  | pending
  | counted
  | ready
  | removing
  | unblocking
deriving DecidableEq

inductive Status (τ : Type*)
  | fresh
  | owned (t : τ) (stage : Handling)
  | listed
  | gone
  | refused
deriving DecidableEq

/-- The request is counted in `inFlightCount`. -/
def Status.counts {τ : Type*} : Status τ → Bool
  | .owned _ .counted | .owned _ .ready | .owned _ .removing | .listed => true
  | _ => false

/-- The request is counted in `blockingCount` if it is in stash mode. -/
def Status.blocks {τ : Type*} : Status τ → Bool
  | .owned _ .ready | .owned _ .removing | .owned _ .unblocking | .listed => true
  | _ => false

/-- The place of a call. `after` is the continuation that `completeRequest` still has to
invoke, with its outcome. -/
inductive Pc (ι ρ μ : Type*)
  | idle
  -- registerRequestState, and the Tell that follows it
  | limit (r : ι)
  | swap (r : ι) (current : ℤ)
  | block (r : ι)
  | put (r : ι)
  | send (r : ι)
  -- deregisterRequestState
  | lookup (r : ι) (after : Option (ι × ρ))
  | delete (r : ι) (after : Option (ι × ρ))
  | uncount (r : ι) (after : Option (ι × ρ))
  | unblock (r : ι) (after : Option (ι × ρ))
  | unstash (after : Option (ι × ρ))
  | notify (after : Option (ι × ρ))
  -- completeRequest
  | find (r : ι) (outcome : ρ)
  | complete (r : ι) (outcome : ρ)
  -- cancelInFlightRequests
  | visit (reason : ρ) (keys : List ι)
  | cancel (reason : ρ) (r : ι) (keys : List ι)
  | remove (reason : ρ) (r : ι) (keys : List ι)
  | uncountAll (reason : ρ) (r : ι) (keys : List ι)
  | unblockAll (reason : ρ) (r : ι) (keys : List ι)
  | store
  | storeBlocking
  -- dispatchOne
  | decide (message : μ)
  | hold (message : μ)
deriving DecidableEq

structure Reentrancy (τ ι ρ μ : Type*) where
  requestStates : List ι
  inFlightCount : ℤ
  blockingCount : ℤ
  request : ι → RequestState ρ
  held : List μ
  pc : τ → Pc ι ρ μ
  status : ι → Status τ

namespace Reentrancy
variable {τ ι ρ μ : Type*} [DecidableEq τ] [DecidableEq ι]

/-- `step t ok` is the next step of the call `t`; `ok` tells whether a Tell succeeds. -/
inductive Event (τ ι ρ μ : Type*)
  | request (t : τ) (r : ι) (mode : ReentrancyMode)
  | onDone (t : τ) (r : ι)
  | completeRequest (t : τ) (r : ι) (outcome : ρ)
  | cancelInFlightRequests (t : τ) (reason : ρ) (keys : List ι)
  | dispatchOne (t : τ) (message : μ)
  | step (t : τ) (ok : Bool)

variable (maxInFlight : ℕ) (s : Reentrancy τ ι ρ μ) (t : τ) (r : ι)

def goto (pc : Pc ι ρ μ) : Reentrancy τ ι ρ μ :=
  { s with pc := Function.update s.pc t pc }

def setRequest (state : RequestState ρ) : Reentrancy τ ι ρ μ :=
  { s with request := Function.update s.request r state }

def setStatus (status : Status τ) : Reentrancy τ ι ρ μ :=
  { s with status := Function.update s.status r status }

/-- Taking a request off the table. The books say who took it only if it was there. -/
def takeOff : Reentrancy τ ι ρ μ :=
  if r ∈ s.requestStates then
    { s with requestStates := s.requestStates.erase r }.setStatus r (.owned t .removing)
  else s

omit [DecidableEq τ] in
lemma takeOff_frame : (s.takeOff t r).inFlightCount = s.inFlightCount ∧
      (s.takeOff t r).blockingCount = s.blockingCount ∧ (s.takeOff t r).request = s.request ∧
      (s.takeOff t r).held = s.held ∧ (s.takeOff t r).pc = s.pc := by
  unfold takeOff
  split_ifs
  all_goals exact ⟨rfl, rfl, rfl, rfl, rfl⟩

/-- The next step of a call. -/
def act (ok : Bool) : Option (Reentrancy τ ι ρ μ) :=
  match s.pc t with
  | .idle => none
  | .limit r =>
    if 0 < maxInFlight then
      if (maxInFlight : ℤ) ≤ s.inFlightCount then some ((s.goto t .idle).setStatus r .refused)
      else some (s.goto t (.swap r s.inFlightCount))
    else
      some (({ s with inFlightCount := s.inFlightCount + 1 }.goto t (.block r)).setStatus r
        (.owned t .counted))
  | .swap r current =>
    if s.inFlightCount = current then
      some (({ s with inFlightCount := current + 1 }.goto t (.block r)).setStatus r
        (.owned t .counted))
    else some (s.goto t (.limit r))
  | .block r =>
    if (s.request r).mode = .stashNonReentrant then
      some (({ s with blockingCount := s.blockingCount + 1 }.goto t (.put r)).setStatus r
        (.owned t .ready))
    else some ((s.goto t (.put r)).setStatus r (.owned t .ready))
  | .put r =>
    some (({ s with requestStates := s.requestStates ++ [r] }.goto t (.send r)).setStatus r .listed)
  | .send r =>
    let s := s.setRequest r { s.request r with sent := some ok }
    some (s.goto t (if ok then .idle else .lookup r none))
  | .lookup r after =>
    some (s.goto t (if r ∈ s.requestStates then .delete r after else .notify after))
  | .delete r after => some ((s.takeOff t r).goto t (.uncount r after))
  | .uncount r after =>
    some (({ s with inFlightCount := s.inFlightCount - 1 }.goto t (.unblock r after)).setStatus r
      (.owned t .unblocking))
  | .unblock r after =>
    if (s.request r).mode = .stashNonReentrant then
      let remaining := s.blockingCount - 1
      let s := { s with blockingCount := remaining }.setStatus r .gone
      some (s.goto t (if remaining = 0 then .unstash after else .notify after))
    else some ((s.goto t (.notify after)).setStatus r .gone)
  | .unstash after =>
    match s.held with
    | [] => some (s.goto t (.notify after))
    | _ :: held => some { s with held }
  | .notify none => some (s.goto t .idle)
  | .notify (some (r, outcome)) =>
    let state := s.request r
    some ((s.setRequest r { state with invoked := state.invoked ++ [outcome] }).goto t .idle)
  | .find r outcome => some (s.goto t (if r ∈ s.requestStates then .complete r outcome else .idle))
  | .complete r outcome =>
    let state := s.request r
    match state.outcome with
    | some _ => some (s.goto t .idle)
    | none =>
      some ((s.setRequest r { state with outcome := some outcome }).goto t
        (.lookup r (if state.callback then some (r, outcome) else none)))
  | .visit _ [] => some (s.goto t .store)
  | .visit reason (r :: keys) =>
    some (s.goto t (if r ∈ s.requestStates then .cancel reason r keys else .visit reason keys))
  | .cancel reason r keys =>
    let state := s.request r
    match state.outcome with
    | some _ => some (s.goto t (.visit reason keys))
    | none =>
      -- the continuation that `complete` returns is dropped
      some ((s.setRequest r { state with outcome := some reason }).goto t (.remove reason r keys))
  | .remove reason r keys => some ((s.takeOff t r).goto t (.uncountAll reason r keys))
  | .uncountAll reason r keys =>
    some (({ s with inFlightCount := s.inFlightCount - 1 }.goto t
      (.unblockAll reason r keys)).setStatus r (.owned t .unblocking))
  | .unblockAll reason r keys =>
    if (s.request r).mode = .stashNonReentrant then
      some (({ s with blockingCount := s.blockingCount - 1 }.goto t (.visit reason keys)).setStatus
        r .gone)
    else some ((s.goto t (.visit reason keys)).setStatus r .gone)
  | .store => some ({ s with inFlightCount := 0 }.goto t .storeBlocking)
  | .storeBlocking => some ({ s with blockingCount := 0 }.goto t .idle)
  | .decide message => some (s.goto t (if 0 < s.blockingCount then .hold message else .idle))
  | .hold message => some ({ s with held := s.held ++ [message] }.goto t .idle)

/-- A call starts when its thread is idle. A request has a new ID, and its handle is there
for `Then` once it was sent. `Keys` lists the table in any order. -/
def step (maxInFlight : ℕ) (s : Reentrancy τ ι ρ μ) :
    Event τ ι ρ μ → Option (Reentrancy τ ι ρ μ)
  | .request t r mode =>
    match s.pc t, s.status r with
    | .idle, .fresh =>
      some (((s.setRequest r (newRequestState ρ mode)).goto t (.limit r)).setStatus r
        (.owned t .pending))
    | _, _ => none
  | .onDone t r =>
    match s.pc t with
    | .idle =>
      let state := s.request r
      if state.sent = some true then
        if state.callback then some s
        else
          let s := s.setRequest r { state with callback := true }
          match state.outcome with
          | none => some s
          | some outcome => some (s.goto t (.notify (some (r, outcome))))
      else none
    | _ => none
  | .completeRequest t r outcome =>
    match s.pc t with
    | .idle => some (s.goto t (.find r outcome))
    | _ => none
  | .cancelInFlightRequests t reason keys =>
    match s.pc t with
    | .idle => allow (keys.Perm s.requestStates) (s.goto t (.visit reason keys))
    | _ => none
  | .dispatchOne t message =>
    match s.pc t with
    | .idle => some (s.goto t (.decide message))
    | _ => none
  | .step t ok => s.act maxInFlight t ok

def system (τ ι ρ μ : Type*) [DecidableEq τ] [DecidableEq ι] (maxInFlight : ℕ) :
    System (Reentrancy τ ι ρ μ) (Event τ ι ρ μ) where
  start :=
    { requestStates := [], inFlightCount := 0, blockingCount := 0
      request := fun _ => newRequestState ρ .allowAll, held := [], pc := fun _ => .idle
      status := fun _ => .fresh }
  step := step maxInFlight

end Reentrancy

/-!
## The books of the requests

Every request is counted by the call that has it in its hands, or by the table. So each
counter is the number of requests in certain places, as long as no call takes a request
off the table that is not there and no call overwrites a counter.
-/
open Status Function
namespace Reentrancy
variable {τ ι ρ μ : Type*} [DecidableEq τ] [DecidableEq ι]
variable (maxInFlight : ℕ) (s : Reentrancy τ ι ρ μ) in
/-- All that a step can do, one constructor for each branch. -/
inductive Move : Event τ ι ρ μ → Reentrancy τ ι ρ μ → Prop
  | request (hpc : s.pc t = .idle)
      (hstatus : s.status r = .fresh) : Move (.request t r mode)
        (((s.setRequest r (newRequestState ρ mode)).goto t (.limit r)).setStatus r
          (.owned t .pending))
  | thenAgain (hpc : s.pc t = .idle) : Move (.onDone t r) s
  | thenOpen (hpc : s.pc t = .idle) (hsent : (s.request r).sent = some true)
      (hcallback : (s.request r).callback = false) (houtcome : (s.request r).outcome = none) :
      Move (.onDone t r) (s.setRequest r { s.request r with callback := true })
  | thenDone (hpc : s.pc t = .idle)
      (hsent : (s.request r).sent = some true) (hcallback : (s.request r).callback = false)
      (houtcome : (s.request r).outcome = some outcome) : Move (.onDone t r)
        ((s.setRequest r { s.request r with callback := true }).goto t
          (.notify (some (r, outcome))))
  | completeRequest (hpc : s.pc t = .idle) :
      Move (.completeRequest t r outcome) (s.goto t (.find r outcome))
  | cancelInFlightRequests (hpc : s.pc t = .idle) :
      Move (.cancelInFlightRequests t reason keys) (s.goto t (.visit reason keys))
  | dispatchOne (hpc : s.pc t = .idle) :
      Move (.dispatchOne t message) (s.goto t (.decide message))
  | refuse (hpc : s.pc t = .limit r) : Move (.step t ok)
        ((s.goto t .idle).setStatus r .refused)
  | load (hpc : s.pc t = .limit r) (hlimit : s.inFlightCount < maxInFlight) :
      Move (.step t ok) (s.goto t (.swap r s.inFlightCount))
  | count (hpc : s.pc t = .limit r) (hmax : maxInFlight = 0) : Move (.step t ok)
        (({ s with inFlightCount := s.inFlightCount + 1 }.goto t (.block r)).setStatus r
          (.owned t .counted))
  | swap (hpc : s.pc t = .swap r s.inFlightCount) : Move (.step t ok)
        (({ s with inFlightCount := s.inFlightCount + 1 }.goto t (.block r)).setStatus r
          (.owned t .counted))
  | retry (hpc : s.pc t = .swap r current) : Move (.step t ok) (s.goto t (.limit r))
  | block (hpc : s.pc t = .block r)
      (hmode : (s.request r).mode = .stashNonReentrant) : Move (.step t ok)
        (({ s with blockingCount := s.blockingCount + 1 }.goto t (.put r)).setStatus r
          (.owned t .ready))
  | pass (hpc : s.pc t = .block r)
      (hmode : (s.request r).mode ≠ .stashNonReentrant) : Move (.step t ok)
        ((s.goto t (.put r)).setStatus r (.owned t .ready))
  | put (hpc : s.pc t = .put r) : Move (.step t ok)
        (({ s with requestStates := s.requestStates ++ [r] }.goto t (.send r)).setStatus r .listed)
  | sent (hpc : s.pc t = .send r) : Move (.step t true)
        ((s.setRequest r { s.request r with sent := some true }).goto t .idle)
  | failed (hpc : s.pc t = .send r) : Move (.step t false)
        ((s.setRequest r { s.request r with sent := some false }).goto t (.lookup r none))
  | lookup (hpc : s.pc t = .lookup r after)
      (hmem : r ∈ s.requestStates) : Move (.step t ok) (s.goto t (.delete r after))
  | miss (hpc : s.pc t = .lookup r after)
      (hmem : r ∉ s.requestStates) : Move (.step t ok) (s.goto t (.notify after))
  | delete (hpc : s.pc t = .delete r after) :
      Move (.step t ok) ((s.takeOff t r).goto t (.uncount r after))
  | uncount (hpc : s.pc t = .uncount r after) : Move (.step t ok)
        (({ s with inFlightCount := s.inFlightCount - 1 }.goto t (.unblock r after)).setStatus r
          (.owned t .unblocking))
  | forget (hpc : s.pc t = .unblock r after)
      (hmode : (s.request r).mode ≠ .stashNonReentrant) : Move (.step t ok)
        ((s.goto t (.notify after)).setStatus r .gone)
  | unblock (hpc : s.pc t = .unblock r after) (hmode : (s.request r).mode = .stashNonReentrant)
      (hnext : next = if s.blockingCount - 1 = 0 then .unstash after else .notify after) :
      Move (.step t ok)
        (({ s with blockingCount := s.blockingCount - 1 }.setStatus r .gone).goto t next)
  | unstash (held : List μ) (hpc : s.pc t = .unstash after) (hheld : s.held = message :: held) :
      Move (.step t ok) { s with held }
  | unstashed (hpc : s.pc t = .unstash after)
      (hheld : s.held = []) : Move (.step t ok) (s.goto t (.notify after))
  | done (hpc : s.pc t = .notify none) : Move (.step t ok) (s.goto t .idle)
  | notify (hpc : s.pc t = .notify (some (r, outcome))) : Move (.step t ok)
        ((s.setRequest r { s.request r with invoked := (s.request r).invoked ++ [outcome] }).goto t
          .idle)
  | find (hpc : s.pc t = .find r outcome) (hmem : r ∈ s.requestStates) :
      Move (.step t ok) (s.goto t (.complete r outcome))
  | unknown (hpc : s.pc t = .find r outcome) : Move (.step t ok) (s.goto t .idle)
  | completedBefore (hpc : s.pc t = .complete r outcome) :
      Move (.step t ok) (s.goto t .idle)
  | complete (hpc : s.pc t = .complete r outcome)
      (houtcome : (s.request r).outcome = none) : Move (.step t ok)
        ((s.setRequest r { s.request r with outcome := some outcome }).goto t
          (.lookup r (if (s.request r).callback then some (r, outcome) else none)))
  | visited (hpc : s.pc t = .visit reason []) : Move (.step t ok) (s.goto t .store)
  | visit (hpc : s.pc t = .visit reason (r :: keys)) (hmem : r ∈ s.requestStates) :
      Move (.step t ok) (s.goto t (.cancel reason r keys))
  | skip (hpc : s.pc t = .visit reason (r :: keys)) :
      Move (.step t ok) (s.goto t (.visit reason keys))
  | spare (hpc : s.pc t = .cancel reason r keys) :
      Move (.step t ok) (s.goto t (.visit reason keys))
  | cancel (hpc : s.pc t = .cancel reason r keys) (houtcome : (s.request r).outcome = none) :
      Move (.step t ok)
        ((s.setRequest r { s.request r with outcome := some reason }).goto t
          (.remove reason r keys))
  | remove (hpc : s.pc t = .remove reason r keys) :
      Move (.step t ok) ((s.takeOff t r).goto t (.uncountAll reason r keys))
  | uncountAll (hpc : s.pc t = .uncountAll reason r keys) : Move (.step t ok)
        (({ s with inFlightCount := s.inFlightCount - 1 }.goto t
          (.unblockAll reason r keys)).setStatus r (.owned t .unblocking))
  | unblockAll (hpc : s.pc t = .unblockAll reason r keys)
      (hmode : (s.request r).mode = .stashNonReentrant) : Move (.step t ok)
        (({ s with blockingCount := s.blockingCount - 1 }.goto t (.visit reason keys)).setStatus r
          .gone)
  | forgetAll (hpc : s.pc t = .unblockAll reason r keys)
      (hmode : (s.request r).mode ≠ .stashNonReentrant) : Move (.step t ok)
        ((s.goto t (.visit reason keys)).setStatus r .gone)
  | store (hpc : s.pc t = .store) :
      Move (.step t ok) ({ s with inFlightCount := 0 }.goto t .storeBlocking)
  | storeBlocking (hpc : s.pc t = .storeBlocking) :
      Move (.step t ok) ({ s with blockingCount := 0 }.goto t .idle)
  | decideHold (hpc : s.pc t = .decide message) :
      Move (.step t ok) (s.goto t (.hold message))
  | decidePass (hpc : s.pc t = .decide message) : Move (.step t ok) (s.goto t .idle)
  | hold (hpc : s.pc t = .hold message) :
      Move (.step t ok) ({ s with held := s.held ++ [message] }.goto t .idle)

lemma move_of_act {maxInFlight : ℕ} {s s' : Reentrancy τ ι ρ μ} {t : τ} {ok : Bool}
    (hact : s.act maxInFlight t ok = some s') : Move maxInFlight s (.step t ok) s' := by
  unfold act at hact
  split at hact <;> try cases hact
  next r hpc =>
    split_ifs at hact with hmax hlimit <;> cases hact
    · exact .refuse hpc
    · exact .load hpc (not_le.mp hlimit)
    · exact .count hpc (Nat.eq_zero_of_not_pos hmax)
  next r current hpc =>
    split_ifs at hact with heq <;> cases hact
    · subst heq
      exact .swap hpc
    · exact .retry hpc
  next r hpc =>
    split_ifs at hact with hmode <;> cases hact
    · exact .block hpc hmode
    · exact .pass hpc hmode
  next r hpc => exact .put hpc
  next r hpc =>
    cases ok
    · exact .failed hpc
    · exact .sent hpc
  next r after hpc =>
    split_ifs with hmem
    · exact .lookup hpc hmem
    · exact .miss hpc hmem
  next r after hpc => exact .delete hpc
  next r after hpc => exact .uncount hpc
  next r after hpc =>
    split at hact <;> cases hact
    next hmode => exact .unblock hpc hmode rfl
    next hmode => exact .forget hpc hmode
  next after hpc =>
    split at hact <;> cases hact
    next hheld => exact .unstashed hpc hheld
    next held hheld => exact .unstash held hpc hheld
  next hpc => exact .done hpc
  next r outcome hpc => exact .notify hpc
  next r outcome hpc =>
    split_ifs with hmem
    · exact .find hpc hmem
    · exact .unknown hpc
  next r outcome hpc =>
    dsimp only at hact
    split at hact <;> cases hact
    · exact .completedBefore hpc
    next houtcome => exact .complete hpc houtcome
  next reason hpc => exact .visited hpc
  next reason r keys hpc =>
    split_ifs with hmem
    · exact .visit hpc hmem
    · exact .skip hpc
  next reason r keys hpc =>
    dsimp only at hact
    split at hact <;> cases hact
    · exact .spare hpc
    next houtcome => exact .cancel hpc houtcome
  next reason r keys hpc => exact .remove hpc
  next reason r keys hpc => exact .uncountAll hpc
  next reason r keys hpc =>
    split_ifs at hact with hmode <;> cases hact
    · exact .unblockAll hpc hmode
    · exact .forgetAll hpc hmode
  next hpc => exact .store hpc
  next hpc => exact .storeBlocking hpc
  next message hpc =>
    split_ifs
    · exact .decideHold hpc
    · exact .decidePass hpc
  next message hpc => exact .hold hpc

lemma move_of_step {maxInFlight : ℕ} {s s' : Reentrancy τ ι ρ μ} {e : Event τ ι ρ μ}
    (hstep : step maxInFlight s e = some s') : Move maxInFlight s e s' := by
  cases e with dsimp only [step] at hstep
  | request =>
    split at hstep <;> cases hstep
    next hpc hstatus => exact .request hpc hstatus
  | onDone t r =>
    split at hstep
    next hpc =>
      split_ifs at hstep with hsent hcallback
      · cases hstep
        exact .thenAgain hpc
      · cases houtcome : (s.request r).outcome with
        | none =>
          rw [houtcome] at hstep
          cases hstep
          rw [← houtcome]
          exact .thenOpen hpc hsent (Bool.not_eq_true _ |>.mp hcallback) houtcome
        | some outcome =>
          rw [houtcome] at hstep
          cases hstep
          rw [← houtcome]
          exact .thenDone hpc hsent (Bool.not_eq_true _ |>.mp hcallback) houtcome
    · cases hstep
  | completeRequest =>
    split at hstep <;> cases hstep
    next hpc => exact .completeRequest hpc
  | cancelInFlightRequests =>
    split at hstep
    next hpc =>
      obtain ⟨-, rfl⟩ := allow_eq_some.mp hstep
      exact .cancelInFlightRequests hpc
    · cases hstep
  | dispatchOne =>
    split at hstep <;> cases hstep
    next hpc => exact .dispatchOne hpc
  | step t ok => exact move_of_act hstep

/-- The request that a call has in its hands. -/
def stageOf {ι ρ μ : Type*} : Pc ι ρ μ → Option (ι × Handling)
  | .limit r | .swap r _ => some (r, .pending)
  | .block r => some (r, .counted)
  | .put r => some (r, .ready)
  | .uncount r _ | .uncountAll _ r _ => some (r, .removing)
  | .unblock r _ | .unblockAll _ r _ => some (r, .unblocking)
  | _ => none

/-- The request is counted as blocking. -/
def Blocks {τ : Type*} (entry : ReentrancyMode × Status τ) : Prop :=
  entry.1 = .stashNonReentrant ∧ entry.2.blocks = true

instance {τ : Type*} : DecidablePred (Blocks (τ := τ)) := fun entry =>
  inferInstanceAs (Decidable (entry.1 = .stashNonReentrant ∧ entry.2.blocks = true))

/-- The books, over what they depend on. -/
structure Balanced {τ ι : Type*} (stage : τ → Option (ι × Handling)) (status : ι → Status τ)
    (mode : ι → ReentrancyMode) (table : List ι) (inFlight blocking : ℤ) : Prop where
  owned : ∀ t r place, stage t = some (r, place) ↔ status r = .owned t place
  listed : ∀ r, r ∈ table ↔ status r = .listed
  nodup : table.Nodup
  finite : {r | status r ≠ .fresh}.Finite
  inFlight : inFlight = {r | (status r).counts = true}.ncard
  blocking : blocking = {r | Blocks (mode r, status r)}.ncard

namespace Balanced
variable {τ ι : Type*} [DecidableEq τ] [DecidableEq ι] {stage : τ → Option (ι × Handling)}
  {status : ι → Status τ} {mode mode' : ι → ReentrancyMode} {table table' : List ι}
  {inFlight inFlight' blocking blocking' : ℤ}

/-- A step that moves one request, of which no other call has its hands on. -/
lemma move (h : Balanced stage status mode table inFlight blocking) {t : τ} {r : ι}
    {place : Option (ι × Handling)} {now : Status τ}
    (hfree : ∀ t' a, status r = .owned t' a → t' = t)
    (hbefore : ∀ r' a, stage t = some (r', a) → r' = r)
    (hafter : ∀ r' a, place = some (r', a) ↔ r' = r ∧ now = .owned t a)
    (hnow : ∀ t' a, now = .owned t' a → t' = t)
    (hmode : ∀ r', r' ≠ r → mode' r' = mode r')
    (htable : ∀ r', r' ∈ table' ↔ if r' = r then now = .listed else r' ∈ table)
    (hnodup : table'.Nodup)
    (hinFlight : inFlight' + (if (status r).counts then 1 else 0) =
      inFlight + if now.counts then 1 else 0)
    (hblocking : blocking' + (if Blocks (mode r, status r) then 1 else 0) =
      blocking + if Blocks (mode' r, now) then 1 else 0) :
    Balanced (update stage t place) (update status r now) mode' table' inFlight' blocking' where
  owned t' r' a := by
    by_cases ht : t' = t
    · subst ht
      rw [update_self, hafter]
      by_cases hr : r' = r
      · subst hr
        rw [update_self]
        exact and_iff_right rfl
      · rw [update_of_ne hr]
        refine ⟨fun hand => absurd hand.1 hr, fun hold => ?_⟩
        exact absurd (hbefore r' a ((h.owned t' r' a).mpr hold)) hr
    · rw [update_of_ne ht, h.owned]
      by_cases hr : r' = r
      · subst hr
        rw [update_self]
        exact ⟨fun hold => absurd (hfree t' a hold) ht, fun hnew => absurd (hnow t' a hnew) ht⟩
      · rw [update_of_ne hr]
  listed r' := by
    rw [htable]
    split_ifs with hr
    · subst hr
      rw [update_self]
    · rw [update_of_ne hr]
      exact h.listed r'
  nodup := hnodup
  finite := finite_update status (· ≠ .fresh) r now h.finite
  inFlight := by
    have hfinite : {r | (status r).counts = true}.Finite := h.finite.subset fun r' hr' hfresh => by
      change (status r').counts = true at hr'
      rw [hfresh] at hr'
      cases hr'
    have hcard := ncard_update status (fun st => st.counts = true) r now hfinite
    have hold := h.inFlight
    have hcast := congrArg (Nat.cast : ℕ → ℤ) hcard
    push_cast at hcast
    linarith
  blocking := by
    have hfinite : {r | Blocks (mode r, status r)}.Finite := h.finite.subset fun r' hr' hfresh => by
      change Blocks (mode r', status r') at hr'
      rw [hfresh] at hr'
      cases hr'.2
    have hcard := ncard_update (fun r => (mode r, status r)) Blocks r (mode' r, now) hfinite
    have hset : {r' | Blocks (update (fun r => (mode r, status r)) r (mode' r, now) r')} =
        {r' | Blocks (mode' r', update status r now r')} := by
      ext r'
      by_cases hr : r' = r
      · subst hr
        simp
      · simp [hr, hmode r' hr]
    rw [hset] at hcard
    have hold := h.blocking
    have hcast := congrArg (Nat.cast : ℕ → ℤ) hcard
    push_cast at hcast
    linarith

end Balanced

/-- Every request is counted where it is. -/
def Books (s : Reentrancy τ ι ρ μ) : Prop :=
  Balanced (fun t => stageOf (s.pc t)) s.status (fun r => (s.request r).mode) s.requestStates
    s.inFlightCount s.blockingCount

/-- The steps that spoil the books: a cancellation of all requests that completes one with
a continuation, that releases the actor and leaves stashed messages behind, or that
overwrites a counter which is not zero; a message stashed when nothing blocks any more; a
request taken off the table that another call has taken before. -/
def Hazard (s : Reentrancy τ ι ρ μ) : Event τ ι ρ μ → Prop
  | .step t _ =>
    match s.pc t with
    | .cancel _ r _ => (s.request r).outcome = none ∧ (s.request r).callback = true
    | .unblockAll _ r _ => (s.request r).mode = .stashNonReentrant ∧ s.blockingCount = 1 ∧
        s.held ≠ [] ∧ ∀ t' after, s.pc t' ≠ .unstash after
    | .store => s.inFlightCount ≠ 0
    | .storeBlocking => s.blockingCount ≠ 0
    | .hold _ => s.blockingCount ≤ 0 ∧ ∀ t' after, s.pc t' ≠ .unstash after
    | .delete r _ | .remove _ r _ => r ∉ s.requestStates
    | _ => False
  | _ => False

variable {maxInFlight : ℕ} {s s' : Reentrancy τ ι ρ μ} {e : Event τ ι ρ μ} {t : τ} {r : ι}
  {pc : Pc ι ρ μ} {now : Status τ} {a : Handling}

omit [DecidableEq ι] in
lemma stage_update (pcs : τ → Pc ι ρ μ) (t : τ) (pc : Pc ι ρ μ) :
    (fun t' => stageOf (update pcs t pc t')) =
      update (fun t' => stageOf (pcs t')) t (stageOf pc) := by
  funext t'
  by_cases ht : t' = t
  · subst ht
    simp
  · simp [ht]

omit [DecidableEq τ] in
lemma mode_update (request : ι → RequestState ρ) (r : ι) {state : RequestState ρ}
    (hmode : state.mode = (request r).mode) :
    (fun r' => (update request r state r').mode) = fun r' => (request r').mode := by
  funext r'
  by_cases hr : r' = r
  · subst hr
    simp [hmode]
  · simp [hr]

namespace Books
section
variable (h : Books s)
include h

omit [DecidableEq ι] in
lemma goto (hstage : stageOf (s.pc t) = stageOf pc) : Books (s.goto t pc) := by
  unfold Books Reentrancy.goto
  rw [stage_update]
  rw [← hstage, update_eq_self]
  exact h

omit [DecidableEq τ] in
lemma setRequest {state : RequestState ρ} (hmode : state.mode = (s.request r).mode) :
    Books (s.setRequest r state) := by
  unfold Books Reentrancy.setRequest
  rw [mode_update s.request r hmode]
  exact h

section
variable (hstage : stageOf (s.pc t) = some (r, a))
include hstage

omit [DecidableEq τ] [DecidableEq ι] in
/-- The call has the request in its hands. -/
lemma owned : s.status r = .owned t a := (Balanced.owned h t r a).mp hstage

/-- The request moves on in the hands of the call, or leaves them. -/
lemma advance (hpc : s'.pc = update s.pc t pc) (hstatus : s'.status = update s.status r now)
    (hrequest : s'.request = s.request)
    (hnow : (∃ b, now = .owned t b ∧ stageOf pc = some (r, b)) ∨
      (∀ t' b, now ≠ .owned t' b) ∧ stageOf pc = none)
    (htable : ∀ r', r' ∈ s'.requestStates ↔ if r' = r then now = .listed else r' ∈ s.requestStates)
    (hnodup : s'.requestStates.Nodup)
    (hinFlight : s'.inFlightCount + (if (Status.owned t a).counts then 1 else 0) =
      s.inFlightCount + if now.counts then 1 else 0)
    (hblocking : s'.blockingCount +
        (if Blocks ((s.request r).mode, Status.owned t a) then 1 else 0) =
      s.blockingCount + if Blocks ((s.request r).mode, now) then 1 else 0) : Books s' := by
  have howned := h.owned hstage
  unfold Books
  rw [hpc, stage_update, hstatus, hrequest]
  refine Balanced.move h (fun t' b hb => ?_) (fun r' b hb => ?_) (fun r' b => ?_)
    (fun t' b hb => ?_) (fun _ _ => rfl) htable hnodup (howned ▸ hinFlight) (howned ▸ hblocking)
  · rw [howned] at hb
    exact (owned.inj hb).1.symm
  · rw [hstage] at hb
    exact (Prod.mk.inj (Option.some.inj hb)).1.symm
  · rcases hnow with ⟨c, rfl, hc⟩ | ⟨hnone, hc⟩
    · rw [hc]
      constructor
      · rintro ⟨⟩
        exact ⟨rfl, rfl⟩
      · rintro ⟨rfl, hb⟩
        cases hb
        rfl
    · rw [hc]
      exact ⟨nofun, fun hb => absurd hb.2 (hnone t b)⟩
  · rcases hnow with ⟨c, rfl, -⟩ | ⟨hnone, -⟩
    · exact (owned.inj hb).1.symm
    · exact absurd hb (hnone t' b)

omit [DecidableEq τ] in
/-- A request in the hands of a call is not on the table. -/
lemma table_same (hnow : now ≠ .listed)
    (r' : ι) : r' ∈ s.requestStates ↔ if r' = r then now = .listed else r' ∈ s.requestStates := by
  split_ifs with hr
  · subst hr
    rw [Balanced.listed h, h.owned hstage]
    exact ⟨nofun, fun hlisted => absurd hlisted hnow⟩
  · rfl

/-- The same, of a request that does not get on the table. -/
lemma moveOn (hlisted : now ≠ .listed) (hnow : (∃ b, now = .owned t b ∧ stageOf pc = some (r, b)) ∨
      (∀ t' b, now ≠ .owned t' b) ∧ stageOf pc = none) {inFlight blocking : ℤ}
    (hinFlight : inFlight + (if (Status.owned t a).counts then 1 else 0) =
      s.inFlightCount + if now.counts then 1 else 0)
    (hblocking : blocking + (if Blocks ((s.request r).mode, Status.owned t a) then 1 else 0) =
      s.blockingCount + if Blocks ((s.request r).mode, now) then 1 else 0) :
    Books (({ s with inFlightCount := inFlight, blockingCount := blocking }.goto t pc).setStatus r
      now) :=
  h.advance hstage rfl rfl rfl hnow (h.table_same hstage hlisted) h.nodup hinFlight hblocking

end

/-- A request is taken off the table. -/
lemma takeOff (hmem : r ∈ s.requestStates) (hstage : stageOf (s.pc t) = none)
    (hpc : stageOf pc = some (r, .removing)) : Books ((s.takeOff t r).goto t pc) := by
  have hlisted := (Balanced.listed h r).mp hmem
  unfold Books Reentrancy.goto Reentrancy.takeOff Reentrancy.setStatus
  rw [if_pos hmem, stage_update, hpc]
  refine Balanced.move h (fun t' b hb => ?_) (fun r' b hb => ?_) (fun r' b => ?_)
    (fun t' b hb => ?_) (fun _ _ => rfl) (fun r' => ?_) (h.nodup.erase r) ?_ ?_
  · rw [hlisted] at hb
    cases hb
  · rw [hstage] at hb
    cases hb
  · constructor
    · rintro ⟨⟩
      exact ⟨rfl, rfl⟩
    · rintro ⟨rfl, hb⟩
      cases hb
      rfl
  · exact (owned.inj hb).1.symm
  · split_ifs with hr
    · subst hr
      exact ⟨fun hr' => absurd hr' h.nodup.not_mem_erase, nofun⟩
    · exact List.mem_erase_of_ne hr
  · rw [hlisted]
    rfl
  · rw [hlisted]
    rfl

lemma step (hsafe : ¬Hazard s e) (hmove : Move maxInFlight s e s') : Books s' := by
  cases hmove with
  | @request t r mode hpc hstatus =>
    unfold Books
    rw [show ((((s.setRequest r (newRequestState ρ mode)).goto t (.limit r)).setStatus r
      (.owned t .pending)).pc) = update s.pc t (.limit r) from rfl, stage_update]
    refine Balanced.move h (fun t' b hb => ?_) (fun r' b hb => ?_) (fun r' b => ?_)
      (fun t' b hb => ?_) (fun r' hr => ?_) (fun r' => ?_) h.nodup ?_ ?_
    · rw [hstatus] at hb
      cases hb
    · rw [hpc] at hb
      cases hb
    · constructor
      · rintro ⟨⟩
        exact ⟨rfl, rfl⟩
      · rintro ⟨rfl, hb⟩
        cases hb
        rfl
    · exact (owned.inj hb).1.symm
    · simp [Reentrancy.setStatus, Reentrancy.goto, Reentrancy.setRequest, hr]
    · split_ifs with hr
      · subst hr
        change r' ∈ s.requestStates ↔ _
        rw [Balanced.listed h, hstatus]
        exact ⟨fun hr' => (by cases hr'), fun hr' => (by cases hr')⟩
      · rfl
    · rw [hstatus]
      rfl
    · rw [hstatus, if_neg fun hb => (by cases hb.2), if_neg fun hb => (by cases hb.2)]
      rfl
  | thenAgain hpc | unstash held hpc hheld => exact h
  | thenOpen hpc hsent hcallback houtcome => exact h.setRequest rfl
  | thenDone hpc hsent hcallback houtcome | sent hpc | failed hpc | notify hpc
  | complete hpc houtcome | cancel hpc houtcome => 
    refine Books.goto (h.setRequest rfl) ?_
    change stageOf (s.pc _) = _
    rw [hpc]
    rfl
  | hold hpc => exact goto (s := { s with held := _ }) h (by rw [hpc]; rfl)
  | store hpc =>
    have hzero : s.inFlightCount = 0 := by
      by_contra hne
      exact hsafe (by rw [Hazard, hpc]; exact hne)
    refine goto (s := { s with inFlightCount := 0 }) ?_ (by rw [hpc]; rfl)
    rw [← hzero]
    exact h
  | storeBlocking hpc =>
    have hzero : s.blockingCount = 0 := by
      by_contra hne
      exact hsafe (by rw [Hazard, hpc]; exact hne)
    refine goto (s := { s with blockingCount := 0 }) ?_ (by rw [hpc]; rfl)
    rw [← hzero]
    exact h
  | @delete _ r _ _ hpc | @remove _ _ r _ _ hpc =>
    have hmem : r ∈ s.requestStates := by
      by_contra hmem
      exact hsafe (by rw [Hazard, hpc]; exact hmem)
    exact h.takeOff hmem (by rw [hpc]; rfl) rfl
  | @refuse t r _ hpc =>
    have hstage : stageOf (s.pc t) = some (r, .pending) := by rw [hpc]; rfl
    exact h.moveOn hstage (by simp) (.inr ⟨by simp, rfl⟩) rfl (by simp [Blocks, blocks])
  | @count t r _ hpc hmax | @swap t r _ hpc =>
    have hstage : stageOf (s.pc t) = some (r, .pending) := by rw [hpc]; rfl
    exact h.moveOn hstage (by simp) (.inl ⟨_, rfl, rfl⟩) (by simp [counts])
      (by simp [Blocks, blocks])
  | @block t r _ hpc hmode | @pass t r _ hpc hmode =>
    have hstage : stageOf (s.pc t) = some (r, .counted) := by rw [hpc]; rfl
    exact h.moveOn hstage (by simp) (.inl ⟨_, rfl, rfl⟩) (by simp [counts])
      (by simp [Blocks, blocks, hmode])
  | @put t r _ hpc =>
    have hstage : stageOf (s.pc t) = some (r, .ready) := by rw [hpc]; rfl
    have hfresh : r ∉ s.requestStates := by
      rw [Balanced.listed h, h.owned hstage]
      simp
    refine h.advance hstage rfl rfl rfl (.inr ⟨by simp, rfl⟩) (fun r' => ?_) ?_
      (by simp [counts, Reentrancy.goto, setStatus])
      (by simp [Blocks, blocks, Reentrancy.goto, setStatus])
    · change r' ∈ s.requestStates ++ [r] ↔ _
      rw [List.mem_append, List.mem_singleton]
      split_ifs with hr
      · exact ⟨fun _ => rfl, fun _ => .inr hr⟩
      · exact or_iff_left hr
    · exact List.nodup_append.mpr ⟨h.nodup, List.nodup_singleton r, fun r' hr' r'' hr'' heq =>
        hfresh (List.mem_singleton.mp hr'' ▸ heq ▸ hr')⟩
  | @uncount t r _ _ hpc | @uncountAll t _ r _ _ hpc =>
    have hstage : stageOf (s.pc t) = some (r, .removing) := by rw [hpc]; rfl
    exact h.moveOn hstage (by simp) (.inl ⟨_, rfl, rfl⟩) (by simp [counts])
      (by simp [Blocks, blocks])
  | @unblock t r _ _ _ hpc hmode hnext =>
    have hstage : stageOf (s.pc t) = some (r, .unblocking) := by rw [hpc]; rfl
    refine h.moveOn hstage (by simp) (.inr ⟨by simp, ?_⟩) (by simp [counts])
      (by simp [Blocks, blocks, hmode])
    rw [hnext]
    split_ifs <;> rfl
  | @forget t r _ _ hpc hmode | @forgetAll t _ r _ _ hpc hmode | @unblockAll t _ r _ _ hpc hmode =>
    have hstage : stageOf (s.pc t) = some (r, .unblocking) := by rw [hpc]; rfl
    exact h.moveOn hstage (by simp) (.inr ⟨by simp, rfl⟩) (by simp [counts])
      (by simp [Blocks, blocks, hmode])
  | _ => exact h.goto (by rw [‹s.pc _ = _›]; rfl)

end
end Books
end Reentrancy
end GoAkt.Actor
