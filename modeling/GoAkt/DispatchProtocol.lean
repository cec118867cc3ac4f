import GoAkt.Interleavings

/-!
# The dispatch protocol of an actor

Producers put a message into a mailbox and schedule the actor if it is idle. A worker that
takes the actor from the ready queue claims it, handles messages up to a budget, and then
either puts the actor back into the ready queue or, when the mailboxes look empty, gives
it up and looks once more. A step is one operation on a mailbox, on the dispatch state or
on the ready queue; the mailboxes are linearizable queues.

Exactly one party is responsible for an actor that is not idle: the ready queue, a
producer that is about to push, or a worker. The invariant is stated about this token.
-/
namespace GoAkt.Actor
open GoAkt.Interleavings

inductive DispatchState where
  | idle
  | scheduled
  | processing
  deriving DecidableEq, Repr

/-- The mailboxes of an actor: the order in which a turn dequeues from them, and the order
in which the end of a turn looks whether they are empty. -/
structure Discipline (ι : Type) where
  dequeueOrder : List ι
  emptyOrder : List ι
  covers : ∀ m, m ∈ emptyOrder

inductive Mailbox where
  | user
  | system
  deriving DecidableEq, Repr

/-- System messages go first; the user mailbox is looked at first. -/
def pidDiscipline : Discipline Mailbox where
  dequeueOrder := [.system, .user]
  emptyOrder := [.user, .system]
  covers m := by cases m <;> simp

def grainDiscipline : Discipline Unit where
  dequeueOrder := [()]
  emptyOrder := [()]
  covers _ := by simp

inductive ProducerPhase where
  | idle
  /-- The message is enqueued; `TrySchedule` is about to load the state. -/
  | loading
  | swapping
  /-- `TrySchedule` succeeded; the actor is about to be pushed. -/
  | pushing
  deriving DecidableEq, Repr

/-- Where a worker is with respect to the actor. The number is that of the rounds left in
the budget after the current one. -/
inductive TurnPhase (ι μ : Type) where
  | away
  /-- It took the actor from the ready queue. -/
  | took
  | draining (left : ℕ) (mailboxes : List ι)
  | handling (left : ℕ) (msg : μ)
  | resetting (left : ℕ)
  | checking (left : ℕ) (mailboxes : List ι)
  | loading (left : ℕ)
  | swapping (left : ℕ)
  | reclaiming (left : ℕ)
  | yielding
  | rescheduling

structure Dispatching (ι μ : Type) where
  mailboxes : ι → List μ
  state : DispatchState
  /-- The number of entries of the actor in the ready queue. -/
  entries : ℕ
  producers : ℕ → ProducerPhase
  workers : ℕ → TurnPhase ι μ

inductive DispatchEvent (ι μ : Type) where
  | enqueue (p : ℕ) (m : ι) (msg : μ)
  | load (p : ℕ)
  | swap (p : ℕ)
  | push (p : ℕ)
  | take (w : ℕ)
  | takeForProcessing (w : ℕ)
  | dequeue (w : ℕ)
  | handled (w : ℕ)
  | reset (w : ℕ)
  | isEmpty (w : ℕ)
  | loadAgain (w : ℕ)
  | swapAgain (w : ℕ)
  | reclaim (w : ℕ)
  | yieldToScheduled (w : ℕ)
  | reschedule (w : ℕ)

namespace Dispatching
variable {ι μ : Type} [DecidableEq ι] (d : Discipline ι) (throughput : ℕ) (s : Dispatching ι μ)

def setProducer (p : ℕ) (phase : ProducerPhase) : Dispatching ι μ :=
  { s with producers := Function.update s.producers p phase }

def setWorker (w : ℕ) (phase : TurnPhase ι μ) : Dispatching ι μ :=
  { s with workers := Function.update s.workers w phase }

def setState (state : DispatchState) : Dispatching ι μ :=
  { s with state }

def setMailbox (m : ι) (messages : List μ) : Dispatching ι μ :=
  { s with mailboxes := Function.update s.mailboxes m messages }

/-- The next round of a turn, or the end of the budget. -/
def nextRound : ℕ → TurnPhase ι μ
  | 0 => .yielding
  | left + 1 => .draining left d.dequeueOrder

def producerStep (p : ℕ) : ProducerPhase → DispatchEvent ι μ → Option (Dispatching ι μ)
  | .idle, .enqueue _ m msg =>
    some ((s.setMailbox m (s.mailboxes m ++ [msg])).setProducer p .loading)
  | .loading, .load _ => some (s.setProducer p (if s.state = .idle then .swapping else .idle))
  | .swapping, .swap _ => some (if s.state = .idle then
      (s.setState .scheduled).setProducer p .pushing else s.setProducer p .idle)
  | .pushing, .push _ => some ({ s with entries := s.entries + 1 }.setProducer p .idle)
  | _, _ => none

def workerStep (w : ℕ) : TurnPhase ι μ → DispatchEvent ι μ → Option (Dispatching ι μ)
  | .away, .take _ =>
    if 0 < s.entries then some ({ s with entries := s.entries - 1 }.setWorker w .took) else none
  | .took, .takeForProcessing _ => some (if s.state = .scheduled then
      (s.setState .processing).setWorker w (nextRound d throughput) else s.setWorker w .away)
  | .draining left (m :: rest), .dequeue _ =>
    match s.mailboxes m with
    | [] => some (s.setWorker w (.draining left rest))
    | msg :: messages => some ((s.setMailbox m messages).setWorker w (.handling left msg))
  | .draining left [], .dequeue _ => some (s.setWorker w (.resetting left))
  | .handling left _, .handled _ => some (s.setWorker w (nextRound d left))
  | .resetting left, .reset _ => some ((s.setState .idle).setWorker w (.checking left d.emptyOrder))
  | .checking left (m :: rest), .isEmpty _ => some (s.setWorker w
      (if s.mailboxes m = [] then .checking left rest else .loading left))
  | .checking _ [], .isEmpty _ => some (s.setWorker w .away)
  | .loading left, .loadAgain _ => some (s.setWorker w
      (if s.state = .idle then .swapping left else .away))
  | .swapping left, .swapAgain _ => some (if s.state = .idle then
      (s.setState .scheduled).setWorker w (.reclaiming left) else s.setWorker w .away)
  | .reclaiming left, .reclaim _ => some (if s.state = .scheduled then
      (s.setState .processing).setWorker w (nextRound d left) else s.setWorker w .away)
  | .yielding, .yieldToScheduled _ => some ((s.setState .scheduled).setWorker w .rescheduling)
  | .rescheduling, .reschedule _ => some ({ s with entries := s.entries + 1 }.setWorker w .away)
  | _, _ => none

def step (e : DispatchEvent ι μ) : Option (Dispatching ι μ) :=
  match e with
  | .enqueue p _ _ => s.producerStep p (s.producers p) e
  | .load p => s.producerStep p (s.producers p) e
  | .swap p => s.producerStep p (s.producers p) e
  | .push p => s.producerStep p (s.producers p) e
  | .take w => s.workerStep d throughput w (s.workers w) e
  | .takeForProcessing w => s.workerStep d throughput w (s.workers w) e
  | .dequeue w => s.workerStep d throughput w (s.workers w) e
  | .handled w => s.workerStep d throughput w (s.workers w) e
  | .reset w => s.workerStep d throughput w (s.workers w) e
  | .isEmpty w => s.workerStep d throughput w (s.workers w) e
  | .loadAgain w => s.workerStep d throughput w (s.workers w) e
  | .swapAgain w => s.workerStep d throughput w (s.workers w) e
  | .reclaim w => s.workerStep d throughput w (s.workers w) e
  | .yieldToScheduled w => s.workerStep d throughput w (s.workers w) e
  | .reschedule w => s.workerStep d throughput w (s.workers w) e

end Dispatching

open Dispatching

/-- The protocol with any number of producers and workers. -/
def dispatchSystem {ι μ : Type} [DecidableEq ι] (d : Discipline ι) (throughput : ℕ) :
    System (Dispatching ι μ) (DispatchEvent ι μ) where
  start := ⟨fun _ => [], .idle, 0, fun _ => .idle, fun _ => .away⟩
  step := Dispatching.step d throughput

/-! ## The token -/

inductive Holder where
  /-- The entry at a position of those of the actor in the ready queue. -/
  | queue (i : ℕ)
  | producer (p : ℕ)
  | worker (w : ℕ)
  deriving DecidableEq

/-- The dispatch state that goes with the token, if the producer holds it. -/
def ProducerPhase.token : ProducerPhase → Option DispatchState
  | .pushing => some .scheduled
  | _ => none

/-- The dispatch state that goes with the token, if the worker holds it. -/
def TurnPhase.token {ι μ : Type} : TurnPhase ι μ → Option DispatchState
  | .took => some .scheduled
  | .draining _ _ => some .processing
  | .handling _ _ => some .processing
  | .resetting _ => some .processing
  | .reclaiming _ => some .scheduled
  | .yielding => some .processing
  | .rescheduling => some .scheduled
  | _ => none

namespace Dispatching
variable {ι μ : Type}

def token (s : Dispatching ι μ) : Holder → Option DispatchState
  | .queue i => if i < s.entries then some .scheduled else none
  | .producer p => (s.producers p).token
  | .worker w => (s.workers w).token

/-- An idle actor has no token; any other has one, which tells its state. -/
def OneToken (s : Dispatching ι μ) : Prop :=
  (s.state = .idle ∧ ∀ h, s.token h = none) ∨
    ∃ h, s.state ≠ .idle ∧ s.token h = some s.state ∧ ∀ h', h' ≠ h → s.token h' = none

variable {state : DispatchState} {h : Holder} {s : Dispatching ι μ}

lemma OneToken.state_eq (hone : s.OneToken) (htoken : s.token h = some state) :
    s.state = state ∧ state ≠ .idle ∧ ∀ h', h' ≠ h → s.token h' = none := by
  rcases hone with ⟨-, hnone⟩ | ⟨h₀, hstate, htoken₀, hothers⟩
  · rw [hnone h] at htoken
    cases htoken
  · have heq : h = h₀ := by
      by_contra hne
      rw [hothers h hne] at htoken
      cases htoken
    subst heq
    rw [htoken₀, Option.some.injEq] at htoken
    exact ⟨htoken, htoken ▸ hstate, hothers⟩

variable {s s' : Dispatching ι μ}

/-- Nobody's token and nothing of the state changes. -/
lemma OneToken.same (hone : s.OneToken) (hstate : s'.state = s.state)
    (htoken : ∀ h, s'.token h = s.token h) : s'.OneToken := by
  unfold OneToken
  simp only [hstate, htoken]
  exact hone

/-- The token is handed on, or the state that goes with it changes. -/
lemma OneToken.move (hone : s.OneToken) (h h' : Holder)
    (htoken : s.token h = some state) (hidle : s'.state ≠ .idle)
    (hnew : s'.token h' = some s'.state) (hold : h ≠ h' → s'.token h = none)
    (hothers : ∀ k, k ≠ h → k ≠ h' → s'.token k = s.token k) : s'.OneToken := by
  obtain ⟨-, -, hnone⟩ := hone.state_eq htoken
  refine .inr ⟨h', hidle, hnew, fun k hk => ?_⟩
  by_cases hkh : k = h
  · subst hkh
    exact hold hk
  · rw [hothers k hkh hk]
    exact hnone k hkh

/-- An idle actor is scheduled. -/
lemma OneToken.acquire (hone : s.OneToken) (hidle : s.state = .idle)
    (h : Holder) (hstate : s'.state ≠ .idle) (hnew : s'.token h = some s'.state)
    (hothers : ∀ k, k ≠ h → s'.token k = s.token k) : s'.OneToken := by
  rcases hone with ⟨-, hnone⟩ | ⟨h₀, hstate₀, -, -⟩
  · refine .inr ⟨h, hstate, hnew, fun k hk => ?_⟩
    rw [hothers k hk]
    exact hnone k
  · exact absurd hidle hstate₀

/-- The actor is given up. -/
lemma OneToken.release (hone : s.OneToken) (h : Holder)
    (htoken : s.token h = some state) (hidle : s'.state = .idle)
    (hnew : s'.token h = none) (hothers : ∀ k, k ≠ h → s'.token k = s.token k) : s'.OneToken := by
  obtain ⟨-, -, hnone⟩ := hone.state_eq htoken
  refine .inl ⟨hidle, fun k => ?_⟩
  by_cases hk : k = h
  · subst hk
    exact hnew
  · rw [hothers k hk]
    exact hnone k hk

@[simp] lemma token_setProducer (s : Dispatching ι μ) (p : ℕ) (phase : ProducerPhase)
    (h : Holder) : (s.setProducer p phase).token h =
      if h = .producer p then phase.token else s.token h := by
  cases h with
  | producer p' =>
    by_cases hp : p' = p
    · subst hp
      simp [token, setProducer]
    · simp [token, setProducer, hp]
  | queue i | worker w =>
    rw [if_neg nofun]
    rfl

@[simp] lemma token_setWorker (s : Dispatching ι μ) (w : ℕ) (phase : TurnPhase ι μ)
    (h : Holder) : (s.setWorker w phase).token h =
      if h = .worker w then phase.token else s.token h := by
  cases h with
  | worker w' =>
    by_cases hw : w' = w
    · subst hw
      simp [token, setWorker]
    · simp [token, setWorker, hw]
  | queue i | producer p =>
    rw [if_neg nofun]
    rfl

@[simp] lemma token_setState (s : Dispatching ι μ) (state : DispatchState) (h : Holder) :
    (s.setState state).token h = s.token h := by
  cases h <;> rfl

@[simp] lemma token_setMailbox [DecidableEq ι] (s : Dispatching ι μ) (m : ι) (messages : List μ)
    (h : Holder) : (s.setMailbox m messages).token h = s.token h := by
  cases h <;> rfl

@[simp] lemma token_nextRound (d : Discipline ι) (left : ℕ) :
    (nextRound d left : TurnPhase ι μ).token = some .processing := by
  cases left <;> rfl

/-- A push or a take changes one entry. -/
lemma token_setEntries (s : Dispatching ι μ) (n : ℕ)
    (hsame : ∀ i, h = .queue i → (i < n ↔ i < s.entries)) :
    ({ s with entries := n } : Dispatching ι μ).token h = s.token h := by
  cases h with
  | queue i => simp [token, hsame i rfl]
  | _ => rfl

lemma OneToken.enter (hone : s.OneToken) (h : Holder)
    (htoken : s.token h = some .scheduled) (hstate : s'.state = s.state)
    (hentries : s'.entries = s.entries + 1) (hold : s'.token h = none)
    (hothers : ∀ k, k ≠ h → k ≠ .queue s.entries → s'.token k = s.token k) : s'.OneToken := by
  have hscheduled := (hone.state_eq htoken).1
  refine hone.move h (.queue s.entries) htoken ?_ ?_ (fun _ => hold) hothers
  · rw [hstate, hscheduled]
    decide
  · rw [hstate, hscheduled, token, hentries, if_pos (Nat.lt_succ_self _)]

lemma token_push (s : Dispatching ι μ) (hne : h ≠ .queue s.entries) :
    ({ s with entries := s.entries + 1 } : Dispatching ι μ).token h = s.token h := by
  refine token_setEntries s _ fun i hi => ?_
  have hi' : i ≠ s.entries := fun heq => hne (heq ▸ hi)
  omega

lemma OneToken.keepProducer (hone : s.OneToken) {p : ℕ} {token : Option DispatchState}
    (hself : s.token (.producer p) = token) {phase : ProducerPhase} (hphase : phase.token = token) :
    (s.setProducer p phase).OneToken := by
  refine hone.same rfl fun h => ?_
  rw [token_setProducer]
  split_ifs with hh
  · rw [hh, hself, hphase]
  · rfl

variable {w : ℕ}

lemma OneToken.keepWorker (hone : s.OneToken) {token : Option DispatchState}
    (hself : s.token (.worker w) = token) {phase : TurnPhase ι μ} (hphase : phase.token = token) :
    (s.setWorker w phase).OneToken := by
  refine hone.same rfl fun h => ?_
  rw [token_setWorker]
  split_ifs with hh
  · rw [hh, hself, hphase]
  · rfl

/-- A worker that holds the token goes on with it in another state. -/
lemma OneToken.advance (hone : s.OneToken)
    (htoken : s.token (.worker w) = some state) {phase : TurnPhase ι μ} {state' : DispatchState}
    (hidle : state' ≠ .idle) (hphase : phase.token = some state') :
    ((s.setState state').setWorker w phase).OneToken := by
  refine hone.move (.worker w) (.worker w) htoken hidle ?_ (fun h => absurd rfl h) fun k hk _ => ?_
  · rw [token_setWorker, if_pos rfl, hphase]
    rfl
  · rw [token_setWorker, if_neg hk, token_setState]

variable {s s' : Dispatching ι μ}

lemma OneToken.take (hone : s.OneToken) (hentries : 0 < s.entries) :
    ({ s with entries := s.entries - 1 }.setWorker w .took).OneToken := by
  have hlast : s.entries - 1 < s.entries := Nat.sub_lt hentries Nat.one_pos
  have hqueue : s.token (.queue (s.entries - 1)) = some .scheduled := if_pos hlast
  have hscheduled := (hone.state_eq hqueue).1
  refine hone.move (.queue (s.entries - 1)) (.worker w) hqueue ?_ ?_ (fun _ => ?_)
    (fun k hk hworker => ?_)
  · change s.state ≠ .idle
    rw [hscheduled]
    decide
  · rw [token_setWorker, if_pos rfl]
    exact congrArg some hscheduled.symm
  · rw [token_setWorker, if_neg nofun]
    exact if_neg (lt_irrefl _)
  · rw [token_setWorker, if_neg hworker]
    refine token_setEntries s _ fun i hi => ?_
    have hi' : i ≠ s.entries - 1 := fun heq => hk (heq ▸ hi)
    omega

lemma OneToken.entries_le (hone : s.OneToken) : s.entries ≤ 1 := by
  by_contra hgt
  have hfirst : s.token (.queue 0) = some .scheduled := if_pos (by omega)
  have hsecond : s.token (.queue 1) = some .scheduled := if_pos (by omega)
  have hnone := (hone.state_eq hfirst).2.2 (.queue 1) (by decide)
  rw [hsecond] at hnone
  cases hnone

lemma OneToken.busy (hone : s.OneToken) (htoken : s.token h = some state) : s.state ≠ .idle := by
  obtain ⟨hstate, hne, -⟩ := hone.state_eq htoken
  exact hstate ▸ hne

section Steps
variable [DecidableEq ι] {d : Discipline ι} {throughput : ℕ} {e : DispatchEvent ι μ}

lemma OneToken.setMailbox (hone : s.OneToken) (m : ι) (messages : List μ) :
    (s.setMailbox m messages).OneToken :=
  hone.same rfl fun h => token_setMailbox s m messages h

lemma OneToken.producerStep (hone : s.OneToken) {p : ℕ}
    (hstep : s.producerStep p (s.producers p) e = some s') : s'.OneToken := by
  have hself : s.token (.producer p) = (s.producers p).token := rfl
  unfold Dispatching.producerStep at hstep
  split at hstep <;> cases hstep
  all_goals
    rename_i hphase
    rw [hphase] at hself
  · exact (hone.setMailbox _ _).keepProducer hself rfl
  · refine hone.keepProducer hself ?_
    split_ifs <;> rfl
  · split_ifs with hidle
    · refine hone.acquire hidle (.producer p) nofun ?_ (fun k hk => ?_)
      · rw [token_setProducer, if_pos rfl]
        rfl
      · rw [token_setProducer, if_neg hk, token_setState]
    · exact hone.keepProducer hself rfl
  · refine hone.enter (.producer p) hself rfl rfl ?_ (fun k hk hqueue => ?_)
    · rw [token_setProducer, if_pos rfl]
      rfl
    · rw [token_setProducer, if_neg hk, token_push s hqueue]

lemma OneToken.workerStep (hone : s.OneToken) {w : ℕ}
    (hstep : s.workerStep d throughput w (s.workers w) e = some s') : s'.OneToken := by
  have hself : s.token (.worker w) = (s.workers w).token := rfl
  unfold Dispatching.workerStep at hstep
  split at hstep <;> try cases hstep
  all_goals
    rename_i hphase
    rw [hphase] at hself
  · split_ifs at hstep with hentries
    cases hstep
    exact hone.take hentries
  · rw [if_pos (hone.state_eq hself).1]
    exact hone.advance hself nofun (token_nextRound d throughput)
  · split at hstep <;> cases hstep
    · exact hone.keepWorker hself rfl
    · exact (hone.setMailbox _ _).keepWorker hself rfl
  · exact hone.keepWorker hself rfl
  · exact hone.keepWorker hself (token_nextRound ..)
  · refine hone.release (.worker w) hself rfl ?_ (fun k hk => ?_)
    · rw [token_setWorker, if_pos rfl]
      rfl
    · rw [token_setWorker, if_neg hk, token_setState]
  · refine hone.keepWorker hself ?_
    split_ifs <;> rfl
  · exact hone.keepWorker hself rfl
  · refine hone.keepWorker hself ?_
    split_ifs <;> rfl
  · split_ifs with hidle
    · refine hone.acquire hidle (.worker w) nofun ?_ (fun k hk => ?_)
      · rw [token_setWorker, if_pos rfl]
        rfl
      · rw [token_setWorker, if_neg hk, token_setState]
    · exact hone.keepWorker hself rfl
  · rw [if_pos (hone.state_eq hself).1]
    exact hone.advance hself nofun (token_nextRound d _)
  · exact hone.advance hself nofun rfl
  · refine hone.enter (.worker w) hself rfl rfl ?_ (fun k hk hqueue => ?_)
    · rw [token_setWorker, if_pos rfl]
      rfl
    · rw [token_setWorker, if_neg hk, token_push s hqueue]

lemma OneToken.step (hone : s.OneToken) (hstep : s.step d throughput e = some s') :
    s'.OneToken := by
  unfold Dispatching.step at hstep
  cases e with
  | enqueue | load | swap | push => exact hone.producerStep hstep
  | _ => exact hone.workerStep hstep

end Steps

/-! ## No lost wake-up -/

/-- The worker has given up the actor and will still look at the mailbox, or has decided
to reclaim the actor. -/
def LooksAt (m : ι) : TurnPhase ι μ → Prop
  | .checking _ rest => m ∈ rest
  | .loading _ => True
  | .swapping _ => True
  | _ => False

/-- While the actor is idle and a mailbox holds a message, a producer is about to schedule
the actor or a worker is about to look. -/
def Attended (s : Dispatching ι μ) : Prop :=
  s.state = .idle → ∀ m, s.mailboxes m ≠ [] →
    (∃ p, s.producers p = .loading ∨ s.producers p = .swapping) ∨ ∃ w, LooksAt m (s.workers w)

lemma attended_of_busy (h : s.state ≠ .idle) : s.Attended := fun hidle => absurd hidle h

lemma attended_of_producer {p : ℕ} {phase : ProducerPhase}
    (hphase : phase = .loading ∨ phase = .swapping) : (s.setProducer p phase).Attended := by
  intro _ m _
  refine .inl ⟨p, ?_⟩
  simpa [setProducer] using hphase

/-- A worker moves and still looks at whatever it was to look at and is not empty. -/
lemma Attended.setWorker (h : s.Attended) {w : ℕ} {phase : TurnPhase ι μ}
    (hlooks : ∀ m, s.mailboxes m ≠ [] → LooksAt m (s.workers w) → LooksAt m phase) :
    (s.setWorker w phase).Attended := by
  intro hidle m hm
  rcases h hidle m hm with hproducer | ⟨w', hw'⟩
  · exact .inl hproducer
  · refine .inr ⟨w', ?_⟩
    by_cases hw : w' = w
    · subst hw
      simpa [Dispatching.setWorker] using hlooks m hm hw'
    · simpa [Dispatching.setWorker, hw] using hw'

section Steps
variable [DecidableEq ι] {d : Discipline ι} {throughput : ℕ} {e : DispatchEvent ι μ}

lemma attended_producerStep (hone : s.OneToken) {p : ℕ}
    (hstep : s.producerStep p (s.producers p) e = some s') : s'.Attended := by
  have hself : s.token (.producer p) = (s.producers p).token := rfl
  unfold producerStep at hstep
  split at hstep <;> cases hstep
  · exact attended_of_producer (.inl rfl)
  · split_ifs with hidle
    · exact attended_of_producer (.inr rfl)
    · exact attended_of_busy hidle
  · split_ifs with hidle
    · exact attended_of_busy nofun
    · exact attended_of_busy hidle
  next hphase =>
    rw [hphase] at hself
    exact attended_of_busy (hone.busy hself)

lemma Attended.workerStep (h : s.Attended) (hone : s.OneToken) {w : ℕ}
    (hstep : s.workerStep d throughput w (s.workers w) e = some s') : s'.Attended := by
  have hself : s.token (.worker w) = (s.workers w).token := rfl
  unfold Dispatching.workerStep at hstep
  split at hstep <;> try cases hstep
  all_goals
    rename_i hphase
    rw [hphase] at hself
  · split_ifs at hstep with hentries
    cases hstep
    have hqueue : s.token (.queue 0) = some .scheduled := if_pos hentries
    exact attended_of_busy (hone.busy hqueue)
  · rw [if_pos (hone.state_eq hself).1]
    exact attended_of_busy nofun
  · split at hstep <;> cases hstep
    · exact attended_of_busy (hone.busy hself)
    · exact attended_of_busy (hone.busy hself)
  · exact attended_of_busy (hone.busy hself)
  · exact attended_of_busy (hone.busy hself)
  · -- The actor becomes idle: the worker is to look at every mailbox.
    intro _ m _
    refine .inr ⟨w, ?_⟩
    simpa [Dispatching.setWorker, LooksAt] using d.covers m
  · refine h.setWorker fun m' hm' hlooks => ?_
    rw [hphase] at hlooks
    split_ifs with hempty
    · rcases List.mem_cons.mp hlooks with rfl | hrest
      · exact absurd hempty hm'
      · exact hrest
    · trivial
  · refine h.setWorker fun m' _ hlooks => ?_
    rw [hphase] at hlooks
    cases hlooks
  · split_ifs with hidle
    · exact h.setWorker fun _ _ _ => trivial
    · exact attended_of_busy hidle
  · split_ifs with hidle
    · exact attended_of_busy nofun
    · exact attended_of_busy hidle
  · rw [if_pos (hone.state_eq hself).1]
    exact attended_of_busy nofun
  · exact attended_of_busy nofun
  · exact attended_of_busy (hone.busy hself)

lemma Attended.step (h : s.Attended) (hone : s.OneToken)
    (hstep : s.step d throughput e = some s') : s'.Attended := by
  unfold Dispatching.step at hstep
  cases e with
  | enqueue | load | swap | push => exact attended_producerStep hone hstep
  | _ => exact h.workerStep hone hstep

end Steps

/-! ## The protocol -/

structure Sound (s : Dispatching ι μ) : Prop where
  token : s.OneToken
  attended : s.Attended

/-- The worker is between taking the actor from the ready queue and releasing it. -/
def Owns (phase : TurnPhase ι μ) : Prop := phase.token ≠ none

/-- No two workers own the actor, it is in the ready queue at most once, and when nobody
is at work on it, a message in a mailbox means that it is scheduled and in the ready
queue. A worker is at work from taking the actor to the end of its turn, with the check that
follows the release, and a producer from its enqueue to its push. -/
structure Disciplined (s : Dispatching ι μ) : Prop where
  exclusive : ∀ w w', Owns (s.workers w) → Owns (s.workers w') → w = w'
  once : s.entries ≤ 1
  awake : (∀ p, s.producers p = .idle) → (∀ w, s.workers w = .away) →
    (∃ m, s.mailboxes m ≠ []) → s.state = .scheduled ∧ s.entries = 1

lemma Sound.disciplined (h : s.Sound) : s.Disciplined where
  exclusive w w' hw hw' := by
    by_contra hne
    obtain ⟨state, hstate⟩ := Option.ne_none_iff_exists'.mp hw
    have htoken : s.token (.worker w) = some state := hstate
    exact hw' ((h.token.state_eq htoken).2.2 (.worker w') (by simpa using Ne.symm hne))
  once := h.token.entries_le
  awake hproducers hworkers hmessage := by
    obtain ⟨m, hm⟩ := hmessage
    rcases h.token with ⟨hidle, -⟩ | ⟨holder, hstate, htoken, hothers⟩
    · -- An idle actor with a message would be attended to by somebody.
      rcases h.attended hidle m hm with ⟨p, hp⟩ | ⟨w, hw⟩
      · rw [hproducers p] at hp
        simp at hp
      · rw [hworkers w] at hw
        cases hw
    · cases holder with
      | producer p => simp [Dispatching.token, hproducers p, ProducerPhase.token] at htoken
      | worker w => simp [Dispatching.token, hworkers w, TurnPhase.token] at htoken
      | queue i =>
        have hle := h.token.entries_le
        simp only [Dispatching.token] at htoken
        split_ifs at htoken with hi
        exact ⟨(Option.some.inj htoken).symm, by omega⟩

lemma disciplined_run [DecidableEq ι] (d : Discipline ι) (throughput : ℕ)
    {events : List (DispatchEvent ι μ)}
    (hrun : (dispatchSystem d throughput).run events = some s) : s.Disciplined := by
  have hsound : s.Sound := by
    refine System.run_invariant ?_ (fun s e s' hinv hstep => ?_) hrun
    · refine ⟨.inl ⟨rfl, fun h => ?_⟩, fun _ m hm => absurd rfl hm⟩
      cases h <;> rfl
    · exact ⟨hinv.token.step hstep, hinv.attended.step hinv.token hstep⟩
  exact hsound.disciplined

end Dispatching

/-- Actors with two mailboxes and grains with one are dispatched alike. -/
theorem dispatch_disciplined {μ : Type} (throughput : ℕ) :
    (∀ (events : List (DispatchEvent Mailbox μ)) (s : Dispatching Mailbox μ),
      (dispatchSystem pidDiscipline throughput).run events = some s → s.Disciplined) ∧
    (∀ (events : List (DispatchEvent Unit μ)) (s : Dispatching Unit μ),
      (dispatchSystem grainDiscipline throughput).run events = some s → s.Disciplined) :=
  ⟨fun _ _ hrun => disciplined_run pidDiscipline throughput hrun,
    fun _ _ hrun => disciplined_run grainDiscipline throughput hrun⟩

/-- A producer enqueues while the worker gives the actor up, and the worker reclaims it. -/
def reclaimedTurn : List (DispatchEvent Mailbox ℕ) :=
  [.enqueue 0 .user 7, .load 0, .swap 0, .push 0, .take 0, .takeForProcessing 0, .dequeue 0,
    .dequeue 0, .handled 0, .dequeue 0, .dequeue 0, .dequeue 0, .enqueue 1 .system 8, .load 1,
    .reset 0, .isEmpty 0, .isEmpty 0, .loadAgain 0, .swapAgain 0, .reclaim 0]

theorem dispatch_disciplined_reclaimedTurn :
    ∃ s, (dispatchSystem pidDiscipline 4).run reclaimedTurn = some s ∧
      s.state = .processing ∧ s.Disciplined :=
  ⟨_, rfl, rfl, (dispatch_disciplined 4).1 reclaimedTurn _ rfl⟩

/-- The worker has released the actor and not yet checked the mailboxes again. A message is there,
its producer is done, nobody owns the actor, and it is idle. -/
theorem released_before_check :
    ∃ s, (dispatchSystem pidDiscipline 4).run (reclaimedTurn.take 15) = some s ∧
      (∀ p, s.producers p = .idle) ∧ (∀ w, ¬Owns (s.workers w)) ∧ s.mailboxes .system = [8] ∧
      s.state = .idle ∧ s.entries = 0 := by
  refine ⟨_, rfl, fun p => ?_, fun w => not_not.mpr ?_, rfl, rfl, rfl⟩
  · rcases p with _ | _ | p <;> rfl
  · rcases w with _ | w <;> rfl

end GoAkt.Actor
