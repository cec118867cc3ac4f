import GoAkt.FiniteMaps
import GoAkt.Interleavings

/-!
# Relocation after a departure

When a node leaves, the leader takes the node's peer state from the cluster store and puts
it on a queue of capacity one. A loop takes it from there, claims the one relocation slot
and tells the relocator to rebalance. The slot is free again when the relocator aborts, or
when the system guardian has handled its answer.

The event loop, the rebalancing loop, the relocator and the system guardian run at the same
time, and a step is one operation on what they share. The actor system is running and in
the cluster throughout. The fields `sent` and `due` are bookkeeping: the peer states for
which a `Rebalance` was sent, and those of the departures that call for one.
-/
namespace GoAkt.Actor
open GoAkt.FiniteMaps GoAkt.Interleavings List Option

/-- The state of a peer, under its address: its actors and its grains. -/
structure PeerState (ν κ : Type*) where
  address : ν
  actors : List κ
  grains : List κ
deriving DecidableEq

/-- A peer state with an actor or a grain is not the empty one, which the source checks too. -/
def shouldRebalance {ν κ : Type*} (peerState : PeerState ν κ) : Bool :=
  peerState.actors.length != 0 || peerState.grains.length != 0

/-- The place of the rebalancing loop: at the queue, at the slot, before its Tell. -/
inductive RebalancingLoop (ν κ : Type*)
  | receive
  | claim (peerState : PeerState ν κ)
  | tell (peerState : PeerState ν κ)

/-- `enqueueing` is the peer state that the handler of a departure still has to put on the
queue, `aborting` and `removing` the addresses whose peer states the relocator and the system
guardian still have to delete. `rebalances` and `completes` are what the relocator and the
system guardian have not finished. -/
structure Relocation (ν κ : Type*) where
  relocationEnabled : Bool
  clusterStore : Map ν (PeerState ν κ)
  rebalancedNodes : Finset ν
  rebalancingQueue : List (PeerState ν κ)
  relocating : Bool
  enqueueing : Option (PeerState ν κ)
  loop : RebalancingLoop ν κ
  rebalances : List (PeerState ν κ)
  aborting : Option ν
  completes : List ν
  removing : Option ν
  sent : List (PeerState ν κ)
  due : List (PeerState ν κ)

namespace Relocation

/-- What happens: a peer persists its state, the two cluster events, and the next steps of
the four parties. `ok` tells whether a Tell, a relocation or a deletion succeeds. -/
inductive Event (ν κ : Type*)
  | persist (peerState : PeerState ν κ)
  | nodeJoined (address : ν)
  | nodeLeft (address : ν) (leader : Bool)
  | enqueue
  | receive
  | claim
  | tell (ok : Bool)
  | relocate (ok : Bool)
  | abort (ok : Bool)
  | complete
  | remove (ok : Bool)

/-- The step is one of the actor system, not of its surroundings. -/
def Event.internal {ν κ : Type*} : Event ν κ → Bool
  | .persist _ | .nodeJoined _ | .nodeLeft .. => false
  | _ => true

variable {ν κ : Type*} [DecidableEq ν] (s : Relocation ν κ)

/-- The peer state that a departure calls to relocate. -/
def calls (address : ν) (leader : Bool) : Option (PeerState ν κ) :=
  if s.relocationEnabled && leader then (s.clusterStore.lookup address).filter shouldRebalance
  else none

/-- What `handleNodeLeftEvent` does before it waits at the queue. -/
def handleNodeLeftEvent (address : ν) (leader : Bool) : Relocation ν κ :=
  if !s.relocationEnabled then s
  else if leader then
    if address ∈ s.rebalancedNodes then s
    else
      let s := { s with rebalancedNodes := insert address s.rebalancedNodes }
      match s.clusterStore.lookup address with
      | none => s
      | some peerState => { s with enqueueing := some peerState }
  else { s with clusterStore := s.clusterStore.erase address }

def completeRelocation : Relocation ν κ :=
  { s with relocating := false }

def deletePeerState (address : ν) (ok : Bool) : Relocation ν κ :=
  if ok then { s with clusterStore := s.clusterStore.erase address } else s

def step : Event ν κ → Option (Relocation ν κ)
  | .persist peerState =>
    some { s with clusterStore := s.clusterStore.insert peerState.address peerState }
  | .nodeJoined _ =>
    match s.enqueueing with
    | none => some s
    | some _ => none
  | .nodeLeft address leader =>
    match s.enqueueing with
    | none =>
      let due := s.due ++ (s.calls address leader).toList
      some { s.handleNodeLeftEvent address leader with due }
    | some _ => none
  | .enqueue =>
    match s.enqueueing, s.rebalancingQueue with
    | some peerState, [] => some { s with enqueueing := none, rebalancingQueue := [peerState] }
    | _, _ => none
  | .receive =>
    match s.loop, s.rebalancingQueue with
    | .receive, peerState :: rest =>
      let loop := if shouldRebalance peerState then .claim peerState else .receive
      some { s with rebalancingQueue := rest, loop }
    | _, _ => none
  | .claim =>
    match s.loop, s.relocating with
    | .claim peerState, false => some { s with relocating := true, loop := .tell peerState }
    | _, _ => none
  | .tell ok =>
    match s.loop with
    | .tell peerState =>
      if ok then
        some { s with
          loop := .receive
          rebalances := s.rebalances ++ [peerState]
          sent := s.sent ++ [peerState] }
      else some { s with loop := .receive }
    | _ => none
  | .relocate ok =>
    match s.aborting, s.rebalances with
    | none, peerState :: rest =>
      if ok then some { s with rebalances := rest, completes := s.completes ++ [peerState.address] }
      else some { s with rebalances := rest, aborting := some peerState.address }.completeRelocation
    | _, _ => none
  | .abort ok =>
    s.aborting.map fun address => { s with aborting := none }.deletePeerState address ok
  | .complete =>
    match s.removing, s.completes with
    | none, address :: rest =>
      some { s with completes := rest, removing := some address }.completeRelocation
    | _, _ => none
  | .remove ok =>
    s.removing.map fun address => { s with removing := none }.deletePeerState address ok

def system (ν κ : Type*) [DecidableEq ν] (relocationEnabled : Bool) :
    System (Relocation ν κ) (Event ν κ) where
  start :=
    { relocationEnabled, clusterStore := ∅, rebalancedNodes := ∅, rebalancingQueue := []
      relocating := false, enqueueing := none, loop := .receive, rebalances := []
      aborting := none, completes := [], removing := none, sent := [], due := [] }
  step := step

/-- All that a step can do, one constructor for each branch. -/
inductive Move : Event ν κ → Relocation ν κ → Prop
  | persist (peerState : PeerState ν κ) : Move (.persist peerState)
      { s with clusterStore := s.clusterStore.insert peerState.address peerState }
  | nodeJoined (address : ν) : Move (.nodeJoined address) s
  | nodeLeft (address : ν) (leader : Bool) (henqueueing : s.enqueueing = none) :
      Move (.nodeLeft address leader) { s.handleNodeLeftEvent address leader with
        due := s.due ++ (s.calls address leader).toList }
  | enqueue (henqueueing : s.enqueueing = some peerState) (hqueue : s.rebalancingQueue = []) :
      Move .enqueue { s with enqueueing := none, rebalancingQueue := [peerState] }
  | take (hloop : s.loop = .receive) (hqueue : s.rebalancingQueue = peerState :: rest)
      (hshould : shouldRebalance peerState = true) :
      Move .receive { s with rebalancingQueue := rest, loop := .claim peerState }
  | drop (hloop : s.loop = .receive) (hqueue : s.rebalancingQueue = peerState :: rest)
      (hshould : shouldRebalance peerState = false) :
      Move .receive { s with rebalancingQueue := rest }
  | claim (hloop : s.loop = .claim peerState) (hrelocating : s.relocating = false) :
      Move .claim { s with relocating := true, loop := .tell peerState }
  | tell (hloop : s.loop = .tell peerState) : Move (.tell true) { s with
        loop := .receive
        rebalances := s.rebalances ++ [peerState]
        sent := s.sent ++ [peerState] }
  | lose (hloop : s.loop = .tell peerState) : Move (.tell false) { s with loop := .receive }
  | relocate (hrebalances : s.rebalances = peerState :: rest) : Move (.relocate true)
        { s with rebalances := rest, completes := s.completes ++ [peerState.address] }
  | fail (haborting : s.aborting = none)
      (hrebalances : s.rebalances = peerState :: rest) : Move (.relocate false)
        { s with rebalances := rest, aborting := some peerState.address, relocating := false }
  | abort (haborting : s.aborting = some address) :
      Move (.abort ok) ({ s with aborting := none }.deletePeerState address ok)
  | complete (hremoving : s.removing = none)
      (hcompletes : s.completes = address :: rest) : Move .complete
        { s with completes := rest, removing := some address, relocating := false }
  | remove (hremoving : s.removing = some address) :
      Move (.remove ok) ({ s with removing := none }.deletePeerState address ok)

lemma move_of_step {s s' : Relocation ν κ} {e : Event ν κ} (hstep : step s e = some s') :
    Move s e s' := by
  cases e with dsimp only [step] at hstep
  | persist peerState =>
    cases hstep
    exact .persist peerState
  | nodeJoined address =>
    split at hstep <;> cases hstep
    · exact .nodeJoined address
  | nodeLeft address leader =>
    split at hstep <;> cases hstep
    next henqueueing => exact .nodeLeft address leader henqueueing
  | enqueue =>
    split at hstep <;> cases hstep
    next peerState henqueueing hqueue => exact .enqueue henqueueing hqueue
  | receive =>
    split at hstep <;> cases hstep
    next peerState rest hloop hqueue =>
      cases hshould : shouldRebalance peerState with
      | true => exact .take hloop hqueue hshould
      | false =>
        rw [if_neg Bool.false_ne_true, ← hloop]
        exact .drop hloop hqueue hshould
  | claim =>
    split at hstep <;> cases hstep
    next peerState hloop hrelocating => exact .claim hloop hrelocating
  | tell ok =>
    split at hstep
    next peerState hloop =>
      cases ok with
      | true =>
        cases hstep
        exact .tell hloop
      | false =>
        cases hstep
        exact .lose hloop
    · cases hstep
  | relocate ok =>
    split at hstep
    next peerState rest haborting hrebalances =>
      cases ok with
      | true =>
        cases hstep
        exact .relocate hrebalances
      | false =>
        cases hstep
        exact .fail haborting hrebalances
    · cases hstep
  | abort ok =>
    obtain ⟨address, haborting, rfl⟩ := map_eq_some_iff.mp hstep
    exact .abort haborting
  | complete =>
    split at hstep <;> cases hstep
    next address rest hremoving hcompletes => exact .complete hremoving hcompletes
  | remove ok =>
    obtain ⟨address, hremoving, rfl⟩ := map_eq_some_iff.mp hstep
    exact .remove hremoving

/-! ### Books -/

/-- The peer state that the loop has taken from the queue. -/
def RebalancingLoop.inHand : RebalancingLoop ν κ → List (PeerState ν κ)
  | .receive => []
  | .claim peerState | .tell peerState => [peerState]

/-- The loop has claimed the slot and not used it yet. -/
def RebalancingLoop.telling : RebalancingLoop ν κ → ℕ
  | .tell _ => 1
  | _ => 0

/-- The steps that the loop has left, and those that follow from them. -/
def RebalancingLoop.remaining : RebalancingLoop ν κ → ℕ
  | .receive => 0
  | .claim _ => 5
  | .tell _ => 4

/-- The peer states that are still on their way to the relocator, in order. -/
def underway : List (PeerState ν κ) :=
  RebalancingLoop.inHand s.loop ++
    (s.rebalancingQueue ++ s.enqueueing.toList).filter shouldRebalance

/-- How many of the messages sent to the relocator are not completed. -/
def outstanding : ℕ := s.rebalances.length + s.completes.length

/-- How many steps the actor system has left, at most. -/
def remaining (s : Relocation ν κ) : ℕ :=
  7 * s.enqueueing.toList.length + 6 * s.rebalancingQueue.length +
    RebalancingLoop.remaining s.loop + 3 * s.rebalances.length + 2 * s.completes.length +
    s.aborting.toList.length + s.removing.toList.length

/-- A departure that calls for a relocation is ignored, because a node of that address left
before; or the Tell to the relocator fails. -/
def Hazard : Event ν κ → Prop
  | .nodeLeft address leader => address ∈ s.rebalancedNodes ∧ (s.calls address leader).isSome = true
  | .tell ok => ok = false
  | _ => False

/-- Every departure that called for a relocation was told to the relocator or is on its way
there, in order, and the slot is claimed exactly while one is told or not completed. -/
structure Sound (s : Relocation ν κ) : Prop where
  ledger : s.sent ++ s.underway = s.due
  slot : s.outstanding + RebalancingLoop.telling s.loop = s.relocating.toNat

/-- A departure changes the store, the nodes seen and what is put on the queue. If it is no
hazard, what calls for a relocation is put on the queue. -/
lemma handleNodeLeftEvent_spec (address : ν) (leader : Bool) (henqueueing : s.enqueueing = none) :
    ∃ store nodes next, s.handleNodeLeftEvent address leader =
        { s with clusterStore := store, rebalancedNodes := nodes, enqueueing := next } ∧
      (¬s.Hazard (.nodeLeft address leader) →
        next.toList.filter shouldRebalance = (s.calls address leader).toList) := by
  obtain ⟨enabled, store, nodes, queue, relocating, enqueueing, loop, rebalances, aborting,
    completes, removing, sent, due⟩ := s
  cases henqueueing
  cases enabled with
  | false => exact ⟨store, nodes, none, rfl, fun _ => rfl⟩
  | true =>
    cases leader with
    | false => exact ⟨store.erase address, nodes, none, rfl, fun _ => rfl⟩
    | true =>
      unfold handleNodeLeftEvent calls
      dsimp only
      by_cases hseen : address ∈ nodes
      · rw [if_pos hseen]
        refine ⟨store, nodes, none, rfl, fun hsafe => ?_⟩
        have hnone : (store.lookup address).filter shouldRebalance = none := by
          rw [← not_isSome_iff_eq_none]
          exact fun hsome => hsafe ⟨hseen, hsome⟩
        exact congrArg Option.toList hnone.symm
      · rw [if_neg hseen]
        cases hlookup : store.lookup address with
        | none => exact ⟨store, insert address nodes, none, rfl, fun _ => rfl⟩
        | some peerState =>
          refine ⟨store, insert address nodes, some peerState, rfl, fun _ => ?_⟩
          cases hshould : shouldRebalance peerState <;> simp [hshould, Option.filter]

variable {s s' : Relocation ν κ} {e : Event ν κ}

lemma deletePeerState_spec (s : Relocation ν κ) (address : ν) (ok : Bool) :
    ∃ store, s.deletePeerState address ok = { s with clusterStore := store } := by
  cases ok with
  | true => exact ⟨_, rfl⟩
  | false => exact ⟨s.clusterStore, rfl⟩

lemma Sound.step (h : Sound s) (hsafe : ¬s.Hazard e) (hmove : Move s e s') : Sound s' := by
  cases hmove with
  | persist peerState => exact ⟨h.ledger, h.slot⟩
  | nodeJoined address => exact h
  | nodeLeft address leader henqueueing =>
    obtain ⟨store, nodes, next, heq, hnext⟩ := s.handleNodeLeftEvent_spec address leader henqueueing
    rw [heq]
    refine ⟨?_, h.slot⟩
    have hledger := h.ledger
    unfold underway at hledger ⊢
    rw [henqueueing] at hledger
    dsimp only
    rw [← hledger, ← hnext hsafe]
    simp
  | enqueue henqueueing hqueue =>
    refine ⟨?_, h.slot⟩
    have hledger := h.ledger
    unfold underway at hledger ⊢
    rw [henqueueing, hqueue] at hledger
    exact hledger
  | take hloop hqueue hshould =>
    have hledger := h.ledger
    have hslot := h.slot
    unfold underway at hledger
    rw [hloop, hqueue, cons_append, filter_cons_of_pos hshould] at hledger
    rw [hloop] at hslot
    exact ⟨hledger, hslot⟩
  | drop hloop hqueue hshould =>
    refine ⟨?_, h.slot⟩
    have hledger := h.ledger
    unfold underway at hledger ⊢
    rw [hqueue, cons_append, filter_cons_of_neg (by rw [hshould]; nofun)] at hledger
    exact hledger
  | claim hloop hrelocating =>
    have hledger := h.ledger
    have hslot := h.slot
    unfold underway at hledger
    rw [hloop] at hledger hslot
    rw [hrelocating] at hslot
    exact ⟨hledger, congrArg (· + 1) hslot⟩
  | tell hloop =>
    have hledger := h.ledger
    have hslot := h.slot
    unfold underway at hledger
    unfold outstanding at hslot
    rw [hloop] at hledger hslot
    refine ⟨?_, ?_⟩
    · rw [← hledger]
      simp [underway, RebalancingLoop.inHand]
    · rw [← hslot]
      simp only [outstanding, RebalancingLoop.telling, length_append, length_singleton]
      omega
  | lose hloop => exact absurd rfl hsafe
  | relocate hrebalances =>
    refine ⟨h.ledger, ?_⟩
    have hslot := h.slot
    unfold outstanding at hslot ⊢
    rw [hrebalances] at hslot
    simp only [length_append, length_cons, length_nil] at hslot ⊢
    omega
  | fail _ hfirst | complete _ hfirst =>
    refine ⟨h.ledger, ?_⟩
    have hslot := h.slot
    have hbound := Bool.toNat_le s.relocating
    unfold outstanding at hslot ⊢
    rw [hfirst] at hslot
    simp only [length_cons, Bool.toNat_false] at hslot ⊢
    omega
  | @abort address ok haborting =>
    obtain ⟨store, heq⟩ := deletePeerState_spec { s with aborting := none } address ok
    rw [heq]
    exact ⟨h.ledger, h.slot⟩
  | @remove address ok hremoving =>
    obtain ⟨store, heq⟩ := deletePeerState_spec { s with removing := none } address ok
    rw [heq]
    exact ⟨h.ledger, h.slot⟩

lemma Sound.run {relocationEnabled : Bool} {es : List (Event ν κ)}
    (hsafe : ¬(system ν κ relocationEnabled).Took Hazard es)
    (hrun : (system ν κ relocationEnabled).run es = some s) : Sound s :=
  System.safe_invariant ⟨rfl, rfl⟩ (fun _ _ _ h hstep hsafe => h.step hsafe (move_of_step hstep))
    hsafe hrun

/-! ### Progress -/

/-- Every step of the actor system leaves it fewer steps. -/
lemma remaining_step (hinternal : e.internal = true) (hmove : Move s e s') :
    s'.remaining < s.remaining := by
  cases hmove with
  | persist | nodeJoined | nodeLeft => cases hinternal
  | enqueue henqueueing hqueue => simp [remaining, henqueueing, hqueue]
  | take hloop hqueue hshould =>
    simp [remaining, hloop, hqueue, RebalancingLoop.remaining]
    omega
  | drop hloop hqueue hshould => simp [remaining, hqueue]
  | claim hloop hrelocating | lose hloop => simp [remaining, hloop, RebalancingLoop.remaining]
  | tell hloop =>
    simp [remaining, hloop, RebalancingLoop.remaining]
    omega
  | relocate hrebalances =>
    simp [remaining, hrebalances]
    omega
  | fail hfree hfirst | complete hfree hfirst =>
    simp [remaining, hfirst, hfree]
    omega
  | @abort address ok haborting =>
    obtain ⟨store, heq⟩ := deletePeerState_spec { s with aborting := none } address ok
    rw [heq]
    simp [remaining, haborting]
  | @remove address ok hremoving =>
    obtain ⟨store, heq⟩ := deletePeerState_spec { s with removing := none } address ok
    rw [heq]
    simp [remaining, hremoving]

/-- As long as there are steps left, one of them can be taken. -/
lemma Sound.progress (h : Sound s) (hremaining : s.remaining ≠ 0) :
    ∃ e s', e.internal = true ∧ ¬s.Hazard e ∧ Relocation.step s e = some s' := by
  have hslot := h.slot
  unfold remaining at hremaining
  unfold outstanding at hslot
  have hcan : ∀ e : Event ν κ, e.internal = true → ¬s.Hazard e →
      (Relocation.step s e).isSome = true →
      ∃ e s', e.internal = true ∧ ¬s.Hazard e ∧ Relocation.step s e = some s' :=
    fun e hinternal hsafe hsome => ⟨e, _, hinternal, hsafe, (some_get hsome).symm⟩
  cases haborting : s.aborting with
  | some address => exact hcan (.abort true) rfl not_false (by simp [Relocation.step, haborting])
  | none =>
  cases hremoving : s.removing with
  | some address => exact hcan (.remove true) rfl not_false (by simp [Relocation.step, hremoving])
  | none =>
  cases hrebalances : s.rebalances with
  | cons peerState rest =>
    exact hcan (.relocate true) rfl not_false (by simp [Relocation.step, haborting, hrebalances])
  | nil =>
  cases hcompletes : s.completes with
  | cons address rest =>
    exact hcan .complete rfl not_false (by simp [Relocation.step, hremoving, hcompletes])
  | nil =>
  cases hloop : s.loop with
  | tell => exact hcan (.tell true) rfl nofun (by simp [Relocation.step, hloop])
  | claim =>
    have hfree : s.relocating = false := by
      rw [hrebalances, hcompletes, hloop] at hslot
      exact Bool.toNat_eq_zero.mp hslot.symm
    exact hcan .claim rfl not_false (by simp [Relocation.step, hloop, hfree])
  | receive =>
  cases hqueue : s.rebalancingQueue with
  | cons peerState rest =>
    exact hcan .receive rfl not_false (by simp [Relocation.step, hloop, hqueue])
  | nil =>
  cases henqueueing : s.enqueueing with
  | some peerState =>
    exact hcan .enqueue rfl not_false (by simp [Relocation.step, henqueueing, hqueue])
  | none =>
    rw [haborting, hremoving, hrebalances, hcompletes, hloop, hqueue, henqueueing] at hremaining
    exact absurd rfl hremaining

omit [DecidableEq ν] in
/-- With no step left, nothing is underway and the slot is free. -/
lemma Sound.at_rest (h : Sound s) (hremaining : s.remaining = 0) :
    s.sent = s.due ∧ s.relocating = false := by
  have hledger := h.ledger
  have hslot := h.slot
  unfold remaining at hremaining
  have hqueue : s.rebalancingQueue = [] := eq_nil_of_length_eq_zero (by omega)
  have henqueueing : s.enqueueing.toList = [] := eq_nil_of_length_eq_zero (by omega)
  have hrebalances : s.rebalances = [] := eq_nil_of_length_eq_zero (by omega)
  have hcompletes : s.completes = [] := eq_nil_of_length_eq_zero (by omega)
  have hloop : s.loop = .receive := by
    cases hloop : s.loop with
    | receive => rfl
    | claim | tell =>
      rw [hloop] at hremaining
      simp only [RebalancingLoop.remaining] at hremaining
      omega
  unfold underway at hledger
  unfold outstanding at hslot
  rw [hloop, hqueue, henqueueing] at hledger
  rw [hloop, hrebalances, hcompletes] at hslot
  exact ⟨(append_nil _).symm.trans hledger, Bool.toNat_eq_zero.mp hslot.symm⟩

/-- In every run without hazards each departure that calls for a relocation was told to the
relocator once, in order, or is underway; the slot is claimed only while the loop is about
to tell the relocator or a message to it is not completed. The actor system can always go
on, its steps come to an end, and when they have, every departure was told and the slot is
free. -/
theorem every_departure_relocated {relocationEnabled : Bool} {es : List (Event ν κ)}
    (hsafe : ¬(system ν κ relocationEnabled).Took Hazard es)
    (hrun : (system ν κ relocationEnabled).run es = some s) :
    s.sent ++ s.underway = s.due ∧
      s.outstanding + RebalancingLoop.telling s.loop = s.relocating.toNat ∧
      (∀ e s', e.internal = true → step s e = some s' → s'.remaining < s.remaining) ∧
      (s.remaining ≠ 0 → ∃ e s', e.internal = true ∧ ¬s.Hazard e ∧ step s e = some s') ∧
      (s.remaining = 0 → s.sent = s.due ∧ s.relocating = false) := by
  have hsound := Sound.run hsafe hrun
  refine ⟨hsound.ledger, hsound.slot, fun e s' hinternal hstep => ?_, hsound.progress,
    hsound.at_rest⟩
  exact remaining_step hinternal (move_of_step hstep)

/-- A test that no hazard passes. -/
def harmless (s : Relocation ν κ) : Event ν κ → Bool
  | .nodeLeft address _ => decide (address ∉ s.rebalancedNodes)
  | .tell ok => ok
  | _ => true

lemma not_hazard_of_harmless (s : Relocation ν κ) (e : Event ν κ) (htest : s.harmless e = true) :
    ¬s.Hazard e := by
  cases e with
  | nodeLeft address leader => exact fun hazard => of_decide_eq_true htest hazard.1
  | tell => exact fun hfalse => nomatch hfalse.symm.trans htest
  | _ => exact not_false

/-- Two nodes leave. The relocation of the first succeeds, that of the second is aborted. -/
def twoLeave : List (Event ℕ ℕ) :=
  [.persist ⟨1, [10], []⟩, .persist ⟨2, [], [20]⟩, .nodeLeft 1 true, .enqueue, .receive, .claim,
    .tell true, .nodeLeft 2 true, .enqueue, .receive, .relocate true, .complete, .claim,
    .remove true, .tell true, .relocate false, .abort true]

theorem every_departure_relocated_twoLeave :
    ∃ s, (system ℕ ℕ true).run twoLeave = some s ∧ s.remaining = 0 ∧
      s.due = [⟨1, [10], []⟩, ⟨2, [], [20]⟩] ∧ s.sent = s.due ∧ s.relocating = false := by
  obtain ⟨s, hrun, hsafe, hremaining, hdue⟩ := System.exists_safe_run (system ℕ ℕ true) twoLeave
    (fun s => s.remaining = 0 ∧ s.due = [⟨1, [10], []⟩, ⟨2, [], [20]⟩]) not_hazard_of_harmless
    (by decide +kernel)
  obtain ⟨-, -, -, -, hrest⟩ := every_departure_relocated hsafe hrun
  exact ⟨s, hrun, hremaining, hdue, hrest hremaining⟩

/-- A node leaves, joins and leaves again under its address. -/
def leaveTwice : List (Event ℕ ℕ) :=
  [.persist ⟨1, [10], []⟩, .nodeLeft 1 true, .enqueue, .receive, .claim, .tell true,
    .relocate true, .complete, .remove true, .nodeJoined 1, .persist ⟨1, [11], []⟩,
    .nodeLeft 1 true]

/-- The Tell to the relocator fails for the first of two departures. -/
def loseOne : List (Event ℕ ℕ) :=
  [.persist ⟨1, [10], []⟩, .persist ⟨2, [20], []⟩, .nodeLeft 1 true, .enqueue, .receive, .claim,
    .tell false, .nodeLeft 2 true, .enqueue, .receive]

/-- The second departure of a node leads to no message and no step is left. A failed Tell
leaves the slot claimed with no message outstanding, and the departure after it waits for
the slot without end. -/
theorem departure_ignored_or_blocked :
    (∃ s, (system ℕ ℕ true).run leaveTwice = some s ∧ s.remaining = 0 ∧
      s.due = [⟨1, [10], []⟩, ⟨1, [11], []⟩] ∧ s.sent = [⟨1, [10], []⟩]) ∧
    ∃ s, (system ℕ ℕ true).run loseOne = some s ∧ s.relocating = true ∧ s.outstanding = 0 ∧
      s.loop = .claim ⟨2, [20], []⟩ ∧ s.sent = [] ∧
      ∀ e s', e.internal = true → step s e ≠ some s' := by
  refine ⟨?_, ?_⟩
  · exact System.exists_run (by decide +kernel)
  · refine ⟨_, rfl, rfl, rfl, rfl, rfl, fun e s' hinternal hstep => ?_⟩
    cases e with
    | persist | nodeJoined | nodeLeft => cases hinternal
    | _ => cases hstep

end Relocation
end GoAkt.Actor
