import GoAkt.Interleavings

/-!
# Passivation of idle actors

An actor with a time-based strategy records when it handled its last message. All messages of one
turn get the time at which the turn began. The passivation manager keeps a deadline for the actor,
the timeout after the last message it was told of: the actor tells it at most once in a touch
interval. When the deadline is over, the manager takes the entry off its heap, and with its lock
released lets the actor try to stop. If the actor declines, the entry is queued again with a fresh
deadline. Messages can be handled between the two, but the deadline of an entry that is not queued
stays.
-/
namespace GoAkt.Actor
open GoAkt.Interleavings

/-- In nanoseconds, as all times. -/
def passivationTouchInterval : ℤ := 100000000

/-- A message: when it was handled, the time it was recorded with, and when the message before it
was handled, or 0. -/
structure HandledMessage where
  time : ℤ
  stamp : ℤ
  previous : ℤ

/-- `latestReceiveTime` is 0 before the first message. `turn` is the time at which the actor's turn
began, `fired` when the manager's timer fired for it, and `last` and `stopped` are the last message
and the time of the stop. -/
structure Passivation where
  clock : ℤ
  latestReceiveTime : ℤ
  lastPassivationTouch : ℤ
  deadline : ℤ
  queued : Bool
  turn : ℤ
  fired : ℤ
  last : Option HandledMessage
  stopped : Option ℤ

/-- A turn begins, a message is handled, the manager's timer fires, and the actor tries to stop,
which it may decline because it is suspended, paused or was just reinstated. -/
inductive PassivationEvent
  | runTurn (now : ℤ)
  | dispatchOne (now : ℤ)
  | trigger (now : ℤ)
  | tryPassivation (now : ℤ) (stops : Bool)

namespace Passivation
variable (timeout : ℤ) (s : Passivation)

def refreshDeadline (now : ℤ) : Passivation :=
  { s with deadline := (if s.latestReceiveTime = 0 then now else s.latestReceiveTime) + timeout }

def touch (now : ℤ) : Passivation :=
  if s.queued then s.refreshDeadline timeout now else s

def markActivity (now at' : ℤ) : Passivation :=
  let s := { s with latestReceiveTime := at' }
  if passivationTouchInterval ≤ at' - s.lastPassivationTouch then
    touch timeout { s with lastPassivationTouch := at' } now
  else s

/-- When the last message was handled, or 0. -/
def lastTime : ℤ := s.last.elim 0 HandledMessage.time

/-- The message is recorded with the time at which the turn began. -/
def dispatchOne (now : ℤ) : Passivation :=
  markActivity timeout { s with clock := now, last := some ⟨now, s.turn, s.lastTime⟩ } now s.turn

def step : PassivationEvent → Option Passivation
  | .runTurn now => allow (s.clock ≤ now ∧ s.stopped = none) { s with clock := now, turn := now }
  | .dispatchOne now => allow (s.clock ≤ now ∧ s.stopped = none) (s.dispatchOne timeout now)
  | .trigger now => allow (s.clock ≤ now ∧ s.queued = true ∧ s.deadline ≤ now)
      { s with clock := now, queued := false, fired := now }
  | .tryPassivation now stops => allow (s.clock ≤ now ∧ s.queued = false ∧ s.stopped = none)
      (if stops then { s with clock := now, stopped := some now }
      else refreshDeadline timeout { s with clock := now, queued := true } now)

/-- The actor is registered when it has started. -/
def system (timeout : ℤ) (started : ℕ) : System Passivation PassivationEvent where
  start := refreshDeadline timeout ⟨started, 0, 0, 0, true, started, started, none, none⟩ started
  step := step timeout

/-- The actor stops, and its last message was recorded less than the touch interval after the one
before it, or was handled when the timer had fired. -/
def hurried : PassivationEvent → Bool
  | .tryPassivation _ true => s.last.any fun m =>
      m.stamp < m.previous + passivationTouchInterval || s.fired ≤ m.time
  | _ => false

/-- The deadline of an entry off the heap is over, and the deadline covers the last message if the
manager was told of it in time. -/
structure Idle (timeout : ℤ) (s : Passivation) : Prop where
  nonneg : 0 ≤ s.clock
  turn_le : s.turn ≤ s.clock
  fired_le : s.fired ≤ s.clock
  touched : s.lastPassivationTouch ≤ s.lastTime
  latest : ∀ m ∈ s.last, s.latestReceiveTime = m.stamp ∧ m.stamp ≤ m.time ∧ m.time ≤ s.clock
  due : s.queued = false → s.deadline ≤ s.fired
  covered : ∀ m ∈ s.last, m.previous + passivationTouchInterval ≤ m.stamp →
    s.queued = true ∨ m.time < s.fired → m.stamp + timeout ≤ s.deadline
  idle : ∀ now ∈ s.stopped, ∀ m ∈ s.last, timeout ≤ now - m.stamp

variable {timeout : ℤ} {started : ℕ} {s s' : Passivation} {e : PassivationEvent}

lemma le_refreshDeadline {now at' : ℤ} (hlatest : s.latestReceiveTime = at') (hle : at' ≤ now) :
    at' + timeout ≤ (s.refreshDeadline timeout now).deadline := by
  unfold refreshDeadline
  dsimp only
  split_ifs with hzero
  · omega
  · omega

/-- Handling a message does not touch the deadline of an entry off the heap. -/
lemma markActivity_spec (timeout : ℤ) (s : Passivation) (now at' : ℤ) :
    let marked := s.markActivity timeout now at'
    marked = { s with
      latestReceiveTime := at'
      lastPassivationTouch := marked.lastPassivationTouch
      deadline := marked.deadline } ∧
    (s.queued = false → marked.deadline = s.deadline) ∧
    marked.lastPassivationTouch ≤ max s.lastPassivationTouch at' ∧
    (passivationTouchInterval ≤ at' - s.lastPassivationTouch → s.queued = true →
      at' ≤ now → at' + timeout ≤ marked.deadline) := by
  dsimp only [markActivity, touch]
  split_ifs with htouch hqueued
  · exact ⟨rfl, fun hoff => (by simp_all), le_max_right _ _,
      fun _ _ hle => le_refreshDeadline rfl hle⟩
  · exact ⟨rfl, fun _ => rfl, le_max_right _ _, fun _ hon => absurd hon hqueued⟩
  · exact ⟨rfl, fun _ => rfl, le_max_left _ _, fun hle => absurd hle htouch⟩

namespace Idle
variable (h : s.Idle timeout)
include h

lemma lastTime_le : s.lastTime ≤ s.clock := by
  unfold lastTime
  cases hlast : s.last with
  | none => exact h.nonneg
  | some m => exact (h.latest m hlast).2.2

/-- Time passes. -/
lemma wait {now : ℤ} (hclock : s.clock ≤ now) : { s with clock := now }.Idle timeout :=
  { h with
    nonneg := h.nonneg.trans hclock
    turn_le := h.turn_le.trans hclock
    fired_le := h.fired_le.trans hclock
    latest := fun m hm => (h.latest m hm).imp_right (And.imp_right fun hle => hle.trans hclock) }

lemma dispatchOne {now : ℤ} (hclock : s.clock ≤ now) (hup : s.stopped = none) :
    (s.dispatchOne timeout now).Idle timeout := by
  obtain ⟨hmarked, hoff, htouch, htold⟩ := markActivity_spec timeout
    { s with clock := now, last := some ⟨now, s.turn, s.lastTime⟩ } now s.turn
  have hturn := h.turn_le.trans hclock
  have hfired := h.fired_le.trans hclock
  have hlast := h.lastTime_le.trans hclock
  have htouched := h.touched
  unfold Passivation.dispatchOne
  rw [hmarked]
  refine ⟨h.nonneg.trans hclock, hturn, hfired, ?_, fun m hm => ?_, fun hqueued => ?_,
    fun m hm hapart hin => ?_, fun now' hnow' => ?_⟩
  · exact htouch.trans (max_le (htouched.trans hlast) hturn)
  · cases hm
    exact ⟨rfl, hturn, le_rfl⟩
  · exact (hoff hqueued).trans_le (h.due hqueued)
  · cases hm
    rcases hin with hqueued | hbefore
    · exact htold (by dsimp only at hapart ⊢; omega) hqueued hturn
    · exact absurd hbefore (not_lt.mpr hfired)
  · cases hup.symm.trans hnow'

lemma step (hstep : s.step timeout e = some s') (hcalm : ¬s.hurried e = true) :
    s'.Idle timeout := by
  cases e with
  | runTurn now =>
    obtain ⟨⟨hclock, -⟩, rfl⟩ := allow_eq_some.mp hstep
    exact { h.wait hclock with turn_le := le_rfl }
  | dispatchOne now =>
    obtain ⟨⟨hclock, hup⟩, rfl⟩ := allow_eq_some.mp hstep
    exact h.dispatchOne hclock hup
  | trigger now =>
    obtain ⟨⟨hclock, hqueued, hover⟩, rfl⟩ := allow_eq_some.mp hstep
    exact { h.wait hclock with
      fired_le := le_rfl
      due := fun _ => hover
      covered := fun m hm hapart _ => h.covered m hm hapart (.inl hqueued) }
  | tryPassivation now stops =>
    obtain ⟨⟨hclock, hoff, hup⟩, rfl⟩ := allow_eq_some.mp hstep
    have hwait := h.wait hclock
    cases stops with
    | true =>
      refine { hwait with idle := fun now' hnow' m hm => ?_ }
      cases hnow'
      -- the manager was told of the message before the timer fired
      have htimely : m.previous + passivationTouchInterval ≤ m.stamp ∧ m.time < s.fired := by
        simpa [hurried, show s.last = some m from hm] using hcalm
      have hcovered := h.covered m hm htimely.1 (.inr htimely.2)
      have hdue := h.due hoff
      have hfired := hwait.fired_le
      dsimp only at hfired
      omega
    | false =>
      refine { hwait with
        due := nofun
        covered := fun m hm _ _ => ?_
        idle := fun now' hnow' => (by cases hup.symm.trans hnow') }
      obtain ⟨hstamp, hle, hnow⟩ := hwait.latest m hm
      exact le_refreshDeadline hstamp (hle.trans hnow)

end Idle

/-- If the last message before a stop was recorded at least the touch interval after the message
before it and was handled before the timer fired, the actor is stopped only when the timeout has
passed since that turn began, and so, if the message was handled when its turn began, only when it
has handled no message for the timeout. -/
theorem stopped_only_when_idle (timeout : ℤ) (started : ℕ) {events : List PassivationEvent}
    (hrun : (system timeout started).run events = some s)
    (hcalm : ¬(system timeout started).Took (hurried · · = true) events) :
    ∀ now ∈ s.stopped, ∀ m ∈ s.last, timeout - (m.time - m.stamp) ≤ now - m.time ∧
      (m.time = m.stamp → timeout ≤ now - m.time) := by
  intro now hnow m hm
  have hstart : (system timeout started).start.Idle timeout :=
    ⟨Int.natCast_nonneg _, le_rfl, le_rfl, le_rfl, nofun, nofun, nofun, nofun⟩
  have hidle := (System.safe_invariant hstart (fun _ _ _ h hstep hcalm => h.step hstep hcalm) hcalm
    hrun).idle now hnow m hm
  exact ⟨by omega, fun _ => by omega⟩

/-- Two messages, an attempt that the actor declines, and then nothing for the timeout. -/
def twoMessages : List PassivationEvent :=
  [.runTurn 100000000, .dispatchOne 100000000, .trigger 100000050, .tryPassivation 100000050 false,
    .runTurn 300000000, .dispatchOne 300000000, .trigger 300000050, .tryPassivation 300000060 true]

theorem stopped_only_when_idle_twoMessages :
    ∃ s, (system 50 1).run twoMessages = some s ∧ s.stopped = some 300000060 ∧
      ∀ m ∈ s.last, m.time = m.stamp → 50 ≤ 300000060 - m.time := by
  have hcalm (s : Passivation) (e) (h : (!s.hurried e) = true) : ¬s.hurried e = true := by
    simpa using h
  obtain ⟨s, hrun, hcalm, hstopped⟩ := System.exists_safe_run (system 50 1) twoMessages
    (fun s => s.stopped = some 300000060) hcalm (by decide +kernel)
  exact ⟨s, hrun, hstopped, fun m hm =>
    (stopped_only_when_idle 50 1 hrun hcalm _ hstopped m hm).2⟩

/-- With a timeout of 50 ms, an actor is stopped 10 ms after a message that the manager is not told
of, after one that is handled 40 ms after its turn began, and right after one that is handled when
the timer has fired. -/
theorem stopped_while_active :
    ((system 50000000 1).run [.runTurn 100000000, .dispatchOne 100000000, .runTurn 140000000,
        .dispatchOne 140000000, .trigger 150000000, .tryPassivation 150000000 true]).map
      (fun s => (s.lastTime, s.stopped)) = some (140000000, some 150000000) ∧
    ((system 50000000 1).run [.runTurn 100000000, .dispatchOne 140000000, .trigger 150000000,
        .tryPassivation 150000000 true]).map
      (fun s => (s.lastTime, s.stopped)) = some (140000000, some 150000000) ∧
    ((system 50000000 1).run [.runTurn 100000000, .dispatchOne 100000000, .trigger 250000000,
        .runTurn 250000000, .dispatchOne 250000000, .tryPassivation 250000000 true]).map
      (fun s => (s.lastTime, s.stopped)) = some (250000000, some 250000000) := by
  decide +kernel

end Passivation
end GoAkt.Actor
