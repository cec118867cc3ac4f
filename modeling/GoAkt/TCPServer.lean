import GoAkt.Interleavings
import Mathlib.Data.Fintype.Basic

/-!
# Shutdown of the TCP server

An accept loop hands a connection to the worker pool, and only the worker that takes it up counts
it. When the loops have ended, `Serve` looks at the counters and misses a connection that is on
its way to a worker, or that its worker has just counted off.
-/
namespace GoAkt.Net
open GoAkt.Interleavings Function List

/-- Where a connection is after an accept loop handed it to the pool: the steps of `serveConn`. -/
inductive ConnPlace
  | handed
  | awaited
  | active
  | closed
  | inactive
  | served
deriving DecidableEq

/-- In the wait group. -/
def isAwaited : ConnPlace → Bool
  | .awaited | .active | .closed | .inactive => true
  | _ => false

def isActive : ConnPlace → Bool
  | .active | .closed => true
  | _ => false

inductive ServePlace
  | collecting
  | checking
  | awaiting
  | returned
  | failed
deriving DecidableEq

/-- The server, with the result of each accept loop that has ended. -/
structure TCPServer (loops : ℕ) where
  shutdown : Bool
  result : Fin loops → Option Bool
  conns : List ConnPlace
  connWaitGroup : ℤ
  activeConnections : ℤ
  serve : ServePlace

namespace TCPServer

inductive Event (loops : ℕ)
  | shutdown
  | accept (i : Fin loops)
  | endLoop (i : Fin loops)
  | serveConn (c : ℕ)
  | serve

variable {loops : ℕ} (s : TCPServer loops)

/-- The next step of the worker that has the connection. -/
def serveConn (c : ℕ) : Option (TCPServer loops) :=
  let goto place := { s with conns := s.conns.set c place }
  match s.conns[c]? with
  | some .handed => some { goto .awaited with connWaitGroup := s.connWaitGroup + 1 }
  | some .awaited => some { goto .active with activeConnections := s.activeConnections + 1 }
  | some .active => some (goto .closed)
  | some .closed => some { goto .inactive with activeConnections := s.activeConnections - 1 }
  | some .inactive => some { goto .served with connWaitGroup := s.connWaitGroup - 1 }
  | _ => none

/-- `Serve` collects the results of the loops, then looks at the counters. -/
def serveStep : Option (TCPServer loops) :=
  match s.serve with
  | .collecting =>
    if ∃ i, s.result i = some false then some { s with serve := .failed }
    else allow (∀ i, s.result i = some true) { s with serve := .checking }
  | .checking => some { s with serve := if s.activeConnections = 0 then .returned else .awaiting }
  | .awaiting => allow (s.connWaitGroup = 0) { s with serve := .returned }
  | _ => none

/-- A loop that gets an error returns it unless the server is shut down. Turns in which it refuses
the connection change nothing. -/
def step : Event loops → Option (TCPServer loops)
  | .shutdown => some { s with shutdown := true }
  | .accept i => allow (s.result i = none) { s with conns := s.conns ++ [.handed] }
  | .endLoop i => allow (s.result i = none)
      { s with result := update s.result i (some s.shutdown) }
  | .serveConn c => s.serveConn c
  | .serve => s.serveStep

def system (loops : ℕ) : System (TCPServer loops) (Event loops) where
  start := ⟨false, fun _ => none, [], 0, 0, .collecting⟩
  step := step

/-- The server is shut down while a connection is on its way to being counted, or one is handed
over afterwards, or `Serve` finds no active connection between the two decrements of a worker. -/
def crosses : Event loops → Bool
  | .shutdown => s.conns.any fun c => c = .handed || c = .awaited
  | .accept _ => s.shutdown
  | .serve => s.serve = .checking && s.activeConnections = 0 && s.conns.any (· = .inactive)
  | _ => false

structure Sound : Prop where
  awaited : s.connWaitGroup = s.conns.countP isAwaited
  active : s.activeConnections = s.conns.countP isActive
  handedBy : s.conns ≠ [] → Nonempty (Fin loops)
  counted : s.shutdown = true → ∀ c ∈ s.conns, c ≠ .handed ∧ c ≠ .awaited
  marked : ∀ i, s.result i = some true → s.shutdown = true
  ended : s.serve ≠ .collecting → s.serve ≠ .failed → ∀ i, s.result i = some true
  done : s.serve = .returned → ∀ c ∈ s.conns, c = .served

variable {s} {s' : TCPServer loops}

namespace Sound
variable (h : s.Sound)
include h

/-- When the loops have ended, every connection has been counted. -/
lemma counted_of_ended (hcollecting : s.serve ≠ .collecting) (hfailed : s.serve ≠ .failed)
    {c : ConnPlace} (hc : c ∈ s.conns) : c ≠ .handed ∧ c ≠ .awaited := by
  obtain ⟨i⟩ := h.handedBy (ne_nil_of_mem hc)
  exact h.counted (h.marked i (h.ended hcollecting hfailed i)) c hc

/-- The worker of a connection makes a step, and keeps the counters. -/
lemma goto {c : ℕ} {old place : ConnPlace} (hold : s.conns[c]? = some old) (hne : old ≠ .served)
    (hcounts : place = .handed ∨ place = .awaited → old = .handed)
    {connWaitGroup activeConnections : ℤ}
    (hawaited : connWaitGroup + (isAwaited old).toNat = s.connWaitGroup + (isAwaited place).toNat)
    (hactive : activeConnections + (isActive old).toNat =
      s.activeConnections + (isActive place).toNat) :
    Sound { s with conns := s.conns.set c place, connWaitGroup, activeConnections } := by
  obtain ⟨hlt, rfl⟩ := List.getElem?_eq_some_iff.mp hold
  have hcount : ∀ p : ConnPlace → Bool, (s.conns.set c place).countP p + (p s.conns[c]).toNat =
      s.conns.countP p + (p place).toNat := by
    intro p
    rw [countP_set hlt]
    cases hp : p s.conns[c] with
    | false => cases p place <;> simp
    | true =>
      have hpos := countP_pos_iff.mpr ⟨_, getElem_mem hlt, hp⟩
      cases p place <;> simp only [if_true, Bool.toNat, cond] <;> grind
  refine ⟨?_, ?_, fun _ => h.handedBy (ne_nil_of_mem (getElem_mem hlt)), fun hshut c' hc' => ?_,
    h.marked, h.ended, fun hreturned => absurd (h.done hreturned _ (getElem_mem hlt)) hne⟩
  · grind [hcount isAwaited, h.awaited]
  · grind [hcount isActive, h.active]
  · rcases mem_or_eq_of_mem_set hc' with hmem | rfl
    · exact h.counted hshut c' hmem
    · refine not_or.mp fun hplace => ?_
      exact (h.counted hshut _ (getElem_mem hlt)).1 (hcounts hplace)

lemma serveStep (hstep : s.serveStep = some s') (hsafe : ¬s.crosses .serve = true) :
    s'.Sound := by
  unfold TCPServer.serveStep at hstep
  split at hstep <;> rename_i hserve
  · split_ifs at hstep
    · cases hstep
      exact { h with ended := fun _ hfailed => absurd rfl hfailed, done := nofun }
    · obtain ⟨hended, rfl⟩ := allow_eq_some.mp hstep
      exact { h with ended := fun _ _ => hended, done := nofun }
  · cases hstep
    refine { h with ended := fun _ _ => h.ended (hserve ▸ nofun) (hserve ▸ nofun), done := ?_ }
    intro hreturned c hc
    have hzero : s.activeConnections = 0 := by
      by_contra hne
      rw [if_neg hne] at hreturned
      cases hreturned
    have hnone := h.active.symm.trans hzero
    rw [Nat.cast_eq_zero, countP_eq_zero] at hnone
    have hcounted := h.counted_of_ended (hserve ▸ nofun) (hserve ▸ nofun) hc
    have hbetween : c ≠ .inactive := by
      rintro rfl
      exact hsafe (by simpa [crosses, hserve, hzero] using hc)
    have hpassive := hnone c hc
    cases c <;> simp_all [isActive]
  · obtain ⟨hzero, rfl⟩ := allow_eq_some.mp hstep
    refine { h with ended := fun _ _ => h.ended (hserve ▸ nofun) (hserve ▸ nofun), done := ?_ }
    intro _ c hc
    have hnone := h.awaited.symm.trans hzero
    rw [Nat.cast_eq_zero, countP_eq_zero] at hnone
    have hcounted := h.counted_of_ended (hserve ▸ nofun) (hserve ▸ nofun) hc
    have hgone := hnone c hc
    cases c <;> simp_all [isAwaited]
  · cases hstep

end Sound

/-- If every connection has been counted by its worker when the server is shut down, none is handed
over later and `Serve` does not find a worker between its two decrements, then every connection that
was handed to the pool has been served when `Serve` returns, and none is active. -/
theorem shutdown_awaits_connections {events : List (Event loops)}
    (hrun : (system loops).run events = some s)
    (hsafe : ¬(system loops).Took (crosses · · = true) events) (hreturned : s.serve = .returned) :
    s.activeConnections = 0 ∧ ∀ c ∈ s.conns, c = .served := by
  have h : s.Sound := by
    refine System.safe_invariant ⟨rfl, rfl, fun hne => absurd rfl hne, nofun, nofun,
      fun hnot => absurd rfl hnot, nofun⟩ (fun s e s' h hstep hapart => ?_) hsafe hrun
    cases e with
    | shutdown =>
      cases hstep
      refine { h with
        marked := fun _ _ => rfl, counted := fun _ c hc => not_or.mp fun hplace => ?_ }
      exact hapart (any_eq_true.mpr ⟨c, hc, by simpa using hplace⟩)
    | accept i =>
      obtain ⟨hresult, rfl⟩ := allow_eq_some.mp hstep
      refine ⟨by simp [h.awaited, isAwaited], by simp [h.active, isActive], fun _ => ⟨i⟩,
        fun hshut => absurd hshut hapart, h.marked, h.ended, fun hreturned => ?_⟩
      cases hresult.symm.trans (h.ended (hreturned ▸ nofun) (hreturned ▸ nofun) i)
    | endLoop i =>
      obtain ⟨hresult, rfl⟩ := allow_eq_some.mp hstep
      refine { h with marked := fun j hj => ?_, ended := fun hcollecting hfailed => ?_ }
      · simp only [update_apply] at hj
        split_ifs at hj with hij
        · exact Option.some.inj hj
        · exact h.marked j hj
      · cases hresult.symm.trans (h.ended hcollecting hfailed i)
    | serveConn c =>
      simp only [system, step, serveConn] at hstep
      split at hstep <;> cases hstep <;> rename_i hplace <;>
        exact h.goto hplace nofun (by simp) (by simp [isAwaited]) (by simp [isActive])
    | serve => exact h.serveStep hstep hapart
  have hdone := h.done hreturned
  refine ⟨?_, hdone⟩
  rw [h.active, Nat.cast_eq_zero, countP_eq_zero]
  intro c hc
  rw [hdone c hc]
  exact nofun

lemma not_crosses (s : TCPServer loops) (e : Event loops) (h : (!s.crosses e) = true) :
    ¬s.crosses e = true := by
  simpa using h

/-- Of two connections one has been served when the server is shut down; `Serve` waits for the
other. -/
def twoServed : List (Event 1) :=
  [.accept 0, .serveConn 0, .serveConn 0, .accept 0, .serveConn 1, .serveConn 1, .serveConn 1,
    .serveConn 1, .serveConn 1, .shutdown, .endLoop 0, .serve, .serve, .serveConn 0, .serveConn 0,
    .serveConn 0, .serve]

theorem shutdown_awaits_connections_twoServed :
    ∃ s, (system 1).run twoServed = some s ∧ s.conns.length = 2 ∧ s.activeConnections = 0 := by
  obtain ⟨s, hrun, hsafe, hreturned, hlength⟩ := System.exists_safe_run (system 1) twoServed
    (fun s => s.serve = .returned ∧ s.conns.length = 2) not_crosses (by decide +kernel)
  exact ⟨s, hrun, hlength, (shutdown_awaits_connections hrun hsafe hreturned).1⟩

/-- No worker has taken up the connection when `Serve` returns. -/
theorem shutdown_misses_connection :
    ((system 1).run [.accept 0, .shutdown, .endLoop 0, .serve, .serve]).map
      (fun s => (s.serve, s.conns)) = some (.returned, [.handed]) := by
  decide +kernel

end TCPServer
end GoAkt.Net
