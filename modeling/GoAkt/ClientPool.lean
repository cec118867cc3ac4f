import GoAkt.Interleavings

/-!
# The connection pool of the client

`Get` takes the last idle connection or dials one, and closes those that are stale on the way.
`Put` tests the closed flag, then appends under the lock. So a connection that is put back around
`Close` may join the list after `Close` has emptied it. A step is one section under the lock, one
read of the flag or one operation on a connection. What is exchanged over a connection does not
matter here; how often each one is closed does.
-/
namespace GoAkt.Net
open GoAkt.Interleavings List

/-- A call of `Get`, then the use of its connection and a call of `Put` or `Discard`. -/
inductive PoolPlace
  | getting
  | evicting (k : ℕ)
  | dialing
  | holding (k : ℕ)
  | putting (k : ℕ)
  | closing (k : ℕ)
  | done
deriving DecidableEq

def PoolPlace.conn : PoolPlace → List ℕ
  | .evicting k | .holding k | .putting k | .closing k => [k]
  | _ => []

/-- `Close` has marked the client, or has taken these connections from the pool. -/
inductive ClosePlace
  | notClosed
  | marked
  | taken (conns : List ℕ)
deriving DecidableEq

def ClosePlace.conns : ClosePlace → List ℕ
  | .taken conns => conns
  | _ => []

/-- The pool, with the connections that have been closed, each as often as it was. -/
structure ClientPool where
  idle : List ℕ
  dialed : ℕ
  closes : List ℕ
  calls : List PoolPlace
  close : ClosePlace

namespace ClientPool

inductive Event
  | get
  | pop (i : ℕ) (stale : Bool)
  | dial (i : ℕ) (err : Bool)
  | wrapFails (i : ℕ)
  | discard (i : ℕ)
  | put (i : ℕ)
  | deadlineFails (i : ℕ)
  | putLock (i : ℕ)
  | closeConn (i : ℕ)
  | close
  | takeIdle
  | closeNext

variable (maxIdle : ℕ) (s : ClientPool)

def inUse : List ℕ := s.calls.flatMap PoolPlace.conn ++ s.close.conns

def goto (i : ℕ) (place : PoolPlace) : ClientPool := { s with calls := s.calls.set i place }

/-- The step of a call, which is at this place. -/
def callStep : Event → PoolPlace → Option ClientPool
  | .pop i stale, .getting => match s.idle.getLast? with
    | none => some (s.goto i .dialing)
    | some k =>
      some ({ s with idle := s.idle.dropLast }.goto i (if stale then .evicting k else .holding k))
  | .dial i err, .dialing => some (if err then s.goto i .done else
      { s with dialed := s.dialed + 1 }.goto i (.holding s.dialed))
  | .putLock i, .putting k => some (if s.idle.length < maxIdle then
      { s with idle := s.idle ++ [k] }.goto i .done else s.goto i (.closing k))
  | .wrapFails i, .dialing => some ({ s with dialed := s.dialed + 1 }.goto i (.closing s.dialed))
  | .discard i, .holding k => some (s.goto i (.closing k))
  | .put i, .holding k => some (s.goto i (if s.close = .notClosed then .putting k else .closing k))
  | .deadlineFails i, .putting k => some (s.goto i (.closing k))
  | .closeConn i, .evicting k => some ({ s with closes := s.closes ++ [k] }.goto i .getting)
  | .closeConn i, .closing k => some ({ s with closes := s.closes ++ [k] }.goto i .done)
  | _, _ => none

def Event.call : Event → ℕ
  | .pop i _ | .dial i _ | .wrapFails i | .discard i | .put i | .deadlineFails i | .putLock i
  | .closeConn i => i
  | _ => 0

def closeNext : Option ClientPool :=
  match s.close with
  | .taken (k :: conns) => some { s with close := .taken conns, closes := s.closes ++ [k] }
  | _ => none

def step : Event → Option ClientPool
  | .get => some (if s.close = .notClosed then { s with calls := s.calls ++ [.getting] } else s)
  | .close => some (if s.close = .notClosed then { s with close := .marked } else s)
  | .takeIdle => allow (s.close = .marked) { s with close := .taken s.idle, idle := [] }
  | .closeNext => s.closeNext
  | e => (s.calls[e.call]?).bind (s.callStep maxIdle e)

def system : System ClientPool Event where
  start := ⟨[], 0, [], [], .notClosed⟩
  step := step maxIdle

/-- A connection is put back when `Close` has emptied the pool. -/
def late : Event → Bool
  | .putLock _ => s.close ≠ .notClosed && s.close ≠ .marked && s.idle.length < maxIdle
  | _ => false

/-- Every connection that was dialed is at one place. -/
structure Owned : Prop where
  once : ∀ k, s.idle.count k + s.inUse.count k + s.closes.count k = (range s.dialed).count k
  bound : s.idle.length ≤ maxIdle

variable {maxIdle} {s} {s' : ClientPool}

lemma count_inUse_goto {i : ℕ} {old : PoolPlace} (hold : s.calls[i]? = some old)
    (place : PoolPlace) (k : ℕ) :
    (s.goto i place).inUse.count k + old.conn.count k = s.inUse.count k + place.conn.count k := by
  obtain ⟨hlt, hget⟩ := List.getElem?_eq_some_iff.mp hold
  have hcalls : s.calls = s.calls.take i ++ old :: s.calls.drop (i + 1) := by
    rw [← hget, getElem_cons_drop, take_append_drop]
  simp only [inUse, goto, set_eq_take_append_cons_drop, if_pos hlt]
  nth_rewrite 3 [hcalls]
  simp only [flatMap_append, flatMap_cons, count_append]
  omega

namespace Owned

variable (h : s.Owned maxIdle)
include h

/-- A call goes on, and what it no longer has is idle or closed. -/
lemma goto {i : ℕ} {old place : PoolPlace} (hold : s.calls[i]? = some old) {idle closes : List ℕ}
    {dialed : ℕ} (hbound : idle.length ≤ maxIdle)
    (hcount : ∀ k, idle.count k + place.conn.count k + closes.count k + (range s.dialed).count k =
      s.idle.count k + old.conn.count k + s.closes.count k + (range dialed).count k) :
    Owned maxIdle ({ s with idle, closes, dialed }.goto i place) := by
  refine ⟨fun k => ?_, hbound⟩
  have hgoto := count_inUse_goto hold place k
  have honce := h.once k
  have hk := hcount k
  change idle.count k + (s.goto i place).inUse.count k + closes.count k = (range dialed).count k
  omega

lemma callStep {e : Event} {place : PoolPlace} (hplace : s.calls[e.call]? = some place)
    (hstep : s.callStep maxIdle e place = some s') : s'.Owned maxIdle := by
  have hbound := h.bound
  unfold ClientPool.callStep at hstep
  split at hstep
  · split at hstep <;> cases hstep
    · exact h.goto hplace hbound fun k => rfl
    next k hlast =>
      obtain ⟨idle, hidle⟩ := getLast?_eq_some_iff.mp hlast
      rw [hidle, length_append] at hbound
      rw [hidle, dropLast_concat]
      refine h.goto hplace (by omega) fun k' => ?_
      rw [hidle]
      split_ifs <;> simp [PoolPlace.conn]
  · split_ifs at hstep <;> cases hstep
    · exact h.goto hplace hbound fun k => rfl
    · refine h.goto hplace hbound fun k => ?_
      simp [PoolPlace.conn, range_succ]
      omega
  · split_ifs at hstep with hroom <;> cases hstep
    · refine h.goto hplace (by simpa using hroom) fun k => ?_
      simp [PoolPlace.conn]
    · exact h.goto hplace hbound fun k => rfl
  all_goals cases hstep
  all_goals refine h.goto hplace hbound fun k => ?_
  all_goals grind [PoolPlace.conn]

lemma step {e : Event} (hstep : s.step maxIdle e = some s') : s'.Owned maxIdle := by
  cases e with
  | get =>
    cases hstep
    split_ifs
    · exact ⟨by simpa [inUse, PoolPlace.conn] using h.once, h.bound⟩
    · exact h
  | close =>
    cases hstep
    split_ifs with hopen
    · exact ⟨by simpa [inUse, hopen, ClosePlace.conns] using h.once, h.bound⟩
    · exact h
  | takeIdle =>
    obtain ⟨hmarked, rfl⟩ := allow_eq_some.mp hstep
    refine ⟨fun k => ?_, Nat.zero_le _⟩
    have honce := h.once k
    simp only [inUse, hmarked, ClosePlace.conns, count_append, count_nil] at honce ⊢
    omega
  | closeNext =>
    have hnext : s.closeNext = some s' := hstep
    unfold closeNext at hnext
    split at hnext <;> cases hnext
    next k' conns htaken =>
    refine ⟨fun k => ?_, h.bound⟩
    have honce := h.once k
    simp only [inUse, htaken, ClosePlace.conns, count_append, count_cons, count_nil] at honce ⊢
    omega
  | _ =>
    obtain ⟨place, hplace, hcall⟩ := Option.bind_eq_some_iff.mp hstep
    exact h.callStep hplace hcall

end Owned

/-- When `Close` has taken the idle connections, the pool stays empty. -/
def Emptied (s : ClientPool) : Prop := ∀ conns, s.close = .taken conns → s.idle = []

lemma Emptied.step (h : s.Emptied) {e : Event} (hstep : s.step maxIdle e = some s')
    (hlate : ¬s.late maxIdle e = true) : s'.Emptied := by
  cases e with
  | get =>
    cases hstep
    split_ifs
    · exact h
    · exact h
  | close =>
    cases hstep
    split_ifs
    · exact nofun
    · exact h
  | takeIdle =>
    obtain ⟨-, rfl⟩ := allow_eq_some.mp hstep
    exact fun _ _ => rfl
  | closeNext =>
    have hnext : s.closeNext = some s' := hstep
    unfold closeNext at hnext
    split at hnext <;> cases hnext
    next htaken => exact fun _ _ => h _ htaken
  | _ =>
    obtain ⟨place, -, hcall⟩ := Option.bind_eq_some_iff.mp hstep
    unfold callStep at hcall
    grind [Emptied, goto, late]

/-- Every connection that was dialed is idle, in use or closed, and only once. If none is put back
when `Close` has emptied the pool, then all are closed in the end. -/
theorem pool_owns_connections {events : List Event}
    (hrun : (system maxIdle).run events = some s) :
    (∀ k < s.dialed, s.idle.count k + s.inUse.count k + s.closes.count k = 1) ∧
      s.idle.length ≤ maxIdle ∧
      (¬(system maxIdle).Took (late maxIdle · · = true) events → s.close = .taken [] →
        s.inUse = [] → ∀ k < s.dialed, k ∈ s.closes) := by
  have h : s.Owned maxIdle :=
    System.run_invariant ⟨fun _ => rfl, Nat.zero_le _⟩ (fun _ _ _ h => h.step) hrun
  have honce : ∀ k < s.dialed, s.idle.count k + s.inUse.count k + s.closes.count k = 1 :=
    fun k hk => (h.once k).trans (count_eq_one_of_mem nodup_range (mem_range.mpr hk))
  refine ⟨honce, h.bound, fun hsafe hclosed hunused k hk => ?_⟩
  have hempty : s.Emptied := System.safe_invariant nofun (fun _ _ _ h => h.step) hsafe hrun
  have hk := honce k hk
  rw [hempty [] hclosed, hunused] at hk
  simp only [count_nil, zero_add] at hk
  exact count_pos_iff.mp (hk ▸ Nat.one_pos)

lemma not_late (maxIdle : ℕ) (s : ClientPool) (e : Event) (h : (!s.late maxIdle e) = true) :
    ¬s.late maxIdle e = true := by
  simpa using h

/-- Three connections are dialed. Two are put back, and the second is stale when the fourth `Get`
finds it. `Close` comes before the third is put back, and the fourth `Get` finds an empty pool. -/
def threeConns : List Event :=
  [.get, .pop 0 false, .dial 0 false, .get, .pop 1 false, .get, .dial 1 false, .pop 2 false,
    .dial 2 false, .put 0, .put 1, .putLock 0, .putLock 1, .get, .pop 3 true, .closeConn 3, .close,
    .put 2, .takeIdle, .closeConn 2, .pop 3 false, .closeNext, .dial 3 true]

theorem pool_owns_connections_threeConns :
    ∃ s, (system 2).run threeConns = some s ∧ s.closes = [1, 2, 0] ∧ ∀ k < 3, k ∈ s.closes := by
  obtain ⟨s, hrun, hsafe, hclosed, hunused, hdialed, hcloses⟩ := System.exists_safe_run (system 2)
    threeConns (fun s => s.close = .taken [] ∧ s.inUse = [] ∧ s.dialed = 3 ∧ s.closes = [1, 2, 0])
    (not_late 2) (by decide +kernel)
  refine ⟨s, hrun, hcloses, fun k hk => ?_⟩
  exact (pool_owns_connections hrun).2.2 hsafe hclosed hunused k (hdialed ▸ hk)

/-- `Put` finds the client open, and its section under the lock follows on `Close`. -/
theorem connection_outlives_close :
    ((system 1).run [.get, .pop 0 false, .dial 0 false, .put 0, .close, .takeIdle,
        .putLock 0]).map
      (fun s => (s.close, s.calls, s.idle, s.closes)) = some (.taken [], [.done], [0], []) := by
  decide +kernel

end ClientPool
end GoAkt.Net
