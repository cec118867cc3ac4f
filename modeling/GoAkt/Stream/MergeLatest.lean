import GoAkt.Interleavings
import GoAkt.Stream.Protocol

/-!
# Snapshots of the latest elements

`MergeLatest` counts a snapshot when an element arrives and builds it when the downstream asks for
it. The snapshots that the arrivals call for are compared with the slices that are sent: they are
the same as long as no element arrives while a snapshot is waiting.
-/
namespace GoAkt.Stream
open GoAkt.Interleavings Function Finset

/-- What the internal sinks of the `n` sub-pipelines report. -/
inductive MergeMessage (n : ℕ) (V : Type*)
  | mergeSubValue (slot : Fin n) (value : V)
  | mergeSubDone (slot : Fin n)

structure MergeLatestSourceActor (n : ℕ) (V : Type*) where
  elementType : ElementType V
  /-- The last element of each slot that has been seen. -/
  cache : Fin n → Option V
  seenCount : ℕ
  done : Fin n → Bool
  doneCount : ℕ
  pendingSnapshots : ℕ
  demand : ℤ

namespace MergeLatestSourceActor
variable {n : ℕ} {V E : Type*} (a : MergeLatestSourceActor n V)

def snapshot : List V := (List.finRange n).filterMap a.cache

/-- The first slot whose element is not of the type. -/
def mismatch : Option (Fin n) := (List.finRange n).find? fun i => !(a.cache i).any a.elementType.has

/-- The loop of `tryEmit`. Each round takes one of the waiting snapshots. -/
def emitLoop : ℕ → Turn (MergeLatestSourceActor n V) (List V) E →
    Turn (MergeLatestSourceActor n V) (List V) E
  | 0, t => t
  | rounds + 1, t =>
    if t.actor.demand ≤ 0 then t
    else
      match t.actor.mismatch with
      | some i =>
        t.finish (.error (.text ("stream: MergeLatest type mismatch on slot " ++ toString i)))
      | none =>
        emitLoop rounds ((t.tellDown (.element t.actor.snapshot)).modify fun a =>
          { a with pendingSnapshots := a.pendingSnapshots - 1, demand := a.demand - 1 })

def tryEmit : Turn (MergeLatestSourceActor n V) (List V) E :=
  let t := emitLoop a.pendingSnapshots (.idle a)
  if t.stopped then t
  else if t.actor.doneCount = n ∧ t.actor.pendingSnapshots = 0 then t.finish .complete
  else t

/-- An element is kept as the latest one of its slot. It calls for a snapshot once every slot has
been seen. -/
def put (slot : Fin n) (value : V) : MergeLatestSourceActor n V :=
  let seenCount := if (a.cache slot).isSome then a.seenCount else a.seenCount + 1
  { a with
    cache := update a.cache slot (some value)
    seenCount
    pendingSnapshots := if seenCount = n then a.pendingSnapshots + 1 else a.pendingSnapshots }

def receive : Inbox (List V) E (MergeMessage n V) → Turn (MergeLatestSourceActor n V) (List V) E
  | .stageWire =>
    -- the slots are made, with nothing seen, and their sub-pipelines are started
    if n = 0 then (Turn.idle a).finish .complete else .idle a
  | .upward (.request k) => tryEmit { a with demand := a.demand + k }
  | .own (.mergeSubValue slot value) => tryEmit (a.put slot value)
  | .own (.mergeSubDone slot) =>
    tryEmit (if a.done slot then a
      else { a with done := update a.done slot true, doneCount := a.doneCount + 1 })
  | .upward .cancel => (Turn.idle a).finish .complete
  -- a source has no upstream
  | .signal _ => .idle a

end MergeLatestSourceActor

section Snapshots
variable {ι V : Type*} [DecidableEq ι]

/-- The latest element that has arrived on an input. -/
def latest (arrivals : List (ι × V)) (slot : ι) : Option V :=
  (arrivals.filter fun a => a.1 = slot).getLast?.map Prod.snd

lemma latest_concat (arrivals : List (ι × V)) (slot : ι) (value : V) :
    latest (arrivals ++ [(slot, value)]) = update (latest arrivals) slot (some value) := by
  ext1 i
  by_cases h : i = slot
  · subst h
    simp [latest]
  · simp [latest, h, Ne.symm h]

/-- The latest elements of all inputs, once each of them has produced one. -/
def snapshot? {n : ℕ} (arrivals : List (Fin n × V)) : Option (List V) :=
  if ∀ i, (latest arrivals i).isSome then some ((List.finRange n).filterMap (latest arrivals))
  else none

/-- The snapshots at the moments of the arrivals. -/
def snapshots {n : ℕ} (arrivals : List (Fin n × V)) : List (List V) :=
  arrivals.inits.tail.filterMap snapshot?

lemma snapshots_concat {n : ℕ} (arrivals : List (Fin n × V)) (a : Fin n × V) :
    snapshots (arrivals ++ [a]) = snapshots arrivals ++ (snapshot? (arrivals ++ [a])).toList := by
  have hinits : (arrivals ++ [a]).inits.tail = arrivals.inits.tail ++ [arrivals ++ [a]] := by
    cases arrivals <;> simp [List.inits_append]
  rw [snapshots, hinits, List.filterMap_append]
  cases h : snapshot? (arrivals ++ [a]) <;> simp [snapshots, h]

end Snapshots

/-- The stage, what has arrived and what it has told its downstream. -/
structure MergeLatestRun (n : ℕ) (V E : Type*) where
  actor : MergeLatestSourceActor n V
  wired : Bool
  stopped : Bool
  received : List (Fin n × V)
  sent : List (Signal (List V) E)

namespace MergeLatestRun
open MergeLatestSourceActor
variable {n : ℕ} {V E : Type*} {s s' : MergeLatestRun n V E}
  {m : Inbox (List V) E (MergeMessage n V)}

def arrival : Inbox (List V) E (MergeMessage n V) → List (Fin n × V)
  | .own (.mergeSubValue slot value) => [(slot, value)]
  | _ => []

/-- One message is handled. The sub-pipelines are started when the stage is wired, which happens
once. -/
def step (s : MergeLatestRun n V E) (m : Inbox (List V) E (MergeMessage n V)) :
    Option (MergeLatestRun n V E) :=
  let wire := m matches .stageWire
  if s.stopped || (wire && s.wired) || ((m matches .own _) && !s.wired) then none
  else
    let t := s.actor.receive m
    some ⟨t.actor, s.wired || wire, t.stopped, s.received ++ arrival m, s.sent ++ t.down⟩

/-- A new stage: `MergeLatest(sources...)`. -/
def system (n : ℕ) (elementType : ElementType V) :
    System (MergeLatestRun n V E) (Inbox (List V) E (MergeMessage n V)) where
  start := ⟨⟨elementType, fun _ => none, 0, fun _ => false, 0, 0, 0⟩, false, false, [], []⟩
  step := step

/-- An element arrives while a snapshot is waiting for demand. -/
def Overtakes (s : MergeLatestRun n V E) : Inbox (List V) E (MergeMessage n V) → Prop
  | .own (.mergeSubValue _ _) => s.actor.pendingSnapshots ≠ 0
  | _ => False

def seenSlots (a : MergeLatestSourceActor n V) : Finset (Fin n) :=
  univ.filter fun i => (a.cache i).isSome

/-- The cache is up to date, and the snapshots that were called for are those sent and those that
are waiting. -/
structure Mirrors (a : MergeLatestSourceActor n V) (received : List (Fin n × V))
    (sent : List (Signal (List V) E)) : Prop where
  cache : a.cache = latest received
  seen : a.seenCount = #(seenSlots a)
  owed : snapshots received = elements sent ++ List.replicate a.pendingSnapshots a.snapshot

variable {sent : List (Signal (List V) E)} {received : List (Fin n × V)}

/-- The loop sends some of the waiting snapshots and may then fail. -/
lemma emitLoop_spec (rounds : ℕ) (t : Turn (MergeLatestSourceActor n V) (List V) E)
    (h : Mirrors t.actor received (sent ++ t.down)) (hrounds : t.actor.pendingSnapshots = rounds) :
    Mirrors (emitLoop rounds t).actor received (sent ++ (emitLoop rounds t).down) := by
  induction rounds generalizing t with
  | zero => exact h
  | succ rounds ih =>
    rw [emitLoop]
    split_ifs
    · exact h
    split
    · exact ⟨h.cache, h.seen, by simpa using h.owed⟩
    · refine ih _ ⟨h.cache, h.seen, ?_⟩ (by simp [hrounds])
      have howed := h.owed
      rw [hrounds, List.replicate_succ] at howed
      simp only [howed, elements_append, Turn.modify_down, Turn.tellDown_down, Turn.modify_actor,
        Turn.tellDown_actor, hrounds, Nat.add_sub_cancel, elements_element, elements_nil,
        List.append_assoc, List.singleton_append]
      rfl

lemma mirrors_tryEmit {a : MergeLatestSourceActor n V} (h : Mirrors a received sent) :
    Mirrors (tryEmit a : Turn _ (List V) E).actor received
      (sent ++ (tryEmit a : Turn _ (List V) E).down) := by
  have hloop := emitLoop_spec (E := E) a.pendingSnapshots (.idle a) (by simpa using h) rfl
  simp only [tryEmit]
  split_ifs
  · exact hloop
  · exact ⟨hloop.cache, hloop.seen, by simpa using hloop.owed⟩
  · exact hloop

/-- An arrival that finds no waiting snapshot calls for the snapshot at this moment. -/
lemma mirrors_put {a : MergeLatestSourceActor n V}
    (h : Mirrors a received sent) (slot : Fin n) (value : V) (hnone : a.pendingSnapshots = 0) :
    Mirrors (a.put slot value) (received ++ [(slot, value)]) sent := by
  have hcache : (a.put slot value).cache = latest (received ++ [(slot, value)]) := by
    rw [latest_concat, ← h.cache]
    rfl
  have hseen : (a.put slot value).seenCount = #(seenSlots (a.put slot value)) := by
    have hset : seenSlots (a.put slot value) = insert slot (seenSlots a) := by
      ext i
      simp only [seenSlots, mem_filter, mem_univ, true_and, mem_insert]
      by_cases hi : i = slot <;> simp [put, hi]
    rw [hset]
    by_cases hslot : (a.cache slot).isSome
    · rw [insert_eq_of_mem (by simpa [seenSlots] using hslot), ← h.seen]
      simp [put, hslot]
    · rw [card_insert_of_notMem (by simpa [seenSlots] using hslot), ← h.seen]
      simp [put, hslot]
  have hall : (a.put slot value).seenCount = n ↔
      ∀ i, (latest (received ++ [(slot, value)]) i).isSome := by
    rw [hseen, ← hcache, seenSlots]
    conv_lhs => rhs; rw [← Fintype.card_fin n, ← card_univ]
    rw [card_filter_eq_iff]
    simp only [mem_univ, forall_const]
  refine ⟨hcache, hseen, ?_⟩
  have howed := h.owed
  rw [hnone, List.replicate_zero, List.append_nil] at howed
  rw [snapshots_concat, howed, snapshot?, snapshot, hcache]
  have hpending : (a.put slot value).pendingSnapshots =
      if (a.put slot value).seenCount = n then 1 else 0 := by
    simp only [put, hnone, Nat.zero_add]
  rw [hpending]
  simp only [hall]
  split_ifs <;> rfl

lemma mirrors_step (h : Mirrors s.actor s.received s.sent) (hstep : s.step m = some s')
    (hover : ¬Overtakes s m) : Mirrors s'.actor s'.received s'.sent := by
  simp only [step] at hstep
  split_ifs at hstep
  cases hstep
  have hfinish : Mirrors s.actor s.received (s.sent ++ [.complete]) :=
    ⟨h.cache, h.seen, by simpa using h.owed⟩
  cases m with
  | stageWire =>
    simp only [receive, arrival, List.append_nil]
    split_ifs
    · exact hfinish
    · simpa using h
  | signal signal => simpa [receive, arrival] using h
  | upward u =>
    simp only [arrival, List.append_nil]
    cases u with
    | request k => exact mirrors_tryEmit ⟨h.cache, h.seen, h.owed⟩
    | cancel => exact hfinish
  | own m =>
    cases m with
    | mergeSubValue slot value =>
      exact mirrors_tryEmit (mirrors_put h slot value (not_not.mp hover))
    | mergeSubDone slot =>
      simp only [receive, arrival, List.append_nil]
      refine mirrors_tryEmit ?_
      split_ifs
      · exact h
      · exact ⟨h.cache, h.seen, h.owed⟩

/-- As long as no element arrives while a snapshot is waiting, the slices that are sent are the
snapshots at the moments of the arrivals, from the first one on, whenever the demand came. -/
theorem sends_snapshots (n : ℕ) (elementType : ElementType V)
    (events : List (Inbox (List V) E (MergeMessage n V))) (s : MergeLatestRun n V E)
    (hrun : (system n elementType).run events = some s)
    (hover : ¬(system n elementType).Took Overtakes events) :
    elements s.sent <+: snapshots s.received := by
  have hstart : Mirrors (E := E) (system (E := E) n elementType).start.actor [] [] := by
    refine ⟨rfl, ?_, rfl⟩
    simp [seenSlots, system]
  have h := System.safe_invariant hstart (fun s m s' => mirrors_step) hover hrun
  exact ⟨_, h.owed.symm⟩

def numbers : System (MergeLatestRun 2 ℕ Empty) (Inbox (List ℕ) Empty (MergeMessage 2 ℕ)) :=
  system 2 ⟨fun _ => true, fun _ => "int"⟩

/-- The first snapshot waits for demand, and the second one finds it. -/
def waitOnce : List (Inbox (List ℕ) Empty (MergeMessage 2 ℕ)) :=
  [.stageWire, .own (.mergeSubValue 0 1), .own (.mergeSubValue 1 2), .upward (.request 2),
    .own (.mergeSubValue 0 3)]

theorem sends_snapshots_numbers :
    ∃ s, numbers.run waitOnce = some s ∧
      elements s.sent = [[1, 2], [3, 2]] ∧ elements s.sent <+: snapshots s.received := by
  have htest : ∀ (s : MergeLatestRun 2 ℕ Empty) (m : Inbox (List ℕ) Empty (MergeMessage 2 ℕ)),
      (s.actor.pendingSnapshots == 0 || m matches .upward _) = true → ¬Overtakes s m := by
    intro s m htest hover
    match m with
    | .own (.mergeSubValue _ _) => exact hover (by simpa using htest)
  obtain ⟨s, hnumbers, htook, hsent⟩ := System.exists_safe_run numbers waitOnce
    (fun s => elements s.sent = [[1, 2], [3, 2]]) htest (by decide +kernel)
  exact ⟨s, hnumbers, hsent, sends_snapshots 2 _ _ s hnumbers htook⟩

/-- Two snapshots wait for demand. Both are built when it comes and hold the later element. -/
theorem sends_stale_snapshots :
    (numbers.run [.stageWire, .own (.mergeSubValue 0 1), .own (.mergeSubValue 1 2),
        .own (.mergeSubValue 0 3), .upward (.request 2)]).map
        (fun s => (elements s.sent, snapshots s.received)) =
      some ([[3, 2], [3, 2]], [[1, 2], [3, 2]]) := by
  decide +kernel

end MergeLatestRun
end GoAkt.Stream
