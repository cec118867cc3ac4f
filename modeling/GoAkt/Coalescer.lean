import GoAkt.Interleavings

/-!
# The send coalescer

Senders hand messages to a bounded channel, and one writer goroutine takes them out,
up to `maxBatch` at a time, and sends each batch as one request. Closing lets the writer
take out what is buffered once more before it returns. The channel holds up to
`4 * maxBatch` messages, so that last batch may leave messages behind that were accepted
long before.

A submit call stands for the message it carries. Requests, messages handed to the error
handler, the order in which messages entered the channel and the calls that returned
before closing are recorded next to the state.
-/
namespace GoAkt.Remote
open Option GoAkt.Interleavings List

/-- The settings of a coalescer, with a usable batch size. -/
structure CoalescerSettings where
  dest : String
  maxBatch : ℕ
  hasErrHandler : Bool
  maxBatch_pos : 0 < maxBatch

/-- A batch size that is not positive stands for the default. -/
def newCoalescer (dest : String) (maxBatch : ℤ) (hasErrHandler : Bool) : CoalescerSettings where
  dest := dest
  maxBatch := if maxBatch ≤ 0 then 64 else maxBatch.toNat
  hasErrHandler := hasErrHandler
  maxBatch_pos := by
    split_ifs
    · decide
    · omega

inductive SubmitError where
  | coalescerClosed
  | contextDone (err : String)
  deriving DecidableEq, Repr

/-- Where a submit call is: before its shutdown check, before the attempt to send at
once, waiting, between sending and returning, or returned. -/
inductive SubmitCall where
  | notCalled
  | fastPath
  | slowPath
  | sent
  | returned (err : Option SubmitError)
  deriving DecidableEq, Repr

/-- Where the writer is. `last` marks the batch after which it returns. -/
inductive Writer where
  | selecting
  | draining (last : Bool)
  | flushing (last : Bool)
  | returned
  deriving DecidableEq, Repr

/-- The writer has seen that the coalescer is closed. -/
def Writer.isLast : Writer → Bool
  | .draining last => last
  | .flushing last => last
  | .selecting => false
  | .returned => true

/-- The field `input` is the channel `in` of the source. -/
structure Coalescer (C : Type*) where
  input : List C
  done : Bool
  calls : C → SubmitCall
  writer : Writer
  batch : List C
  /-- The batches of the requests with the errors they ended with. -/
  requests : List (List C × Option String)
  /-- The calls of the error handler. -/
  handed : List (String × List C × String)
  entered : List C
  returnedBeforeClose : List C

inductive CoalescerEvent (C : Type*) where
  | preCheck (c : C)
  | fastSend (c : C)
  | slowSend (c : C)
  | slowContextDone (c : C) (err : String)
  | slowClosed (c : C)
  | submitReturn (c : C)
  | close
  | selectDone
  | selectIn
  | drainReady
  | flush (err : Option String)

namespace Coalescer
variable {C : Type*} [DecidableEq C]

def setCall (s : Coalescer C) (c : C) (call : SubmitCall) : Coalescer C :=
  { s with calls := Function.update s.calls c call }

/-- The message enters the channel. -/
def send (s : Coalescer C) (c : C) : Coalescer C :=
  { s.setCall c .sent with input := s.input ++ [c], entered := s.entered ++ [c] }

variable (cfg : CoalescerSettings) (s : Coalescer C)

def hasRoom : Prop := s.input.length < 4 * cfg.maxBatch

instance (s : Coalescer C) : Decidable (s.hasRoom cfg) := Nat.decLt _ _

/-- One turn of the loop that takes out what is ready. -/
def drainReady (last : Bool) : Coalescer C :=
  if s.batch.length < cfg.maxBatch then
    match s.input with
    | m :: rest => { s with input := rest, batch := s.batch ++ [m] }
    | [] => { s with writer := .flushing last }
  else { s with writer := .flushing last }

/-- The request may fail, and a failure goes to the handler if there is one. -/
def sendBatch (err : Option String) : Coalescer C :=
  { s with
    requests := s.requests ++ [(s.batch, err)]
    handed := match err with
      | some err => if cfg.hasErrHandler then s.handed ++ [(cfg.dest, s.batch, err)] else s.handed
      | none => s.handed
    batch := [] }

/-- An empty batch is not sent. -/
def flush (err : Option String) : Coalescer C :=
  if s.batch.length = 0 then s else s.sendBatch cfg err

def step : CoalescerEvent C → Option (Coalescer C)
  | .preCheck c => allow (s.calls c = .notCalled)
      (s.setCall c (if s.done then .returned (some .coalescerClosed) else .fastPath))
  | .fastSend c => allow (s.calls c = .fastPath)
      (if s.hasRoom cfg then s.send c else s.setCall c .slowPath)
  | .slowSend c => allow (s.calls c = .slowPath ∧ s.hasRoom cfg) (s.send c)
  | .slowContextDone c err => allow (s.calls c = .slowPath)
      (s.setCall c (.returned (some (.contextDone err))))
  | .slowClosed c => allow (s.calls c = .slowPath ∧ s.done = true)
      (s.setCall c (.returned (some .coalescerClosed)))
  | .submitReturn c => allow (s.calls c = .sent)
      { s.setCall c (.returned none) with
        returnedBeforeClose :=
          if s.done then s.returnedBeforeClose else s.returnedBeforeClose ++ [c] }
  | .close => some { s with done := true }
  | .selectDone => allow (s.writer = .selecting ∧ s.done = true)
      { s with writer := .draining true }
  | .selectIn =>
    match s.input with
    | [] => none
    | m :: rest => allow (s.writer = .selecting)
        { s with input := rest, batch := s.batch ++ [m], writer := .draining false }
  | .drainReady =>
    match s.writer with
    | .draining last => some (s.drainReady cfg last)
    | _ => none
  | .flush err =>
    match s.writer with
    | .flushing last =>
      some { s.flush cfg err with writer := if last then .returned else .selecting }
    | _ => none

def system : System (Coalescer C) (CoalescerEvent C) where
  start := ⟨[], false, fun _ => .notCalled, .selecting, [], [], [], [], []⟩
  step := step cfg

/-- The messages of all requests, in the order in which they were sent. -/
def sentMessages : List C := s.requests.flatMap Prod.fst

/-! ## What every run keeps -/

/-- Every message that entered the channel is in one place: sent, in the batch, or still
in the channel, in this order. -/
structure Inv (s : Coalescer C) : Prop where
  split : s.entered = s.sentMessages ++ (s.batch ++ s.input)
  nodup : s.entered.Nodup
  entered_iff : ∀ c, c ∈ s.entered ↔ s.calls c = .sent ∨ s.calls c = .returned none
  returned_entered : ∀ c ∈ s.returnedBeforeClose, c ∈ s.entered
  batch_empty : s.writer = .selecting ∨ s.writer = .returned → s.batch = []
  last_done : s.writer.isLast = true → s.done = true
  handed_eq : cfg.hasErrHandler = true → s.handed =
    s.requests.filterMap fun r => r.2.map fun err => (cfg.dest, r.1, err)

variable {cfg} {s : Coalescer C} {c : C}

section
variable (hinv : s.Inv cfg) (hc : ¬(s.calls c = .sent ∨ s.calls c = .returned none))
include hinv hc

/-- A call that moves without sending, returning nil or having sent. -/
lemma inv_setCall {call : SubmitCall}
    (hcall : ¬(call = .sent ∨ call = .returned none)) : (s.setCall c call).Inv cfg :=
  { hinv with
    entered_iff := fun c' => by
      rw [show (s.setCall c call).entered = s.entered from rfl, hinv.entered_iff]
      by_cases h : c' = c
      · subst c'
        simp only [setCall, Function.update_self, hc, hcall]
      · simp only [setCall, Function.update_of_ne h] }

lemma inv_send : (s.send c).Inv cfg :=
  { hinv with
    split := by
      change s.entered ++ [c] = s.sentMessages ++ (s.batch ++ (s.input ++ [c]))
      rw [hinv.split]
      simp only [append_assoc]
    nodup := by
      have hfresh : c ∉ s.entered := fun h => hc ((hinv.entered_iff c).mp h)
      exact nodup_append.mpr ⟨hinv.nodup, nodup_singleton c,
        fun a ha b hb => by rintro rfl; exact hfresh (mem_singleton.mp hb ▸ ha)⟩
    entered_iff := fun c' => by
      change c' ∈ s.entered ++ [c] ↔ _
      rw [mem_append, hinv.entered_iff, mem_singleton]
      by_cases h : c' = c
      · subst c'
        simp [send, setCall]
      · simp [send, setCall, h]
    returned_entered := fun c' h => mem_append_left _ (hinv.returned_entered c' h) }

end

lemma inv_submitReturn (hinv : s.Inv cfg) (hc : s.calls c = .sent) :
    Inv cfg { s.setCall c (.returned none) with
      returnedBeforeClose :=
        if s.done then s.returnedBeforeClose else s.returnedBeforeClose ++ [c] } :=
  { hinv with
    entered_iff := fun c' => by
      change c' ∈ s.entered ↔ _
      rw [hinv.entered_iff]
      by_cases h : c' = c
      · subst c'
        simp [setCall, hc]
      · simp [setCall, h]
    returned_entered := fun c' h => by
      change c' ∈ s.entered
      dsimp only at h
      split_ifs at h
      · exact hinv.returned_entered c' h
      · rcases mem_append.mp h with h | h
        · exact hinv.returned_entered c' h
        · rw [mem_singleton.mp h]
          exact (hinv.entered_iff c).mpr (.inl hc) }

variable {last : Bool}

omit [DecidableEq C] in
lemma inv_drainReady (hinv : s.Inv cfg)
    (hwriter : s.writer = .draining last) : (s.drainReady cfg last).Inv cfg := by
  have hstop : Inv cfg { s with writer := .flushing last } :=
    { hinv with
      batch_empty := by simp
      last_done := fun h => hinv.last_done (by rw [hwriter]; exact h) }
  rw [drainReady]
  split_ifs
  · split
    next m rest hin =>
      exact { hinv with
        split := by
          rw [hinv.split, hin]
          simp [sentMessages]
        batch_empty := by simp [hwriter] }
    next => exact hstop
  · exact hstop

omit [DecidableEq C] in
lemma inv_flush (hinv : s.Inv cfg) (err : Option String) (hwriter : s.writer = .flushing last) :
    Inv cfg { s.flush cfg err with writer := if last then .returned else .selecting } := by
  have hdone : (if last then Writer.returned else .selecting).isLast = true → s.done = true := by
    intro h
    refine hinv.last_done ?_
    rw [hwriter]
    cases last
    · cases h
    · rfl
  by_cases hbatch : s.batch.length = 0
  · have hflush : s.flush cfg err = s := if_pos hbatch
    rw [hflush]
    exact { hinv with
      batch_empty := fun _ => length_eq_zero_iff.mp hbatch
      last_done := hdone }
  · have hflush : s.flush cfg err = s.sendBatch cfg err := if_neg hbatch
    rw [hflush]
    exact { hinv with
      split := by
        change s.entered = _
        rw [hinv.split]
        simp [sentMessages, sendBatch]
      batch_empty := fun _ => rfl
      last_done := hdone
      handed_eq := by
        intro hhandler
        cases err with
        | none => simp [sendBatch, hinv.handed_eq hhandler]
        | some err => simp [sendBatch, hhandler, hinv.handed_eq hhandler] }

lemma inv_step (s : Coalescer C) (e : CoalescerEvent C) (s' : Coalescer C) (hinv : s.Inv cfg)
    (hstep : s.step cfg e = some s') : s'.Inv cfg := by
  cases e with
  | preCheck c =>
    obtain ⟨hc, rfl⟩ := allow_eq_some.mp hstep
    refine inv_setCall hinv (by simp [hc]) ?_
    split_ifs <;> simp
  | fastSend c =>
    obtain ⟨hc, rfl⟩ := allow_eq_some.mp hstep
    split_ifs
    · exact inv_send hinv (by simp [hc])
    · exact inv_setCall hinv (by simp [hc]) (by simp)
  | slowSend c =>
    obtain ⟨⟨hc, -⟩, rfl⟩ := allow_eq_some.mp hstep
    exact inv_send hinv (by simp [hc])
  | slowContextDone c err =>
    obtain ⟨hc, rfl⟩ := allow_eq_some.mp hstep
    exact inv_setCall hinv (by simp [hc]) (by simp)
  | slowClosed c =>
    obtain ⟨⟨hc, -⟩, rfl⟩ := allow_eq_some.mp hstep
    exact inv_setCall hinv (by simp [hc]) (by simp)
  | submitReturn c =>
    obtain ⟨hc, rfl⟩ := allow_eq_some.mp hstep
    exact inv_submitReturn hinv hc
  | close =>
    cases hstep
    exact { hinv with last_done := fun _ => rfl }
  | selectDone =>
    obtain ⟨⟨hwriter, hdone⟩, rfl⟩ := allow_eq_some.mp hstep
    exact { hinv with batch_empty := by simp, last_done := fun _ => hdone }
  | selectIn =>
    cases hin : s.input with
    | nil => simp [step, hin] at hstep
    | cons m rest =>
      simp only [step, hin, allow_eq_some] at hstep
      obtain ⟨hwriter, rfl⟩ := hstep
      exact { hinv with
        split := by
          rw [hinv.split, hin]
          simp [sentMessages]
        batch_empty := by simp
        last_done := fun h => by cases h }
  | drainReady =>
    cases hwriter : s.writer with
    | draining last =>
      simp only [step, hwriter, some.injEq] at hstep
      exact hstep ▸ inv_drainReady hinv hwriter
    | _ => simp [step, hwriter] at hstep
  | flush err =>
    cases hwriter : s.writer with
    | flushing last =>
      simp only [step, hwriter, some.injEq] at hstep
      exact hstep ▸ inv_flush hinv err hwriter
    | _ => simp [step, hwriter] at hstep

lemma inv_run {events : List (CoalescerEvent C)}
    (hrun : (system cfg).run events = some s) : s.Inv cfg := by
  refine System.run_invariant ?_ inv_step hrun
  exact
    { split := rfl
      nodup := nodup_nil
      entered_iff := by simp [system]
      returned_entered := by simp [system]
      batch_empty := fun _ => rfl
      last_done := nofun
      handed_eq := fun _ => rfl }

/-! ## What is left behind -/

/-- The messages in the channel that the writer will no longer take out. -/
def leftBehind (cfg : CoalescerSettings) (s : Coalescer C) : List C :=
  match s.writer with
  | .draining true => s.input.drop (cfg.maxBatch - s.batch.length)
  | .flushing true => s.input
  | .returned => s.input
  | _ => []

/-- The writer turns to its last batch while the channel holds, beyond one batch, a
message whose submit call returned before closing. -/
def Overfull (cfg : CoalescerSettings) (s : Coalescer C) (e : CoalescerEvent C) : Prop :=
  e = .selectDone ∧ ∃ c ∈ s.returnedBeforeClose, c ∈ s.input.drop cfg.maxBatch

def Strands (cfg : CoalescerSettings) (s : Coalescer C) : Prop :=
  ∃ c ∈ s.returnedBeforeClose, c ∈ s.leftBehind cfg

omit [DecidableEq C] in
lemma leftBehind_of_not_last (cfg : CoalescerSettings)
    (h : s.writer.isLast = false) : s.leftBehind cfg = [] := by
  unfold leftBehind
  cases hw : s.writer with
  | selecting => rfl
  | draining last | flushing last => cases last <;> simp_all [Writer.isLast]
  | returned => simp [hw, Writer.isLast] at h

lemma strands_send (hinv : s.Inv cfg) (hc : ¬(s.calls c = .sent ∨ s.calls c = .returned none)) :
    (s.send c).Strands cfg ↔ s.Strands cfg := by
  have hnew : c ∉ s.returnedBeforeClose := fun h =>
    hc ((hinv.entered_iff c).mp (hinv.returned_entered c h))
  have hmem : ∀ c' ∈ s.returnedBeforeClose,
      (c' ∈ (s.send c).leftBehind cfg ↔ c' ∈ s.leftBehind cfg) := by
    intro c' hc'
    have hne : c' ≠ c := fun h => hnew (h ▸ hc')
    have hdrop : ∀ n, c' ∈ (s.input ++ [c]).drop n ↔ c' ∈ s.input.drop n := by
      intro n
      rw [drop_append, mem_append]
      refine or_iff_left fun h => hne ?_
      exact mem_singleton.mp (mem_of_mem_drop h)
    have hin : c' ∈ s.input ++ [c] ↔ c' ∈ s.input := by simpa using hdrop 0
    simp only [leftBehind, send, setCall]
    cases s.writer with
    | selecting => rfl
    | draining last => cases last <;> simp [hdrop]
    | flushing last => cases last <;> simp [hin]
    | returned => exact hin
  exact exists_congr fun c' => and_congr_right (hmem c')

omit [DecidableEq C] in
lemma strands_drainReady (hwriter : s.writer = .draining last) :
    (s.drainReady cfg last).Strands cfg ↔ s.Strands cfg := by
  have hleft : (s.drainReady cfg last).leftBehind cfg = s.leftBehind cfg := by
    cases last with
    | false =>
      rw [leftBehind_of_not_last cfg (s := s) (by rw [hwriter]; rfl), leftBehind_of_not_last]
      unfold drainReady
      split_ifs
      · split <;> simp [hwriter, Writer.isLast]
      · rfl
    | true =>
      unfold drainReady
      split_ifs with hroom
      · split
        next m rest hin =>
          obtain ⟨k, hk⟩ : ∃ k, cfg.maxBatch - s.batch.length = k + 1 :=
            ⟨cfg.maxBatch - s.batch.length - 1, by omega⟩
          have hk' : cfg.maxBatch - (s.batch ++ [m]).length = k := by
            rw [length_append, length_singleton]
            omega
          simp only [leftBehind, hwriter, hin, hk, hk', drop_succ_cons]
        next hin => simp [leftBehind, hwriter, hin]
      · have hzero : cfg.maxBatch - s.batch.length = 0 := by omega
        simp [leftBehind, hwriter, hzero]
  have hreturned : (s.drainReady cfg last).returnedBeforeClose = s.returnedBeforeClose := by
    unfold drainReady
    split_ifs
    · split <;> rfl
    · rfl
  rw [Strands, Strands, hleft, hreturned]

/-- A step makes the state strand a message exactly if it did so already or the step
turns to the last batch with too much in the channel. -/
lemma strands_step {s s' : Coalescer C} {e : CoalescerEvent C} (hinv : s.Inv cfg)
    (hstep : s.step cfg e = some s') : s'.Strands cfg ↔ s.Strands cfg ∨ s.Overfull cfg e := by
  have hother : e ≠ .selectDone → (s'.Strands cfg ↔ s.Strands cfg) →
      (s'.Strands cfg ↔ s.Strands cfg ∨ s.Overfull cfg e) := by
    intro hne h
    rw [h, Overfull]
    exact (or_iff_left fun h => hne h.1).symm
  cases e with
  | preCheck c | slowContextDone c err | slowClosed c =>
    obtain ⟨-, rfl⟩ := allow_eq_some.mp hstep
    exact hother (by simp) Iff.rfl
  | fastSend c =>
    obtain ⟨hc, rfl⟩ := allow_eq_some.mp hstep
    refine hother (by simp) ?_
    split_ifs
    · exact strands_send hinv (by simp [hc])
    · rfl
  | slowSend c =>
    obtain ⟨⟨hc, -⟩, rfl⟩ := allow_eq_some.mp hstep
    exact hother (by simp) (strands_send hinv (by simp [hc]))
  | submitReturn c =>
    obtain ⟨-, rfl⟩ := allow_eq_some.mp hstep
    refine hother (by simp) ?_
    by_cases hdone : s.done = true
    · simp only [hdone, if_true]
      rfl
    · have hlast : s.writer.isLast = false := by
        rw [← Bool.not_eq_true]
        exact fun h => hdone (hinv.last_done h)
      have hleft : ∀ returned, leftBehind cfg { s.setCall c (.returned none) with
          returnedBeforeClose := returned } = [] := fun _ => leftBehind_of_not_last cfg hlast
      simp [Strands, hleft, leftBehind_of_not_last cfg hlast]
  | close =>
    cases hstep
    exact hother (by simp) Iff.rfl
  | selectDone =>
    obtain ⟨⟨hwriter, -⟩, rfl⟩ := allow_eq_some.mp hstep
    have hbatch := hinv.batch_empty (.inl hwriter)
    have hnow : ¬s.Strands cfg := by
      rintro ⟨c, -, hc⟩
      rw [leftBehind_of_not_last cfg (by rw [hwriter]; rfl)] at hc
      cases hc
    rw [or_iff_right hnow, Overfull, Strands]
    simp [leftBehind, hbatch]
  | selectIn =>
    cases hin : s.input with
    | nil => simp [step, hin] at hstep
    | cons m rest =>
      simp only [step, hin, allow_eq_some] at hstep
      obtain ⟨hwriter, rfl⟩ := hstep
      refine hother (by simp) ?_
      simp [Strands, leftBehind, hwriter]
  | drainReady =>
    cases hwriter : s.writer with
    | draining last =>
      simp only [step, hwriter, some.injEq] at hstep
      exact hother (by simp) (hstep ▸ strands_drainReady hwriter)
    | _ => simp [step, hwriter] at hstep
  | flush err =>
    cases hwriter : s.writer with
    | flushing last =>
      simp only [step, hwriter, some.injEq] at hstep
      refine hother (by simp) ?_
      subst hstep
      have hinput : (s.flush cfg err).input = s.input ∧
          (s.flush cfg err).returnedBeforeClose = s.returnedBeforeClose := by
        unfold flush
        split_ifs <;> exact ⟨rfl, rfl⟩
      cases last <;> simp [Strands, leftBehind, hwriter, hinput.1, hinput.2]
    | _ => simp [step, hwriter] at hstep

/-- The run stranded a message exactly if it once turned to the last batch with too much
in the channel. -/
lemma strands_iff_took {events : List (CoalescerEvent C)}
    (hrun : (system cfg).run events = some s) :
    s.Strands cfg ↔ (system cfg).Took (Overfull cfg) events := by
  refine System.run_induction (P := fun events s =>
    s.Strands cfg ↔ (system cfg).Took (Overfull cfg) events) ?_ ?_ hrun
  · refine iff_of_false ?_ (System.not_took_nil _)
    rintro ⟨c, hc, -⟩
    cases hc
  · intro events s e s' hrun ih hstep
    rw [strands_step (inv_run hrun) hstep, System.took_concat hrun, ih]

/-! ## Accounting -/

/-- Every message whose submit call returned before closing is in exactly one request,
the messages of a failed request are handed to the handler exactly once, and requests
keep the order of the channel. -/
structure Accounted (cfg : CoalescerSettings) (s : Coalescer C) : Prop where
  once : ∀ c ∈ s.returnedBeforeClose, s.sentMessages.count c = 1
  handed : cfg.hasErrHandler = true → ∀ request ∈ s.requests, ∀ err, request.2 = some err →
    ∀ c ∈ request.1, (s.handed.flatMap fun call => call.2.1).count c = 1
  ordered : s.sentMessages <+: s.entered

omit [DecidableEq C] in
lemma sentMessages_nodup (hinv : s.Inv cfg) : s.sentMessages.Nodup := by
  have h := hinv.nodup
  rw [hinv.split] at h
  exact (nodup_append.mp h).1

lemma handed_once (hinv : s.Inv cfg) (hhandler : cfg.hasErrHandler = true)
    {request : List C × Option String} (hrequest : request ∈ s.requests) {err : String}
    (herr : request.2 = some err) (hc : c ∈ request.1) :
    (s.handed.flatMap fun call => call.2.1).count c = 1 := by
  have hsub : (s.handed.flatMap fun call => call.2.1).Sublist s.sentMessages := by
    rw [hinv.handed_eq hhandler, sentMessages]
    generalize s.requests = requests
    induction requests with
    | nil => exact List.Sublist.refl _
    | cons r requests ih =>
      cases hr : r.2 with
      | none => simpa [hr] using ih.trans (sublist_append_right _ _)
      | some err => simpa [hr] using ih
  refine count_eq_one_of_mem ((sentMessages_nodup hinv).sublist hsub) ?_
  rw [hinv.handed_eq hhandler, mem_flatMap]
  exact ⟨(cfg.dest, request.1, err), mem_filterMap.mpr ⟨request, hrequest, by simp [herr]⟩, hc⟩

/-- Once the writer has returned, every message is accounted for if and only if the
writer did not turn to its last batch while the channel held more than one batch and,
beyond the first batch, a message whose submit call returned before closing. -/
theorem accounted_iff (cfg : CoalescerSettings) (events : List (CoalescerEvent C))
    (s : Coalescer C) (hrun : (system cfg).run events = some s) (hreturned : s.writer = .returned) :
    s.Accounted cfg ↔ ¬(system cfg).Took (Overfull cfg) events := by
  have hinv := inv_run hrun
  have hsplit : s.entered = s.sentMessages ++ s.input := by
    rw [hinv.split, hinv.batch_empty (.inr hreturned), nil_append]
  have hdisjoint : ∀ c ∈ s.sentMessages, c ∉ s.input := by
    have h := hinv.nodup
    rw [hsplit] at h
    intro c hc hin
    exact (nodup_append.mp h).2.2 c hc c hin rfl
  have hleft : s.leftBehind cfg = s.input := by rw [leftBehind, hreturned]
  rw [← strands_iff_took hrun, Strands, hleft]
  constructor
  · rintro haccounted ⟨c, hc, hin⟩
    have hsent : c ∈ s.sentMessages := count_pos_iff.mp (by rw [haccounted.once c hc]; decide)
    exact hdisjoint c hsent hin
  · intro hnone
    refine ⟨fun c hc => ?_, fun hhandler request hrequest err herr c hc =>
      handed_once hinv hhandler hrequest herr hc, ?_⟩
    · have hentered := hinv.returned_entered c hc
      rw [hsplit, mem_append] at hentered
      rcases hentered with hsent | hin
      · exact count_eq_one_of_mem (sentMessages_nodup hinv) hsent
      · exact absurd ⟨c, hc, hin⟩ hnone
    · rw [hsplit]
      exact prefix_append _ _

/-- Two messages, sent in one batch, which they fill, before closing. -/
def fullBatch : List (CoalescerEvent ℕ) :=
  [.preCheck 0, .fastSend 0, .preCheck 1, .submitReturn 0, .fastSend 1, .submitReturn 1, .selectIn,
    .drainReady, .drainReady, .flush (some "timeout"), .close, .selectDone, .drainReady,
    .flush none]

theorem accounted_iff_fullBatch :
    ∃ s, (system (newCoalescer "peer:9000" 2 true)).run fullBatch = some s ∧
      s.writer = .returned ∧ s.sentMessages = [0, 1] ∧
      s.Accounted (newCoalescer "peer:9000" 2 true) := by
  refine ⟨_, rfl, rfl, rfl, (accounted_iff _ fullBatch _ rfl rfl).mpr ?_⟩
  intro htook
  obtain ⟨c, -, hc⟩ := (strands_iff_took rfl).mpr htook
  cases hc

/-- Two messages are accepted before closing and batches hold one: the second is never
sent. -/
theorem backlog_lost :
    ∃ s, (system (newCoalescer "peer:9000" 1 true)).run
        [.preCheck 0, .fastSend 0, .submitReturn 0, .preCheck 1, .fastSend 1, .submitReturn 1,
          .close, .selectDone, .drainReady, .drainReady, .flush none] = some s ∧
      s.writer = .returned ∧ s.calls 1 = .returned none ∧ 1 ∈ s.returnedBeforeClose ∧
      s.sentMessages = [0] ∧ s.input = [1] ∧ ¬s.Accounted (newCoalescer "peer:9000" 1 true) := by
  refine ⟨_, rfl, rfl, rfl, by decide, rfl, rfl, fun h => ?_⟩
  exact absurd (h.once 1 (by decide)) (by decide)

/-- In every interleaving, the message of a submit call that returned without an error is in
exactly one request, in the batch or in the channel, that of a call that returned an error is in
none of them, and requests keep the order of the channel. -/
theorem submitted_messages_kept (cfg : CoalescerSettings) (events : List (CoalescerEvent C))
    (s : Coalescer C) (hrun : (system cfg).run events = some s) :
    (∀ c, s.calls c = .returned none →
      (s.sentMessages ++ (s.batch ++ s.input)).count c = 1) ∧
    (∀ c err, s.calls c = .returned (some err) → c ∉ s.sentMessages ++ (s.batch ++ s.input)) ∧
    s.sentMessages <+: s.entered := by
  have hinv := inv_run hrun
  rw [← hinv.split]
  refine ⟨fun c hc => ?_, fun c err hc hmem => ?_, ?_⟩
  · exact count_eq_one_of_mem hinv.nodup ((hinv.entered_iff c).mpr (.inr hc))
  · rcases (hinv.entered_iff c).mp hmem with hsent | hnil
    · cases hc.symm.trans hsent
    · cases hc.symm.trans hnil
  · exact hinv.split ▸ prefix_append _ _

theorem submitted_messages_kept_fullBatch :
    ∃ s, (system (newCoalescer "peer:9000" 2 true)).run fullBatch = some s ∧
      s.sentMessages = [0, 1] ∧ (s.sentMessages ++ (s.batch ++ s.input)).count 1 = 1 :=
  ⟨_, rfl, rfl,
    (submitted_messages_kept (newCoalescer "peer:9000" 2 true) fullBatch _ rfl).1 1 rfl⟩

end Coalescer
end GoAkt.Remote
