import GoAkt.Interleavings
import GoAkt.Stream.Protocol

/-!
# Batches

The batch stage on its own: elements, requests, the end of the stream and the timer reach it in
any order. A batch needs a trigger, which is the size or the timer, and demand. A trigger that
finds no demand is forgotten, and then a batch grows over its size, waits without a timer or is
lost at the end. As long as every trigger finds demand, nothing of this happens.
-/
namespace GoAkt.Stream

/-- The messages of the batch stage to itself. -/
inductive BatchMessage
  | batchFlush

structure BatchFlowActor (V : Type*) where
  maxSize : ℕ
  elementType : ElementType V
  /-- The slice that stands for a batch. -/
  pack : List V → V
  window : List V
  upstreamCredit : ℤ
  downstreamDemand : ℤ
  timerActive : Bool
  config : StageConfig

namespace BatchFlowActor
variable {V E : Type*} (t : Turn (BatchFlowActor V) V E) (a : BatchFlowActor V)

/-- The window is sent as one batch, if there is demand. -/
def flush : Turn (BatchFlowActor V) V E :=
  if t.actor.downstreamDemand ≤ 0 then t
  else
    (t.tellDown (.element (t.actor.pack t.actor.window))).modify fun a =>
      { a with window := [], downstreamDemand := a.downstreamDemand - 1 }

def available : ℤ := a.config.initialDemand - a.upstreamCredit - a.window.length

def maybeRequestUpstream : Turn (BatchFlowActor V) V E :=
  let a := t.actor
  if a.available ≤ 0 then t
  else if a.config.refillThreshold < a.upstreamCredit then t
  else
    (t.modify fun a => { a with upstreamCredit := a.upstreamCredit + a.available }).tellUp
      (.request a.available)

/-- An element joins the window, and the first one of a window starts the timer. -/
def append (v : V) : BatchFlowActor V :=
  let window := a.window ++ [v]
  { a with
    upstreamCredit := a.upstreamCredit - 1
    window
    timerActive := a.timerActive || window.length == 1 }

def receive : Inbox V E BatchMessage → Turn (BatchFlowActor V) V E
  | .upward (.request n) =>
    maybeRequestUpstream (.idle { a with downstreamDemand := a.downstreamDemand + n })
  | .signal (.element v) =>
    if a.elementType.has v then
      let a := a.append v
      maybeRequestUpstream (if a.maxSize ≤ a.window.length then flush (.idle a) else .idle a)
    else
      (Turn.idle { a with upstreamCredit := a.upstreamCredit - 1 }).fail
        (.text ("stream: Batch got unexpected element type " ++ a.elementType.typeName v))
  | .own .batchFlush =>
    let a := { a with timerActive := false }
    if a.window = [] then .idle a else flush (.idle a)
  | .signal .complete => (if a.window = [] then Turn.idle a else flush (.idle a)).finish .complete
  | .signal (.error e) => (Turn.idle a).finish (.error e)
  | .upward .cancel => ((Turn.idle a).tellUp .cancel).shutdown
  | .stageWire => .idle a

end BatchFlowActor

open BatchFlowActor GoAkt.Interleavings

/-- The stage, the elements it has received and what it has told its downstream. -/
structure BatchRun (V E : Type*) where
  actor : BatchFlowActor V
  stopped : Bool
  received : List V
  sent : List (Signal V E)

namespace BatchRun
variable {V E : Type*}

def element? : Inbox V E BatchMessage → List V
  | .signal (.element v) => [v]
  | _ => []

/-- One message is handled. The timer fires when it was started. -/
def step (s : BatchRun V E) (m : Inbox V E BatchMessage) : Option (BatchRun V E) :=
  if s.stopped || (m matches .own .batchFlush) && !s.actor.timerActive then none
  else
    let t := s.actor.receive m
    some ⟨t.actor, t.stopped, s.received ++ element? m, s.sent ++ t.down⟩

/-- A new stage: `Batch(maxSize, maxWait)`. -/
def system (maxSize : ℕ) (elementType : ElementType V) (pack : List V → V) (config : StageConfig) :
    System (BatchRun V E) (Inbox V E BatchMessage) where
  start := ⟨⟨maxSize, elementType, pack, [], 0, 0, false, config⟩, false, [], []⟩
  step := step

/-- A trigger finds no demand: the size is reached, the timer fires or the stream ends. -/
def Unmet (s : BatchRun V E) (m : Inbox V E BatchMessage) : Prop :=
  s.actor.downstreamDemand ≤ 0 ∧
    match m with
    | .signal (.element _) => s.actor.maxSize ≤ s.actor.window.length + 1
    | .own .batchFlush | .signal .complete => s.actor.window ≠ []
    | _ => False

/-- The batches sent so far. Nothing is lost, and a window that is not empty has its timer. -/
@[grind] structure Batched (maxSize : ℕ) (pack : List V → V) (batches : List (List V))
    (s : BatchRun V E) : Prop where
  size : s.actor.maxSize = maxSize
  packs : s.actor.pack = pack
  sent : elements s.sent = batches.map pack
  sizes : ∀ b ∈ batches, 0 < b.length ∧ b.length ≤ maxSize
  ended : .complete ∈ s.sent → batches.flatten = s.received
  kept : s.stopped = false → batches.flatten ++ s.actor.window = s.received ∧
    s.actor.window.length < maxSize ∧ (s.actor.window ≠ [] → s.actor.timerActive = true)
  open_ : s.stopped = false → .complete ∉ s.sent

/-- A flush that finds demand sends the window. -/
@[grind =] lemma flush_of_pos (a : BatchFlowActor V) (hdemand : 0 < a.downstreamDemand) :
    BatchFlowActor.flush (.idle a : Turn _ V E) =
      ⟨{ a with window := [], downstreamDemand := a.downstreamDemand - 1 }, [],
        [.element (a.pack a.window)], false⟩ := by
  simp only [flush, Turn.idle_actor, not_le.mpr hdemand, if_false]
  rfl

/-- An element that fills the window is sent with it, if there is demand. -/
lemma receive_full (a : BatchFlowActor V) {v : V} (htype : a.elementType.has v = true)
    (hfull : a.maxSize ≤ a.window.length + 1) (hdemand : 0 < a.downstreamDemand) :
    ∃ credit active up, (a.receive (.signal (.element v)) : Turn _ V E) = ⟨{ a with
          window := [], upstreamCredit := credit, timerActive := active
          downstreamDemand := a.downstreamDemand - 1 },
        up, [.element (a.pack (a.window ++ [v]))], false⟩ := by
  simp only [receive, htype, if_true, append, List.length_append,
    List.length_singleton, hfull, hdemand, flush_of_pos, maybeRequestUpstream]
  split_ifs <;> exact ⟨_, _, _, rfl⟩

lemma batched_step {maxSize : ℕ} {pack : List V → V} {batches : List (List V)}
    {s s' : BatchRun V E} {m : Inbox V E BatchMessage} (h : Batched maxSize pack batches s)
    (hstep : s.step m = some s') (hmet : ¬Unmet s m) :
    ∃ batches, Batched maxSize pack batches s' := by
  obtain ⟨hsize, hpacks, hsent, hsizes, hended, hkept, hopen⟩ := h
  have hopened : s.stopped = false := by grind [step]
  have hlive := hkept hopened
  simp only [step, hopened] at hstep
  -- the three triggers add a batch, every other message keeps the batches
  rcases m with _ | (v | _ | e) | (n | _) | ⟨⟨⟩⟩
  · exact ⟨batches, by grind [receive, element?]⟩
  · by_cases hfull : s.actor.maxSize ≤ s.actor.window.length + 1 ∧ s.actor.elementType.has v
    · obtain ⟨credit, active, up, hturn⟩ := receive_full (E := E) s.actor hfull.2 hfull.1
        (by grind [Unmet])
      refine ⟨batches ++ [s.actor.window ++ [v]], ?_⟩
      constructor <;> grind [element?]
    · exact ⟨batches, by grind [receive, append, element?, maybeRequestUpstream]⟩
  · by_cases hempty : s.actor.window = []
    · exact ⟨batches, by grind [receive, element?]⟩
    · have hdemand : 0 < s.actor.downstreamDemand := by grind [Unmet]
      have hdown : (s.actor.receive (.signal .complete) : Turn _ V E).down =
          [.element (s.actor.pack s.actor.window), .complete] := by
        simp [receive, hempty, flush_of_pos s.actor hdemand]
      refine ⟨batches ++ [s.actor.window], ?_⟩
      constructor <;> grind [receive, element?]
  · exact ⟨batches, by grind [receive, element?]⟩
  · exact ⟨batches, by
      grind [receive, maybeRequestUpstream, element?]⟩
  · exact ⟨batches, by grind [receive, element?]⟩
  · by_cases hempty : s.actor.window = []
    · exact ⟨batches, by grind [receive, element?]⟩
    · have hdemand : 0 < s.actor.downstreamDemand := by grind [Unmet]
      refine ⟨batches ++ [s.actor.window], ?_⟩
      constructor <;> grind [receive, element?]

/-- If every trigger finds demand, all batches have between 1 and `maxSize` elements, together
they are what was received, up to the window, when the stream ends they are all of it, and a
window that is not empty always has a timer under way. -/
theorem batches_exact {maxSize : ℕ} (hpos : 0 < maxSize) {elementType : ElementType V}
    {pack : List V → V} {config : StageConfig} {events : List (Inbox V E BatchMessage)}
    {s : BatchRun V E} (hrun : (system maxSize elementType pack config).run events = some s)
    (hmet : ¬(system maxSize elementType pack config).Took Unmet events) :
    ∃ batches : List (List V), elements s.sent = batches.map pack ∧
      (∀ b ∈ batches, 0 < b.length ∧ b.length ≤ maxSize) ∧
      (.complete ∈ s.sent → batches.flatten = s.received) ∧
      (s.stopped = false → batches.flatten ++ s.actor.window = s.received ∧
        (s.actor.window ≠ [] → s.actor.timerActive = true)) := by
  let Inv (s : BatchRun V E) : Prop := ∃ batches, Batched maxSize pack batches s
  have hstart : Inv (system maxSize elementType pack config).start := by
    refine ⟨[], ?_⟩
    constructor <;> simp [system, hpos]
  have hbatched : Inv s := by
    refine System.safe_invariant hstart ?_ hmet hrun
    rintro s m s' ⟨batches, h⟩ hstep hmet
    exact batched_step h hstep hmet
  obtain ⟨batches, h⟩ := hbatched
  exact ⟨batches, h.sent, h.sizes, h.ended, fun hopen => ⟨(h.kept hopen).1, (h.kept hopen).2.2⟩⟩

/-- `Batch(2, maxWait)` on numbers, an element being a list of one number. -/
def pairs : System (BatchRun (List ℕ) Empty) (Inbox (List ℕ) Empty BatchMessage) :=
  system 2 ⟨fun _ => true, fun _ => "int"⟩ List.flatten defaultStageConfig

/-- Five numbers with demand for three batches: two pairs, and the last one at the end. -/
def fiveNumbers : List (Inbox (List ℕ) Empty BatchMessage) :=
  [.stageWire, .upward (.request 3), .signal (.element [1]), .signal (.element [2]),
    .signal (.element [3]), .signal (.element [4]), .signal (.element [5]), .signal .complete]

def met (s : BatchRun (List ℕ) Empty) (m : Inbox (List ℕ) Empty BatchMessage) : Bool :=
  decide (0 < s.actor.downstreamDemand) || (m matches .stageWire | .upward _)

theorem batches_exact_fiveNumbers :
    ∃ s, pairs.run fiveNumbers = some s ∧
      s.sent = [.element [1, 2], .element [3, 4], .element [5], .complete] ∧
      ∃ batches : List (List (List ℕ)), elements s.sent = batches.map List.flatten ∧
        (.complete ∈ s.sent → batches.flatten = s.received) := by
  have hmet (s : BatchRun (List ℕ) Empty) (m) (h : met s m = true) : ¬Unmet s m := by
    rintro ⟨hnone, htrigger⟩
    cases m <;> simp [met] at h htrigger <;> omega
  obtain ⟨s, hpairs, htook, hsent⟩ := System.exists_safe_run pairs fiveNumbers
    (fun s => s.sent = [.element [1, 2], .element [3, 4], .element [5], .complete]) hmet
    (by decide +kernel)
  obtain ⟨batches, hbatches, -, hall, -⟩ := batches_exact (by decide) hpairs htook
  exact ⟨s, hpairs, hsent, batches, hbatches, hall⟩

/-- A first batch of two uses up the demand. Triggers without demand follow: a batch of three
elements where two are the limit, an element that is lost at the end, and an element with demand
for which no timer runs. -/
theorem batches_not_exact :
    (pairs.run [.stageWire, .upward (.request 1), .signal (.element [1]), .signal (.element [2]),
        .signal (.element [3]), .signal (.element [4]), .signal (.element [5]),
        .upward (.request 1), .own .batchFlush]).map BatchRun.sent =
        some [.element [1, 2], .element [3, 4, 5]] ∧
      (pairs.run [.stageWire, .upward (.request 1), .signal (.element [1]),
        .signal (.element [2]), .signal (.element [3]), .signal .complete]).map BatchRun.sent =
        some [.element [1, 2], .complete] ∧
      (pairs.run [.stageWire, .upward (.request 1), .signal (.element [1]),
        .signal (.element [2]), .signal (.element [3]), .own .batchFlush,
        .upward (.request 1)]).map (fun s => (s.actor.window, s.actor.timerActive, s.sent)) =
        some ([[3]], false, [.element [1, 2]]) := by
  refine ⟨?_, ?_, ?_⟩ <;> decide +kernel

end BatchRun
end GoAkt.Stream
