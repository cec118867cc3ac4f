import GoAkt.Interleavings
import GoAkt.Stream.Protocol

/-!
# Fan-out hubs and their slots

A hub is the sink of a shared upstream. It knows the demand of each slot, requests elements in
batches, one batch at a time, and tells every element to some of its slots. Here a hub runs with
its `n` slots: each of them has a channel to the hub and one back, the branches request and
cancel as they like, and the upstream sends no more than was requested.

A slot starts a branch: it passes on the requests of the branch, which are kept until the hub has
announced itself, and what the hub sends.
-/
namespace GoAkt.Stream
open List GoAkt.Interleavings Function

/-- What the hub tells a slot. -/
inductive HubMessage (V E : Type*)
  | hubReady
  | relay (s : Signal V E)
deriving DecidableEq

/-- A slot. Those of `Balance` and `Partition` also end the branch when it cancels. -/
structure SlotActor where
  endsBranch : Bool
  /-- The hub has announced itself. -/
  hub : Bool
  pendingDemand : ℤ
deriving DecidableEq

namespace SlotActor
variable {V E : Type*}

def new (endsBranch : Bool) : SlotActor := ⟨endsBranch, false, 0⟩

def receive (a : SlotActor) : Inbox V E (HubMessage V E) → Turn SlotActor V E
  | .upward (.request n) =>
    if a.hub then (Turn.idle a).tellUp (.request n)
    else .idle { a with pendingDemand := a.pendingDemand + n }
  | .own .hubReady =>
    if 0 < a.pendingDemand then
      (Turn.idle { a with hub := true, pendingDemand := 0 }).tellUp (.request a.pendingDemand)
    else .idle { a with hub := true }
  | .own (.relay (.element v)) => (Turn.idle a).tellDown (.element v)
  | .own (.relay .complete) => (Turn.idle a).finish .complete
  | .own (.relay (.error e)) => (Turn.idle a).finish (.error e)
  | .upward .cancel =>
    -- a hub that is not known yet does not learn of the cancellation
    let t : Turn SlotActor V E := if a.hub then (Turn.idle a).tellUp .cancel else .idle a
    (if a.endsBranch then t.tellDown .complete else t).shutdown
  | .stageWire | .signal _ => .idle a

end SlotActor

def broadcastSlotActor : SlotActor := .new false
def partitionSlotActor : SlotActor := .new true

/-- A hub, with the slots that have not cancelled. -/
structure HubActor where
  n : ℕ
  slots : ℕ → Bool
  demand : ℕ → ℤ
  /-- The hub has been wired to its upstream. -/
  upstream : Bool
  pending : ℤ
  cancelled : ℕ
  nextSlot : ℕ

/-- What a hub receives: from its upstream, and from its slots. -/
inductive HubInbox (V E : Type*)
  | stageWire
  | signal (s : Signal V E)
  | slotDemand (slot : ℕ) (n : ℤ)
  | slotCancel (slot : ℕ)

/-- What a hub does in one turn. -/
structure HubTurn (V E : Type*) where
  hub : HubActor
  tells : List (ℕ × HubMessage V E)
  up : List Upward
  stopped : Bool

/-- What the kinds of hubs differ in: how much they pull, and the slots an element goes to. -/
structure HubKind where
  pull : HubActor → ℤ
  route : HubActor → List ℕ
  /-- The round-robin cursor, after an element went to these slots. -/
  cursor : HubActor → List ℕ → ℕ

/-- One message for each slot of a list. -/
def toEach {α : Type*} (slots : List ℕ) (m : α) : List (ℕ × α) := slots.map (·, m)

namespace HubActor
variable {V E : Type*}

def new (n : ℕ) : HubActor := ⟨n, fun _ => true, fun _ => 0, false, 0, 0, 0⟩

variable (kind : HubKind) (a : HubActor)

/-- The slots that have not cancelled. -/
def live : List ℕ := (List.range a.n).filter (a.slots ·)

/-- The end of a turn in which the slots are told something: elements are requested if none is
in flight. -/
def maybePull (tells : List (ℕ × HubMessage V E)) : HubTurn V E :=
  if a.upstream = false ∨ 0 < a.pending ∨ kind.pull a ≤ 0 then ⟨a, tells, [], false⟩
  else ⟨{ a with pending := kind.pull a }, tells, [.request (kind.pull a)], false⟩

/-- Each slot of a list is told one element. -/
def take (slots : List ℕ) (cursor : ℕ) : HubActor :=
  { a with
    pending := a.pending - 1
    demand := fun i => a.demand i - slots.count i
    nextSlot := cursor }

/-- The entry of a slot that has cancelled is cleared. -/
@[simps] def clear (slot : ℕ) : HubActor :=
  { a with slots := update a.slots slot false, cancelled := a.cancelled + 1 }

def receive : HubInbox V E → HubTurn V E
  | .stageWire => ⟨{ a with upstream := true }, toEach (List.range a.n) .hubReady, [], false⟩
  | .slotDemand slot n =>
    maybePull kind { a with demand := update a.demand slot (a.demand slot + n) } []
  | .signal (.element v) =>
    let slots := kind.route a
    maybePull kind (a.take slots (kind.cursor a slots)) (toEach slots (.relay (.element v)))
  | .signal .complete => ⟨a, toEach a.live (.relay .complete), [], true⟩
  | .signal (.error e) => ⟨a, toEach a.live (.relay (.error e)), [], true⟩
  | .slotCancel slot =>
    if a.n ≤ a.cancelled + 1 then ⟨a.clear slot, [], if a.upstream then [.cancel] else [], true⟩
    else maybePull kind (a.clear slot) []

/-- The least demand of the live slots, and 0 if there is none. -/
def minDemand : ℤ :=
  let result := a.live.foldl
    (fun result i => if result < 0 ∨ a.demand i < result then a.demand i else result) (-1)
  if result ≤ 0 then 0 else result

def totalDemand : ℤ := (a.live.map a.demand).sum

/-- The next slot with demand, in round-robin order. -/
def chosen : Option ℕ :=
  ((List.range a.n).map fun i => (a.nextSlot + i) % a.n).find?
    fun i => a.slots i && decide (0 < a.demand i)

end HubActor

/-- Every live slot gets every element. -/
def broadcastHubActor : HubKind where
  pull := HubActor.minDemand
  route := HubActor.live
  cursor a _ := a.nextSlot

/-- Every element goes to one slot. One that finds no slot with demand is dropped. -/
def balanceHubActor : HubKind where
  pull := HubActor.totalDemand
  route a := a.chosen.toList
  cursor a slots := slots.foldl (fun _ slot => (slot + 1) % a.n) a.nextSlot

/-- A slot, its channels to the hub and from it, and what its branch has done and been sent. -/
structure Branch (V E : Type*) where
  slot : SlotActor
  stopped : Bool
  up : List Upward
  down : List (HubMessage V E)
  asked : ℤ
  cancelled : Bool
  delivered : List (Signal V E)

namespace Branch
variable {V E : Type*}

def new (slot : SlotActor) : Branch V E := ⟨slot, false, [], [], 0, false, []⟩

/-- The slot handles a message. -/
@[simps, grind =] def turn (b : Branch V E) (m : Inbox V E (HubMessage V E)) : Branch V E :=
  let t := b.slot.receive m
  { b with
    slot := t.actor
    stopped := t.stopped
    up := b.up ++ t.up
    delivered := b.delivered ++ t.down }

@[grind =] def request (b : Branch V E) (n : ℤ) : Branch V E :=
  { b with asked := b.asked + n }.turn (.upward (.request n))

@[grind =] def cancel (b : Branch V E) : Branch V E :=
  { b with cancelled := true }.turn (.upward .cancel)

/-- The next message of the hub is handled, or dropped if the slot has stopped. -/
@[grind =] def hear (b : Branch V E) (m : HubMessage V E) (rest : List (HubMessage V E)) :
    Branch V E :=
  if b.stopped then { b with down := rest } else { b with down := rest }.turn (.own m)

end Branch

/-- A hub with its branches, what it has received and what it has told to which slot. -/
structure FanOut (V E : Type*) where
  hub : HubActor
  hubStopped : Bool
  branch : ℕ → Branch V E
  received : List (Signal V E)
  /-- Requested by the hub and not yet received. -/
  outstanding : ℤ
  routed : List (ℕ × V)

namespace FanOut
variable {V E : Type*}

inductive Event (V E : Type*)
  | wire
  | upstream (s : Signal V E)
  | request (i : ℕ) (n : ℤ)
  | cancel (i : ℕ)
  /-- The hub handles the next message of a slot, or a slot one of the hub. -/
  | toHub (i : ℕ)
  | toSlot (i : ℕ)

def routes (tells : List (ℕ × HubMessage V E)) : List (ℕ × V) :=
  tells.filterMap fun
    | (i, .relay (.element v)) => some (i, v)
    | _ => none

/-- What a list of messages has for one slot. -/
def tellsTo {α : Type*} (i : ℕ) (tells : List (ℕ × α)) : List α :=
  tells.filterMap fun t => if t.1 = i then some t.2 else none

def signalOf : HubInbox V E → List (Signal V E)
  | .signal s => [s]
  | _ => []

variable (kind : HubKind) (s : FanOut V E)

/-- The hub handles a message. -/
@[simps] def hubTurn (kind : HubKind) (m : HubInbox V E) : FanOut V E :=
  let t := s.hub.receive kind m
  { hub := t.hub
    hubStopped := t.stopped
    branch := fun i => { s.branch i with down := (s.branch i).down ++ tellsTo i t.tells }
    received := s.received ++ signalOf m
    outstanding := s.outstanding + requested t.up - (elements (signalOf m)).length
    routed := s.routed ++ routes t.tells }

@[simps] def setBranch (i : ℕ) (b : Branch V E) : FanOut V E :=
  { s with branch := update s.branch i b }

/-- The message of a slot, as the hub reads it. -/
def fromSlot (i : ℕ) : Upward → HubInbox V E
  | .request n => .slotDemand i n
  | .cancel => .slotCancel i

def step : Event V E → Option (FanOut V E)
  | .wire => allow (s.hubStopped = false ∧ s.hub.upstream = false) (s.hubTurn kind .stageWire)
  | .upstream sig =>
    allow (s.hubStopped = false ∧ s.hub.upstream = true ∧
      ((elements [sig]).length : ℤ) ≤ s.outstanding) (s.hubTurn kind (.signal sig))
  | .request i n =>
    allow (i < s.hub.n ∧ 0 < n ∧ (s.branch i).stopped = false)
      (s.setBranch i ((s.branch i).request n))
  | .cancel i =>
    allow (i < s.hub.n ∧ (s.branch i).stopped = false) (s.setBranch i (s.branch i).cancel)
  | .toHub i =>
    match (s.branch i).up with
    | [] => none
    | u :: rest =>
      allow (i < s.hub.n ∧ s.hubStopped = false)
        ((s.setBranch i { s.branch i with up := rest }).hubTurn kind (fromSlot i u))
  | .toSlot i =>
    match (s.branch i).down with
    | [] => none
    | m :: rest => some (s.setBranch i ((s.branch i).hear m rest))

/-- `n` branches, none of which has requested anything, and a hub that is about to start. -/
def system (slot : SlotActor) (n : ℕ) : System (FanOut V E) (Event V E) where
  start := ⟨.new n, false, fun _ => .new slot, [], 0, []⟩
  step := step kind

/-- The elements the hub has told to a slot. -/
def given (i : ℕ) : List V := tellsTo i s.routed

/-- The signals among the messages of the hub. -/
def relayed : List (HubMessage V E) → List (Signal V E)
  | [] => []
  | .relay s :: rest => s :: relayed rest
  | .hubReady :: rest => relayed rest

/-! ## What one turn does -/

lemma step_toHub {kind : HubKind} {s s' : FanOut V E} {i : ℕ}
    (hstep : step kind s (.toHub i) = some s') :
    ∃ u rest, (s.branch i).up = u :: rest ∧ i < s.hub.n ∧ s.hubStopped = false ∧
      s' = (s.setBranch i { s.branch i with up := rest }).hubTurn kind (fromSlot i u) := by
  dsimp only [step] at hstep
  split at hstep
  · cases hstep
  next u rest hup =>
  obtain ⟨⟨hi, hrun⟩, rfl⟩ := allow_eq_some.mp hstep
  exact ⟨u, rest, hup, hi, hrun, rfl⟩

lemma step_toSlot {kind : HubKind} {s s' : FanOut V E} {i : ℕ}
    (hstep : step kind s (.toSlot i) = some s') :
    ∃ m rest, (s.branch i).down = m :: rest ∧ s' = s.setBranch i ((s.branch i).hear m rest) := by
  dsimp only [step] at hstep
  split at hstep
  · cases hstep
  next m rest hdown =>
  cases hstep
  exact ⟨m, rest, hdown, rfl⟩

section Lists
variable {α : Type*} (i : ℕ)

@[simp, grind =] lemma tellsTo_nil : tellsTo i ([] : List (ℕ × α)) = [] := rfl

@[simp, grind =] lemma tellsTo_append (l k : List (ℕ × α)) :
    tellsTo i (l ++ k) = tellsTo i l ++ tellsTo i k := filterMap_append

variable (k : ℕ) (slots : List ℕ)

@[simp, grind =] lemma tellsTo_toEach (m : α) :
    tellsTo i (toEach slots m) = List.replicate (slots.count i) m := by
  induction slots with
  | nil => rfl
  | cons j slots ih =>
    rw [toEach, map_cons, tellsTo, filterMap_cons]
    by_cases hj : j = i <;> simp_all [tellsTo, toEach, replicate_succ]

@[simp, grind =] lemma routes_nil : routes ([] : List (ℕ × HubMessage V E)) = [] := rfl

@[simp, grind =] lemma routes_hubReady :
    routes (toEach slots (.hubReady : HubMessage V E)) = [] := by
  induction slots <;> simp_all [routes, toEach]

@[simp, grind =] lemma routes_toEach (sig : Signal V E) :
    routes (toEach slots (.relay sig)) = (elements [sig]).flatMap (toEach slots) := by
  induction slots <;> cases sig <;> simp_all [routes, toEach]

@[simp, grind =] lemma relayed_nil : relayed ([] : List (HubMessage V E)) = [] := rfl

@[simp, grind =] lemma relayed_relay (s : Signal V E) (rest : List (HubMessage V E)) :
    relayed (.relay s :: rest) = s :: relayed rest := rfl

@[simp, grind =] lemma relayed_hubReady (rest : List (HubMessage V E)) :
    relayed (.hubReady :: rest) = relayed rest := rfl

@[simp, grind =] lemma relayed_append (l k : List (HubMessage V E)) :
    relayed (l ++ k) = relayed l ++ relayed k := by
  fun_induction relayed l <;> simp_all

@[simp, grind =] lemma relayed_replicate (s : Signal V E) :
    relayed (List.replicate k (.relay s)) = List.replicate k s := by
  induction k <;> simp_all [replicate_succ]

@[simp, grind =] lemma relayed_replicate_hubReady :
    relayed (List.replicate k (.hubReady : HubMessage V E)) = [] := by
  induction k <;> simp_all [replicate_succ]

@[simp, grind =] lemma elements_replicate (v : V) :
    elements (List.replicate k (.element v : Signal V E)) = List.replicate k v := by
  simpa using elements_map (E := E) (replicate k v)

@[simp] lemma elements_replicate_complete :
    elements (List.replicate k (.complete : Signal V E)) = [] := by
  induction k <;> simp_all [replicate_succ]

@[simp] lemma elements_replicate_error (e : Failure E) :
    elements (List.replicate k (.error e : Signal V E)) = [] := by
  induction k <;> simp_all [replicate_succ]

end Lists

/-- A turn that ends with a pull: what is pending afterwards, and why. -/
lemma hubTurn_pull {s : FanOut V E} {kind : HubKind} {m : HubInbox V E} {a : HubActor}
    {tells : List (ℕ × HubMessage V E)} (h : s.hub.receive kind m = a.maybePull kind tells)
    (hpending : 0 ≤ a.pending) :
    ∃ p, s.hubTurn kind m =
        ⟨{ a with pending := p }, false,
          fun i => { s.branch i with down := (s.branch i).down ++ tellsTo i tells },
          s.received ++ signalOf m,
          s.outstanding + (p - a.pending) - (elements (signalOf m)).length,
          s.routed ++ routes tells⟩ ∧
      (p = a.pending ∧ (a.upstream = false ∨ 0 < p ∨ kind.pull a ≤ 0) ∨
        p = kind.pull a ∧ a.upstream = true ∧ a.pending = 0 ∧ 0 < p) := by
  unfold hubTurn
  rw [h, HubActor.maybePull]
  split_ifs with hwait
  · exact ⟨a.pending, by simp, .inl ⟨rfl, hwait⟩⟩
  · obtain ⟨hup, hidle, hpull⟩ : a.upstream = true ∧ a.pending = 0 ∧ 0 < kind.pull a := by
      grind
    exact ⟨kind.pull a, by simp [hidle], .inr ⟨rfl, hup, hidle, hpull⟩⟩

/-- The demand of a branch is accounted for: it has been met, or it waits at the hub, on the way
there or in the slot. The hub learns once that it has cancelled, if the slot knew the hub. -/
@[grind] structure Ledger (b : Branch V E) (given : ℕ) (demand : ℤ) (live : Bool) : Prop where
  demand_nonneg : 0 ≤ demand
  asks : Asks b.up
  kept : 0 ≤ b.slot.pendingDemand
  account : given + demand + requested b.up + b.slot.pendingDemand ≤ b.asked
  sent : (elements b.delivered).length + (elements (relayed b.down)).length ≤ given
  unready : b.slot.hub = false → b.up = [] ∧ demand = 0
  halted : b.cancelled = true → b.stopped = true
  cancels : b.up.count .cancel + (if live then 0 else 1) ≤ if b.cancelled then 1 else 0
  noticed : b.cancelled = true → b.slot.hub = true → .cancel ∈ b.up ∨ live = false

def Terminal : Signal V E → Bool
  | .element _ => false
  | _ => true

@[grind =] lemma receive_relay (a : SlotActor) (sig : Signal V E) :
    a.receive (.own (.relay sig)) = ⟨a, [], [sig], Terminal sig⟩ := by
  cases sig <;> rfl

section Ledger
variable {b : Branch V E} {given : ℕ} {demand : ℤ} {live : Bool}

section
variable (h : Ledger b given demand live)
include h

lemma Ledger.request {n : ℤ} (hn : 0 < n)
    (hrun : b.stopped = false) : Ledger (b.request n) given demand live := by
  constructor <;> grind [SlotActor.receive]

lemma Ledger.cancel (hrun : b.stopped = false) : Ledger b.cancel given demand live := by
  constructor <;> grind [SlotActor.receive]

lemma Ledger.hear {m : HubMessage V E} {rest : List (HubMessage V E)} (hdown : b.down = m :: rest) :
    Ledger (b.hear m rest) given demand live := by
  rcases m with _ | sig
  · constructor <;> grind [SlotActor.receive]
  · constructor <;> cases sig <;> grind

lemma Ledger.tell {k : ℕ} (hk : k ≤ demand) (v : V) :
    Ledger { b with down := b.down ++ replicate k (.relay (.element v)) } (given + k)
      (demand - k) live := by
  constructor <;> grind

/-- The hub takes a message from the channel of the slot. -/
lemma Ledger.pop_request {n : ℤ} {rest : List Upward}
    (hup : b.up = .request n :: rest) : Ledger { b with up := rest } given (demand + n) live := by
  constructor <;> grind

lemma Ledger.pop_cancel {rest : List Upward}
    (hup : b.up = .cancel :: rest) : Ledger { b with up := rest } given demand false := by
  constructor <;> grind

/-- A branch is not sent more than it requested. -/
lemma Ledger.given_le : given ≤ b.asked := by
  have hrequested := h.asks.requested_nonneg
  have haccount := h.account
  have hkept := h.kept
  have hdemand := h.demand_nonneg
  omega

end
end Ledger

/-- What the hub has requested is pending, and the demand of all branches is accounted for. -/
structure Books (s : FanOut V E) : Prop where
  outstanding : s.outstanding = s.hub.pending
  pending : 0 ≤ s.hub.pending
  ledger : ∀ i, Ledger (s.branch i) (s.given i).length (s.hub.demand i) (s.hub.slots i)

section Books
variable {s s' : FanOut V E} {kind : HubKind} {m : HubInbox V E} {a : HubActor}
  {tells : List (ℕ × HubMessage V E)}

lemma Books.setBranch (h : Books s) {i : ℕ} {b : Branch V E}
    (hb : Ledger b (s.given i).length (s.hub.demand i) (s.hub.slots i)) :
    Books (s.setBranch i b) := by
  refine ⟨h.outstanding, h.pending, ?_⟩
  exact (Function.forall_update_iff s.branch
    fun j b => Ledger b (s.given j).length (s.hub.demand j) (s.hub.slots j)).mpr
      ⟨hb, fun j _ => h.ledger j⟩

/-- A turn that ends with a pull. -/
lemma Books.pull (hturn : s.hub.receive kind m = a.maybePull kind tells) (hpending : 0 ≤ a.pending)
    (hout : s.outstanding = a.pending + (elements (signalOf m)).length)
    (hledger : ∀ i, Ledger { s.branch i with down := (s.branch i).down ++ tellsTo i tells }
      ((s.given i).length + (tellsTo i (routes tells)).length) (a.demand i) (a.slots i)) :
    Books (s.hubTurn kind m) := by
  obtain ⟨p, heq, hp⟩ := hubTurn_pull hturn hpending
  rw [heq]
  refine ⟨?_, by grind, fun i => ?_⟩
  · change s.outstanding + (p - a.pending) - _ = p
    omega
  · simpa [given] using hledger i

/-- A turn in which the hub tells no element and pulls nothing. -/
lemma Books.idle {up : List Upward} {stopped : Bool}
    (hturn : s.hub.receive kind m = ⟨a, tells, up, stopped⟩) (hout : s.outstanding = a.pending)
    (hpending : 0 ≤ a.pending)
    (hledger : ∀ i, Ledger (s.branch i) (s.given i).length (a.demand i) (a.slots i))
    (hup : requested up = 0) (hsignal : elements (signalOf m) = []) (hroutes : routes tells = [])
    (htells : ∀ i, elements (relayed (tellsTo i tells)) = []) : Books (s.hubTurn kind m) := by
  unfold hubTurn
  rw [hturn]
  refine ⟨?_, hpending, fun i => ?_⟩
  · simpa [hsignal, hup] using hout
  · obtain ⟨hasks, hkept, haccount, hsent, hunready, hhalted, hcancels, hnoticed⟩ := hledger i
    constructor <;> simpa [given, hroutes, htells]

/-- The books stay in order if elements only go to slots with demand. -/
lemma books_step {e : Event V E} (h : Books s)
    (hroute : s.hubStopped = false → 0 < s.hub.pending →
      ∀ i, (kind.route s.hub).count i ≤ s.hub.demand i)
    (hstep : step kind s e = some s') : Books s' := by
  obtain ⟨hout, hpending, hledger⟩ := id h
  cases e with
  | wire =>
    simp only [step, allow_eq_some] at hstep
    obtain ⟨-, rfl⟩ := hstep
    exact .idle rfl hout hpending hledger rfl rfl (by simp) (by simp)
  | upstream sig =>
    simp only [step, allow_eq_some] at hstep
    obtain ⟨⟨hrun, -, hroom⟩, rfl⟩ := hstep
    cases sig with
    | element v =>
      replace hroom : 0 < s.hub.pending := by simpa [hout, Int.lt_iff_add_one_le] using hroom
      refine Books.pull rfl (Int.le_sub_one_of_lt hroom) ?_ fun i => ?_
      · simp [hout, HubActor.take, signalOf]
      · simpa [HubActor.take] using (hledger i).tell (hroute hrun hroom i) v
    | complete | error e => exact .idle rfl hout hpending hledger rfl rfl (by simp) (by simp)
  | request i n =>
    simp only [step, allow_eq_some] at hstep
    obtain ⟨⟨-, hn, hrun⟩, rfl⟩ := hstep
    exact h.setBranch ((hledger i).request hn hrun)
  | cancel i =>
    simp only [step, allow_eq_some] at hstep
    obtain ⟨⟨-, hrun⟩, rfl⟩ := hstep
    exact h.setBranch ((hledger i).cancel hrun)
  | toHub i =>
    obtain ⟨u, rest, hup, -, -, rfl⟩ := step_toHub hstep
    cases u with
    | request n =>
      refine Books.pull rfl hpending (by simpa [signalOf, fromSlot]) fun j => ?_
      by_cases hj : j = i
      · subst hj
        simpa [given] using (hledger j).pop_request hup
      · simpa [hj, given] using hledger j
    | cancel =>
      have hpop (j : ℕ) : Ledger (update s.branch i { s.branch i with up := rest } j)
          (s.given j).length (s.hub.demand j) (update s.hub.slots i false j) := by
        by_cases hj : j = i
        · subst hj
          simpa using (hledger j).pop_cancel hup
        · simpa [hj] using hledger j
      by_cases hlast : s.hub.n ≤ s.hub.cancelled + 1
      · exact .idle (if_pos hlast) hout hpending hpop (by split_ifs <;> rfl) rfl rfl (by simp)
      · refine Books.pull (if_neg hlast) hpending (by simpa [signalOf, fromSlot]) fun j => ?_
        simpa [given] using hpop j
  | toSlot i =>
    obtain ⟨m, rest, hdown, rfl⟩ := step_toSlot hstep
    exact h.setBranch ((hledger i).hear hdown)

lemma books_start (kind : HubKind) (endsBranch : Bool) (n : ℕ) :
    Books (system (V := V) (E := E) kind (.new endsBranch) n).start := by
  refine ⟨rfl, le_rfl, fun i => ?_⟩
  constructor <;> simp [system, Branch.new, SlotActor.new, HubActor.new, given, Asks]

end Books
end FanOut
end GoAkt.Stream
