import GoAkt.Stream.FanOut

/-!
# Hubs that request the least demand

The hubs of `Broadcast` and `Partition` request as many elements as the slot that wants least has
asked for, so that each of them finds demand wherever it goes. A branch that has not cancelled gets
its share of what the upstream sends, in order, and while all of them want elements the hub has a
request outstanding.
-/
namespace GoAkt.Stream
open GoAkt.Interleavings List
namespace HubActor
variable {a : HubActor} {i : ℕ}

lemma mem_live : i ∈ a.live ↔ i < a.n ∧ a.slots i = true := by
  simp [live]

lemma fold_least (demand : ℕ → ℤ) {slots : List ℕ} (hdemand : ∀ i ∈ slots, 0 ≤ demand i) {r : ℤ}
    (hr : 0 ≤ r) :
    let least := slots.foldl
      (fun result i => if result < 0 ∨ demand i < result then demand i else result) r
    least ≤ r ∧ (∀ i ∈ slots, least ≤ demand i) ∧ (least = r ∨ ∃ i ∈ slots, least = demand i) := by
  induction slots generalizing r with
  | nil => simp
  | cons j slots ih =>
    have hj := hdemand j mem_cons_self
    have hrest := ih (fun i hi => hdemand i (mem_cons_of_mem j hi))
      (r := if r < 0 ∨ demand j < r then demand j else r) (by split_ifs <;> assumption)
    rw [foldl_cons]
    generalize slots.foldl _ _ = least at hrest ⊢
    grind

/-- The least demand is that of a live slot, if there is one. -/
lemma minDemand_spec (hdemand : ∀ i, 0 ≤ a.demand i) (hlive : a.live ≠ []) :
    (∀ i ∈ a.live, a.minDemand ≤ a.demand i) ∧ ∃ i ∈ a.live, a.minDemand = a.demand i := by
  unfold minDemand
  cases h : a.live with
  | nil => exact absurd h hlive
  | cons j slots =>
    have hleast := fold_least a.demand (fun i (_ : i ∈ slots) => hdemand i) (hdemand j)
    grind

lemma minDemand_nonpos (hdemand : ∀ i, 0 ≤ a.demand i) (hidle : ∀ i ∈ a.live, a.demand i = 0) :
    a.minDemand ≤ 0 := by
  by_cases hlive : a.live = []
  · simp [minDemand, hlive]
  · obtain ⟨-, i, hi, hmin⟩ := minDemand_spec hdemand hlive
    exact (hmin.trans (hidle i hi)).le

lemma live_clear_sublist (a : HubActor) (i : ℕ) : (a.clear i).live.Sublist a.live := by
  refine monotone_filter_right _ fun j hj => ?_
  by_cases hji : j = i <;> simp_all [clear]

lemma length_live_clear (hi : i < a.n) (hlive : a.slots i = true) :
    (a.clear i).live.length < a.live.length := by
  refine (a.live_clear_sublist i).length_le.lt_of_ne fun hlength => ?_
  have hmem := mem_live.mpr ⟨hi, hlive⟩
  rw [← (a.live_clear_sublist i).eq_of_length hlength] at hmem
  simp [mem_live, clear] at hmem

/-- The hub requests the least demand, and tells an element to each of these slots that is live. -/
structure Shares (kind : HubKind) (goes : ℕ → Bool) (a : HubActor) : Prop where
  pull : kind.pull = minDemand
  once : ∀ i, (kind.route a).count i = if i ∈ a.live ∧ goes i = true then 1 else 0

end HubActor

open HubActor
namespace FanOut
variable {V E : Type*} {s s' : FanOut V E}

/-- A slot cancels before it knows the hub. -/
def EarlyCancel (s : FanOut V E) : Event V E → Prop
  | .cancel i => (s.branch i).slot.hub = false
  | _ => False

def staysKnown (s : FanOut ℕ Empty) : Event ℕ Empty → Bool
  | .cancel i => (s.branch i).slot.hub
  | _ => true

lemma not_earlyCancel (s : FanOut ℕ Empty) (e : Event ℕ Empty) (h : staysKnown s e = true) :
    ¬EarlyCancel s e := by
  cases e <;> simp_all [staysKnown, EarlyCancel]

/-- The signals for a branch: the elements that are meant for it, and the end of the stream. -/
def share (mine : V → Bool) (received : List (Signal V E)) : List (Signal V E) :=
  received.filter fun
    | .element v => mine v
    | _ => true

/-- A branch gets what is meant for it, and its demand is accounted for exactly. -/
@[grind] structure Fed (received : List (Signal V E)) (b : Branch V E) (given : ℕ) (demand : ℤ)
    (running wired : Bool) : Prop where
  exact : running = true → b.cancelled = false →
    given + demand + requested b.up + b.slot.pendingDemand = b.asked
  relay : b.cancelled = false → b.delivered ++ relayed b.down = received
  all : b.cancelled = false → given = (elements received).length
  awake : running = true → b.stopped = true → b.cancelled = true
  silent : b.stopped = true → b.cancelled = false → relayed b.down = []
  ready : wired = true → b.slot.hub = true ∨ .hubReady ∈ b.down ∨ b.stopped = true
  unwired : wired = false → b.slot.hub = false ∧ .hubReady ∉ b.down
  flushed : b.slot.hub = true → b.slot.pendingDemand = 0
  known : b.cancelled = true → b.slot.hub = true

/-- Nothing follows a terminal signal, and a hub that runs has received none. -/
structure Ended (received : List (Signal V E)) (running : Bool) : Prop where
  last : ∀ l t r, received = l ++ t :: r → Terminal t = true → r = []
  open_ : running = true → ∀ t ∈ received, Terminal t = false

section Fed
variable {received : List (Signal V E)} {b : Branch V E} {given : ℕ} {demand : ℤ}
  {running wired : Bool}

section
variable (h : Fed received b given demand running wired)
include h

lemma Fed.request {n : ℤ}
    (hrun : b.stopped = false) : Fed received (b.request n) given demand running wired := by
  constructor <;> grind [SlotActor.receive]

lemma Fed.cancel (hhub : b.slot.hub = true) : Fed received b.cancel given demand running wired := by
  constructor <;> grind [SlotActor.receive]

lemma Fed.hear {m : HubMessage V E} {rest : List (HubMessage V E)} (hended : Ended received running)
    (hhalted : b.cancelled = true → b.stopped = true) (hkept : 0 ≤ b.slot.pendingDemand)
    (hdown : b.down = m :: rest) :
    Fed received (b.hear m rest) given demand running wired := by
  rcases m with _ | sig
  · constructor <;> grind [SlotActor.receive]
  · have hlast := hended.last b.delivered sig (relayed rest)
    have hopen := hended.open_
    constructor <;> grind

end

/-- The slot is told a signal, if it is live, which it is as long as it has not cancelled. -/
lemma Fed.tell (h : Fed received b given demand true wired) {k : ℕ}
    (hk : b.cancelled = false → k = 1) (sig : Signal V E) :
    Fed (received ++ [sig]) { b with down := b.down ++ List.replicate k (.relay sig) }
      (given + k * (elements [sig]).length) (demand - k * (elements [sig]).length)
      (!Terminal sig) wired := by
  constructor <;> cases sig <;> grind

section
variable (h : Fed received b given demand running wired)
include h

lemma Fed.wire {k : ℕ} (hk : 0 < k) :
    Fed received { b with down := b.down ++ List.replicate k .hubReady } given demand running
      true := by
  constructor <;> grind

lemma Fed.pop_request {n : ℤ} {rest : List Upward} (hup : b.up = .request n :: rest) :
    Fed received { b with up := rest } given (demand + n) running wired := by
  constructor <;> grind

lemma Fed.pop_cancel {rest : List Upward} (hup : b.up = .cancel :: rest) :
    Fed received { b with up := rest } given demand running wired := by
  constructor <;> grind

lemma Fed.halt : Fed received b given demand false wired := by
  constructor <;> grind

end

lemma Ended.append (h : Ended received true) (t : Signal V E) :
    Ended (received ++ [t]) (!Terminal t) := by
  refine ⟨fun l t' r heq ht' => ?_, fun ht t' ht' => ?_⟩
  · rcases eq_nil_or_concat r with rfl | ⟨r, x, rfl⟩
    · rfl
    · have hconcat : received ++ [t] = (l ++ t' :: r) ++ [x] := by simpa using heq
      have hopen := h.open_ rfl t' (by simp [(append_inj' hconcat rfl).1])
      exact absurd ht' (by simp [hopen])
  · rcases mem_append.mp ht' with hold | hnew
    · exact h.open_ rfl t' hold
    · simp_all

lemma Ended.share (h : Ended received running) (mine : V → Bool) :
    Ended (share mine received) running := by
  refine ⟨fun l t r heq ht => ?_, fun hrun t ht => h.open_ hrun t (mem_filter.mp ht).1⟩
  obtain ⟨before, after, rfl, -, hafter⟩ := filter_eq_append_iff.mp heq
  obtain ⟨skipped, rest, rfl, -, -, rfl⟩ := filter_eq_cons_iff.mp hafter
  rw [h.last (before ++ skipped) t rest (append_assoc ..).symm ht]
  rfl

end Fed

structure Serving (mine : ℕ → V → Bool) (n : ℕ) (s : FanOut V E) : Prop where
  books : Books s
  size : s.hub.n = n
  fed : ∀ i < n, Fed (share (mine i) s.received) (s.branch i) (s.given i).length (s.hub.demand i)
    (!s.hubStopped) s.hub.upstream
  ended : Ended s.received (!s.hubStopped)
  covered : s.hubStopped = false → ∀ i ∈ s.hub.live, s.hub.pending ≤ s.hub.demand i
  settled : s.hubStopped = false → s.hub.upstream = true → 0 < s.hub.pending ∨ s.hub.minDemand ≤ 0
  counted : s.hub.cancelled + s.hub.live.length ≤ n
  stopped : s.hubStopped = true → n ≤ s.hub.cancelled ∨ ∃ t ∈ s.received, Terminal t = true

section Step
variable {mine : ℕ → V → Bool} {goes : ℕ → Bool} {kind : HubKind} {n : ℕ} {m : HubInbox V E}
  {a : HubActor} {tells : List (ℕ × HubMessage V E)}

lemma Serving.setBranch (h : Serving mine n s) {i : ℕ} {b : Branch V E}
    (hbooks : Books (s.setBranch i b))
    (hb : i < n → Fed (share (mine i) s.received) b (s.given i).length (s.hub.demand i)
      (!s.hubStopped) s.hub.upstream) : Serving mine n (s.setBranch i b) := by
  obtain ⟨-, hsize, hfed, hended, hcovered, hsettled, hcounted, hstopped⟩ := h
  refine ⟨hbooks, hsize, ?_, hended, hcovered, hsettled, hcounted, hstopped⟩
  exact (Function.forall_update_iff s.branch fun j b => j < n → Fed (share (mine j) s.received) b
    (s.given j).length (s.hub.demand j) (!s.hubStopped) s.hub.upstream).mpr ⟨hb, fun j _ => hfed j⟩

/-- A turn that ends with a pull. -/
lemma Serving.pull (hpull : kind.pull = minDemand) (hbooks : Books (s.hubTurn kind m))
    (hturn : s.hub.receive kind m = a.maybePull kind tells)
    (hpending : 0 ≤ a.pending) (hsize : a.n = n)
    (hfed : ∀ i < n, Fed (share (mine i) (s.received ++ signalOf m))
      { s.branch i with down := (s.branch i).down ++ tellsTo i tells }
      ((s.given i).length + (tellsTo i (routes tells)).length) (a.demand i) true a.upstream)
    (hended : Ended (s.received ++ signalOf m) true)
    (hdemand : ∀ i, 0 ≤ a.demand i)
    (hcovered : ∀ i ∈ a.live, a.pending ≤ a.demand i)
    (hcounted : a.cancelled + a.live.length ≤ n) :
    Serving mine n (s.hubTurn kind m) := by
  obtain ⟨p, heq, hp⟩ := hubTurn_pull hturn hpending
  rw [heq] at hbooks ⊢
  refine ⟨hbooks, hsize, ?_, hended, fun _ i hi => ?_, fun _ hup => ?_, hcounted, nofun⟩
  · simpa [given] using hfed
  · rcases hp with ⟨rfl, -⟩ | ⟨rfl, -⟩
    · exact hcovered i hi
    · rw [hpull]
      exact (minDemand_spec hdemand (ne_nil_of_mem hi)).1 i hi
  · change 0 < p ∨ a.minDemand ≤ 0
    change a.upstream = true at hup
    rw [hpull] at hp
    grind

section
variable (h : Serving mine n s)
include h

lemma Serving.mem_live {i : ℕ} (hi : i < n) (hb : (s.branch i).cancelled = false) :
    i ∈ s.hub.live := by
  have hcancels := (h.books.ledger i).cancels
  refine HubActor.mem_live.mpr ⟨h.size ▸ hi, ?_⟩
  grind

/-- While elements are under way every live slot wants one. -/
lemma Serving.count_le_demand (hkind : Shares kind goes s.hub) (hrun : s.hubStopped = false)
    (hpos : 0 < s.hub.pending) (i : ℕ) : (kind.route s.hub).count i ≤ s.hub.demand i := by
  rw [hkind.once]
  split_ifs with hi
  · exact Int.add_one_le_of_lt (hpos.trans_le (h.covered hrun i hi.1))
  · exact (h.books.ledger i).demand_nonneg

/-- The end of the stream is passed on. -/
lemma Serving.finish {t : Signal V E} (ht : Terminal t = true)
    (hrun : s.hubStopped = false) (hbooks : Books (s.hubTurn kind (.signal t))) :
    Serving mine n (s.hubTurn kind (.signal t)) := by
  have hturn : s.hub.receive (V := V) kind (.signal t) =
      ⟨s.hub, toEach s.hub.live (.relay t), [], true⟩ := by
    cases t <;> first | rfl | cases ht
  unfold FanOut.hubTurn at hbooks ⊢
  rw [hturn] at hbooks ⊢
  refine ⟨hbooks, h.size, fun i hi => ?_, ?_, nofun, nofun, h.counted, fun _ => ?_⟩
  · have hfed := h.fed i hi
    rw [hrun] at hfed
    have hone (hb : (s.branch i).cancelled = false) : s.hub.live.count i = 1 :=
      count_eq_one_of_mem (nodup_range.filter _) (h.mem_live hi hb)
    have htell := hfed.tell hone t
    have hnone : elements [t] = [] := by cases t <;> first | rfl | cases ht
    have hshare : share (mine i) (s.received ++ [t]) = share (mine i) s.received ++ [t] := by
      cases t <;> simp_all [share, Terminal]
    simpa [given, signalOf, hnone, ht, hshare] using htell
  · have hended := h.ended
    rw [hrun] at hended
    simpa [ht, signalOf] using hended.append t
  · exact .inr ⟨t, by simp [signalOf], ht⟩

lemma serving_step {e : Event V E} (hkind : Shares kind goes s.hub)
    (hto : ∀ v, e = .upstream (.element v) → ∀ i, mine i v = goes i)
    (hstep : step kind s e = some s') (hsafe : ¬EarlyCancel s e) : Serving mine n s' := by
  have hbooks : Books s' := by exact books_step h.books (h.count_le_demand hkind) hstep
  obtain ⟨⟨hout, hpending, hledger⟩, hsize, hfed, hended, hcovered, hsettled, hcounted, hstopped⟩ :=
    id h
  cases e with
  | wire =>
    simp only [step, allow_eq_some] at hstep
    obtain ⟨⟨hrun, hwired⟩, rfl⟩ := hstep
    refine ⟨hbooks, hsize, fun i hi => ?_, ?_, fun _ => hcovered hrun, ?_, hcounted, ?_⟩
    · have hpos : 0 < (List.range s.hub.n).count i :=
        count_pos_iff.mpr (mem_range.mpr (hsize ▸ hi))
      simpa [hubTurn, receive, signalOf, given, hrun] using (hfed i hi).wire hpos
    · simpa [receive, signalOf, hrun] using hended
    · refine fun _ _ => .inr (minDemand_nonpos (fun i => (hledger i).demand_nonneg)
        fun i hi => ?_)
      have hunready := (hfed i (hsize ▸ (mem_live.mp hi).1)).unwired hwired
      exact ((hledger i).unready hunready.1).2
    · intro hstop
      cases hstop
  | upstream sig =>
    simp only [step, allow_eq_some] at hstep
    obtain ⟨⟨hrun, -, hroom⟩, rfl⟩ := hstep
    cases sig with
    | element v =>
      have hpos : 0 < s.hub.pending := hout ▸ hroom
      refine .pull hkind.pull hbooks rfl (Int.le_sub_one_of_lt hpos) hsize (fun i hi => ?_) ?_
        (fun i => ?_) (fun i hi => ?_) hcounted
      · have hcount := hkind.once i
        rw [← hto v rfl i] at hcount
        cases hv : mine i v with
        | true =>
          have hone (hb : (s.branch i).cancelled = false) : (kind.route s.hub).count i = 1 :=
            hcount.trans (if_pos ⟨h.mem_live hi hb, hv⟩)
          have htell := (hrun ▸ hfed i hi).tell hone (.element v)
          simpa [HubActor.take, signalOf, Terminal, share, hv] using htell
        | false => simpa [HubActor.take, signalOf, share, hv, hcount, hrun] using hfed i hi
      · exact (hrun ▸ hended).append (.element v)
      · exact Int.sub_nonneg_of_le (h.count_le_demand hkind hrun hpos i)
      · have hcount : (kind.route s.hub).count i ≤ 1 := by
          rw [hkind.once]
          split_ifs <;> simp
        have := hcovered hrun i hi
        change s.hub.pending - 1 ≤ s.hub.demand i - (kind.route s.hub).count i
        omega
    | complete | error e => exact h.finish rfl hrun hbooks
  | request i k =>
    simp only [step, allow_eq_some] at hstep
    obtain ⟨⟨hi, -, hrun⟩, rfl⟩ := hstep
    exact h.setBranch hbooks fun hi => (hfed i hi).request hrun
  | cancel i =>
    simp only [step, allow_eq_some] at hstep
    obtain ⟨-, rfl⟩ := hstep
    exact h.setBranch hbooks fun hi => (hfed i hi).cancel (by simpa [EarlyCancel] using hsafe)
  | toHub i =>
    obtain ⟨u, rest, hup, hi, hrun, rfl⟩ := step_toHub hstep
    cases u with
    | request k =>
      have hk : 0 ≤ k := (hledger i).asks k (hup ▸ mem_cons_self)
      have hmore (j : ℕ) :
          s.hub.demand j ≤ Function.update s.hub.demand i (s.hub.demand i + k) j := by
        by_cases hj : j = i
        · subst hj
          simpa using hk
        · simp [hj]
      refine .pull hkind.pull hbooks rfl hpending hsize (fun j hj => ?_) ?_
        (fun j => (hledger j).demand_nonneg.trans (hmore j))
        (fun j hj => (hcovered hrun j hj).trans (hmore j)) hcounted
      · by_cases hji : j = i
        · subst hji
          simpa [given, fromSlot, signalOf, hrun] using (hfed j hj).pop_request hup
        · simpa [given, fromSlot, signalOf, hrun, hji] using hfed j hj
      · simpa [fromSlot, signalOf, hrun] using hended
    | cancel =>
      have hpop (j : ℕ) (hj : j < n) : Fed (share (mine j) s.received)
          (Function.update s.branch i { s.branch i with up := rest } j) (s.given j).length
          (s.hub.demand j) true s.hub.upstream := by
        by_cases hji : j = i
        · subst hji
          simpa [hrun] using (hfed j hj).pop_cancel hup
        · simpa [hrun, hji] using hfed j hj
      have hlive : s.hub.slots i = true := by grind [(hledger i).cancels]
      have hfewer : s.hub.cancelled + 1 + (s.hub.clear i).live.length ≤ n := by
        have := length_live_clear hi hlive
        omega
      by_cases hlast : s.hub.n ≤ s.hub.cancelled + 1
      · have hturn : (s.setBranch i { s.branch i with up := rest }).hub.receive (V := V) (E := E)
            kind (fromSlot i .cancel) = ⟨_, [], _, true⟩ := if_pos hlast
        unfold FanOut.hubTurn at hbooks ⊢
        rw [hturn] at hbooks ⊢
        refine ⟨hbooks, hsize, fun j hj => ?_, ?_, (by simp), (by simp), hfewer,
          fun _ => .inl (hsize ▸ hlast)⟩
        · simpa [given, fromSlot, signalOf] using (hpop j hj).halt
        · exact ⟨by simpa [fromSlot, signalOf] using hended.last, (by simp)⟩
      · refine .pull hkind.pull hbooks (if_neg hlast) hpending hsize (fun j hj => ?_) ?_
          (fun j => (hledger j).demand_nonneg) (fun j hj => hcovered hrun j ?_) hfewer
        · simpa [given, fromSlot, signalOf] using hpop j hj
        · simpa [fromSlot, signalOf, hrun] using hended
        · exact (s.hub.live_clear_sublist i).subset hj
  | toSlot i =>
    obtain ⟨m, rest, hdown, rfl⟩ := step_toSlot hstep
    exact h.setBranch hbooks fun hi =>
      (hfed i hi).hear (hended.share _) (hledger i).halted (hledger i).kept hdown

end
end Step

section
variable {mine : ℕ → V → Bool} {n : ℕ}

lemma serving_start (mine : ℕ → V → Bool) (endsBranch : Bool) (n : ℕ) :
    Serving mine n (⟨.new n, false, fun _ => .new (.new endsBranch), [], 0, []⟩ : FanOut V E) := by
  refine ⟨books_start broadcastHubActor endsBranch n, rfl, fun i hi => ?_, ⟨by simp, nofun⟩,
    fun _ _ _ => le_rfl, nofun, by simp [new, live], nofun⟩
  constructor <;> simp [Branch.new, SlotActor.new, new, given, share]

variable (h : Serving mine n s)
include h

lemma Serving.delivered_le (i : ℕ) :
    ((elements (s.branch i).delivered).length : ℤ) ≤ (s.branch i).asked := by
  have hledger := h.books.ledger i
  have := hledger.sent
  have := hledger.given_le
  omega

/-- While all branches want elements and no message is under way, elements are requested. -/
lemma Serving.requests (hsome : ∃ i < n, (s.branch i).cancelled = false)
    (hwant : ∀ i < n, (s.branch i).cancelled = false →
      ((elements (s.branch i).delivered).length : ℤ) < (s.branch i).asked)
    (hwired : s.hub.upstream = true)
    (hquiet : ∀ i < n, (s.branch i).up = [] ∧ (s.branch i).down = [])
    (hopen : ∀ t ∈ s.received, Terminal t = false) : 0 < s.outstanding := by
  obtain ⟨j, hj, hlive⟩ := hsome
  have hj := h.mem_live hj hlive
  have hrunning : s.hubStopped = false := by
    by_contra hstopped
    rcases h.stopped (by simpa using hstopped) with hcancelled | ⟨t, ht, hterminal⟩
    · have := h.counted
      have := length_pos_of_mem hj
      omega
    · simp [hopen t ht] at hterminal
  refine h.books.outstanding ▸ (h.settled hrunning hwired).resolve_right fun hmin => ?_
  -- a slot with the least demand has not cancelled, and so its branch wants nothing
  obtain ⟨-, i, hi, hleast⟩ := minDemand_spec
    (fun i => (h.books.ledger i).demand_nonneg) (ne_nil_of_mem hj)
  obtain ⟨hn, hslot⟩ := HubActor.mem_live.mp hi
  rw [h.size] at hn
  have hledger := h.books.ledger i
  have hfed := h.fed i hn
  obtain ⟨hup, hdown⟩ := hquiet i hn
  have hopen : (s.branch i).cancelled = false := by
    by_contra hcancelled
    have := hledger.noticed (by simpa using hcancelled) (hfed.known (by simpa using hcancelled))
    simp [hup, hslot] at this
  have hhub : (s.branch i).slot.hub = true := by
    have hready := hfed.ready hwired
    have hawake := hfed.awake (by simp [hrunning])
    grind
  have hexact := hfed.exact (by simp [hrunning]) hopen
  have hrelay := hfed.relay hopen
  have hwanted := hwant i hn hopen
  have hall := hfed.all hopen
  rw [hup, hfed.flushed hhub, requested_nil] at hexact
  rw [hdown, relayed_nil, append_nil] at hrelay
  rw [hrelay] at hwanted
  omega

end
end FanOut
end GoAkt.Stream
