import GoAkt.ReplicaRuns

/-!
# Causal histories of state-based runs

The causal history of a run is defined from its steps alone, without looking at
any replica state. Each observed local operation is an event, numbered by its
position in the log; the causal past of a replica is the set of events it has
performed or received, and a full copy carries the past of its sender. Operations
that are not observed are silent: they are no events and belong to no past.

Past sets are causally closed. A closed set meets the events of one node in an
initial segment, so it is described by counting them: an event of a node belongs
to a closed set exactly when its sequence number is at most that count. This is
what makes a version vector an exact summary of a causal past.
-/
namespace GoAkt.CausalHistories
open List hiding filter_congr
open Finset GoAkt.ReplicaRuns
variable {ν ω σ : Type*}

/-- An event with the set of earlier events its replica knew. -/
structure Event (ν ω : Type*) where
  node : ν
  op : ω
  past : Finset ℕ

structure Causality (ν ω : Type*) where
  log : List (Event ν ω)
  past : ν → Finset ℕ
  copies : List (Finset ℕ)

section Definition
variable [DecidableEq ν] (event : ω → Bool) (steps : List (Step ν ω Unit))

def Causality.step (c : Causality ν ω) : Step ν ω Unit → Causality ν ω
  | .update n op =>
    if event op then
      ⟨c.log ++ [⟨n, op, c.past n⟩],
        Function.update c.past n (insert c.log.length (c.past n)), c.copies⟩
    else c
  | .emit n _ => ⟨c.log, c.past, c.copies ++ [c.past n]⟩
  | .deliver n i =>
    match c.copies[i]? with
    | none => c
    | some H => ⟨c.log, Function.update c.past n (c.past n ∪ H), c.copies⟩

/-- The causal history of a run. Only operations with `event op` are events. -/
def causality : Causality ν ω := steps.foldl (Causality.step event) ⟨[], fun _ => ∅, []⟩

@[simp] lemma causality_concat (s : Step ν ω Unit) :
    causality event (steps ++ [s]) = (causality event steps).step event s := by
  simp [causality, foldl_append]

/-- Silent operations leave no trace in the history. -/
theorem causality_filter (keep : Step ν ω Unit → Bool)
    (hsilent : ∀ s, keep s = false → ∃ n op, s = .update n op ∧ event op = false)
    (steps : List (Step ν ω Unit)) :
    causality event (steps.filter keep) = causality event steps := by
  induction steps using reverseRecOn with
  | nil => rfl
  | append_singleton steps s ih =>
    rw [filter_append, causality_concat, ← ih]
    cases hk : keep s with
    | true => simp [hk]
    | false =>
      obtain ⟨n, op, rfl, hop⟩ := hsilent s hk
      simp [hk, Causality.step, hop]

end Definition

/-- A set of events that contains the past of each of its events. -/
def Closed (log : List (Event ν ω)) (H : Finset ℕ) : Prop :=
  ∀ i ∈ H, ∃ e, log[i]? = some e ∧ e.past ⊆ H

/-- Pasts are closed and earlier, and one node's events are totally ordered. -/
structure WellFormed (log : List (Event ν ω)) : Prop where
  past_closed : ∀ {i : ℕ} {e : Event ν ω}, log[i]? = some e → Closed log e.past
  past_lt : ∀ {i : ℕ} {e : Event ν ω}, log[i]? = some e → ∀ j ∈ e.past, j < i
  local_order : ∀ {i j : ℕ} {e f : Event ν ω}, log[i]? = some e → log[j]? = some f →
    e.node = f.node → i < j → i ∈ f.past

variable {log : List (Event ν ω)} {H : Finset ℕ} {i : ℕ}

lemma Closed.lt_length (h : Closed log H) (hi : i ∈ H) : i < log.length := by
  obtain ⟨e, he, -⟩ := h i hi
  exact (List.getElem?_eq_some_iff.mp he).1

lemma Closed.past_subset (h : Closed log H)
    {e : Event ν ω} (he : log[i]? = some e) (hi : i ∈ H) : e.past ⊆ H := by
  obtain ⟨f, hf, hsub⟩ := h i hi
  rw [he] at hf
  cases hf
  exact hsub

lemma closed_empty (log : List (Event ν ω)) : Closed log ∅ := by
  intro i hi
  simp at hi

lemma Closed.union {H K : Finset ℕ} (hH : Closed log H)
    (hK : Closed log K) : Closed log (H ∪ K) := by
  intro i hi
  rcases mem_union.mp hi with hi | hi
  · obtain ⟨e, he, hsub⟩ := hH i hi
    exact ⟨e, he, hsub.trans subset_union_left⟩
  · obtain ⟨e, he, hsub⟩ := hK i hi
    exact ⟨e, he, hsub.trans subset_union_right⟩

lemma getElem?_concat_of_some {e : Event ν ω}
    (he : log[i]? = some e) (f : Event ν ω) : (log ++ [f])[i]? = some e := by
  rw [List.getElem?_append_left (List.getElem?_eq_some_iff.mp he).1]
  exact he

lemma getElem?_concat_cases {e f : Event ν ω}
    (he : (log ++ [f])[i]? = some e) : log[i]? = some e ∨ (i = log.length ∧ e = f) := by
  rcases lt_trichotomy i log.length with h | h | h
  · rw [getElem?_append_left h] at he
    exact .inl he
  · subst i
    rw [getElem?_concat_length] at he
    exact .inr ⟨rfl, (Option.some.inj he).symm⟩
  · rw [getElem?_eq_none (by simp; omega)] at he
    cases he

lemma Closed.concat (h : Closed log H) (f : Event ν ω) : Closed (log ++ [f]) H := by
  intro i hi
  obtain ⟨e, he, hsub⟩ := h i hi
  exact ⟨e, getElem?_concat_of_some he f, hsub⟩

/-- The past of a replica right after it performs an event over the past `H`. -/
lemma Closed.insert_last (h : Closed log H)
    (n : ν) (op : ω) : Closed (log ++ [⟨n, op, H⟩]) (insert log.length H) := by
  intro i hi
  rcases mem_insert.mp hi with rfl | hi
  · exact ⟨⟨n, op, H⟩, getElem?_concat_length, subset_insert _ _⟩
  · obtain ⟨e, he, hsub⟩ := h i hi
    exact ⟨e, getElem?_concat_of_some he _, hsub.trans (subset_insert _ _)⟩

/-- Appending an event over a closed past that holds all earlier events of its
node keeps the log well formed. -/
lemma WellFormed.concat {n : ν} (hlog : WellFormed log) (hH : Closed log H)
    (hown : ∀ {i : ℕ} {e : Event ν ω}, log[i]? = some e → e.node = n → i ∈ H) (op : ω) :
    WellFormed (log ++ [⟨n, op, H⟩]) where
  past_closed := by
    intro i e he
    rcases getElem?_concat_cases he with he | ⟨rfl, rfl⟩
    · exact (hlog.past_closed he).concat _
    · exact hH.concat _
  past_lt := by
    intro i e he
    rcases getElem?_concat_cases he with he | ⟨rfl, rfl⟩
    · exact hlog.past_lt he
    · exact fun j hj => hH.lt_length hj
  local_order := by
    intro i j e f he hf hnode hij
    rcases getElem?_concat_cases hf with hf | ⟨rfl, rfl⟩
    · rcases getElem?_concat_cases he with he | ⟨rfl, rfl⟩
      · exact hlog.local_order he hf hnode hij
      · have := (List.getElem?_eq_some_iff.mp hf).1
        omega
    · rcases getElem?_concat_cases he with he | ⟨rfl, rfl⟩
      · exact hown he hnode
      · omega

section Survival
variable {kills : ω → Prop} {log : List (Event ν ω)} {H K : Finset ℕ} {i : ℕ}

/-- An event of `H` that no event of `H` with a killing operation has seen. -/
def Survives (kills : ω → Prop) (log : List (Event ν ω)) (H : Finset ℕ) (i : ℕ) : Prop :=
  i ∈ H ∧ ∀ j ∈ H, ∀ g, log[j]? = some g → kills g.op → i ∉ g.past

lemma survives_concat (hH : Closed log H) (f : Event ν ω) :
    Survives kills (log ++ [f]) H i ↔ Survives kills log H i := by
  refine and_congr_right fun _ => forall₂_congr fun j hj => ?_
  rw [getElem?_append_left (hH.lt_length hj)]

/-- A new event survives, and whatever survived before is killed only by it. -/
theorem survives_insert_last (hH : Closed log H) (n : ν) (op : ω) :
    Survives kills (log ++ [⟨n, op, H⟩]) (insert log.length H) i ↔
      i = log.length ∨ (¬ kills op ∧ Survives kills log H i) := by
  have hnew : log.length ∉ H := fun h => lt_irrefl _ (hH.lt_length h)
  constructor
  · rintro ⟨hi, hkill⟩
    rcases mem_insert.mp hi with hi | hi
    · exact .inl hi
    · refine .inr ⟨fun hop => ?_, (survives_concat hH ⟨n, op, H⟩).mp ⟨hi, fun j hj => ?_⟩⟩
      · exact hkill _ (mem_insert_self _ _) _ getElem?_concat_length hop hi
      · exact hkill j (mem_insert_of_mem hj)
  · rintro (rfl | ⟨hop, hold⟩)
    · refine ⟨mem_insert_self _ _, fun j hj g hg _ hseen => hnew ?_⟩
      rcases mem_insert.mp hj with rfl | hj
      · rw [getElem?_concat_length] at hg
        cases hg
        exact hseen
      · rw [getElem?_append_left (hH.lt_length hj)] at hg
        exact hH.past_subset hg hj hseen
    · obtain ⟨hi, hkill⟩ := (survives_concat hH ⟨n, op, H⟩).mpr hold
      refine ⟨mem_insert_of_mem hi, fun j hj g hg hop' => ?_⟩
      rcases mem_insert.mp hj with rfl | hj
      · rw [getElem?_concat_length] at hg
        cases hg
        exact absurd hop' hop
      · exact hkill j hj g hg hop'

lemma Survives.of_union_left (h : Survives kills log (H ∪ K) i) (hi : i ∈ H) :
    Survives kills log H i :=
  ⟨hi, fun j hj => h.2 j (mem_union_left K hj)⟩

lemma Survives.union_of_not_mem (h : Survives kills log H i) (hK : Closed log K) (hi : i ∉ K) :
    Survives kills log (H ∪ K) i := by
  refine ⟨mem_union_left K h.1, fun j hj g hg hop => ?_⟩
  rcases mem_union.mp hj with hj | hj
  · exact h.2 j hj g hg hop
  · exact fun hseen => hi (hK.past_subset hg hj hseen)

lemma Survives.union_of_both (h : Survives kills log H i) (h' : Survives kills log K i) :
    Survives kills log (H ∪ K) i := by
  refine ⟨mem_union_left K h.1, fun j hj g hg hop => ?_⟩
  rcases mem_union.mp hj with hj | hj
  · exact h.2 j hj g hg hop
  · exact h'.2 j hj g hg hop

/-- What survives in a union survives on each side that knows it. -/
theorem survives_union (hH : Closed log H) (hK : Closed log K) :
    Survives kills log (H ∪ K) i ↔
      (Survives kills log H i ∧ (i ∉ K ∨ Survives kills log K i)) ∨
      (Survives kills log K i ∧ (i ∉ H ∨ Survives kills log H i)) := by
  constructor
  · intro h
    have hright : i ∈ K → Survives kills log K i := (union_comm H K ▸ h).of_union_left
    by_cases hiH : i ∈ H
    · by_cases hiK : i ∈ K
      · exact .inl ⟨h.of_union_left hiH, .inr (hright hiK)⟩
      · exact .inl ⟨h.of_union_left hiH, .inl hiK⟩
    · exact .inr ⟨hright ((mem_union.mp h.1).resolve_left hiH), .inl hiH⟩
  · rintro (⟨h, hi | h'⟩ | ⟨h, hi | h'⟩)
    · exact h.union_of_not_mem hK hi
    · exact h.union_of_both h'
    · rw [union_comm]
      exact h.union_of_not_mem hH hi
    · exact h'.union_of_both h

end Survival

section Counting
variable [DecidableEq ν]

/-- Event `i` belongs to node `n` and carries a counted operation. -/
def IsTick (tick : ω → Bool) (log : List (Event ν ω)) (n : ν) (i : ℕ) : Prop :=
  ∃ e, log[i]? = some e ∧ e.node = n ∧ tick e.op = true

instance (tick : ω → Bool) (log : List (Event ν ω)) (n : ν) (i : ℕ) :
    Decidable (IsTick tick log n i) :=
  decidable_of_iff (∃ e ∈ log[i]?, e.node = n ∧ tick e.op = true) (by simp [IsTick])

/-- How many counted events of `n` a set of events holds. -/
def ticks (tick : ω → Bool) (log : List (Event ν ω)) (H : Finset ℕ) (n : ν) : ℕ :=
  (H.filter (IsTick tick log n)).card

/-- The sequence number of an event among the counted events of its node. -/
def seq (tick : ω → Bool) (log : List (Event ν ω)) (i : ℕ) : ℕ :=
  (log[i]?).elim 0 (fun e => ticks tick log e.past e.node + 1)

variable {log : List (Event ν ω)} {tick : ω → Bool} {i : ℕ}

lemma seq_eq {e : Event ν ω}
    (he : log[i]? = some e) : seq tick log i = ticks tick log e.past e.node + 1 := by
  simp [seq, he]

variable {H : Finset ℕ}

lemma ticks_concat (hH : Closed log H) (f : Event ν ω) (n : ν) :
    ticks tick (log ++ [f]) H n = ticks tick log H n := by
  unfold ticks
  congr 1
  apply filter_congr
  intro i hi
  simp only [IsTick, getElem?_append_left (hH.lt_length hi)]

lemma seq_concat (hlog : WellFormed log)
    (hi : i < log.length) (f : Event ν ω) : seq tick (log ++ [f]) i = seq tick log i := by
  have he : log[i]? = some log[i] := getElem?_eq_getElem hi
  rw [seq_eq he, seq_eq (getElem?_concat_of_some he f), ticks_concat (hlog.past_closed he)]

/-- Performing an event raises only its own node's count, and only if counted. -/
theorem ticks_insert_last (hH : Closed log H) (n m : ν) (op : ω) :
    ticks tick (log ++ [⟨n, op, H⟩]) (insert log.length H) m =
      if m = n ∧ tick op = true then ticks tick log H m + 1 else ticks tick log H m := by
  have hnew : log.length ∉ H := fun h => lt_irrefl _ (hH.lt_length h)
  have hlast : IsTick tick (log ++ [⟨n, op, H⟩]) m log.length ↔ m = n ∧ tick op = true := by
    simp only [IsTick, getElem?_concat_length, Option.some.injEq, exists_eq_left']
    constructor <;> exact fun h => ⟨h.1.symm, h.2⟩
  have hold : ticks tick (log ++ [⟨n, op, H⟩]) H m = ticks tick log H m := ticks_concat hH _ m
  rw [ticks, filter_insert, ← hold, ticks]
  by_cases h : m = n ∧ tick op = true
  · rw [if_pos (hlast.mpr h), if_pos h, card_insert_of_notMem]
    simp [hnew]
  · rw [if_neg (fun hl => h (hlast.mp hl)), if_neg h]

variable {tick : ω → Bool} {log : List (Event ν ω)} {n : ν} {i j : ℕ}

section
variable (hlog : WellFormed log)
include hlog

omit [DecidableEq ν] in
lemma IsTick.mem_past (hi : IsTick tick log n i) {e : Event ν ω}
    (he : log[j]? = some e) (hn : e.node = n) (hij : i < j) : i ∈ e.past := by
  obtain ⟨f, hf, hfn, -⟩ := hi
  exact hlog.local_order hf he (hfn.trans hn.symm) hij

omit [DecidableEq ν] in
/-- A closed set that holds an event holds every earlier event of its node. -/
lemma IsTick.mem_of_le (hH : Closed log H)
    (hi : IsTick tick log n i) (hj : IsTick tick log n j) (hij : i ≤ j) (hmem : j ∈ H) : i ∈ H := by
  rcases hij.lt_or_eq with hlt | rfl
  · obtain ⟨f, hf, hfn, -⟩ := hj
    exact hH.past_subset hf hmem (hi.mem_past hlog hf hfn hlt)
  · exact hmem

/-- Version vectors summarise closed sets exactly. -/
theorem mem_iff_seq_le (hH : Closed log H)
    (hi : IsTick tick log n i) : i ∈ H ↔ seq tick log i ≤ ticks tick log H n := by
  obtain ⟨e, he, hn, htick⟩ := hi
  have hi : IsTick tick log n i := ⟨e, he, hn, htick⟩
  rw [seq_eq he, hn, Nat.succ_le_iff]
  have hnot : i ∉ e.past := fun h => lt_irrefl _ (hlog.past_lt he i h)
  constructor
  · intro hmem
    apply card_lt_card
    refine ⟨filter_subset_filter _ (hH.past_subset he hmem), fun hsub => hnot ?_⟩
    exact (mem_filter.mp (hsub (mem_filter.mpr ⟨hmem, hi⟩))).1
  · intro hlt
    by_contra hmem
    refine absurd hlt (not_lt.mpr (card_le_card ?_))
    intro j hj
    obtain ⟨hjH, hjt⟩ := mem_filter.mp hj
    have hji : j < i := by
      by_contra h
      exact hmem (hi.mem_of_le hlog hH hjt (by omega) hjH)
    exact mem_filter.mpr ⟨hjt.mem_past hlog he hn hji, hjt⟩

section
variable (hi : IsTick tick log n i) (hj : IsTick tick log n j)
include hi hj

lemma seq_lt_of_lt (hij : i < j) : seq tick log i < seq tick log j := by
  obtain ⟨f, hf, hfn, -⟩ := hj
  have hle := (mem_iff_seq_le hlog (hlog.past_closed hf) hi).mp (hi.mem_past hlog hf hfn hij)
  rw [seq_eq hf, hfn]
  omega

lemma seq_le_iff : seq tick log i ≤ seq tick log j ↔ i ≤ j := by
  constructor
  · intro h
    by_contra hji
    have := seq_lt_of_lt hlog hj hi (by omega)
    omega
  · intro h
    rcases h.lt_or_eq with h | rfl
    · exact (seq_lt_of_lt hlog hi hj h).le
    · exact le_rfl

lemma seq_inj (h : seq tick log i = seq tick log j) : i = j :=
  le_antisymm ((seq_le_iff hlog hi hj).mp h.le) ((seq_le_iff hlog hj hi).mp h.ge)

end

/-- The count of a union of closed sets is the larger count: one of the two
initial segments contains the other. -/
theorem ticks_union {H K : Finset ℕ} (hH : Closed log H) (hK : Closed log K) (n : ν) :
    ticks tick log (H ∪ K) n = max (ticks tick log H n) (ticks tick log K n) := by
  have hchain : H.filter (IsTick tick log n) ⊆ K.filter (IsTick tick log n) ∨
      K.filter (IsTick tick log n) ⊆ H.filter (IsTick tick log n) := by
    by_contra hcon
    obtain ⟨hHK, hKH⟩ := not_or.mp hcon
    obtain ⟨i, hiH, hiK⟩ := not_subset.mp hHK
    obtain ⟨j, hjK, hjH⟩ := not_subset.mp hKH
    obtain ⟨hiH, hi⟩ := mem_filter.mp hiH
    obtain ⟨hjK, hj⟩ := mem_filter.mp hjK
    rcases le_total i j with hij | hij
    · exact hiK (mem_filter.mpr ⟨hi.mem_of_le hlog hK hj hij hjK, hi⟩)
    · exact hjH (mem_filter.mpr ⟨hj.mem_of_le hlog hH hi hij hiH, hj⟩)
  unfold ticks
  rw [filter_union]
  rcases hchain with h | h
  · rw [union_eq_right.mpr h, max_eq_right (card_le_card h)]
  · rw [union_eq_left.mpr h, max_eq_left (card_le_card h)]

end
end Counting

/-- A relation between closed pasts and states that every step of a state-based
object keeps. `ok` restricts the operations the run performs. -/
structure Simulation (isEvent : ω → Bool) (ok : ω → Prop) (init : σ) (update : ν → ω → σ → σ)
    (merge : σ → σ → σ) (Rep : List (Event ν ω) → Finset ℕ → σ → Prop) : Prop where
  init : ∀ log, Rep log ∅ init
  concat : ∀ {log H s}, WellFormed log → Closed log H → Rep log H s →
    ∀ f : Event ν ω, Rep (log ++ [f]) H s
  event : ∀ {log H s n op}, ok op → isEvent op = true → WellFormed log → Closed log H →
    WellFormed (log ++ [⟨n, op, H⟩]) → Rep log H s →
    Rep (log ++ [⟨n, op, H⟩]) (insert log.length H) (update n op s)
  silent : ∀ {log H s n op}, ok op → isEvent op = false → WellFormed log → Closed log H →
    Rep log H s → Rep log H (update n op s)
  merge : ∀ {log H K s t}, WellFormed log → Closed log H → Closed log K →
    Rep log H s → Rep log K t → Rep log (H ∪ K) (merge s t)

/-- What the history of a run guarantees by itself. -/
structure Causality.Sound (c : Causality ν ω) : Prop where
  log : WellFormed c.log
  past : ∀ n, Closed c.log (c.past n)
  copies : ∀ H ∈ c.copies, Closed c.log H
  own : ∀ {i : ℕ} {e : Event ν ω}, c.log[i]? = some e → i ∈ c.past e.node

lemma Causality.Sound.own_mem {c : Causality ν ω} (h : c.Sound) {n : ν} {i : ℕ}
    {e : Event ν ω} (he : c.log[i]? = some e) (hn : e.node = n) : i ∈ c.past n := by
  rw [← hn]
  exact h.own he

lemma Causality.Sound.log_concat {c : Causality ν ω} (h : c.Sound) (n : ν) (op : ω) :
    WellFormed (c.log ++ [⟨n, op, c.past n⟩]) :=
  h.log.concat (h.past n) (fun he hn => h.own_mem he hn) op

section Runs
variable [DecidableEq ν] {c : Causality ν ω}

lemma Causality.Sound.step {event : ω → Bool} (h : c.Sound)
    (s : Step ν ω Unit) : (c.step event s).Sound := by
  cases s with
  | update n op =>
    by_cases hop : event op = true
    · simp only [Causality.step, hop, if_true]
      refine ⟨h.log_concat n op, ?_, fun H hH => (h.copies H hH).concat _, ?_⟩
      · exact (Function.forall_update_iff _ fun _ => Closed _).mpr
          ⟨(h.past n).insert_last n op, fun m _ => (h.past m).concat _⟩
      · intro i e he
        rcases getElem?_concat_cases he with he | ⟨rfl, rfl⟩
        · by_cases hm : e.node = n
          · rw [hm]
            simpa using Or.inr (h.own_mem he hm)
          · simpa [hm] using h.own he
        · simp
    · simpa [Causality.step, hop] using h
  | emit n u =>
    refine ⟨h.log, h.past, ?_, h.own⟩
    intro H hH
    rcases mem_append.mp hH with hH | hH
    · exact h.copies H hH
    · rw [List.mem_singleton.mp hH]
      exact h.past n
  | deliver n i =>
    cases hi : c.copies[i]? with
    | none => simpa [Causality.step, hi] using h
    | some H =>
      simp only [Causality.step, hi]
      have hH := h.copies H (mem_of_getElem? hi)
      refine ⟨h.log, ?_, h.copies, ?_⟩
      · exact (Function.forall_update_iff _ fun _ => Closed c.log).mpr
          ⟨(h.past n).union hH, fun m _ => h.past m⟩
      · intro j e he
        by_cases hm : e.node = n
        · subst hm
          simpa using Or.inl (h.own he)
        · simpa [hm] using h.own he

lemma causality_sound (event : ω → Bool) (steps : List (Step ν ω Unit)) :
    (causality event steps).Sound := by
  induction steps using reverseRecOn with
  | nil =>
    refine ⟨⟨?_, ?_, ?_⟩, fun n => closed_empty _, ?_, ?_⟩ <;> simp [causality]
  | append_singleton steps s ih =>
    rw [causality_concat]
    exact ih.step s

/-- A replica's state and its copies represent the pasts the history assigns. -/
structure Represents (Rep : List (Event ν ω) → Finset ℕ → σ → Prop) (c : Causality ν ω)
    (r : Config ν σ) : Prop where
  state : ∀ n, Rep c.log (c.past n) (r.state n)
  length : r.pool.length = c.copies.length
  pool : ∀ {i : ℕ} {H : Finset ℕ}, c.copies[i]? = some H →
    ∃ s, r.pool[i]? = some (some s) ∧ Rep c.log H s

variable {Rep : List (Event ν ω) → Finset ℕ → σ → Prop}

lemma Represents.step {isEvent : ω → Bool} {ok : ω → Prop} {init : σ} {update : ν → ω → σ → σ}
    {merge : σ → σ → σ} (sim : Simulation isEvent ok init update merge Rep) (hc : c.Sound)
    {r : Config ν σ} (h : Represents Rep c r) (s : Step ν ω Unit)
    (hok : ∀ n op, s = .update n op → ok op) :
    Represents Rep (c.step isEvent s) ((stateBased init update merge).step r s) := by
  have hwrite : ∀ {log : List (Event ν ω)} {past : ν → Finset ℕ} (n : ν) (H : Finset ℕ) (u : σ),
      Rep log H u → (∀ m, m ≠ n → Rep log (past m) (r.state m)) →
      ∀ m, Rep log (Function.update past n H m) (Function.update r.state n u m) := by
    intro log past n H u hu hrest m
    by_cases hm : m = n
    · subst m; simpa using hu
    · simpa [hm] using hrest m hm
  cases s with
  | update n op =>
    have hop : ok op := hok n op rfl
    by_cases he : isEvent op = true
    · simp only [Causality.step, he, if_true, Object.step]
      refine ⟨hwrite n _ _ (sim.event hop he hc.log (hc.past n) (hc.log_concat n op) (h.state n))
        (fun m _ => sim.concat hc.log (hc.past m) (h.state m) _), h.length, ?_⟩
      intro i H hi
      obtain ⟨t, ht, hrep⟩ := h.pool hi
      exact ⟨t, ht, sim.concat hc.log (hc.copies H (mem_of_getElem? hi)) hrep _⟩
    · have he' : isEvent op = false := by simpa using he
      simp only [Causality.step, he', Object.step]
      refine ⟨?_, h.length, h.pool⟩
      have hsame := hwrite n (c.past n) (update n op (r.state n))
        (sim.silent hop he' hc.log (hc.past n) (h.state n)) (fun m _ => h.state m)
      simpa [stateBased] using hsame
  | emit n u =>
    refine ⟨?_, by simp [Causality.step, Object.step, h.length], ?_⟩
    · simpa [Causality.step, Object.step, stateBased] using h.state
    · intro i H hi
      simp only [Causality.step, Object.step, stateBased] at hi ⊢
      by_cases hlt : i < c.copies.length
      · rw [getElem?_append_left hlt] at hi
        rw [getElem?_append_left (h.length ▸ hlt)]
        exact h.pool hi
      · have hlast : i = c.copies.length := by
          have := (List.getElem?_eq_some_iff.mp hi).1
          simp only [length_append, length_singleton] at this
          omega
        subst hlast
        rw [getElem?_concat_length] at hi
        cases hi
        refine ⟨r.state n, ?_, h.state n⟩
        rw [← h.length, getElem?_concat_length]
  | deliver n i =>
    cases hi : c.copies[i]? with
    | none =>
      have hmsg : r.pool[i]? = none := by
        rw [List.getElem?_eq_none_iff] at hi ⊢
        exact h.length ▸ hi
      simpa [Causality.step, Object.step, hi, hmsg] using h
    | some H =>
      obtain ⟨t, ht, hrep⟩ := h.pool hi
      simp only [Causality.step, Object.step, hi, ht, Option.join_some, stateBased]
      exact ⟨hwrite n _ _ (sim.merge hc.log (hc.past n)
        (hc.copies H (mem_of_getElem? hi)) (h.state n) hrep) (fun m _ => h.state m),
        h.length, h.pool⟩

/-- The simulation rule: along every run, each replica represents its own causal
past and each copy represents the past it was taken with. -/
theorem Simulation.run {isEvent : ω → Bool} {ok : ω → Prop} {init : σ}
    {update : ν → ω → σ → σ} {merge : σ → σ → σ}
    (sim : Simulation isEvent ok init update merge Rep) (steps : List (Step ν ω Unit))
    (hok : ∀ n op, Step.update n op ∈ steps → ok op) :
    Represents Rep (causality isEvent steps) ((stateBased init update merge).run steps) := by
  induction steps using reverseRecOn with
  | nil => exact ⟨fun n => sim.init _, rfl, by simp [causality]⟩
  | append_singleton steps s ih =>
    rw [causality_concat, Object.run_concat]
    refine (ih fun n op h => hok n op (mem_append_left _ h)).step sim
      (causality_sound isEvent steps) s ?_
    rintro n op rfl
    exact hok n op (by simp)

omit [DecidableEq ν] in
/-- Every state held in a run represents a closed set of its events. -/
theorem Represents.holds
    (hc : c.Sound) {r : Config ν σ} (h : Represents Rep c r) {s : σ} (hs : r.Holds s) :
    ∃ H, Closed c.log H ∧ Rep c.log H s := by
  rcases hs with ⟨n, rfl⟩ | hs
  · exact ⟨c.past n, hc.past n, h.state n⟩
  · obtain ⟨i, hi⟩ := getElem?_of_mem hs
    have hlt : i < c.copies.length := h.length ▸ (List.getElem?_eq_some_iff.mp hi).1
    have hcopy : c.copies[i]? = some c.copies[i] := getElem?_eq_getElem hlt
    obtain ⟨t, ht, hrep⟩ := h.pool hcopy
    rw [hi] at ht
    cases ht
    exact ⟨_, hc.copies _ (getElem_mem hlt), hrep⟩

end Runs
end GoAkt.CausalHistories
