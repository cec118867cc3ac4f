import GoAkt.FiniteMaps

/-!
# The routees of a router and round-robin routing

A router keeps its routees in a map. For every message it reads them from the map again, in the
order in which the map is iterated over, and this order may differ from one message to the next.
Round-robin routing picks the routee by a 32-bit counter that is incremented first.
-/
namespace GoAkt.Actor
open FiniteMaps List
variable {PID : Type*}

/-- The routees are kept under their identifiers. -/
structure Router (PID : Type*) (id : PID → String) where
  routeesMap : Map String PID
  roundRobinNext : UInt32
  keyed : ∀ {k p}, routeesMap.lookup k = some p → id p = k

namespace Router
variable {id : PID → String} (x : Router PID id)

/-- A routee leaves the pool. -/
def delete (routee : PID) : Router PID id where
  routeesMap := x.routeesMap.erase (id routee)
  roundRobinNext := x.roundRobinNext
  keyed {k p} h := by
    rw [lookup_erase_ite] at h
    split_ifs at h
    exact x.keyed h

/-- The routees of the pool, in the order of the entries. -/
def pool : List PID := x.routeesMap.entries.map (·.2)

/-- The body of the loop of `availableRoutees`. A routee that does not run leaves the map, but it
is among the routees that are returned. -/
def visit (isRunning : PID → Bool) (found : Router PID id × List PID) (routee : PID) :
    Router PID id × List PID :=
  (if !isRunning routee then found.1.delete routee else found.1, found.2 ++ [routee])

/-- The map is iterated over in the order `order`. -/
def availableRoutees (isRunning : PID → Bool) (order : List PID) :
    Router PID id × List PID × Bool :=
  let found := order.foldl (visit isRunning) (x, [])
  (found.1, found.2, decide (0 < found.2.length))

/-- The counter wraps to 0, and the index is a signed remainder. An index out of range is a
panic. -/
def roundRobin (routees : List PID) : Option (Router PID id × PID) :=
  let n := x.roundRobinNext + 1
  let index := ((n.toNat : ℤ) - 1).tmod routees.length
  if index < 0 then none
  else routees[index.toNat]?.map fun routee => ({ x with roundRobinNext := n }, routee)

/-- One message for each of the orders in which the map is iterated over. The routees that get
them, or nothing if the router has no routee or panics. -/
def dispatches (isRunning : PID → Bool) : Router PID id → List (List PID) → Option (List PID)
  | _, [] => some []
  | x, order :: rest =>
    let (x, routees, ok) := x.availableRoutees isRunning order
    if ok then
      (x.roundRobin routees).bind fun (x, routee) =>
        (dispatches isRunning x rest).map (routee :: ·)
    else none

variable {isRunning : PID → Bool} {order : List PID}

lemma availableRoutees_of_running (hrunning : ∀ p ∈ order, isRunning p = true) :
    x.availableRoutees isRunning order = (x, order, decide (0 < order.length)) := by
  have hfold : ∀ (ps acc : List PID), (∀ p ∈ ps, isRunning p = true) →
      ps.foldl (visit isRunning) (x, acc) = (x, acc ++ ps) := by
    intro ps
    induction ps with
    | nil => simp
    | cons p ps ih =>
      intro acc hps
      have hp : isRunning p = true := hps p mem_cons_self
      have hvisit : visit isRunning (x, acc) p = (x, acc ++ [p]) := by simp [visit, hp]
      rw [foldl_cons, hvisit, ih _ fun q hq => hps q (mem_cons_of_mem _ hq),
        append_assoc, singleton_append]
  simp [availableRoutees, hfold order [] hrunning]

/-- Before the counter wraps, the index is its value modulo the number of routees. -/
lemma roundRobin_eq (hcount : x.roundRobinNext.toNat + 1 < 2 ^ 32) :
    x.roundRobin order = order[x.roundRobinNext.toNat % order.length]?.map
      fun p => ({ x with roundRobinNext := x.roundRobinNext + 1 }, p) := by
  have hn : (x.roundRobinNext + 1).toNat = x.roundRobinNext.toNat + 1 := by
    rw [UInt32.toNat_add, UInt32.toNat_one, Nat.mod_eq_of_lt hcount]
  have hindex : (((x.roundRobinNext + 1).toNat : ℤ) - 1).tmod order.length =
      ((x.roundRobinNext.toNat % order.length : ℕ) : ℤ) := by
    rw [hn, Int.tmod_eq_emod_of_nonneg (by omega), Nat.cast_add_one, add_sub_cancel_right,
      Int.natCast_mod]
  simp only [roundRobin, hindex, Int.toNat_natCast]
  rw [if_neg (by omega)]

/-- A message with running routees is routed to the one at the counter. -/
lemma dispatches_cons (hrunning : ∀ p ∈ order, isRunning p = true)
    (hcount : x.roundRobinNext.toNat + 1 < 2 ^ 32) {p : PID}
    (hp : order[x.roundRobinNext.toNat % order.length]? = some p) (rest : List (List PID)) :
    x.dispatches isRunning (order :: rest) =
      (dispatches isRunning { x with roundRobinNext := x.roundRobinNext + 1 } rest).map
        (p :: ·) := by
  have hpos : 0 < order.length := length_pos_of_mem (mem_of_getElem? hp)
  rw [dispatches, availableRoutees_of_running x hrunning]
  simp only [hpos, decide_true, if_true]
  rw [roundRobin_eq x hcount, hp, Option.map_some, Option.bind_some]

/-- With one order and a counter that does not wrap, the picks go round the routees. -/
lemma dispatches_replicate (hrunning : ∀ p ∈ order, isRunning p = true)
    (hpos : 0 < order.length) (k : ℕ) (x : Router PID id)
    (hcount : x.roundRobinNext.toNat + k < 2 ^ 32) :
    ∃ picks, x.dispatches isRunning (List.replicate k order) = some picks ∧ picks.length = k ∧
      ∀ i < k, picks[i]? = order[(x.roundRobinNext.toNat + i) % order.length]? := by
  induction k generalizing x with
  | zero => exact ⟨[], rfl, rfl, fun i hi => absurd hi (Nat.not_lt_zero i)⟩
  | succ k ih =>
    have hlt : x.roundRobinNext.toNat % order.length < order.length := Nat.mod_lt _ hpos
    have hn : (x.roundRobinNext + 1).toNat = x.roundRobinNext.toNat + 1 := by
      rw [UInt32.toNat_add, UInt32.toNat_one, Nat.mod_eq_of_lt (by omega)]
    obtain ⟨picks, hpicks, hlen, hget⟩ :=
      ih { x with roundRobinNext := x.roundRobinNext + 1 } (by simp only [hn]; omega)
    refine ⟨order[x.roundRobinNext.toNat % order.length] :: picks, ?_, by simp [hlen], ?_⟩
    · rw [replicate_succ, dispatches_cons x hrunning (by omega) (List.getElem?_eq_getElem hlt),
        hpicks, Option.map_some]
    · intro i hi
      cases i with
      | zero => simp [List.getElem?_eq_getElem hlt]
      | succ i =>
        rw [List.getElem?_cons_succ, hget i (by omega)]
        simp only [hn]
        rw [show x.roundRobinNext.toNat + 1 + i = x.roundRobinNext.toNat + (i + 1) by omega]

/-- A full round picks every position of the order once. -/
lemma nodup_round {order picks : List PID} (hnodup : order.Nodup) (c : ℕ)
    (hlen : picks.length = order.length)
    (hget : ∀ i < order.length, picks[i]? = order[(c + i) % order.length]?) : picks.Nodup := by
  rw [nodup_iff_getElem?_ne_getElem?]
  intro i j hij hj heq
  rw [hlen] at hj
  have hpos : 0 < order.length := by omega
  rw [hget i (hij.trans hj), hget j hj] at heq
  have hmod : (c + i) % order.length = (c + j) % order.length :=
    (List.getElem?_inj (Nat.mod_lt _ hpos) hnodup).mp heq
  have hcancel : i ≡ j [MOD order.length] := Nat.ModEq.add_left_cancel' c hmod
  exact hij.ne (hcancel.eq_of_lt_of_lt (hij.trans hj) hj)

lemma nodup_pool : x.pool.Nodup := by
  have hkeys : (x.pool.map id).Nodup := by
    have hmap : x.pool.map id = x.routeesMap.keys := by
      rw [pool, map_map, AList.keys, List.keys]
      refine map_congr_left fun e he => ?_
      exact x.keyed ((mem_entries_iff_lookup _ _ _).mp he)
    rw [hmap]
    exact x.routeesMap.nodupKeys
  exact hkeys.of_map

/-- Round-robin routing over a pool of running routees: if the map is iterated over in one order,
and the counter does not wrap within the messages or there is one routee only, then as many
messages as there are routees go to distinct routees. -/
theorem roundRobin_fair (x : Router PID id) (isRunning : PID → Bool) (orders : List (List PID))
    (hrunning : ∀ p ∈ x.pool, isRunning p = true) (hpos : 1 ≤ x.pool.length)
    (hlength : orders.length = x.pool.length) (hperm : ∀ order ∈ orders, order.Perm x.pool)
    (horder : ∀ order ∈ orders, ∀ order' ∈ orders, order = order')
    (hcount : x.pool.length = 1 ∨ x.roundRobinNext.toNat + x.pool.length < 2 ^ 32) :
    ∃ picks, x.dispatches isRunning orders = some picks ∧ picks.length = x.pool.length ∧
      picks.Nodup ∧ ∀ p ∈ picks, p ∈ x.pool := by
  obtain ⟨order, rest, rfl⟩ := exists_cons_of_ne_nil (ne_nil_of_length_pos (hlength ▸ hpos))
  have hmem : order ∈ order :: rest := mem_cons_self
  have hlen : order.length = x.pool.length := (hperm order hmem).length_eq
  have hrun : ∀ p ∈ order, isRunning p = true := fun p hp =>
    hrunning p ((hperm order hmem).mem_iff.mp hp)
  by_cases hone : x.pool.length = 1
  · -- the remainder by 1 is 0, also of -1
    obtain ⟨p, rfl⟩ := length_eq_one_iff.mp (hlen.trans hone)
    obtain rfl : rest = [] := by
      rw [length_cons] at hlength
      exact length_eq_zero_iff.mp (by omega)
    have hp : p ∈ x.pool := (hperm _ hmem).mem_iff.mp mem_cons_self
    refine ⟨[p], ?_, hone.symm, nodup_singleton p, by simpa using hp⟩
    simp [dispatches, availableRoutees_of_running x hrun, roundRobin]
  · have hall : order :: rest = List.replicate x.pool.length order :=
      eq_replicate_iff.mpr ⟨hlength, fun o ho => horder o ho order hmem⟩
    rw [hall]
    obtain ⟨picks, hpicks, hplen, hget⟩ := dispatches_replicate hrun (by omega) x.pool.length x
      (hcount.resolve_left hone)
    refine ⟨picks, hpicks, hplen, ?_, fun p hp => ?_⟩
    · refine nodup_round ((hperm order hmem).nodup_iff.mpr x.nodup_pool) x.roundRobinNext.toNat
        (hplen.trans hlen.symm) fun i hi => hget i (hlen ▸ hi)
    · obtain ⟨i, hi, rfl⟩ := getElem_of_mem hp
      have h := hget i (hplen ▸ hi)
      rw [List.getElem?_eq_getElem hi] at h
      exact (hperm order hmem).mem_iff.mp (mem_of_getElem? h.symm)

/-- The routees can be ordered so that a given one stands at a given place. -/
lemma exists_order_at {pool : List PID} {p : PID} {i : ℕ} (hp : p ∈ pool) (hi : i < pool.length) :
    ∃ order : List PID, order.Perm pool ∧ order[i]? = some p := by
  obtain ⟨front, back, rfl⟩ := append_of_mem hp
  have hle : i ≤ (front ++ back).length := by
    simp only [length_append, length_cons] at hi ⊢
    omega
  refine ⟨(front ++ back).insertIdx i p, (perm_insertIdx p _ hle).trans perm_middle.symm, ?_⟩
  rw [getElem?_insertIdx_self, if_pos hle]

/-- Nothing is fair without an order: for two or more running routees there are orders with which
the first two messages go to the same routee. -/
theorem exists_unfair_orders (isRunning : PID → Bool)
    (hrunning : ∀ p ∈ x.pool, isRunning p = true) (htwo : 2 ≤ x.pool.length)
    (hcount : x.roundRobinNext.toNat + 2 < 2 ^ 32) :
    ∃ orders : List (List PID), orders.length = x.pool.length ∧
      (∀ order ∈ orders, order.Perm x.pool) ∧
      ∀ picks, x.dispatches isRunning orders = some picks → ¬picks.Nodup := by
  have hmod : ∀ k, k % x.pool.length < x.pool.length := fun k => Nat.mod_lt k (by omega)
  obtain ⟨p, hp⟩ := exists_mem_of_length_pos (l := x.pool) (by omega)
  obtain ⟨first, hfirst, hatFirst⟩ := exists_order_at hp (hmod x.roundRobinNext.toNat)
  obtain ⟨second, hsecond, hatSecond⟩ := exists_order_at hp (hmod (x.roundRobinNext + 1).toNat)
  refine ⟨first :: second :: replicate (x.pool.length - 2) x.pool, ?_, ?_, ?_⟩
  · simp only [length_cons, length_replicate]
    omega
  · intro order horder
    rcases mem_cons.mp horder with rfl | horder
    · exact hfirst
    rcases mem_cons.mp horder with rfl | horder
    · exact hsecond
    · rw [eq_of_mem_replicate horder]
  · intro picks hpicks hnodup
    have hrun : ∀ {order : List PID}, order.Perm x.pool → ∀ q ∈ order, isRunning q = true :=
      fun hperm q hq => hrunning q (hperm.mem_iff.mp hq)
    have hnext : (x.roundRobinNext + 1).toNat + 1 < 2 ^ 32 := by
      rw [UInt32.toNat_add, UInt32.toNat_one, Nat.mod_eq_of_lt (by omega)]
      exact hcount
    rw [← hfirst.length_eq] at hatFirst
    rw [← hsecond.length_eq] at hatSecond
    rw [dispatches_cons x (hrun hfirst) (by omega) hatFirst,
      dispatches_cons _ (hrun hsecond) hnext hatSecond, Option.map_map] at hpicks
    obtain ⟨picks, -, rfl⟩ := Option.map_eq_some_iff.mp hpicks
    simp at hnodup

/-- A router with two routees, which are their own identifiers. -/
def pair (roundRobinNext : UInt32) : Router String fun p => p where
  routeesMap := (AList.insert "b" "b" ∅).insert "a" "a"
  roundRobinNext := roundRobinNext
  keyed {k p} h := by
    rw [lookup_insert_ite, lookup_insert_ite, AList.lookup_empty] at h
    split_ifs at h with ha hb
    · exact (Option.some.inj h).symm.trans ha.symm
    · exact (Option.some.inj h).symm.trans hb.symm

/-- Two messages, the map in the same order for both. -/
theorem roundRobin_fair_pair : ∃ picks,
    (pair 7).dispatches (fun _ => true) [["a", "b"], ["a", "b"]] = some picks ∧
      picks.length = 2 ∧ picks.Nodup ∧ ∀ p ∈ picks, p ∈ (pair 7).pool :=
  roundRobin_fair (pair 7) (fun _ => true) _ (by simp) (by decide) rfl (by decide) (by decide)
    (.inr (by decide))

/-- With another order for the second message both go to the same routee, and when the counter
wraps the router panics. -/
theorem roundRobin_unfair :
    (pair 0).dispatches (fun _ => true) [["a", "b"], ["b", "a"]] = some ["a", "a"] ∧
      ¬["a", "a"].Nodup ∧ (pair 0).pool.Perm ["a", "b"] ∧ (pair 0).pool.Perm ["b", "a"] ∧
      (pair 4294967295).dispatches (fun _ => true) [["a", "b"], ["a", "b"]] = none := by
  decide +kernel

end Router
end GoAkt.Actor
