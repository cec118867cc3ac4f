import GoAkt.Stream.Protocol

/-!
# The range source

`Range` hands out the integers of an interval in batches of the requested size. The sum that tells
whether a batch has to be clipped is one of int64 and may wrap around.
-/
namespace GoAkt.Stream

/-- The loop that fills a batch, and the integer that follows it. -/
def fill : ℕ → Int64 → List Int64 × Int64
  | 0, cur => ([], cur)
  | i + 1, cur => (cur :: (fill i (cur + 1)).1, (fill i (cur + 1)).2)

/-- The pull source over the function of `Range`. -/
structure RangeSource where
  cur : Int64
  stopped : Bool
  panicked : Bool
  sent : List (Signal Int64 Empty)

namespace RangeSource

def take (last cur n : Int64) : Int64 := if last < cur + n then last - cur else n

/-- A batch is sent and, if there is no more, the end. A source that has stopped handles nothing. -/
def produce (last : Int64) (s : RangeSource) (n : Int64) : RangeSource :=
  if s.stopped then s
  else if last ≤ s.cur then { s with stopped := true, sent := s.sent ++ [.complete] }
  else
    let take := take last s.cur n
    -- the size of the slice that is made
    if take < 0 then { s with panicked := true }
    else
      let (batch, cur) := fill take.toNatClampNeg s.cur
      let hasMore := decide (cur < last)
      { s with
        cur
        stopped := !hasMore
        sent := s.sent ++ batch.map .element ++ if hasMore then [] else [.complete] }

/-- `Range(start, end)` after the requests. -/
def after (start last : Int64) (requests : List Int64) : RangeSource :=
  requests.foldl (produce last) ⟨start, false, false, []⟩

lemma toInt_add_of_fits {a b : Int64} (hlow : -2 ^ 63 ≤ a.toInt + b.toInt)
    (hhigh : a.toInt + b.toInt < 2 ^ 63) : (a + b).toInt = a.toInt + b.toInt := by
  rw [Int64.toInt_add, Int.bmod_eq_of_le (by simp; omega) (by simp; omega)]

lemma fill_spec (k : ℕ) (cur : Int64) (hfit : cur.toInt + k < 2 ^ 63) :
    (fill k cur).1.map Int64.toInt = (List.range k).map (fun i : ℕ => cur.toInt + i) ∧
      (fill k cur).2.toInt = cur.toInt + k := by
  induction k generalizing cur with
  | zero => simp [fill]
  | succ k ih =>
    have hlow := cur.le_toInt
    have hnext : (cur + 1).toInt = cur.toInt + 1 :=
      toInt_add_of_fits (by simp; omega) (by simp; omega)
    obtain ⟨hbatch, hcur⟩ := ih (cur + 1) (by omega)
    rw [fill, List.range_succ_eq_map]
    refine ⟨?_, by simp [hcur, hnext]; ring⟩
    simp [hbatch, hnext, Function.comp_def, add_assoc, add_comm (1 : ℤ)]

@[simp] lemma length_fill (k : ℕ) (cur : Int64) : (fill k cur).1.length = k := by
  induction k generalizing cur with
  | zero => rfl
  | succ k ih => rw [fill, List.length_cons, ih]

variable {start last n : Int64} {total : ℤ} {s : RangeSource}

/-- Without a wrap the request is clipped to what remains. -/
lemma toInt_take {cur : Int64} (hcur : cur.toInt < last.toInt) (hn : 0 < n.toInt)
    (hfit : cur.toInt + n.toInt < 2 ^ 63) :
    (take last cur n).toInt = min n.toInt (last.toInt - cur.toInt) := by
  have hlow := cur.le_toInt
  have hlarge := n.toInt_lt
  have hsum : (cur + n).toInt = cur.toInt + n.toInt := toInt_add_of_fits (by omega) hfit
  unfold take
  split_ifs with hclip <;> rw [Int64.lt_iff_toInt_lt, hsum] at hclip
  · rw [Int64.toInt_sub, Int.bmod_eq_of_le (by simp; omega) (by simp; omega)]
    omega
  · omega

/-- The number of integers handed out: as many as were requested and there are. -/
def count (start last : Int64) (total : ℤ) : ℕ := (min total (last.toInt - start.toInt)).toNat

/-- The source has sent the first integers of the interval, and the end with the last of them. -/
structure Exact (start last : Int64) (total : ℤ) (s : RangeSource) : Prop where
  total_nonneg : 0 ≤ total
  position : s.cur.toInt = start.toInt + count start last total
  integers : (elements s.sent).map Int64.toInt =
    (List.range (count start last total)).map (fun i : ℕ => start.toInt + i)
  sent : s.sent = (elements s.sent).map .element ++ if s.stopped then [.complete] else []
  ended : s.stopped = true ↔ 0 < total ∧ last.toInt - start.toInt ≤ total
  allocated : s.panicked = false

lemma exact_produce (h : Exact start last total s) (hn : 0 < n.toInt)
    (hfit : start.toInt + total < last.toInt → start.toInt + total + n.toInt < 2 ^ 63) :
    Exact start last (total + n.toInt) (s.produce last n) := by
  obtain ⟨htotal, hposition, hintegers, hsent, hended, hallocated⟩ := h
  have hnonneg : 0 ≤ total + n.toInt := by omega
  rw [produce]
  by_cases hlast : last.toInt ≤ s.cur.toInt
  · -- all integers have been sent
    have hcount : count start last (total + n.toInt) = count start last total := by
      simp only [count] at *; omega
    have hreached : 0 < total + n.toInt ∧ last.toInt - start.toInt ≤ total + n.toInt := by
      simp only [count] at *; omega
    split_ifs with hstopped hle
    · exact ⟨hnonneg, hcount ▸ hposition, hcount ▸ hintegers, hsent, by simp [hstopped, hreached],
        hallocated⟩
    · rw [if_neg hstopped, List.append_nil] at hsent
      exact ⟨hnonneg, hcount ▸ hposition, by simpa [hcount] using hintegers, by simpa using hsent,
        by simp [hreached], hallocated⟩
    · exact absurd (Int64.le_iff_toInt_le.mpr hlast) hle
  · have hstopped : ¬s.stopped = true := fun hstopped => by
      have hreached := hended.mp hstopped
      simp only [count] at hposition; omega
    rw [if_neg hstopped, List.append_nil] at hsent
    rw [if_neg hstopped, if_neg (by rwa [Int64.le_iff_toInt_le])]
    have hcur : s.cur.toInt = start.toInt + total := by simp only [count] at hposition; omega
    have htake := toInt_take (not_le.mp hlast) hn (by rw [hcur] at hlast ⊢; exact hfit (by omega))
    have hpos : ¬take last s.cur n < 0 := by
      rw [Int64.lt_iff_toInt_lt, htake, Int64.toInt_zero]; omega
    generalize take last s.cur n = size at *
    have hcount : count start last (total + n.toInt) =
        count start last total + size.toNatClampNeg := by
      simp only [count, ← Int64.toNat_toInt] at *; omega
    have hend : last.toInt ≤ s.cur.toInt + size.toNatClampNeg ↔
        last.toInt - start.toInt ≤ total + n.toInt := by
      simp only [count, ← Int64.toNat_toInt] at *; omega
    have hlarge := last.toInt_lt
    obtain ⟨hbatch, hcur⟩ := fill_spec size.toNatClampNeg s.cur (by rw [← Int64.toNat_toInt]; omega)
    simp only [if_neg hpos]
    refine ⟨hnonneg, by rw [hcount, hcur, hposition]; push_cast; ring, ?_, ?_, ?_, hallocated⟩
    · simp only [hcount, List.range_add, List.map_append, ← hintegers]
      split_ifs <;> simp [hbatch, hposition, add_assoc]
    · dsimp only
      cases decide ((fill size.toNatClampNeg s.cur).2 < last) <;> simp [← hsent]
    · simp only [Bool.not_eq_true', decide_eq_false_iff_not, Int64.lt_iff_toInt_lt, hcur, not_lt,
        hend]
      omega

/-- More has been sent than there is in the interval. -/
def Overrun (start last : Int64) (s : RangeSource) : Prop :=
  (last.toInt - start.toInt).toNat < (elements s.sent).length

lemma Exact.not_overrun (h : Exact start last total s) : ¬Overrun start last s := by
  have hlength := congrArg List.length h.integers
  rw [List.length_map, List.length_map, List.length_range] at hlength
  rw [Overrun, hlength, count]
  omega

/-- What has been sent is never taken back. -/
lemma Overrun.produce (h : Overrun start last s) : Overrun start last (s.produce last n) := by
  rw [Overrun] at h ⊢
  have hgrows : s.sent <+: (s.produce last n).sent := by
    simp only [RangeSource.produce]
    split_ifs
    · exact List.prefix_rfl
    · exact List.prefix_append _ _
    · exact List.prefix_rfl
    all_goals
      rw [List.append_assoc]
      exact List.prefix_append _ _
  obtain ⟨more, hmore⟩ := hgrows
  rw [← hmore, elements_append, List.length_append]
  exact Nat.lt_add_right _ h

/-- When the sum wraps around, the request is not clipped. -/
lemma overrun_produce (h : Exact start last total s) (hn : 0 < n.toInt)
    (hleft : start.toInt + total < last.toInt)
    (hwrap : 2 ^ 63 ≤ start.toInt + total + n.toInt) : Overrun start last (s.produce last n) := by
  obtain ⟨htotal, hposition, hintegers, -, hended, -⟩ := h
  have hcount : count start last total = total := by simp only [count]; omega
  rw [hcount] at hposition
  have hstopped : ¬s.stopped = true := fun hstopped => by
    have hreached := hended.mp hstopped
    omega
  have hlarge := n.toInt_lt
  have hend := last.toInt_lt
  have hsum : (s.cur + n).toInt = s.cur.toInt + n.toInt - 2 ^ 64 := by
    rw [Int64.toInt_add, Int.bmod_eq_iff (by decide)]
    refine ⟨by simp; omega, by simp; omega, ?_⟩
    simp
  have htake : take last s.cur n = n := by
    refine if_neg ?_
    rw [Int64.lt_iff_toInt_lt, hsum]
    omega
  have hlength := congrArg List.length hintegers
  rw [List.length_map, List.length_map, List.length_range] at hlength
  have hnat := n.toNat_toInt
  rw [Overrun, produce, if_neg hstopped, if_neg (by rw [Int64.le_iff_toInt_le]; omega)]
  simp only [htake]
  rw [if_neg (by rw [Int64.lt_iff_toInt_lt, Int64.toInt_zero]; omega)]
  dsimp only
  rw [elements_append, elements_append, elements_map, List.length_append,
    List.length_append, length_fill]
  omega

/-- While integers are left below the end, the next one and the request add up to less than 2^63. -/
def Fits (last : ℤ) : ℤ → List Int64 → Prop
  | _, [] => True
  | cur, n :: requests => (cur < last → cur + n.toInt < 2 ^ 63) ∧ Fits last (cur + n.toInt) requests

lemma fits_append (last cur : ℤ) (requests : List Int64) (n : Int64) :
    Fits last cur (requests ++ [n]) ↔ Fits last cur requests ∧
      (cur + (requests.map Int64.toInt).sum < last →
        cur + (requests.map Int64.toInt).sum + n.toInt < 2 ^ 63) := by
  induction requests generalizing cur with
  | nil => simp [Fits]
  | cons m requests ih => simp [Fits, ih, and_assoc, add_assoc]

lemma exact_or_overrun (start last : Int64) {requests : List Int64}
    (hpos : ∀ n ∈ requests, 0 < n) :
    (Fits last.toInt start.toInt requests →
      Exact start last (requests.map Int64.toInt).sum (after start last requests)) ∧
    (¬Fits last.toInt start.toInt requests → Overrun start last (after start last requests)) := by
  induction requests using List.reverseRecOn with
  | nil =>
    refine ⟨fun _ => ?_, fun hwraps => absurd trivial hwraps⟩
    constructor <;> simp [after, count]
  | append_singleton requests n ih =>
    rw [List.forall_mem_append, List.forall_mem_singleton] at hpos
    obtain ⟨hexact, hoverrun⟩ := ih hpos.1
    have hn := Int64.lt_iff_toInt_lt.mp hpos.2
    rw [fits_append, after, List.foldl_append, List.map_append, List.sum_append]
    simp only [List.foldl_cons, List.foldl_nil, List.map_cons, List.map_nil, List.sum_singleton]
    constructor
    · rintro ⟨hbefore, hfit⟩
      exact exact_produce (hexact hbefore) hn hfit
    · intro hwraps
      by_cases hbefore : Fits last.toInt start.toInt requests
      · obtain ⟨hleft, hwrap⟩ := Classical.not_imp.mp (not_and.mp hwraps hbefore)
        exact overrun_produce (hexact hbefore) hn hleft (not_lt.mp hwrap)
      · exact (hoverrun hbefore).produce

/-- Requests of any sizes are answered with the integers from the start on, with no others and with
the end after the last, if and only if no sum wraps around while integers are left. -/
theorem range_exact_iff (start last : Int64) (requests : List Int64)
    (hpos : ∀ n ∈ requests, 0 < n) :
    Exact start last (requests.map Int64.toInt).sum (after start last requests) ↔
      Fits last.toInt start.toInt requests := by
  obtain ⟨hexact, hoverrun⟩ := exact_or_overrun start last hpos
  exact ⟨fun h => by_contra fun hwraps => h.not_overrun (hoverrun hwraps), hexact⟩

/-- Five integers in two batches. -/
theorem range_exact_iff_five : Exact (-2) 3 13 (after (-2) 3 [4, 9]) :=
  (range_exact_iff (-2) 3 [4, 9] (by simp)).mpr (by simp [Fits])

/-- Two integers are left below the largest int64, and five are requested: five are sent, and the
source goes on. -/
theorem range_wraps : (after 9223372036854775805 9223372036854775807 [5]).sent =
      [.element 9223372036854775805, .element 9223372036854775806, .element 9223372036854775807,
        .element (-9223372036854775808), .element (-9223372036854775807)] := by
  decide +kernel

end RangeSource
end GoAkt.Stream
