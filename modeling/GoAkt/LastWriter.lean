import GoAkt.CausalHistories
import GoAkt.Crdt
import Mathlib.Data.String.Basic

/-!
# Which write a last-writer-wins register holds

`Merge` keeps the write with the higher timestamp and node ID, but `Set` replaces whatever the
register holds. So a register holds the greatest write of its causal past as long as every `Set`
is greater than the writes of the causal past of its replica. A register that was never set counts
as a write at timestamp 0 with an empty node ID.
-/
namespace GoAkt.Crdt
open ReplicaRuns CausalHistories

/-- The arguments of `Set`. -/
structure Write (β : Type*) where
  value : β
  timestamp : Int64
  nodeID : NodeID
deriving DecidableEq

/-- Writes are ordered by timestamp and node ID. -/
def Write.key {β : Type*} (w : Write β) : ℤ ×ₗ NodeID := toLex (w.timestamp.toInt, w.nodeID)

namespace LWWRegister
variable {β ν : Type*}

/-- The write that a register holds. -/
def write (r : LWWRegister β) : Write β := ⟨r.value, r.timestamp, r.nodeID⟩

/-- Registers that replicate by full copies. -/
def registers (nil : β) : Object ν (Write β) Unit (LWWRegister β) :=
  stateBased (newLWWRegister nil) (fun _ w r => r.set w.value w.timestamp w.nodeID) merge

lemma write_merge (r o : LWWRegister β) :
    (r.merge o).write = if r.write.key < o.write.key then o.write else r.write := by
  have hkey : r.write.key < o.write.key ↔
      o.timestamp > r.timestamp ∨ (o.timestamp = r.timestamp ∧ o.nodeID > r.nodeID) := by
    rw [Write.key, Write.key, Prod.Lex.toLex_lt_toLex, gt_iff_lt, Int64.lt_iff_toInt_lt,
      eq_comm (a := o.timestamp), ← Int64.toInt_inj]
    rfl
  rw [merge]
  simp only [hkey]
  split_ifs <;> rfl

lemma key_le_merge (r o : LWWRegister β) : r.write.key ≤ (r.merge o).write.key := by
  rw [write_merge]
  split_ifs with hlt
  · exact hlt.le
  · exact le_rfl

/-- The register holds the greatest of the writes in `H`, or was never set. -/
structure Greatest (nil : β) (log : List (Event ν (Write β))) (H : Finset ℕ)
    (r : LWWRegister β) : Prop where
  upper : ∀ i ∈ H, ∀ e, log[i]? = some e → e.op.key ≤ r.write.key
  held : (H = ∅ ∧ r.write = (newLWWRegister nil).write) ∨
    (newLWWRegister nil).write.key < r.write.key ∧ ∃ i ∈ H, ∃ e, log[i]? = some e ∧ r.write = e.op

namespace Greatest
variable {nil : β} {log : List (Event ν (Write β))} {H K : Finset ℕ} {r o : LWWRegister β}

section
variable (h : Greatest nil log H r)
include h

lemma zero_le : (newLWWRegister nil).write.key ≤ r.write.key := by
  rcases h.held with ⟨-, hzero⟩ | ⟨hlt, -⟩
  · exact le_of_eq (congrArg Write.key hzero.symm)
  · exact hlt.le

lemma lt_of_past {w : Write β} (hzero : (newLWWRegister nil).write.key < w.key)
    (hpast : ∀ i ∈ H, ∀ e ∈ log[i]?, e.op.key < w.key) : r.write.key < w.key := by
  rcases h.held with ⟨-, heq⟩ | ⟨-, i, hi, e, he, heq⟩
  · rwa [heq]
  · rw [heq]
    exact hpast i hi e he

lemma concat (hH : Closed log H) (f : Event ν (Write β)) : Greatest nil (log ++ [f]) H r where
  upper i hi e he := by
    rcases getElem?_concat_cases he with he | ⟨rfl, -⟩
    · exact h.upper i hi e he
    · exact absurd (hH.lt_length hi) (lt_irrefl _)
  held := h.held.imp_right fun ⟨hlt, i, hi, e, he, heq⟩ =>
    ⟨hlt, i, hi, e, getElem?_concat_of_some he f, heq⟩

/-- A write that is greater than the one it replaces. -/
lemma set (n : ν) (w : Write β) (hnewer : r.write.key < w.key) :
    Greatest nil (log ++ [⟨n, w, H⟩]) (insert log.length H)
      (r.set w.value w.timestamp w.nodeID) where
  upper i hi e he := by
    rcases getElem?_concat_cases he with he | ⟨-, rfl⟩
    · rcases Finset.mem_insert.mp hi with rfl | hi
      · simp at he
      · exact (h.upper i hi e he).trans hnewer.le
    · exact le_rfl
  held := .inr ⟨h.zero_le.trans_lt hnewer, log.length, Finset.mem_insert_self _ _, _,
    List.getElem?_concat_length, rfl⟩

lemma merge (h' : Greatest nil log K o) : Greatest nil log (H ∪ K) (r.merge o) := by
  have hother : o.write.key ≤ (r.merge o).write.key := by
    rw [write_merge]
    split_ifs with hlt
    · exact le_rfl
    · exact not_lt.mp hlt
  refine ⟨fun i hi e he => ?_, ?_⟩
  · rcases Finset.mem_union.mp hi with hi | hi
    · exact (h.upper i hi e he).trans (key_le_merge r o)
    · exact (h'.upper i hi e he).trans hother
  · rw [write_merge]
    split_ifs with hlt
    · rcases h'.held with ⟨-, hzero⟩ | ⟨hpos, i, hi, hrest⟩
      · exact absurd (hzero ▸ hlt) (not_lt.mpr h.zero_le)
      · exact .inr ⟨hpos, i, Finset.mem_union_right _ hi, hrest⟩
    · rcases h.held with ⟨rfl, hzero⟩ | ⟨hpos, i, hi, hrest⟩
      · rcases h'.held with ⟨rfl, -⟩ | ⟨hpos, -⟩
        · exact .inl ⟨Finset.union_self _, hzero⟩
        · exact absurd (hzero ▸ hpos) hlt
      · exact .inr ⟨hpos, i, Finset.mem_union_left _ hi, hrest⟩

end
end Greatest

/-- A register that ignores a write which is not greater. -/
def setNewer (r : LWWRegister β) (w : Write β) : LWWRegister β :=
  if r.write.key < w.key then r.set w.value w.timestamp w.nodeID else r

lemma simulation (nil : β) : Simulation (fun _ => true)
    (fun w : Write β => (newLWWRegister nil).write.key < w.key) (newLWWRegister nil)
    (fun (_ : ν) w r => r.setNewer w) merge (Greatest nil) where
  init log := ⟨by simp, .inl ⟨rfl, rfl⟩⟩
  concat _ hH h f := h.concat hH f
  event {log H r n w} hw _ _ hH _ h := by
    unfold setNewer
    split_ifs with hnewer
    · exact h.set n w hnewer
    · have hconcat := h.concat hH ⟨n, w, H⟩
      refine ⟨fun i hi e he => ?_, .inr ?_⟩
      · rcases Finset.mem_insert.mp hi with rfl | hi
        · rw [List.getElem?_concat_length] at he
          cases he
          exact not_lt.mp hnewer
        · exact hconcat.upper i hi e he
      · rcases hconcat.held with ⟨-, hzero⟩ | ⟨hpos, i, hi, hrest⟩
        · exact absurd (hzero ▸ hw) hnewer
        · exact ⟨hpos, i, Finset.mem_insert_of_mem hi, hrest⟩
  silent _ hfalse := by cases hfalse
  merge _ _ _ h h' := h.merge h'

variable [DecidableEq ν]

/-- Each `Set` of the run is greater than the writes of the causal past of its replica, and than a
register that was never set. -/
def Newer (nil : β) (steps : List (Step ν (Write β) Unit)) : Prop :=
  ∀ pre n w, pre ++ [.update n w] <+: steps → (newLWWRegister nil).write.key < w.key ∧
    ∀ i ∈ (causality (fun _ => true) pre).past n, ∀ e ∈ (causality (fun _ => true) pre).log[i]?,
      e.op.key < w.key

/-- With such sets the guard of `setNewer` makes no difference. -/
lemma represents (nil : β) (steps : List (Step ν (Write β) Unit)) (hnewer : Newer nil steps) :
    Represents (Greatest nil) (causality (fun _ => true) steps) ((registers nil).run steps) := by
  induction steps using List.reverseRecOn with
  | nil => exact ⟨fun n => (simulation nil).init _, rfl, by simp [causality]⟩
  | append_singleton steps s ih =>
    have h := ih fun pre n w hpre => hnewer pre n w (hpre.trans (List.prefix_append _ _))
    have hset : ∀ n w, s = .update n w →
        (((registers nil).run steps).state n).write.key < w.key := by
      rintro n w rfl
      obtain ⟨hzero, hpast⟩ := hnewer steps n w (List.prefix_refl _)
      exact (h.state n).lt_of_past hzero hpast
    have hstep := h.step (simulation nil) (causality_sound _ steps) s fun n w hs =>
      (h.state n).zero_le.trans_lt (hset n w hs)
    rw [Object.run_concat, causality_concat]
    cases s with
    | update n w =>
      have heq : (((registers nil).run steps).state n).setNewer w =
          (((registers nil).run steps).state n).set w.value w.timestamp w.nodeID :=
        if_pos (hset n w rfl)
      simp only [Object.step, stateBased, heq] at hstep
      exact hstep
    | emit n u => exact hstep
    | deliver n i => exact hstep

/-- If every `Set` is greater than the writes in the causal past of its replica, each replica holds
the greatest write of its causal past, and no step replaces a write by a smaller one. -/
theorem holds_greatest_write (nil : β) (steps : List (Step ν (Write β) Unit))
    (hnewer : Newer nil steps) :
    (∀ n, Greatest nil (causality (fun _ => true) steps).log
      ((causality (fun _ => true) steps).past n) (((registers nil).run steps).state n)) ∧
    ∀ pre s, pre ++ [s] <+: steps → ∀ n, (((registers nil).run pre).state n).write.key ≤
      (((registers nil).run (pre ++ [s])).state n).write.key := by
  refine ⟨(represents nil steps hnewer).state, fun pre s hpre n => ?_⟩
  have hkeep : ∀ m (u : LWWRegister β),
      (((registers nil).run pre).state m).write.key ≤ u.write.key →
      (((registers nil).run pre).state n).write.key ≤
        (Function.update ((registers nil).run pre).state m u n).write.key := by
    intro m u hle
    by_cases hm : n = m
    · subst hm
      rwa [Function.update_self]
    · rw [Function.update_of_ne hm]
  rw [Object.run_concat]
  rcases (registers nil).step_cases ((registers nil).run pre) s with ⟨m, w, rfl, hs⟩ |
    ⟨m, u, rfl, hs⟩ | ⟨m, i, t, rfl, -, hs⟩ | ⟨m, i, rfl, -, hs⟩
  · obtain ⟨hzero, hpast⟩ := hnewer pre m w hpre
    have hbefore := represents nil pre fun pre' n' w' hpre' =>
      hnewer pre' n' w' (hpre'.trans ((List.prefix_append _ _).trans hpre))
    rw [hs]
    exact hkeep m _ ((hbefore.state m).lt_of_past hzero hpast).le
  · rw [hs]
    exact hkeep m _ le_rfl
  · rw [hs]
    exact hkeep m _ (key_le_merge _ t)
  · rw [hs]

/-- Both replicas write, exchange their copies, and the first one writes again. -/
def threeWrites : List (Step String (Write ℕ) Unit) :=
  [.update "a" ⟨1, 1, "a"⟩, .update "b" ⟨2, 1, "b"⟩, .emit "a" (), .emit "b" (), .deliver "b" 0,
    .deliver "a" 1, .update "a" ⟨3, 2, "a"⟩, .emit "a" (), .deliver "b" 2]

theorem holds_greatest_write_threeWrites :
    (((registers 0).run threeWrites).state "b").write = ⟨3, 2, "a"⟩ ∧
      Greatest 0 (causality (fun _ => true) threeWrites).log
        ((causality (fun _ => true) threeWrites).past "b")
        (((registers 0).run threeWrites).state "b") := by
  refine ⟨by decide +kernel, (holds_greatest_write 0 threeWrites fun pre n w hpre => ?_).1 "b"⟩
  obtain ⟨rest, hrest⟩ := hpre
  have hlt : pre.length < 9 := by
    have hlength := congrArg List.length hrest
    simp [threeWrites] at hlength
    omega
  have htake : pre = threeWrites.take pre.length := by simp [← hrest]
  have hnext : threeWrites[pre.length]? = some (.update n w) := by simp [← hrest]
  generalize pre.length = k at hlt htake hnext
  subst htake
  interval_cases k <;> cases hnext <;> decide +kernel

/-- A set with an earlier timestamp replaces the greater write. -/
theorem set_replaces_greater_write :
    (((registers 0).run [.update "a" ⟨1, 2, "a"⟩, .update "a" ⟨2, 1, "a"⟩]).state "a").write =
        ⟨2, 1, "a"⟩ ∧
      (⟨2, 1, "a"⟩ : Write ℕ).key < (⟨1, 2, "a"⟩ : Write ℕ).key :=
  ⟨rfl, by decide⟩

end LWWRegister
end GoAkt.Crdt
