import GoAkt.SegmentLifetimes

/-!
# What the accesses do to the list of one mailbox
-/
namespace GoAkt.Actor.SegmentedMailboxes.Lane
open Segment GoAkt.Neighbours Function List
variable {μ : Type} {n : ℕ} {segments : ℕ → Segment μ} {base base' : ℕ → ℕ}
  {chain : List ℕ} {head tail : ℕ} {sent : List (ℕ × μ)} {answers answers' : List (Option μ)}
  {consumer phase : SegmentedDequeue μ} {reserving reserving' : ℕ → μ → ℕ → ℕ → Prop}
  {p t v w i : ℕ} {msg : μ}

section
variable (h : Lane n segments base chain head tail sent answers consumer reserving)
include h

/-- A segment with a right neighbour has all its messages. -/
lemma position_lt (hv : v ∈ chain) (hlast : chain.getLast? = some w) (hne : v ≠ w) (hi : i < n) :
    base v + i < sent.length := by
  rcases neighbours_of_mem hv hlast with heq | ⟨b, hb⟩
  · exact absurd heq hne
  · have hfull := (h.linked hb).2.1
    have hwithin := h.within hv
    rw [min_eq_right hfull] at hwithin
    omega

/-- A producer reserves the next slot of the last segment. -/
lemma reserve
    (hnodup : chain.Nodup) (hlast : chain.getLast? = some t) (hlt : (segments t).writeIdx < n)
    (hres : ∀ p' msg' v i, reserving p' msg' v i → reserving' p' msg' v i)
    (hnew : reserving' p msg t (segments t).writeIdx) :
    Lane n (update segments t (segments t).addWriteIdx) base chain head tail
      (sent ++ [(p, msg)]) answers consumer reserving' := by
  have hmem := mem_of_getLast? hlast
  have hne := ne_nil_of_mem hmem
  have hlen := (h.last hlast).2
  rw [min_eq_left hlt.le] at hlen
  have hdeqIdx := update_field deqIdx addWriteIdx (fun _ => rfl) segments t
  have hdata := update_field data addWriteIdx (fun _ => rfl) segments t
  have hgrow : ∀ w, (segments w).writeIdx ≤
      (update segments t (segments t).addWriteIdx w).writeIdx := by
    intro w
    by_cases hw : w = t
    · subst hw
      rw [update_self]
      exact Nat.le_succ _
    · rw [update_of_ne hw]
  have hnot : ∀ {a b}, [a, b] <:+: chain → a ≠ t := by
    rintro a b hab rfl
    exact getLast?_ne_of_neighbours hnodup hab hlast
  have hdeq := h.deq_le hne
  have hbound := h.within (h.head_mem hne)
  refine ⟨h.opened, fun h => absurd h hne, h.head_eq, fun {a b} hab => ?_, fun {v} hv => ?_,
    fun {v} hv => ?_, fun {v} hv => ?_, h.tail_mem, fun _ => ?_, fun _ => ?_,
    fun {v i} hv hi hle => ?_, fun {v i p' msg'} hv hi hget hahead => ?_⟩
  · rw [update_of_ne (hnot hab)]
    exact h.linked hab
  · cases hlast.symm.trans hv
    rw [update_self]
    refine ⟨(h.last hlast).1, ?_⟩
    change _ = base t + min ((segments t).writeIdx + 1) n
    rw [length_append, length_singleton, min_eq_left hlt, hlen]
    rfl
  · rw [length_append, length_singleton]
    by_cases hvt : v = t
    · subst hvt
      rw [update_self]
      change base v + min ((segments v).writeIdx + 1) n ≤ _
      omega
    · rw [update_of_ne hvt]
      exact (h.within hv).trans (Nat.le_succ _)
  · rw [hdeqIdx]
    exact h.fresh hv
  · rw [hdeqIdx]
    exact hdeq.trans (min_le_min_right n (hgrow head))
  · rw [hdeqIdx, take_append_of_le_length (by omega)]
    exact h.answered hne
  · rw [hdata]
    refine h.unsent hv hi (le_trans ?_ hle)
    rw [length_append]
    omega
  · rw [hdeqIdx] at hahead
    rw [hdata]
    rcases lt_or_ge (base v + i) sent.length with hin | hout
    · rw [List.getElem?_append_left hin] at hget
      exact (h.filled hv hi hget hahead).imp_right fun hr => ⟨hr.1, hres _ _ _ _ hr.2⟩
    · -- the new slot
      have hvt : v = t := by
        by_contra hvt
        exact absurd (h.position_lt hv hlast hvt hi) (not_lt.mpr hout)
      subst hvt
      have hend := (List.getElem?_eq_some_iff.mp hget).1
      rw [length_append, length_singleton] at hend
      obtain rfl : i = (segments v).writeIdx := by omega
      rw [← hlen, List.getElem?_concat_length] at hget
      cases hget
      exact .inr ⟨h.unsent hv hi hlen.le, hnew⟩

/-- A store to the slot `i` of a segment. -/
lemma storeData {val : Option μ}
    (hunsent : t ∈ chain → i < n → sent.length ≤ base t + i → val = none)
    (hfilled : ∀ {p msg}, t ∈ chain → i < n → sent[base t + i]? = some (p, msg) →
      (t = head → consumer.cleared (segments head).deqIdx ≤ i) →
      val = some msg ∨ val = none ∧ reserving' p msg t i)
    (hres : ∀ p' msg' v j, (v = t → j ≠ i) → reserving p' msg' v j → reserving' p' msg' v j) :
    Lane n (update segments t ((segments t).storeData i val)) base chain head tail sent
      answers consumer reserving' := by
  have hdeq := update_field Segment.deqIdx (Segment.storeData i val) (fun _ => rfl) segments t
  have hdata : ∀ {v j}, (v = t → j ≠ i) →
      (update segments t ((segments t).storeData i val) v).data j = (segments v).data j := by
    intro v j hne
    by_cases hv : v = t
    · subst hv
      rw [update_self]
      exact update_of_ne (hne rfl) ..
    · rw [update_of_ne hv]
  have hslot : (update segments t ((segments t).storeData i val) t).data i = val := by
    rw [update_self]
    exact update_self ..
  refine h.refill (fun w _ => ?_) (fun w _ => hdeq w) (fun w _ => ?_) (fun _ _ => rfl)
    (fun {v j} hv hj hlen => ?_) (fun {v j p' msg'} hv hj hget hahead => ?_)
  · exact congrArg (min · n)
      (update_field Segment.writeIdx (Segment.storeData i val) (fun _ => rfl) segments t w)
  · exact update_field Segment.next (Segment.storeData i val) (fun _ => rfl) segments t w
  · by_cases hat : v = t ∧ j = i
    · obtain ⟨rfl, rfl⟩ := hat
      rw [hslot]
      exact hunsent hv hj hlen
    · rw [hdata fun hv hj => hat ⟨hv, hj⟩]
      exact h.unsent hv hj hlen
  · by_cases hat : v = t ∧ j = i
    · obtain ⟨rfl, rfl⟩ := hat
      rw [hslot]
      exact hfilled hv hj hget hahead
    · have hne : v = t → j ≠ i := fun hv hj => hat ⟨hv, hj⟩
      rw [hdata hne]
      exact (h.filled hv hj hget hahead).imp_right fun hr => ⟨hr.1, hres _ _ _ _ hne hr.2⟩

/-- A producer stores its message in the slot that it reserved. -/
lemma fill (hslot : sent[base t + i]? = some (p, msg))
    (hres : ∀ p' msg' v j, (v = t → j ≠ i) → reserving p' msg' v j → reserving' p' msg' v j) :
    Lane n (update segments t ((segments t).storeData i (some msg))) base chain head tail
      sent answers consumer reserving' := by
  refine h.storeData (fun _ _ hlen => ?_) (fun {p' msg'} _ _ hget _ => ?_) hres
  · exact absurd (List.getElem?_eq_some_iff.mp hslot).1 (not_lt.mpr hlen)
  · cases hslot.symm.trans hget
    exact .inl rfl

/-- A new segment is linked behind the last one. -/
lemma append (hlast : chain.getLast? = some t) (hfull : n ≤ (segments t).writeIdx)
    (hfresh : v ∉ chain) (hreset : Reset n (n + 3) (segments v)) (hbase : base' v = base t + n)
    (hbases : ∀ w ∈ chain, base' w = base w)
    (hres : ∀ p' msg' v i, reserving p' msg' v i → reserving' p' msg' v i) :
    Lane n (update segments t ((segments t).storeNext (some v))) base' (chain ++ [v]) head
      tail sent answers consumer reserving' := by
  have hmem := mem_of_getLast? hlast
  have hne := ne_nil_of_mem hmem
  have hvt : v ≠ t := by
    rintro rfl
    exact hfresh hmem
  have hlen := (h.last hlast).2
  rw [min_eq_right hfull] at hlen
  have hwrite := update_field writeIdx (storeNext (some v)) (fun _ => rfl) segments t
  have hdeq := update_field deqIdx (storeNext (some v)) (fun _ => rfl) segments t
  have hdata := update_field data (storeNext (some v)) (fun _ => rfl) segments t
  have hempty : (segments v).writeIdx = 0 := hreset.writeIdx (by omega)
  have hhead := h.head_mem hne
  refine ⟨?_, fun hnil => ?_, fun {w} hw => h.head_eq ?_, fun {a b} hab => ?_, fun {w} hw => ?_,
    fun {w} hw => ?_, fun {w} hw => ?_, fun _ => ?_, fun _ => ?_, fun _ => ?_,
    fun {w i} hw hi hle => ?_, fun {w i p' msg'} hw hi hget hahead => ?_⟩
  · exact ⟨fun _ => h.opened.mp hne, fun _ => append_ne_nil_of_left_ne_nil hne _⟩
  · exact absurd hnil (append_ne_nil_of_left_ne_nil hne _)
  · rwa [List.head?_append_of_ne_nil _ hne] at hw
  · rcases (neighbours_concat hlast).mp hab with hab | ⟨rfl, rfl⟩
    · have ha := left_mem_of_neighbours hab
      rw [hwrite, hbases a ha, hbases b (right_mem_of_neighbours hab)]
      refine ⟨?_, (h.linked hab).2⟩
      by_cases hat : a = t
      · subst hat
        have hnone := (h.last hlast).1
        rw [(h.linked hab).1] at hnone
        cases hnone
      · rw [update_of_ne hat]
        exact (h.linked hab).1
    · rw [hwrite, hbases a hmem, update_self]
      exact ⟨rfl, hfull, hbase⟩
  · rw [List.getLast?_concat] at hw
    cases hw
    rw [update_of_ne hvt, hempty, hbase, hlen]
    exact ⟨hreset.next (by omega), by simp⟩
  · rw [hwrite]
    rcases mem_append.mp hw with hw | hw
    · rw [hbases w hw]
      exact h.within hw
    · rw [mem_singleton.mp hw, hempty, hbase, hlen]
      simp
  · rw [hdeq]
    rw [tail_append_of_ne_nil hne] at hw
    rcases mem_append.mp hw with hw | hw
    · exact h.fresh hw
    · rw [mem_singleton.mp hw]
      exact hreset.deqIdx (by omega)
  · exact (h.tail_mem hne).imp_left fun ht => mem_append_left _ ht
  · rw [hdeq, hwrite]
    exact h.deq_le hne
  · rw [hdeq, hbases head hhead]
    exact h.answered hne
  · rw [hdata]
    rcases mem_append.mp hw with hw | hw
    · rw [hbases w hw] at hle
      exact h.unsent hw hi hle
    · rw [mem_singleton.mp hw]
      exact hreset.data i hi (by omega)
  · rw [hdeq] at hahead
    rw [hdata]
    rcases mem_append.mp hw with hw | hw
    · rw [hbases w hw] at hget
      exact (h.filled hw hi hget hahead).imp_right fun hr => ⟨hr.1, hres _ _ _ _ hr.2⟩
    · -- no message has a slot in the new segment
      rw [mem_singleton.mp hw, hbase] at hget
      have hlt := (List.getElem?_eq_some_iff.mp hget).1
      omega

/-- The consumer goes on without a store to the list. -/
lemma turn (hopen : phase.isOpen = consumer.isOpen) (htail : ∀ x, consumer ≠ .unlinking tail x)
    (hcleared : consumer.cleared (segments head).deqIdx ≤ phase.cleared (segments head).deqIdx)
    (hclosed : chain = [] → answers' = answers)
    (howed : answers'.reduceOption ++ phase.owed = answers.reduceOption ++ consumer.owed) :
    Lane n segments base chain head tail sent answers' phase reserving where
  opened := by
    rw [hopen]
    exact h.opened
  closed hnil := by
    rw [hclosed hnil]
    exact h.closed hnil
  head_eq := h.head_eq
  linked := h.linked
  last := h.last
  within := h.within
  fresh := h.fresh
  tail_mem hne := by
    rcases h.tail_mem hne with hmem | ⟨x, hx⟩
    · exact .inl hmem
    · exact absurd hx (htail x)
  deq_le := h.deq_le
  answered hne := by
    rw [howed]
    exact h.answered hne
  unsent := h.unsent
  filled hv hi hget hahead := h.filled hv hi hget fun hhead => hcleared.trans (hahead hhead)

end

/-- The consumer clears the slot whose message it took. -/
lemma clear {deq : ℕ} {val : μ}
    (h : Lane n segments base chain head tail sent answers (.clearing head deq val) reserving)
    (hdeq : deq = (segments head).deqIdx) :
    Lane n (update segments head ((segments head).storeData deq none)) base chain head tail
      sent answers (.advancing head deq val) reserving := by
  have hturn : Lane n segments base chain head tail sent answers (.advancing head deq val)
      reserving :=
    h.turn rfl (fun _ => nofun) (Nat.le_succ _) (fun _ => rfl) rfl
  refine hturn.storeData (fun _ _ _ => rfl) (fun _ _ _ hahead => ?_) (fun _ _ _ _ _ => id)
  have hlt : (segments head).deqIdx + 1 ≤ deq := hahead rfl
  omega

/-- The consumer gives up the slot that it cleared. -/
lemma advance {deq : ℕ} {val : μ}
    (h : Lane n segments base chain head tail sent answers (.advancing head deq val) reserving)
    (hnodup : chain.Nodup) (hdeq : deq = (segments head).deqIdx)
    (hlt : deq < min (segments head).writeIdx n)
    (hslot : sent[base head + deq]? = some (p, val)) :
    Lane n (update segments head ((segments head).storeDeqIdx (deq + 1))) base chain head
      tail sent answers (.counting val) reserving := by
  have hnext := update_field next (storeDeqIdx (deq + 1)) (fun _ => rfl) segments head
  have hdata := update_field data (storeDeqIdx (deq + 1)) (fun _ => rfl) segments head
  have hwrite := update_field writeIdx (storeDeqIdx (deq + 1)) (fun _ => rfl) segments head
  have hnew : (update segments head ((segments head).storeDeqIdx (deq + 1)) head).deqIdx =
      deq + 1 := by
    rw [update_self]
    rfl
  refine ⟨h.opened, h.closed, h.head_eq, fun {a b} hab => ?_, fun {v} hv => ?_, fun {v} hv => ?_,
    fun {v} hv => ?_, fun hne => ?_, fun hne => ?_, fun hne => ?_, fun {v j} hv hj hlen => ?_,
    fun {v j p' msg'} hv hj hget hahead => ?_⟩
  · rw [hnext, hwrite]
    exact h.linked hab
  · rw [hnext, hwrite]
    exact h.last hv
  · rw [hwrite]
    exact h.within hv
  · have hne : v ≠ head := by
      obtain ⟨c, rest, rfl⟩ := exists_cons_of_ne_nil (ne_nil_of_mem (mem_of_mem_tail hv))
      rintro rfl
      rw [h.head_eq rfl] at hv
      exact (nodup_cons.mp hnodup).1 hv
    rw [update_of_ne hne]
    exact h.fresh hv
  · rcases h.tail_mem hne with hmem | ⟨x, hx⟩
    · exact .inl hmem
    · cases hx
  · rw [hnew, hwrite]
    exact hlt
  · have hanswered := h.answered hne
    rw [← hdeq] at hanswered
    change answers.reduceOption ++ [] = _ at hanswered
    change answers.reduceOption ++ [val] = _
    rw [hnew, ← Nat.add_assoc, take_add_one, hslot, map_append, ← hanswered, append_nil]
    rfl
  · rw [hdata]
    exact h.unsent hv hj hlen
  · rw [hdata]
    refine h.filled hv hj hget fun hv => ?_
    have hle := hahead hv
    rw [hnew] at hle
    rw [← hdeq]
    exact hle

/-- The consumer leaves a segment whose messages are all taken. -/
lemma leave {next : ℕ} {rest : List ℕ}
    (h : Lane n segments base (head :: next :: rest) head tail sent answers (.moving head next)
      reserving)
    (hnodup : (head :: next :: rest).Nodup) (hdeq : n ≤ (segments head).deqIdx) :
    Lane n segments base (next :: rest) next tail sent answers (.unlinking head next)
      reserving := by
  have hlink := h.linked (infix_append [] [head, next] rest)
  have hzero := h.fresh (mem_cons_self (a := next) (l := rest))
  have hnone : head ∉ next :: rest := (nodup_cons.mp hnodup).1
  have heq : (segments head).deqIdx = n := by
    have hle := h.deq_le (cons_ne_nil _ _)
    omega
  refine ⟨⟨fun _ => rfl, fun _ => cons_ne_nil _ _⟩, nofun,
    fun {v} hv => Option.some.inj hv, fun {a b} hab => ?_, fun {v} hv => ?_, fun {v} hv => ?_,
    fun {v} hv => ?_, fun _ => ?_, fun _ => ?_, fun _ => ?_, fun {v j} hv hj hlen => ?_,
    fun {v j p' msg'} hv hj hget hahead => ?_⟩
  · exact h.linked (infix_cons hab)
  · exact h.last ((List.getLast?_cons_cons ..).trans hv)
  · exact h.within (mem_cons_of_mem _ hv)
  · exact h.fresh (mem_cons_of_mem _ hv)
  · rcases h.tail_mem (cons_ne_nil _ _) with hmem | ⟨x, hx⟩
    · rcases mem_cons.mp hmem with rfl | hmem
      · exact .inr ⟨next, rfl⟩
      · exact .inl hmem
    · cases hx
  · rw [hzero]
    exact Nat.zero_le _
  · have hanswered := h.answered (cons_ne_nil _ _)
    rw [heq, ← hlink.2.2] at hanswered
    rw [hzero]
    exact hanswered
  · exact h.unsent (mem_cons_of_mem _ hv) hj hlen
  · refine h.filled (mem_cons_of_mem _ hv) hj hget fun hhead => ?_
    subst hhead
    exact absurd hv hnone

/-- The constructor is done. -/
lemma publish {seg : ℕ}
    (h : Lane n segments base [] head tail sent answers consumer reserving)
    (hreset : Reset n (n + 3) (segments seg)) (hbase : base' seg = 0) :
    Lane n segments base' [seg] seg seg sent answers .idle reserving' := by
  obtain ⟨rfl, rfl⟩ := h.closed rfl
  refine ⟨⟨fun _ => rfl, fun _ => cons_ne_nil _ _⟩, nofun,
    fun {v} hv => Option.some.inj hv, fun {a b} hab => ?_, fun {v} hv => ?_, fun {v} hv => ?_,
    fun {v} hv => ?_, fun _ => ?_, fun _ => ?_, fun _ => ?_, fun {v j} hv hj hlen => ?_,
    fun {v j p' msg'} hv hj hget hahead => ?_⟩
  · exact absurd hab.length_le (by simp)
  · obtain rfl : seg = v := Option.some.inj hv
    rw [hbase, hreset.writeIdx (by omega)]
    exact ⟨hreset.next (by omega), by simp⟩
  · rw [mem_singleton.mp hv, hbase, hreset.writeIdx (by omega)]
    simp
  · cases hv
  · exact .inl (mem_singleton.mpr rfl)
  · rw [hreset.deqIdx (by omega)]
    exact Nat.zero_le _
  · rw [take_nil]
    rfl
  · rw [mem_singleton.mp hv]
    exact hreset.data j hj (by omega)
  · cases hget

end GoAkt.Actor.SegmentedMailboxes.Lane
