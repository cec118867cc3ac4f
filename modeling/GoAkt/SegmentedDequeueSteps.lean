import GoAkt.SegmentedSteps
import Mathlib.Data.List.ReduceOption

/-!
# The accesses of `Dequeue` and of the constructor keep the segments sound
-/
namespace GoAkt.Actor.SegmentedMailboxes
open Segment GoAkt.Interleavings GoAkt.Neighbours Function List
variable {κ μ : Type} [DecidableEq κ] {n : ℕ} {chain : κ → List ℕ} {base : ℕ → ℕ}
  {s s' : SegmentedMailboxes κ μ} {m : κ} {v w : ℕ} {a : SegmentPlace κ}

/-! ## One consumer moves -/

lemma at_setConsumer {phase : SegmentedDequeue μ} (h : (s.setConsumer m phase).At chain a v) :
    a = .oldSeg m ∧ phase.oldSeg = some v ∨ a = .newSeg m ∧ phase.newSeg = some v ∨
      a ≠ .newSeg m ∧ s.At chain a v := by
  cases a with
  | oldSeg m' =>
    change (update s.consumers m phase m').oldSeg = some v at h
    by_cases hm : m' = m
    · subst hm
      rw [update_self] at h
      exact .inl ⟨rfl, h⟩
    · rw [update_of_ne hm] at h
      exact .inr (.inr ⟨nofun, h⟩)
  | newSeg m' =>
    change (update s.consumers m phase m').newSeg = some v at h
    by_cases hm : m' = m
    · subst hm
      rw [update_self] at h
      exact .inr (.inl ⟨rfl, h⟩)
    · rw [update_of_ne hm] at h
      exact .inr (.inr ⟨by simpa using hm, h⟩)
  | _ => exact .inr (.inr ⟨nofun, h⟩)

/-- The list of one mailbox changes. -/
lemma at_update {l : List ℕ} (h : s.At (update chain m l) a v) :
    a = .queue m ∧ v ∈ l ∨ a ≠ .queue m ∧ s.At chain a v := by
  cases a with
  | queue m' =>
    change v ∈ update chain m l m' at h
    by_cases hm : m' = m
    · subst hm
      rw [update_self] at h
      exact .inl ⟨rfl, h⟩
    · rw [update_of_ne hm] at h
      exact .inr ⟨by simpa using hm, h⟩
  | _ => exact .inr ⟨nofun, h⟩

/-- A consumer goes on without taking a segment into the list or out of it. -/
structure Continues (old phase : SegmentedDequeue μ) : Prop where
  newSeg : ∀ v, phase.newSeg = some v → old.newSeg = some v
  oldSeg : ∀ v, phase.oldSeg = some v → old.oldSeg = some v
  linked : ∀ v x, phase ≠ .unlinking v x

variable {old phase : SegmentedDequeue μ}

/-- The consumer stores to the head of its list or makes no store. -/
lemma Sound.consume (h : s.Sound n chain base) {segments : ℕ → Segment μ}
    {answers : κ → List (Option μ)} (hm : s.consumers m = old) (hs' : s' = { s with
      segments
      consumers := update s.consumers m phase
      answers })
    (hother : ∀ w, w ∉ chain m ∨ w ≠ s.head m → segments w = s.segments w)
    (hwrite : ∀ w, (segments w).writeIdx = (s.segments w).writeIdx)
    (hnext : ∀ w, (segments w).next = (s.segments w).next)
    (hanswers : ∀ m', m' ≠ m → answers m' = s.answers m') (hphase : Continues old phase)
    (hreserved : ∀ p msg i, s.producers p = .reserved m msg (s.head m) i →
      (segments (s.head m)).data i = none ∧ phase.cleared (segments (s.head m)).deqIdx ≤ i)
    (hlane : Lane n segments base (chain m) (s.head m) (s.tail m) (s.sent m) (answers m) phase
      fun p msg v i => s.producers p = .reserved m msg v i)
    (hcaller : CallerFits n segments base (s.head m) (s.sent m) phase) :
    s'.Sound n chain base := by
  have hself : s'.consumers m = phase := by
    rw [hs']
    exact update_self ..
  have hothers : ∀ m', m' ≠ m → s'.consumers m' = s.consumers m' := by
    intro m' hm
    rw [hs']
    exact update_of_ne hm ..
  have hat : ∀ a w, s'.At chain a w → s.At chain a w := by
    intro a w hw
    have hturn : (s.setConsumer m phase).At chain a w := by
      subst hs'
      cases a <;> exact hw
    rcases at_setConsumer hturn with ⟨rfl, hold⟩ | ⟨rfl, hnew⟩ | ⟨-, hkept⟩
    · exact (congrArg SegmentedDequeue.oldSeg hm).trans (hphase.oldSeg w hold)
    · exact (congrArg SegmentedDequeue.newSeg hm).trans (hphase.newSeg w hnew)
    · exact hkept
  have hforeign : ∀ {m' w}, w ∈ chain m' → m' ≠ m → segments w = s.segments w := by
    intro m' w hw hne
    have hqueue : s.At chain (.queue m') w := hw
    refine hother w (.inl (h.owned.not_mem_chain hqueue ?_))
    simpa using hne
  subst hs'
  refine ⟨h.owned.sub hat le_rfl h.owned.pool_nodup h.owned.chain_nodup, fun m' => ?_,
    fun m' => ?_, fun p => ?_⟩
  · unfold LaneAt
    by_cases hne : m' = m
    · subst hne
      rw [hself]
      exact hlane
    · rw [hothers m' hne]
      change Lane n segments base _ _ _ _ (answers m') _ _
      rw [hanswers m' hne]
      exact Lane.congr (h.lane m') (fun w hw => .of_eq (hforeign hw hne)) (fun _ _ => rfl)
        fun _ _ _ _ _ => id
  · by_cases hne : m' = m
    · subst hne
      rw [hself]
      exact hcaller
    · rw [hothers m' hne]
      refine (h.caller m').mono (fun hopen => ?_) (fun _ => rfl) prefix_rfl
        (fun w i hw hr => ?_) (fun w _ hle => hle.trans (hwrite w).ge) (fun w x _ => hnext w)
      · have hhead := (h.lane m').head_mem ((h.lane m').opened.mpr hopen)
        exact (congrArg (Grows _) (hforeign hhead hne)).mpr (Grows.refl _)
      · have hplace : s.At chain (.newSeg m') w := hw
        exact (congrArg (Reset n i) (hother w (.inl (h.owned.not_mem_chain hplace nofun)))).mpr hr
  · refine (h.producer p).mono (fun _ => id) (fun m' t _ hr => ⟨hr.opened, ?_⟩)
      (fun t _ hle => hle.trans (hwrite t).ge) (fun w i hw hr => ?_)
      (fun m' msg v i hp hr => ⟨hr.mem, hr.lt, hr.slot, ?_, fun hv => ?_⟩)
      (fun m' msg t x _ hleads hlive => (hnext t).trans (hleads (hlive.imp_right ?_)))
    · exact hr.alive.imp id fun hret =>
        hret.mono (fun a => hat a t) le_rfl fun hle => hle.trans (hwrite t).ge
    · have hplace : s.At chain (.producer p) w := hw
      exact (congrArg (Reset n i) (hother w (.inl (h.owned.not_mem_chain hplace nofun)))).mpr hr
    · by_cases hm' : m' = m
      · subst hm'
        by_cases hv : v = s.head m'
        · subst hv
          exact (hreserved p msg i hp).1
        · exact (congrArg (data · i) (hother v (.inr hv))).trans hr.vacant
      · exact (congrArg (data · i) (hforeign hr.mem hm')).trans hr.vacant
    · change v = s.head m' at hv
      rw [cleared]
      by_cases hm' : m' = m
      · subst hm'
        subst hv
        rw [hself]
        exact (hreserved p msg i hp).2
      · have hlist := (h.lane m').head_mem (ne_nil_of_mem hr.mem)
        rw [hothers m' hm']
        refine le_trans (le_of_eq ?_) (hr.ahead hv)
        exact congrArg (fun seg => (s.consumers m').cleared seg.deqIdx) (hforeign hlist hm')
    · rintro ⟨y, hy⟩
      by_cases hm' : m' = m
      · subst hm'
        rw [hself] at hy
        exact absurd hy (hphase.linked t y)
      · rw [hothers m' hm'] at hy
        exact ⟨y, hy⟩

/-- A consumer goes on without a store. -/
structure Turns (old phase : SegmentedDequeue μ) : Prop extends Continues old phase where
  isOpen : phase.isOpen = old.isOpen
  cleared : ∀ d, phase.cleared d = old.cleared d

/-- The consumer makes no store. -/
lemma Sound.turn (h : s.Sound n chain base)
    {answers : κ → List (Option μ)} (hm : s.consumers m = old) (hs' : s' = { s with
      consumers := update s.consumers m phase
      answers })
    (hanswers : ∀ m', m' ≠ m → answers m' = s.answers m') (hphase : Turns old phase)
    (htaken : ∀ x, old ≠ .unlinking (s.tail m) x)
    (hclosed : chain m = [] → answers m = s.answers m)
    (howed : (answers m).reduceOption ++ phase.owed = (s.answers m).reduceOption ++ old.owed)
    (hcaller : CallerFits n s.segments base (s.head m) (s.sent m) phase) :
    s'.Sound n chain base := by
  subst hm
  refine h.consume rfl hs' (fun _ _ => rfl) (fun _ => rfl) (fun _ => rfl) hanswers
    hphase.toContinues (fun p msg i hr => ?_) ?_ hcaller
  · rw [hphase.cleared]
    exact ⟨(h.producer_at hr).vacant, (h.producer_at hr).ahead rfl⟩
  · exact (h.lane m).turn hphase.isOpen htaken (hphase.cleared _).ge hclosed howed

lemma Sound.setConsumer (h : s.Sound n chain base)
    (hm : s.consumers m = old) (htaken : ∀ x, old ≠ .unlinking (s.tail m) x)
    (howed : phase.owed = old.owed)
    (hcaller : CallerFits n s.segments base (s.head m) (s.sent m) phase)
    (hphase : Turns old phase := by exact ⟨⟨nofun, nofun, nofun⟩, rfl, fun _ => rfl⟩) :
    (s.setConsumer m phase).Sound n chain base :=
  h.turn hm rfl (fun _ _ => rfl) hphase htaken (fun _ => rfl) (congrArg _ howed) hcaller

lemma Sound.answer (h : s.Sound n chain base) {old : SegmentedDequeue μ} {val : Option μ}
    (hm : s.consumers m = old) (htaken : ∀ x, old ≠ .unlinking (s.tail m) x)
    (howed : old.owed = val.toList)
    (hphase : Turns old .idle := by exact ⟨⟨nofun, nofun, nofun⟩, rfl, fun _ => rfl⟩) :
    (s.answer m val).Sound n chain base := by
  refine h.turn hm rfl (fun m' hm => update_of_ne hm ..) hphase htaken
    (fun hnil => absurd hnil ((h.lane m).opened.mpr ?_)) ?_ trivial
  · rw [hm, ← hphase.isOpen]
    rfl
  · change _ ++ [] = _
    rw [update_self, append_nil, howed, reduceOption_append, reduceOption_singleton]

/-! ## Reading the slots -/

variable {val : μ}

omit [DecidableEq κ] in
/-- The message that the consumer read is the one of its slot. -/
lemma Sound.slot_of_data (h : s.Sound n chain base) {deq : ℕ} (hne : chain m ≠ [])
    (hslot : AtSlot n s.segments (s.head m) (s.head m) deq)
    (hcleared : s.cleared m = (s.segments (s.head m)).deqIdx)
    (hdata : (s.segments (s.head m)).data deq = some val) :
    ∃ p, (s.sent m)[base (s.head m) + deq]? = some (p, val) := by
  have hmem := (h.lane m).head_mem hne
  have hwithin := (h.lane m).within hmem
  have hlt := hslot.lt
  have hpos : base (s.head m) + deq < (s.sent m).length := by omega
  obtain ⟨⟨p, msg⟩, hget⟩ : ∃ entry, (s.sent m)[base (s.head m) + deq]? = some entry :=
    ⟨_, List.getElem?_eq_getElem hpos⟩
  refine ⟨p, ?_⟩
  have hfilled := (h.lane m).filled hmem (hlt.trans_le (min_le_right _ _)) hget fun _ => by
    rw [← hslot.deq_eq] at hcleared
    exact hcleared.le
  rw [hdata] at hfilled
  rcases hfilled with heq | ⟨⟨⟩, -⟩
  cases heq
  exact hget

omit [DecidableEq κ] in
lemma ne_head (hmem : s.head m ∈ chain m) (hw : w ∉ chain m ∨ w ≠ s.head m) : w ≠ s.head m := by
  rintro rfl
  exact hw.elim (· hmem) (· rfl)

lemma Sound.clear (h : s.Sound n chain base) {seg deq : ℕ}
    (hm : s.consumers m = .clearing seg deq val) :
    ((s.modify seg (Segment.storeData deq none)).setConsumer m (.advancing seg deq val)).Sound n
      chain base := by
  obtain ⟨hslot, hdata⟩ := h.caller_at hm
  obtain rfl := hslot.head_eq
  have hne : chain m ≠ [] := (h.lane m).opened.mpr (by rw [hm]; rfl)
  have hmem := (h.lane m).head_mem hne
  have hcleared : s.cleared m = (s.segments (s.head m)).deqIdx := by
    rw [cleared, hm]
    rfl
  have hdeq := update_field deqIdx (storeData deq none) (fun _ => rfl) s.segments (s.head m)
  have hwrite := update_field writeIdx (storeData deq none) (fun _ => rfl) s.segments (s.head m)
  refine h.consume hm rfl (fun w hw => modify_of_ne (ne_head hmem hw) _) hwrite
    (update_field next (storeData deq none) (fun _ => rfl) s.segments (s.head m))
    (fun _ _ => rfl) ⟨nofun, nofun, nofun⟩ (fun p msg i hr => ⟨?_, ?_⟩) ?_
    ⟨⟨rfl, hslot.deq_eq.trans (hdeq _).symm, ?_⟩, h.slot_of_data hne hslot hcleared hdata⟩
  · rw [modify_self]
    exact update_keep hdata (h.producer_at hr).vacant nofun
  · have hahead := (h.producer_at hr).ahead rfl
    have hvacant := (h.producer_at hr).vacant
    have hi : i ≠ deq := by
      rintro rfl
      rw [hdata] at hvacant
      cases hvacant
    change (update s.segments _ _ (s.head m)).deqIdx + 1 ≤ i
    rw [hdeq, ← hslot.deq_eq]
    rw [hcleared, ← hslot.deq_eq] at hahead
    omega
  · have hlane := h.lane m
    unfold LaneAt at hlane
    rw [hm] at hlane
    exact hlane.clear hslot.deq_eq
  · exact hslot.lt.trans_eq (congrArg (min · n) (hwrite _).symm)

lemma Sound.advance (h : s.Sound n chain base) {seg deq : ℕ}
    (hm : s.consumers m = .advancing seg deq val) :
    ((s.modify seg (Segment.storeDeqIdx (deq + 1))).setConsumer m (.counting val)).Sound n chain
      base := by
  obtain ⟨hslot, p, hp⟩ := h.caller_at hm
  obtain rfl := hslot.head_eq
  have hne : chain m ≠ [] := (h.lane m).opened.mpr (by rw [hm]; rfl)
  have hmem := (h.lane m).head_mem hne
  refine h.consume hm rfl (fun w hw => modify_of_ne (ne_head hmem hw) _)
    (update_field writeIdx (storeDeqIdx (deq + 1)) (fun _ => rfl) s.segments _)
    (update_field next (storeDeqIdx (deq + 1)) (fun _ => rfl) s.segments _)
    (fun _ _ => rfl) ⟨nofun, nofun, nofun⟩ (fun p msg i hr => ?_) ?_ trivial
  · have hahead := (h.producer_at hr).ahead rfl
    rw [cleared, hm] at hahead
    rw [modify_self]
    refine ⟨(h.producer_at hr).vacant, ?_⟩
    change deq + 1 ≤ i
    rw [hslot.deq_eq]
    exact hahead
  · have hlane := h.lane m
    unfold LaneAt at hlane
    rw [hm] at hlane
    exact hlane.advance (h.owned.chain_nodup m) hslot.deq_eq hslot.lt hp

/-! ## Taking a segment out -/

variable {seg next : ℕ}

section
variable (h : s.Sound n chain base)
include h

omit [DecidableEq κ] in
/-- A consumer that is going to move the head has a second segment. -/
lemma Sound.chain_of_moving (hm : s.consumers m = .moving seg next) :
    seg = s.head m ∧ ∃ rest, chain m = s.head m :: next :: rest := by
  obtain ⟨rfl, hnext⟩ := h.caller_at hm
  have hne : chain m ≠ [] := (h.lane m).opened.mpr (by rw [hm]; rfl)
  obtain ⟨c, rest, hchain⟩ := exists_cons_of_ne_nil hne
  have hhead : s.head m = c := (h.lane m).head_eq (by rw [hchain]; rfl)
  subst hhead
  refine ⟨rfl, ?_⟩
  cases rest with
  | nil =>
    have hlast := ((h.lane m).last (v := s.head m) (by rw [hchain]; rfl)).1
    rw [hnext] at hlast
    cases hlast
  | cons b rest =>
    have hlink := ((h.lane m).linked (a := s.head m) (b := b)
      (by rw [hchain]; exact ⟨[], rest, rfl⟩)).1
    rw [hnext] at hlink
    cases hlink
    exact ⟨rest, hchain⟩

lemma Sound.leave (hm : s.consumers m = .moving seg next) (hdrained : n ≤ (s.segments seg).deqIdx) :
    ((s.setHead m next).setConsumer m (.unlinking seg next)).Sound n
      (update chain m (chain m).tail) base := by
  obtain ⟨rfl, rest, hchain⟩ := h.chain_of_moving hm
  have hnodup := h.owned.chain_nodup m
  have hlane := h.lane m
  have hmem : s.head m ∈ chain m := by
    rw [hchain]
    exact mem_cons_self
  have hqueue : s.At chain (.queue m) (s.head m) := hmem
  have htail : update chain m (chain m).tail m = next :: rest := by
    rw [update_self, hchain]
    rfl
  have hmemTail : ∀ {w}, w ∈ next :: rest ↔ w ∈ chain m ∧ w ≠ s.head m := by
    intro w
    rw [hchain] at hnodup ⊢
    have hnot := (nodup_cons.mp hnodup).1
    constructor
    · intro hw
      refine ⟨mem_cons_of_mem _ hw, ?_⟩
      rintro rfl
      exact hnot hw
    · rintro ⟨hw, hne⟩
      exact (mem_cons.mp hw).resolve_left hne
  have hfull : n ≤ (s.segments (s.head m)).writeIdx :=
    hdrained.trans ((hlane.deq_le (ne_nil_of_mem hmem)).trans (min_le_left _ _))
  have hat : ∀ a w, ((s.setHead m next).setConsumer m (.unlinking (s.head m) next)).At
      (update chain m (chain m).tail) a w →
      w = s.head m ∧ a = .oldSeg m ∨ s.At chain a w ∧ w ≠ s.head m := by
    intro a w hw
    rcases at_update hw with ⟨rfl, hlist⟩ | ⟨ha, hrest⟩
    · rw [hchain] at hlist
      exact .inr (hmemTail.mp hlist)
    · rcases at_setConsumer hrest with ⟨rfl, hold⟩ | ⟨-, ⟨⟩⟩ | ⟨-, hkept⟩
      · cases hold
        exact .inl ⟨rfl, rfl⟩
      · have hplace : s.At chain a w := by cases a <;> exact hkept
        exact .inr ⟨hplace, h.ne_of_at hmem hplace ha⟩
  have hretired : ((s.setHead m next).setConsumer m (.unlinking (s.head m) next)).Retired n
      (update chain m (chain m).tail) (s.head m) := by
    refine ⟨hfull, h.owned.born hqueue, fun a ha => ?_⟩
    rcases hat a _ ha with ⟨-, rfl⟩ | ⟨-, hhead⟩
    · exact .inr ⟨m, rfl⟩
    · exact absurd rfl hhead
  have hopen : ∀ m', chain m' ≠ [] → update chain m (chain m).tail m' ≠ [] := by
    intro m' hne'
    by_cases hm' : m' = m
    · subst hm'
      rw [htail]
      exact cons_ne_nil _ _
    · rw [update_of_ne hm']
      exact hne'
  refine ⟨h.owned.move (.oldSeg m) (s.head m) hat le_rfl (h.owned.born hqueue) h.owned.pool_nodup
    ?_, fun m' => ?_, fun m' => ?_, fun p => ?_⟩
  · exact (forall_update_iff chain fun _ l => l.Nodup).mpr
      ⟨hnodup.tail, fun m' _ => h.owned.chain_nodup m'⟩
  · unfold LaneAt
    simp only [setConsumer_consumers, setConsumer_head, setHead_head]
    by_cases hm' : m' = m
    · subst hm'
      unfold LaneAt at hlane
      rw [hm, hchain] at hlane
      rw [htail, update_self, update_self]
      exact hlane.leave (hchain ▸ hnodup) hdrained
    · rw [update_of_ne hm', update_of_ne hm', update_of_ne hm']
      exact h.lane m'
  · simp only [setConsumer_consumers, setConsumer_head, setHead_head]
    by_cases hm' : m' = m
    · subst hm'
      rw [update_self, update_self]
      exact ⟨rfl, (h.caller_at hm).2, hfull⟩
    · rw [update_of_ne hm', update_of_ne hm']
      exact h.caller m'
  · refine (h.producer p).mono hopen (fun m' t _ hr => ⟨hopen m' hr.opened, ?_⟩) (fun _ _ => id)
      (fun _ _ _ => id) (fun m' msg v i _ hr => ⟨?_, hr.lt, hr.slot, hr.vacant, fun hhead => ?_⟩)
      (fun m' msg t x _ hleads hlive => hleads ?_)
    · rcases hr.alive with ht | hret
      · by_cases hm' : m' = m
        · subst hm'
          by_cases hhead : t = s.head m'
          · subst hhead
            exact .inr hretired
          · left
            rw [htail]
            exact hmemTail.mpr ⟨ht, hhead⟩
        · left
          rw [update_of_ne hm']
          exact ht
      · refine .inr (hret.mono (fun a ha => ?_) le_rfl id)
        rcases hat a t ha with ⟨rfl, -⟩ | ⟨hold, -⟩
        · exact absurd hmem (hret.free.not_mem_chain m)
        · exact hold
    · by_cases hm' : m' = m
      · subst hm'
        rw [htail]
        refine hmemTail.mpr ⟨hr.mem, fun hv => ?_⟩
        -- no slot of the drained segment is reserved
        have hahead := hr.ahead hv
        have hi := hr.lt
        rw [cleared, hm] at hahead
        change (s.segments (s.head m')).deqIdx ≤ i at hahead
        omega
      · rw [update_of_ne hm']
        exact hr.mem
    · simp only [setConsumer_head, setHead_head] at hhead
      simp only [cleared, setConsumer_consumers, setConsumer_head, setHead_head,
        setConsumer_segments, setHead_segments]
      by_cases hm' : m' = m
      · subst hm'
        rw [update_self, update_self]
        change (s.segments next).deqIdx ≤ i
        rw [hlane.fresh (by rw [hchain]; exact mem_cons_self)]
        exact Nat.zero_le _
      · rw [update_of_ne hm'] at hhead
        rw [update_of_ne hm', update_of_ne hm']
        exact hr.ahead hhead
    · simp only [setConsumer_consumers] at hlive
      by_cases hm' : m' = m
      · subst hm'
        rw [htail, update_self] at hlive
        rcases hlive with ht | ⟨y, hy⟩
        · exact .inl (hmemTail.mp ht).1
        · cases hy
          exact .inl hmem
      · rw [update_of_ne hm', update_of_ne hm'] at hlive
        exact hlive

/-- The consumer erases the next pointer of the segment that it took out. -/
lemma Sound.unlink (hm : s.consumers m = .unlinking seg next) (htail : s.tail m ≠ seg) :
    ((s.modify seg (Segment.storeNext none)).setConsumer m (.putting seg next)).Sound n chain
      base := by
  have hcaller := h.caller_at hm
  have hplace : s.At chain (.oldSeg m) seg := congrArg SegmentedDequeue.oldSeg hm
  have hsound : (s.setConsumer m (.putting seg next)).Sound n chain base := by
    refine h.setConsumer hm (fun x hx => ?_) rfl ⟨hcaller.1, hcaller.2.2⟩
      ⟨⟨nofun, fun _ => id, nofun⟩, rfl, fun _ => rfl⟩
    cases hx
    exact htail rfl
  have hfree : (s.setConsumer m (.putting seg next)).Free chain seg := by
    refine hsound.owned.free_of_oldSeg (m := m) ?_
    rw [setConsumer_consumers, update_self]
    rfl
  refine hsound.modifyFree hfree.not_mem_chain (fun _ => id) (fun m' x hx => ?_)
    fun hnot => absurd hfree hnot
  rw [setConsumer_consumers] at hx
  by_cases hm' : m' = m
  · subst hm'
    rw [update_self] at hx
    cases hx
  · rw [update_of_ne hm'] at hx
    have hold : s.At chain (.oldSeg m') seg := congrArg SegmentedDequeue.oldSeg hx
    cases h.owned.unique hold hplace
    exact absurd rfl hm'

omit [DecidableEq κ] in
lemma Sound.put (hv : ∀ a, ¬s.At chain a v) (hborn : v < s.allocated)
    (keep : Bool) : (s.put v keep).Sound n chain base := by
  cases keep with
  | false => exact h.setPool (List.Subset.refl _) h.owned.pool_nodup le_rfl
  | true =>
    have hat : ∀ a w, (s.put v true).At chain a w → w = v ∧ a = .pool ∨ s.At chain a w ∧ w ≠ v := by
      intro a w hw
      have hold : w = v ∧ a = .pool ∨ s.At chain a w := by
        cases a with
        | pool =>
          rcases mem_append.mp hw with hw | hw
          · exact .inr hw
          · exact .inl ⟨mem_singleton.mp hw, rfl⟩
        | _ => exact .inr hw
      refine hold.imp_right fun hat => ⟨hat, ?_⟩
      rintro rfl
      exact hv a hat
    have hnodup : (s.put v true).pool.Nodup := by
      change (s.pool ++ [v]).Nodup
      rw [← concat_eq_append]
      exact h.owned.pool_nodup.concat (hv .pool)
    refine ⟨h.owned.move .pool v hat le_rfl hborn hnodup h.owned.chain_nodup, h.lane, h.caller,
      fun p => ?_⟩
    refine (h.producer p).mono (fun _ => id) (fun m t _ hr => ⟨hr.opened, ?_⟩) (fun _ _ => id)
      (fun _ _ _ => id) (fun m msg v i _ hr => ⟨hr.mem, hr.lt, hr.slot, hr.vacant, hr.ahead⟩)
      (fun _ _ _ _ _ => id)
    refine hr.alive.imp id fun hret => ⟨hret.full, hret.born, fun a ha => ?_⟩
    rcases hat a t ha with ⟨-, rfl⟩ | ⟨hold, -⟩
    · exact .inl rfl
    · exact hret.free a hold

/-- The consumer gives the segment that it took out to the pool. -/
lemma Sound.giveBack (hm : s.consumers m = .putting seg next) (keep : Bool) :
    ((s.put seg keep).setConsumer m (.looking next)).Sound n chain base := by
  have hplace : s.At chain (.oldSeg m) seg := congrArg SegmentedDequeue.oldSeg hm
  have hsound : (s.setConsumer m (.looking next)).Sound n chain base :=
    h.setConsumer hm nofun rfl (h.caller_at hm).1
  refine hsound.put (v := seg) (fun a ha => ?_) (h.owned.born hplace) keep
  rcases at_setConsumer ha with ⟨-, ⟨⟩⟩ | ⟨-, ⟨⟩⟩ | ⟨-, hkept⟩
  -- the consumer has let it go
  cases h.owned.unique hkept hplace
  rw [At, setConsumer_consumers, update_self] at ha
  cases ha

/-! ## The constructor -/

/-- `newSegment` has a segment for a mailbox that does not exist yet. -/
lemma Sound.begin (hm : s.consumers m = .absent)
    (hv : ∀ a, ¬s.At chain a v) (hborn : v < s.allocated)
    (hrefs : ∀ p, (s.producers p).tail ≠ some v) :
    (s.setConsumer m (.creating v 0)).Sound n chain base := by
  have hat : ∀ a w, (s.setConsumer m (.creating v 0)).At chain a w →
      w = v ∧ a = .newSeg m ∨ s.At chain a w ∧ w ≠ v := by
    intro a w hw
    rcases at_setConsumer hw with ⟨-, ⟨⟩⟩ | ⟨rfl, hnew⟩ | ⟨-, hkept⟩
    · cases hnew
      exact .inl ⟨rfl, rfl⟩
    · refine .inr ⟨hkept, ?_⟩
      rintro rfl
      exact hv a hkept
  refine ⟨h.owned.move (.newSeg m) v hat le_rfl hborn h.owned.pool_nodup h.owned.chain_nodup,
    fun m' => ?_, fun m' => ?_, fun p => ?_⟩
  · unfold LaneAt
    rw [setConsumer_consumers]
    by_cases hm' : m' = m
    · subst hm'
      rw [update_self]
      have hlane := h.lane m'
      unfold LaneAt at hlane
      rw [hm] at hlane
      exact hlane.turn rfl nofun le_rfl (fun _ => rfl) rfl
    · rw [update_of_ne hm']
      exact h.lane m'
  · rw [setConsumer_consumers]
    by_cases hm' : m' = m
    · subst hm'
      rw [update_self]
      exact ⟨nofun, nofun, nofun, nofun⟩
    · rw [update_of_ne hm']
      exact h.caller m'
  · refine (h.producer p).mono (fun _ => id) (fun m' t ht hr => ⟨hr.opened, ?_⟩) (fun _ _ => id)
      (fun _ _ _ => id) (fun m' msg v i _ hr => ?_) (fun m' msg t x _ hleads hlive => hleads ?_)
    · refine hr.alive.imp id fun hret => hret.mono (fun a ha => ?_) le_rfl id
      rcases hat a t ha with ⟨rfl, -⟩ | ⟨hold, -⟩
      · exact absurd ht (hrefs p)
      · exact hold
    · have hne : m' ≠ m := by
        rintro rfl
        have hopen := (h.lane m').opened.mp (ne_nil_of_mem hr.mem)
        rw [hm] at hopen
        cases hopen
      refine ⟨hr.mem, hr.lt, hr.slot, hr.vacant, fun hhead => ?_⟩
      rw [cleared, setConsumer_consumers, update_of_ne hne]
      exact hr.ahead hhead
    · refine hlive.imp_right ?_
      rintro ⟨y, hy⟩
      rw [setConsumer_consumers] at hy
      by_cases hm' : m' = m
      · subst hm'
        rw [update_self] at hy
        cases hy
      · rw [update_of_ne hm'] at hy
        exact ⟨y, hy⟩

/-- `newSegment` makes one more store for the constructor. -/
lemma Sound.resetNew {seg i : ℕ} (hm : s.consumers m = .creating seg i) :
    ((s.modify seg (Segment.reset i)).setConsumer m (.creating seg (i + 1))).Sound n chain
      base := by
  have hplace : s.At chain (.newSeg m) seg := congrArg SegmentedDequeue.newSeg hm
  have hsound := h.modifyPrivate hplace (.inr ⟨m, rfl⟩) i
  refine hsound.setConsumer hm nofun rfl ?_ ⟨⟨fun _ => id, nofun, nofun⟩, rfl, fun _ => rfl⟩
  change Reset n (i + 1) ((s.modify seg (reset i)).segments seg)
  rw [modify_self]
  exact (h.caller_at hm).succ

/-- The mailbox exists. -/
lemma Sound.publish {seg i : ℕ} (hm : s.consumers m = .creating seg i) (hi : n + 3 ≤ i) :
    (((s.setHead m seg).setTail m seg).setConsumer m .idle).Sound n
      (update chain m [seg]) (update base seg 0) := by
  have hreset : Reset n (n + 3) (s.segments seg) := (h.caller_at hm).done hi
  have hplace : s.At chain (.newSeg m) seg := congrArg SegmentedDequeue.newSeg hm
  have hnil : chain m = [] := by
    by_contra hne
    have hopen := (h.lane m).opened.mp hne
    rw [hm] at hopen
    cases hopen
  have hbases : ∀ {m' w}, w ∈ chain m' → update base seg 0 w = base w := by
    intro m' w hw
    refine update_of_ne ?_ ..
    rintro rfl
    exact h.owned.not_mem_chain hplace nofun hw
  have hat : ∀ a w, (((s.setHead m seg).setTail m seg).setConsumer m .idle).At
      (update chain m [seg]) a w →
      w = seg ∧ a = .queue m ∨ s.At chain a w ∧ w ≠ seg := by
    intro a w hw
    rcases at_update hw with ⟨rfl, hlist⟩ | ⟨-, hrest⟩
    · exact .inl ⟨mem_singleton.mp hlist, rfl⟩
    · rcases at_setConsumer hrest with ⟨-, ⟨⟩⟩ | ⟨-, ⟨⟩⟩ | ⟨ha, hkept⟩
      have hat : s.At chain a w := by cases a <;> exact hkept
      refine .inr ⟨hat, ?_⟩
      rintro rfl
      exact ha (h.owned.unique hat hplace)
  have hopened : ∀ m', chain m' ≠ [] → m' ≠ m := by
    rintro m' hne' rfl
    exact hne' hnil
  refine ⟨h.owned.move (.queue m) seg hat le_rfl (h.owned.born hplace) h.owned.pool_nodup
    ?_, fun m' => ?_, fun m' => ?_, fun p => ?_⟩
  · exact (forall_update_iff chain fun _ l => l.Nodup).mpr
      ⟨nodup_singleton seg, fun m' _ => h.owned.chain_nodup m'⟩
  · unfold LaneAt
    simp only [setConsumer_consumers, setConsumer_head, setTail_head, setHead_head,
      setConsumer_tail, setTail_tail]
    by_cases hm' : m' = m
    · subst hm'
      have hlane := h.lane m'
      unfold LaneAt at hlane
      rw [hnil] at hlane
      rw [update_self, update_self, update_self, update_self]
      exact hlane.publish hreset (update_self ..)
    · rw [update_of_ne hm', update_of_ne hm', update_of_ne hm',
        update_of_ne hm']
      exact Lane.congr (h.lane m') (fun _ _ => .of_eq rfl) (fun w hw => hbases hw)
        fun _ _ _ _ _ => id
  · simp only [setConsumer_consumers, setConsumer_head, setTail_head, setHead_head]
    by_cases hm' : m' = m
    · subst hm'
      rw [update_self, update_self]
      trivial
    · rw [update_of_ne hm', update_of_ne hm']
      refine (h.caller m').mono (fun _ => Grows.refl _) (fun hopen => ?_) prefix_rfl
        (fun _ _ _ => id) (fun _ _ => id) (fun _ _ _ => rfl)
      exact hbases ((h.lane m').head_mem ((h.lane m').opened.mpr hopen))
  · have hchain : ∀ m', chain m' ≠ [] → update chain m [seg] m' = chain m' :=
      fun m' hne => update_of_ne (hopened m' hne) ..
    refine (h.producer p).mono (fun m' hne => (hchain m' hne).trans_ne hne)
      (fun m' t _ hr => ⟨(hchain m' hr.opened).trans_ne hr.opened, ?_⟩) (fun _ _ => id)
      (fun _ _ _ => id) (fun m' msg v i _ hr => ?_) (fun m' msg t x hphase hleads hlive => ?_)
    · rw [hchain m' hr.opened]
      refine hr.alive.imp id fun hret => hret.mono (fun a ha => ?_) le_rfl id
      rcases hat a t ha with ⟨rfl, -⟩ | ⟨hold, -⟩
      · rcases hret.free _ hplace with ha | ⟨m'', ha⟩ <;> cases ha
      · exact hold
    · have hne := ne_nil_of_mem hr.mem
      refine ⟨(hchain m' hne).symm ▸ hr.mem, hr.lt, ?_, hr.vacant, ?_⟩
      · rw [hbases hr.mem]
        exact hr.slot
      · simp only [cleared, setConsumer_consumers, setConsumer_head, setTail_head, setHead_head]
        rw [update_of_ne (hopened m' hne), update_of_ne (hopened m' hne)]
        exact hr.ahead
    · have hne := (h.producer_at hphase).1.opened
      rw [hchain m' hne, setConsumer_consumers, update_of_ne (hopened m' hne)] at hlive
      exact hleads hlive

/-! ## Steps and runs -/

lemma Sound.create {place : Option ℕ}
    (hhazard : ¬s.Hazard n (.create m place)) (hstep : s.create n m place = some s') :
    ∃ chain' base', s'.Sound n chain' base' := by
  unfold SegmentedMailboxes.create at hstep
  split at hstep
  next hm =>
    obtain ⟨⟨seg, s₁⟩, hget, rfl⟩ := Option.map_eq_some_iff.mp hstep
    obtain ⟨hsound, hnowhere, hborn, hrefs, -, hconsumers⟩ :=
      h.get (fun hout => hhazard ⟨hm, hout⟩) hget
    refine ⟨chain, base, hsound.begin ?_ hnowhere hborn hrefs⟩
    rw [hconsumers]
    exact hm
  next seg i hm =>
    split_ifs at hstep with hi <;> cases hstep
    · exact ⟨chain, base, h.resetNew hm⟩
    · exact ⟨_, _, h.publish hm (not_lt.mp hi)⟩
  next => cases hstep

omit [DecidableEq κ] in
lemma Sound.call {p : ℕ} {msg : μ}
    (hstep : s.call p m msg = some s') : ∃ chain' base', s'.Sound n chain' base' := by
  unfold SegmentedMailboxes.call at hstep
  split at hstep <;> cases hstep
  next hp habsent hcreating =>
    have hcalled : (s.recordCall p m msg).Sound n chain base :=
      h.rearrange (List.Subset.refl _) h.owned.pool_nodup le_rfl fun m => (h.lane m).tail_mem
    refine ⟨chain, base, hcalled.setProducer hp nofun nofun
      ((h.lane m).opened.mpr ?_)⟩
    cases hm : s.consumers m with
    | absent => exact absurd hm habsent
    | creating seg i => exact absurd hm (hcreating seg i)
    | _ => rfl

end

/-- The list of a mailbox after an access of its `Dequeue`. -/
def remaining : SegmentedDequeue μ → List ℕ → List ℕ
  | .moving _ _, chain => chain.tail
  | _, chain => chain

lemma update_remaining {phase : SegmentedDequeue μ} (hm : s.consumers m = phase)
    (hphase : remaining phase (chain m) = chain m) :
    update chain m (remaining (s.consumers m) (chain m)) = chain := by
  rw [hm, hphase, update_eq_self]

lemma Sound.dequeue (h : s.Sound n chain base) {keep : Bool}
    (hhazard : ¬s.Hazard n (.dequeue m keep)) (hstep : s.dequeue n m keep = some s') :
    s'.Sound n (update chain m (remaining (s.consumers m) (chain m))) base := by
  unfold SegmentedMailboxes.dequeue at hstep
  split at hstep <;> try cases hstep
  all_goals
    rename_i hm
    -- only the step to the next segment takes one off the chain
    try rw [update_remaining hm rfl]
  · exact h.setConsumer hm nofun rfl rfl
  · exact h.setConsumer hm nofun rfl ⟨h.caller_at hm, le_rfl⟩
  · have hcaller := h.caller_at hm
    split_ifs with hlt
    · exact h.setConsumer hm nofun rfl ⟨hcaller.1, rfl, hlt.trans_le hcaller.2⟩
    · exact h.setConsumer hm nofun rfl hcaller.1
  · split at hstep <;> cases hstep
    next hdata => exact h.answer hm nofun rfl
    next val hdata => exact h.setConsumer hm nofun rfl ⟨h.caller_at hm, hdata⟩
  · exact h.clear hm
  · exact h.advance hm
  · exact (h.addLength m (-1)).answer hm nofun rfl
  · split at hstep <;> cases hstep
    next hnext => exact h.answer hm nofun rfl
    next next hnext => exact h.setConsumer hm nofun rfl ⟨h.caller_at hm, hnext⟩
  · have hsound := h.leave hm (not_lt.mp fun hlt => hhazard (.inl ⟨_, _, hm, hlt⟩))
    rw [hm]
    exact hsound
  · refine h.unlink hm ?_
    rintro rfl
    exact hhazard (.inr ⟨_, hm⟩)
  · exact h.giveBack hm keep

/-- A step that uses no segment after its life keeps the segments sound. -/
lemma Sound.step (h : s.Sound n chain base) {e : SegmentedEvent κ μ} (hhazard : ¬s.Hazard n e)
    (hstep : s.step n e = some s') : ∃ chain' base', s'.Sound n chain' base' := by
  cases e with
  | create m place => exact h.create hhazard hstep
  | call p m msg => exact h.call hstep
  | enqueue p place => exact h.enqueue hhazard hstep
  | dequeue m keep => exact ⟨_, _, h.dequeue hhazard hstep⟩

lemma sound_start (n : ℕ) : (segmentedSystem κ μ n).start.Sound n (fun _ => []) fun _ => 0 := by
  refine ⟨⟨fun {a b v} ha => ?_, fun {a v} ha => ?_, nodup_nil, fun _ => nodup_nil⟩,
    fun m => ?_, fun _ => trivial, fun _ => trivial⟩
  · cases a <;> cases ha
  · cases a <;> cases ha
  · exact ⟨⟨fun h => absurd rfl h, nofun⟩, fun _ => ⟨rfl, rfl⟩, nofun,
      fun hab => absurd hab.length_le (by simp), nofun, nofun, nofun, fun h => absurd rfl h,
      fun h => absurd rfl h, fun h => absurd rfl h, nofun, nofun⟩

/-- The segments are sound in every run that uses none of them after its life. -/
lemma sound_of_run {events : List (SegmentedEvent κ μ)}
    (hrun : (segmentedSystem κ μ n).run events = some s)
    (hhazard : ¬(segmentedSystem κ μ n).Took (fun s e => s.Hazard n e) events) :
    ∃ chain base, s.Sound n chain base := by
  let Kept (s : SegmentedMailboxes κ μ) : Prop := ∃ chain base, s.Sound n chain base
  have hstart : Kept (segmentedSystem κ μ n).start := ⟨_, _, sound_start n⟩
  have hstep : ∀ s e s', Kept s → (segmentedSystem κ μ n).step s e = some s' →
      ¬s.Hazard n e → Kept s' := by
    rintro s e s' ⟨chain, base, h⟩ hstep hsafe
    exact h.step hsafe hstep
  exact System.safe_invariant hstart hstep hhazard hrun

end GoAkt.Actor.SegmentedMailboxes
