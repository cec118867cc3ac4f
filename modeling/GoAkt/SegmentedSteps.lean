import GoAkt.SegmentedLanes

/-!
# The steps of the segmented mailbox keep its segments sound
-/
namespace GoAkt.Actor.SegmentedMailboxes
open Segment GoAkt.Interleavings GoAkt.Neighbours Function List
variable {κ μ : Type} {n : ℕ} {chain chain' : κ → List ℕ} {base base' : ℕ → ℕ}
  {s s' : SegmentedMailboxes κ μ} {m : κ} {p : ℕ} {v w : ℕ} {a : SegmentPlace κ}

/-! ## Resetting a segment -/

variable {seg : Segment μ} {i : ℕ}

lemma Reset.keep (h : Reset n i seg) (j : ℕ) : Reset n i (seg.reset j) := by
  match j with
  | 0 => exact ⟨fun _ => rfl, h.deqIdx, h.next, h.data⟩
  | 1 => exact ⟨h.writeIdx, fun _ => rfl, h.next, h.data⟩
  | 2 => exact ⟨h.writeIdx, h.deqIdx, fun _ => rfl, h.data⟩
  | j + 3 =>
    refine ⟨h.writeIdx, h.deqIdx, h.next, fun k hk hlt => ?_⟩
    change update seg.data j none k = none
    by_cases hkj : k = j
    · subst hkj
      exact update_self ..
    · rw [update_of_ne hkj]
      exact h.data k hk hlt

lemma Reset.succ (h : Reset n i seg) : Reset n (i + 1) (seg.reset i) := by
  match i with
  | 0 => exact ⟨fun _ => rfl, fun hi => by omega, fun hi => by omega, fun j _ hj => by omega⟩
  | 1 => exact ⟨fun _ => h.writeIdx (by omega), fun _ => rfl, fun hi => by omega,
      fun j _ hj => by omega⟩
  | 2 => exact ⟨fun _ => h.writeIdx (by omega), fun _ => h.deqIdx (by omega), fun _ => rfl,
      fun j _ hj => by omega⟩
  | i + 3 =>
    refine ⟨fun _ => h.writeIdx (by omega), fun _ => h.deqIdx (by omega),
      fun _ => h.next (by omega), fun j hj hlt => ?_⟩
    change update seg.data i none j = none
    by_cases hji : j = i
    · subst hji
      exact update_self ..
    · rw [update_of_ne hji]
      exact h.data j hj (by omega)

/-! ## One party moves -/

@[simp] lemma modify_self (store : Segment μ → Segment μ) :
    (s.modify v store).segments v = store (s.segments v) :=
  update_self ..

lemma modify_of_ne (hw : w ≠ v) (store : Segment μ → Segment μ) :
    (s.modify v store).segments w = s.segments w :=
  update_of_ne hw ..

lemma at_modify (store : Segment μ → Segment μ) :
    (s.modify w store).At chain a v ↔ s.At chain a v := by
  cases a <;> rfl

variable {phase : SegmentedEnqueue κ μ}

lemma Sound.producer_at (h : s.Sound n chain base)
    (hp : s.producers p = phase) : s.ProducerFits n chain base p phase :=
  hp ▸ h.producer p

lemma Sound.caller_at (h : s.Sound n chain base) {phase : SegmentedDequeue μ}
    (hm : s.consumers m = phase) : CallerFits n s.segments base (s.head m) (s.sent m) phase :=
  hm ▸ h.caller m

lemma at_setProducer (h : (s.setProducer p phase).At chain a v) :
    a = .producer p ∧ phase.newSeg = some v ∨ a ≠ .producer p ∧ s.At chain a v := by
  cases a with
  | producer p' =>
    change (update s.producers p phase p').newSeg = some v at h
    by_cases hp : p' = p
    · subst hp
      rw [update_self] at h
      exact .inl ⟨rfl, h⟩
    · rw [update_of_ne hp] at h
      exact .inr ⟨by simpa using hp, h⟩
  | _ => exact .inr ⟨nofun, h⟩

/-- A call that has no slot goes on. -/
lemma Sound.withProducer (h : s.Sound n chain base) {old phase : SegmentedEnqueue κ μ}
    (hp : s.producers p = old) (hold : ∀ m msg t i, old ≠ .reserved m msg t i)
    (howned : (s.setProducer p phase).Owned chain)
    (hretired : ∀ {p' t}, ((s.setProducer p phase).producers p').tail = some t →
      s.Retired n chain t → (s.setProducer p phase).Retired n chain t)
    (hfits : s.ProducerFits n chain base p phase) :
    (s.setProducer p phase).Sound n chain base := by
  refine ⟨howned, fun m => ?_, h.caller, fun p' => ?_⟩
  · refine Lane.congr (h.lane m) (fun _ _ => .of_eq rfl) (fun _ _ => rfl) fun p' msg v i _ hp' => ?_
    exact update_keep hp hp' (hold m msg v i)
  · have hfits' : s.ProducerFits n chain base p' ((s.setProducer p phase).producers p') :=
      (forall_update_iff _ (s.ProducerFits n chain base)).mpr ⟨hfits, fun p' _ => h.producer p'⟩ p'
    exact hfits'.mono (fun _ => id)
      (fun m t ht hr => ⟨hr.opened, hr.alive.imp id (hretired ht)⟩) (fun _ _ => id)
      (fun _ _ _ => id) (fun m msg v i _ hr => ⟨hr.mem, hr.lt, hr.slot, hr.vacant, hr.ahead⟩)
      (fun _ _ _ _ _ => id)

lemma Sound.setProducer (h : s.Sound n chain base) {old phase : SegmentedEnqueue κ μ}
    (hp : s.producers p = old) (hold : ∀ m msg t i, old ≠ .reserved m msg t i)
    (hseg : ∀ v, phase.newSeg = some v → old.newSeg = some v)
    (hfits : s.ProducerFits n chain base p phase) : (s.setProducer p phase).Sound n chain base := by
  have hat : ∀ a w, (s.setProducer p phase).At chain a w → s.At chain a w := by
    intro a w hw
    rcases at_setProducer hw with ⟨rfl, hnew⟩ | ⟨-, hkept⟩
    · exact (congrArg SegmentedEnqueue.newSeg hp).trans (hseg w hnew)
    · exact hkept
  exact h.withProducer hp hold
    (h.owned.sub hat le_rfl h.owned.pool_nodup h.owned.chain_nodup)
    (fun _ hret => hret.mono (fun a => hat a _) le_rfl id) hfits

variable {msg : μ} {t : ℕ}

/-- A call starts to prepare a segment that is nowhere. -/
lemma Sound.prepare (h : s.Sound n chain base)
    (hp : s.producers p = .getting m msg t) (hv : ∀ a, ¬s.At chain a v) (hborn : v < s.allocated)
    (hrefs : ∀ p, (s.producers p).tail ≠ some v) :
    (s.setProducer p (.resetting m msg t v 0)).Sound n chain base := by
  have hat : ∀ a w, (s.setProducer p (.resetting m msg t v 0)).At chain a w →
      w = v ∧ a = .producer p ∨ s.At chain a w ∧ w ≠ v := by
    intro a w hw
    rcases at_setProducer hw with ⟨ha, hnew⟩ | ⟨-, hkept⟩
    · cases hnew
      exact .inl ⟨rfl, ha⟩
    · refine .inr ⟨hkept, ?_⟩
      rintro rfl
      exact hv a hkept
  have htail : ∀ p', (update s.producers p (.resetting m msg t v 0) p').tail =
      (s.producers p').tail := by
    intro p'
    by_cases hpp : p' = p
    · subst hpp
      rw [update_self, hp]
      rfl
    · rw [update_of_ne hpp]
  refine h.withProducer hp nofun
    (h.owned.move (.producer p) v hat le_rfl hborn h.owned.pool_nodup h.owned.chain_nodup)
    (fun {p' t'} ht hret => hret.mono (fun a ha => ?_) le_rfl id)
    ⟨h.producer_at hp, nofun, nofun, nofun, nofun⟩
  rcases hat a t' ha with ⟨rfl, -⟩ | ⟨hold, -⟩
  · exact absurd ((htail p').symm.trans ht) (hrefs p')
  · exact hold

/-- A store to a segment that is in no list. -/
lemma Sound.modifyFree (h : s.Sound n chain base) {store : Segment μ → Segment μ}
    (hchain : ∀ m, v ∉ chain m)
    (hfull : s.Free chain v → n ≤ (s.segments v).writeIdx → n ≤ (store (s.segments v)).writeIdx)
    (hnext : ∀ m x, s.consumers m = .unlinking v x →
      (store (s.segments v)).next = (s.segments v).next)
    (hreset : ¬s.Free chain v → ∀ i, Reset n i (s.segments v) → Reset n i (store (s.segments v))) :
    (s.modify v store).Sound n chain base := by
  have hother : ∀ w, w ≠ v → (s.modify v store).segments w = s.segments w :=
    fun w hw => modify_of_ne hw store
  have hself : (s.modify v store).segments v = store (s.segments v) := modify_self store
  have hne : ∀ {m w}, w ∈ chain m → w ≠ v := by
    rintro m w hw rfl
    exact hchain m hw
  have hwrite : ∀ w, s.Free chain w → n ≤ (s.segments w).writeIdx →
      n ≤ ((s.modify v store).segments w).writeIdx := by
    intro w hw hle
    by_cases hwv : w = v
    · subst hwv
      rw [hself]
      exact hfull hw hle
    · rw [hother w hwv]
      exact hle
  have hretired : ∀ {w}, s.Retired n chain w → (s.modify v store).Retired n chain w :=
    fun {w} hr => hr.mono (fun a => (at_modify store).mp) le_rfl (hwrite w hr.free)
  have hkeepReset : ∀ {a w i}, s.At chain a w → a ≠ .pool → (∀ m, a ≠ .oldSeg m) →
      Reset n i (s.segments w) → Reset n i ((s.modify v store).segments w) := by
    intro a w i ha hpool hold hr
    by_cases hwv : w = v
    · subst hwv
      rw [hself]
      refine hreset (fun hfree => ?_) i hr
      rcases hfree a ha with rfl | ⟨m, rfl⟩
      · exact hpool rfl
      · exact hold m rfl
    · rw [hother w hwv]
      exact hr
  refine ⟨h.owned.sub (fun a w => (at_modify store).mp) le_rfl h.owned.pool_nodup
    h.owned.chain_nodup, fun m => ?_, fun m => ?_, fun p => ?_⟩
  · exact Lane.congr (h.lane m) (fun w hw => .of_eq (hother w (hne hw))) (fun _ _ => rfl)
      fun _ _ _ _ _ => id
  · refine (h.caller m).mono (fun hopen => ?_) (fun _ => rfl) prefix_rfl
      (fun w i hw hr => ?_) (fun w hw hle => ?_) (fun w x hw => ?_)
    · have hhead := (h.lane m).head_mem ((h.lane m).opened.mpr hopen)
      rw [hother _ (hne hhead)]
      exact Grows.refl _
    · have hplace : s.At chain (.newSeg m) w := hw
      exact hkeepReset hplace nofun nofun hr
    · exact hwrite w (h.owned.free_of_oldSeg hw) hle
    · by_cases hwv : w = v
      · subst hwv
        rw [hself]
        exact hnext m x hw
      · rw [hother w hwv]
  · refine (h.producer p).mono (fun _ => id) (fun m t _ hr => ⟨hr.opened, ?_⟩) (fun t ht hle => ?_)
      (fun w i hw hr => ?_) (fun m msg w i _ hr => ?_) (fun m msg t x _ hleads => ?_)
    · exact hr.alive.imp id hretired
    · obtain ⟨m, hr⟩ := (h.producer p).refers ht
      rcases hr.alive with hmem | hret
      · rw [hother t (hne hmem)]
        exact hle
      · exact hwrite t hret.free hle
    · have hplace : s.At chain (.producer p) w := hw
      exact hkeepReset hplace nofun nofun hr
    · have hhead := (h.lane m).head_mem (ne_nil_of_mem hr.mem)
      refine ⟨hr.mem, hr.lt, hr.slot, ?_, fun hw => ?_⟩
      · rw [hother w (hne hr.mem)]
        exact hr.vacant
      · change SegmentedDequeue.cleared ((s.modify v store).segments (s.head m)).deqIdx _ ≤ i
        rw [hother _ (hne hhead)]
        exact hr.ahead hw
    · intro hlive
      have hx := hleads hlive
      by_cases htv : t = v
      · subst htv
        rcases hlive with hmem | ⟨x', hx'⟩
        · exact absurd hmem (hchain m)
        · rw [hself, hnext m x' hx']
          exact hx
      · rw [hother t htv]
        exact hx

/-! ## Segments of a list -/

section
variable (h : s.Sound n chain base)
include h

/-- The consumer clears no slot that is not reserved. -/
lemma Sound.cleared_le (hne : chain m ≠ []) :
    s.cleared m ≤ min (s.segments (s.head m)).writeIdx n := by
  have hle := (h.lane m).deq_le hne
  unfold cleared
  cases hc : s.consumers m with
  | advancing seg deq val =>
    obtain ⟨⟨rfl, rfl, hlt⟩, -⟩ := h.caller_at hc
    exact hlt
  | _ => exact hle

/-- A segment of the list that is not full is the last one. -/
lemma Sound.last_of_not_full (hv : v ∈ chain m)
    (hlt : (s.segments v).writeIdx < n) : (chain m).getLast? = some v := by
  rcases last_or_neighbours hv with hlast | ⟨b, hb⟩
  · exact hlast
  · have hfull := ((h.lane m).linked hb).2.1
    omega

lemma Sound.ne_of_mem {m' : κ} (hv : v ∈ chain m) (hw : w ∈ chain m') (hm : m' ≠ m) : w ≠ v := by
  rintro rfl
  have hqueue : s.At chain (.queue m) w := hv
  refine h.owned.not_mem_chain hqueue (m := m') ?_ hw
  rintro ⟨⟩
  exact hm rfl

/-- A segment of a list is nowhere else. -/
lemma Sound.ne_of_at (hv : v ∈ chain m) (hw : s.At chain a w) (ha : a ≠ .queue m) : w ≠ v := by
  rintro rfl
  exact h.owned.not_mem_chain hw ha hv

/-- A producer's store to a segment of a list, and the messages it adds. -/
lemma Sound.produce (hv : v ∈ chain m) {sent : κ → List (ℕ × μ)} (hs' : s' = { s with
      segments := update s.segments v seg
      producers := update s.producers p phase
      sent })
    (hgrows : Grows (s.segments v) seg) (hseg : phase.newSeg = none)
    (hold : ∀ m' msg t i, s.producers p = .reserved m' msg t i → m' = m)
    (hvacant : ∀ p' m' msg i, p' ≠ p → s.producers p' = .reserved m' msg v i → seg.data i = none)
    (hsent : ∀ m', m' ≠ m → sent m' = s.sent m') (hgrown : s.sent m <+: sent m)
    (hlane : s'.LaneAt n chain base m) (hfits : s'.ProducerFits n chain base p phase) :
    s'.Sound n chain base := by
  subst hs'
  have hother : ∀ w, w ≠ v → update s.segments v seg w = s.segments w :=
    fun w hw => update_of_ne hw ..
  have hgrow : ∀ w, Grows (s.segments w) (update s.segments v seg w) :=
    (forall_update_iff _ fun w => Grows (s.segments w)).mpr ⟨hgrows, fun w _ => Grows.refl _⟩
  have hkept : ∀ {a w}, s.At chain a w → a ≠ .queue m →
      update s.segments v seg w = s.segments w :=
    fun hw ha => hother _ (h.ne_of_at hv hw ha)
  have hat : ∀ a w, At chain { s with
      segments := update s.segments v seg
      producers := update s.producers p phase
      sent } a w → s.At chain a w := by
    intro a w hw
    cases a with
    | producer p' =>
      change (update s.producers p phase p').newSeg = some w at hw
      by_cases hp : p' = p
      · subst hp
        rw [update_self, hseg] at hw
        cases hw
      · rw [update_of_ne hp] at hw
        exact hw
    | _ => exact hw
  have hsents : ∀ m', s.sent m' <+: sent m' := by
    intro m'
    by_cases hm : m' = m
    · subst hm
      exact hgrown
    · rw [hsent m' hm]
  refine ⟨h.owned.sub hat le_rfl h.owned.pool_nodup h.owned.chain_nodup, fun m' => ?_,
    fun m' => ?_, fun p' => ?_⟩
  · by_cases hm : m' = m
    · subst hm
      exact hlane
    · change Lane n (update s.segments v seg) base _ _ _ (sent m') _ _ _
      rw [hsent m' hm]
      refine Lane.congr (h.lane m') (fun w hw => .of_eq (hkept (a := .queue m') hw ?_))
        (fun _ _ => rfl) fun p' msg w i _ hp' => ?_
      · simpa using hm
      · have hne : p' ≠ p := by
          rintro rfl
          exact hm (hold m' msg w i hp')
        exact (update_of_ne hne ..).trans hp'
  · refine (h.caller m').mono (fun _ => hgrow _) (fun _ => rfl) (hsents m') (fun w i hw hr => ?_)
      (fun w hw hle => hle.trans (hgrow w).writeIdx) (fun w x hw => ?_)
    · exact (congrArg (Reset n i) (hkept (a := .newSeg m') hw nofun)).mpr hr
    · have hplace : s.At chain (.oldSeg m') w := congrArg SegmentedDequeue.oldSeg hw
      exact congrArg next (hkept hplace nofun)
  · change ProducerFits n chain base _ p' (update s.producers p phase p')
    by_cases hp : p' = p
    · subst hp
      rw [update_self]
      exact hfits
    · rw [update_of_ne hp]
      refine (h.producer p').mono (fun _ => id) (fun m' t _ hr => ⟨hr.opened, ?_⟩)
        (fun t _ hle => hle.trans (hgrow t).writeIdx) (fun w i hw hr => ?_)
        (fun m' msg w i hphase hr => ⟨hr.mem, hr.lt, ?_, ?_, ?_⟩)
        (fun m' msg t x _ hleads hlive => (hgrow t).next _ (hleads hlive))
      · exact hr.alive.imp id fun hret =>
          hret.mono (fun a => hat a t) le_rfl fun hle => hle.trans (hgrow t).writeIdx
      · exact (congrArg (Reset n i) (hkept (a := .producer p') hw nofun)).mpr hr
      · obtain ⟨l, hl⟩ := hsents m'
        change (sent m')[_]? = _
        rw [← hl, List.getElem?_append_left (List.getElem?_eq_some_iff.mp hr.slot).1]
        exact hr.slot
      · change (update s.segments v seg w).data i = none
        by_cases hw : w = v
        · subst hw
          rw [update_self]
          exact hvacant p' m' msg i hp hphase
        · rw [hother w hw]
          exact hr.vacant
      · intro hhead
        refine le_trans (le_of_eq ?_) (hr.ahead hhead)
        exact congrArg (fun d => (s.consumers m').cleared d) (hgrow (s.head m')).deqIdx

end

/-! ## The accesses of `Enqueue` -/

lemma grows_addWriteIdx (seg : Segment μ) : Grows seg seg.addWriteIdx :=
  ⟨Nat.le_succ _, rfl, fun _ => id, fun _ _ => id⟩

lemma Sound.reserve [DecidableEq κ] (h : s.Sound n chain base)
    (hp : s.producers p = .loaded m msg t) (hlt : (s.segments t).writeIdx < n) :
    (((s.modify t Segment.addWriteIdx).recordSlot p m msg).setProducer p
      (.reserved m msg t (s.segments t).writeIdx)).Sound n chain base := by
  have hfits := h.producer_at hp
  have hmem : t ∈ chain m := by
    rcases hfits.alive with hmem | hretired
    · exact hmem
    · exact absurd hretired.full (not_le.mpr hlt)
  have hlast := h.last_of_not_full hmem hlt
  have hlen := ((h.lane m).last hlast).2
  rw [min_eq_left hlt.le] at hlen
  have hsent : update s.sent m (s.sent m ++ [(p, msg)]) m = s.sent m ++ [(p, msg)] := update_self ..
  refine h.produce hmem rfl (grows_addWriteIdx _) rfl (fun m' msg' t' i hr => ?_)
    (fun p' m' msg' i _ hr => (h.producer_at hr).vacant) (fun m' hm => update_of_ne hm ..)
    ?_ ?_ ⟨hmem, hlt, ?_, ?_, fun hhead => ?_⟩
  · cases hp.symm.trans hr
  · change s.sent m <+: update s.sent m (s.sent m ++ [(p, msg)]) m
    rw [hsent]
    exact prefix_append _ _
  · change Lane _ _ _ _ _ _ (update s.sent m (s.sent m ++ [(p, msg)]) m) _ _ _
    rw [hsent]
    refine (h.lane m).reserve (h.owned.chain_nodup m) hlast hlt (fun p' msg' v i hr => ?_)
      (update_self ..)
    exact update_keep hp hr nofun
  · change (update s.sent m (s.sent m ++ [(p, msg)]) m)[_]? = _
    rw [hsent, ← hlen, List.getElem?_concat_length]
  · refine (congrFun (update_field data addWriteIdx (fun _ => rfl) s.segments t t)
      _).trans ?_
    exact (h.lane m).unsent hmem hlt hlen.le
  · change t = s.head m at hhead
    have hle := h.cleared_le hfits.opened
    refine le_trans (le_of_eq ?_) (hle.trans ?_)
    · exact congrArg (fun d => (s.consumers m).cleared d)
        (update_field deqIdx addWriteIdx (fun _ => rfl) s.segments t (s.head m))
    · rw [hhead]
      exact min_le_left _ _

section
variable (h : s.Sound n chain base)
include h

/-- Two calls have different slots. -/
lemma Sound.slot_unique {m' : κ} {msg msg' : μ} {i p' : ℕ}
    (hp : s.producers p = .reserved m msg v i) (hp' : s.producers p' = .reserved m' msg' v i) :
    p' = p := by
  have hfits := h.producer_at hp
  have hfits' := h.producer_at hp'
  obtain rfl : m' = m := by
    by_contra hm
    exact h.ne_of_mem hfits.mem hfits'.mem hm rfl
  have heq := hfits'.slot.symm.trans hfits.slot
  cases heq
  rfl

lemma Sound.fill {t idx : ℕ} (hp : s.producers p = .reserved m msg t idx) :
    ((s.modify t (Segment.storeData idx (some msg))).setProducer p (.stored m)).Sound n chain
      base := by
  have hfits := h.producer_at hp
  have hgrows : Grows (s.segments t) ((s.segments t).storeData idx (some msg)) := by
    refine ⟨le_rfl, rfl, fun _ => id, fun i val hi => ?_⟩
    exact update_keep hfits.vacant hi nofun
  refine h.produce hfits.mem rfl hgrows rfl (fun m' msg' t' i hr => ?_)
    (fun p' m' msg' i hne hr => ?_) (fun _ _ => rfl) prefix_rfl ?_ trivial
  · cases hp.symm.trans hr
    rfl
  · have hidx : i ≠ idx := by
      rintro rfl
      exact hne (h.slot_unique hp hr)
    exact (update_of_ne hidx ..).trans (h.producer_at hr).vacant
  · refine (h.lane m).fill hfits.slot fun p' msg' v j hne hr => ?_
    have hpp : p' ≠ p := by
      rintro rfl
      cases hp.symm.trans hr
      exact hne rfl rfl
    exact (update_of_ne hpp ..).trans hr

/-- The fetch-add on a segment that is full. -/
lemma Sound.overflow (hp : s.producers p = .loaded m msg t) (hfull : n ≤ (s.segments t).writeIdx) :
    ((s.modify t Segment.addWriteIdx).setProducer p (.full m msg t)).Sound n chain base := by
  have hfits := h.producer_at hp
  have hstill : n ≤ ((s.modify t addWriteIdx).segments t).writeIdx := by
    rw [modify_self]
    exact hfull.trans (Nat.le_succ _)
  rcases hfits.alive with hmem | hretired
  · refine h.produce hmem rfl (grows_addWriteIdx _) rfl (fun m' msg' t' i hr => ?_)
      (fun p' m' msg' i _ hr => (h.producer_at hr).vacant) (fun _ _ => rfl) prefix_rfl
      ?_ ⟨⟨hfits.opened, .inl hmem⟩, hstill⟩
    · cases hp.symm.trans hr
    · refine Lane.congr (h.lane m) (fun w _ => ?_) (fun _ _ => rfl) fun p' msg' v i _ hr => ?_
      · by_cases hw : w = t
        · subst hw
          refine ⟨(min_eq_right hstill).trans (min_eq_right hfull).symm, ?_, ?_, ?_⟩
          · exact update_field deqIdx addWriteIdx (fun _ => rfl) s.segments w w
          · exact update_field next addWriteIdx (fun _ => rfl) s.segments w w
          · exact update_field data addWriteIdx (fun _ => rfl) s.segments w w
        · exact .of_eq (modify_of_ne hw _)
      · exact update_keep hp hr nofun
  · have hsound : (s.modify t addWriteIdx).Sound n chain base :=
      h.modifyFree hretired.free.not_mem_chain (fun _ hle => hle.trans (Nat.le_succ _))
        (fun _ _ _ => rfl) fun hnot => absurd hretired.free hnot
    exact hsound.setProducer hp nofun nofun ⟨hsound.producer_at hp, hstill⟩

/-- Segments leave the pool or are allocated, and tails move within their lists. -/
lemma Sound.rearrange {pool : List ℕ} {allocated : ℕ} {tail : κ → ℕ}
    {length : κ → ℤ} {called : ℕ → List (κ × μ)} (hpool : pool ⊆ s.pool) (hnodup : pool.Nodup)
    (halloc : s.allocated ≤ allocated)
    (htail : ∀ m, chain m ≠ [] → tail m ∈ chain m ∨ ∃ x, s.consumers m = .unlinking (tail m) x) :
    Sound n chain base { s with
      pool, allocated, tail, length, called } := by
  have hat : ∀ a w, At chain { s with
      pool, allocated, tail, length, called } a w →
      s.At chain a w := by
    intro a w hw
    cases a with
    | pool => exact hpool hw
    | _ => exact hw
  refine ⟨h.owned.sub hat halloc hnodup h.owned.chain_nodup, fun m => ?_, h.caller, fun p => ?_⟩
  · have hlane := h.lane m
    exact ⟨hlane.opened, hlane.closed, hlane.head_eq, hlane.linked, hlane.last, hlane.within,
      hlane.fresh, htail m, hlane.deq_le, hlane.answered, hlane.unsent, hlane.filled⟩
  · refine (h.producer p).mono (fun _ => id) (fun m t _ hr => ⟨hr.opened, ?_⟩) (fun _ _ => id)
      (fun _ _ _ => id) (fun m msg v i _ hr => ⟨hr.mem, hr.lt, hr.slot, hr.vacant, hr.ahead⟩)
      (fun _ _ _ _ _ => id)
    exact hr.alive.imp id fun hret => hret.mono (fun a => hat a t) halloc id

/-- The pool hands out segments or segments are allocated. -/
lemma Sound.setPool {pool : List ℕ} {allocated : ℕ}
    (hpool : pool ⊆ s.pool) (hnodup : pool.Nodup) (halloc : s.allocated ≤ allocated) :
    (s.setPool pool allocated).Sound n chain base :=
  h.rearrange hpool hnodup halloc fun m => (h.lane m).tail_mem

end

section
variable (h : s.Sound n chain base)
include h

lemma Sound.setTail [DecidableEq κ] (hv : v ∈ chain m) : (s.setTail m v).Sound n chain base := by
  refine h.rearrange (List.Subset.refl _) h.owned.pool_nodup le_rfl fun m' hne => ?_
  by_cases hm : m' = m
  · subst hm
    rw [update_self]
    exact .inl hv
  · rw [update_of_ne hm]
    exact (h.lane m').tail_mem hne

lemma Sound.addLength [DecidableEq κ] (m : κ) (delta : ℤ) :
    (s.addLength m delta).Sound n chain base :=
  h.rearrange (List.Subset.refl _) h.owned.pool_nodup le_rfl fun m => (h.lane m).tail_mem

/-- A segment with a next one is not the last of its list. -/
lemma Sound.next_mem {x : ℕ} (hv : v ∈ chain m)
    (hx : (s.segments v).next = some x) : x ∈ chain m := by
  rcases last_or_neighbours hv with hlast | ⟨b, hb⟩
  · rw [((h.lane m).last hlast).1] at hx
    cases hx
  · rw [((h.lane m).linked hb).1] at hx
    cases hx
    exact right_mem_of_neighbours hb

lemma Sound.moveTail [DecidableEq κ] {t x : ℕ} (hp : s.producers p = .moving m msg t x) :
    ((if s.tail m = t then s.setTail m x else s).setProducer p (.starting m msg)).Sound n chain
      base := by
  obtain ⟨hrefers, hleads⟩ := h.producer_at hp
  split_ifs with htail
  · have hmem : x ∈ chain m := by
      rcases (h.lane m).tail_mem hrefers.opened with hmem | ⟨y, hy⟩
      · rw [htail] at hmem
        exact h.next_mem hmem (hleads (.inl hmem))
      · rw [htail] at hy
        have hcaller := h.caller_at hy
        have hnext := hleads (.inr ⟨y, hy⟩)
        rw [hcaller.2.1] at hnext
        cases hnext
        rw [hcaller.1]
        exact (h.lane m).head_mem hrefers.opened
    exact (h.setTail hmem).setProducer hp nofun nofun hrefers.opened
  · exact h.setProducer hp nofun nofun hrefers.opened

/-! ### The pool -/

/-- Nobody else has the segment that the pool gives. -/
lemma Sound.get {place : Option ℕ} (hplace : ¬s.HandsOut place)
    (hget : s.get place = some (v, s')) :
    s'.Sound n chain base ∧ (∀ a, ¬s'.At chain a v) ∧ v < s'.allocated ∧
      (∀ p, (s'.producers p).tail ≠ some v) ∧ s'.producers = s.producers ∧
      s'.consumers = s.consumers := by
  cases place with
  | none =>
    cases hget
    have hnew : ∀ a, ¬s.At chain a s.allocated := by
      intro a ha
      exact absurd (h.owned.born ha) (lt_irrefl _)
    refine ⟨?_, fun a ha => hnew a ?_, Nat.lt_succ_self _, fun p hp => ?_, rfl, rfl⟩
    · exact h.setPool (List.Subset.refl _) h.owned.pool_nodup (Nat.le_succ _)
    · cases a <;> exact ha
    · obtain ⟨m, hr⟩ := (h.producer p).refers hp
      exact absurd (hr.born h.owned) (lt_irrefl _)
  | some i =>
    obtain ⟨w, hw, heq⟩ := Option.map_eq_some_iff.mp hget
    cases heq
    have hmem := mem_of_getElem? hw
    have hpool : s.At chain .pool v := hmem
    refine ⟨?_, fun a ha => ?_, h.owned.born hpool, fun p hp => hplace ⟨i, v, p, rfl, hw, hp⟩, rfl,
      rfl⟩
    · exact h.setPool (eraseIdx_sublist ..).subset
        (h.owned.pool_nodup.sublist (eraseIdx_sublist ..)) le_rfl
    · have hold : s.At chain a v := by
        cases a with
        | pool => exact (eraseIdx_sublist ..).subset ha
        | _ => exact ha
      cases h.owned.unique hold hpool
      change v ∈ s.pool.eraseIdx i at ha
      obtain ⟨hlt, rfl⟩ := List.getElem?_eq_some_iff.mp hw
      rw [← h.owned.pool_nodup.erase_getElem i hlt] at ha
      exact h.owned.pool_nodup.not_mem_erase ha

/-! ### A new segment -/

/-- Stores to a segment that a call prepares. -/
lemma Sound.modifyPrivate (ha : s.At chain a v)
    (hprivate : (∃ p, a = .producer p) ∨ ∃ m, a = .newSeg m) (i : ℕ) :
    (s.modify v (Segment.reset i)).Sound n chain base := by
  have hnotFree : ¬s.Free chain v := by
    intro hfree
    rcases hfree a ha with rfl | ⟨m, rfl⟩ <;> rcases hprivate with ⟨p, hp⟩ | ⟨m', hm⟩ <;> cases ‹_›
  refine h.modifyFree (fun m hmem => ?_) (fun hfree => absurd hfree hnotFree) (fun m x hx => ?_)
    fun _ j hj => hj.keep i
  · have hqueue : s.At chain (.queue m) v := hmem
    obtain rfl := h.owned.unique ha hqueue
    rcases hprivate with ⟨p, hp⟩ | ⟨m', hm⟩ <;> cases ‹_›
  · have hold : s.At chain (.oldSeg m) v := congrArg SegmentedDequeue.oldSeg hx
    obtain rfl := h.owned.unique ha hold
    rcases hprivate with ⟨p, hp⟩ | ⟨m', hm⟩ <;> cases ‹_›

end

/-- All the stores of `newSegment`. -/
lemma Reset.done (h : Reset n i seg) (hi : n + 3 ≤ i) : Reset n (n + 3) seg :=
  ⟨fun _ => h.writeIdx (by omega), fun _ => h.deqIdx (by omega), fun _ => h.next (by omega),
    fun j hj _ => h.data j hj (by omega)⟩

section
variable (h : s.Sound n chain base)
include h

/-- `newSegment` makes one more store for an `Enqueue` call. -/
lemma Sound.resetSegment {t seg i : ℕ} (hp : s.producers p = .resetting m msg t seg i) :
    ((s.modify seg (Segment.reset i)).setProducer p
      (if i + 1 < n + 3 then .resetting m msg t seg (i + 1)
        else .linking m msg t seg)).Sound n chain base := by
  have hplace : s.At chain (.producer p) seg := congrArg SegmentedEnqueue.newSeg hp
  have hsound := h.modifyPrivate hplace (.inl ⟨p, rfl⟩) i
  have hrefers := (hsound.producer_at hp).1
  have hreset : Reset n (i + 1) ((s.modify seg (reset i)).segments seg) := by
    rw [modify_self]
    exact (h.producer_at hp).2.succ
  split_ifs with hi
  · exact hsound.setProducer hp nofun (fun _ => id) ⟨hrefers, hreset⟩
  · exact hsound.setProducer hp nofun (fun _ => id) ⟨hrefers, hreset.done (not_lt.mp hi)⟩

/-- The new segment is linked behind the last one of a list. -/
lemma Sound.append [DecidableEq κ] {t seg : ℕ}
    (hp : s.producers p = .linking m msg t seg) (hmem : t ∈ chain m)
    (hnext : (s.segments t).next = none) :
    ((s.modify t (Segment.storeNext (some seg))).setProducer p (.moving m msg t seg)).Sound n
      (update chain m (chain m ++ [seg])) (update base seg (base t + n)) := by
  have hfits := h.producer_at hp
  have hplace : s.At chain (.producer p) seg := congrArg SegmentedEnqueue.newSeg hp
  have hfresh : ∀ m', seg ∉ chain m' := fun m' => h.owned.not_mem_chain hplace nofun
  have hlast : (chain m).getLast? = some t := by
    rcases last_or_neighbours hmem with hlast | ⟨b, hb⟩
    · exact hlast
    · rw [((h.lane m).linked hb).1] at hnext
      cases hnext
  have hother : ∀ w, w ≠ t →
      (s.modify t (storeNext (some seg))).segments w = s.segments w :=
    fun w hw => modify_of_ne hw _
  have hkept : ∀ {a w}, s.At chain a w → a ≠ .queue m →
      (s.modify t (storeNext (some seg))).segments w = s.segments w :=
    fun hw ha => hother _ (h.ne_of_at hmem hw ha)
  have hwrite := update_field writeIdx (storeNext (some seg)) (fun _ => rfl) s.segments t
  have hdeq := update_field deqIdx (storeNext (some seg)) (fun _ => rfl) s.segments t
  have hdata := update_field data (storeNext (some seg)) (fun _ => rfl) s.segments t
  have hlinks : ∀ w x, (s.segments w).next = some x →
      ((s.modify t (storeNext (some seg))).segments w).next = some x := by
    intro w x hx
    rw [hother w]
    · exact hx
    · rintro rfl
      rw [hnext] at hx
      cases hx
  have hmemNew : ∀ {m' w}, w ∈ update chain m (chain m ++ [seg]) m' ↔
      w ∈ chain m' ∨ m' = m ∧ w = seg := by
    intro m' w
    by_cases hm : m' = m
    · subst hm
      simp
    · simp [hm]
  have hopen : ∀ m', chain m' ≠ [] → update chain m (chain m ++ [seg]) m' ≠ [] := by
    intro m' hm'
    obtain ⟨w, hw⟩ := exists_mem_of_ne_nil _ hm'
    exact ne_nil_of_mem (hmemNew.mpr (.inl hw))
  have hbases : ∀ {m' w}, w ∈ chain m' → update base seg (base t + n) w = base w := by
    intro m' w hw
    refine update_of_ne ?_ ..
    rintro rfl
    exact hfresh m' hw
  have hat : ∀ a w, ((s.modify t (storeNext (some seg))).setProducer p
      (.moving m msg t seg)).At (update chain m (chain m ++ [seg])) a w →
      w = seg ∧ a = .queue m ∨ s.At chain a w ∧ w ≠ seg := by
    intro a w hw
    rcases at_setProducer hw with ⟨-, hw⟩ | ⟨ha, hw⟩
    · cases hw
    · have hold : w = seg ∧ a = .queue m ∨ s.At chain a w := by
        cases a with
        | queue m' =>
          rcases hmemNew.mp hw with hw | ⟨rfl, rfl⟩
          · exact .inr hw
          · exact .inl ⟨rfl, rfl⟩
        | _ => exact .inr hw
      refine hold.imp_right fun hat => ⟨hat, ?_⟩
      rintro rfl
      exact ha (h.owned.unique hat hplace)
  have hretired : ∀ t', s.Retired n chain t' → t' ≠ seg := by
    rintro t' hret rfl
    rcases hret.free _ hplace with ha | ⟨m', ha⟩ <;> cases ha
  refine ⟨h.owned.move (.queue m) seg hat le_rfl (h.owned.born hplace) h.owned.pool_nodup
    fun m' => ?_, fun m' => ?_, fun m' => ?_, fun p' => ?_⟩
  · refine (forall_update_iff chain fun _ l => l.Nodup).mpr
      ⟨?_, fun m' _ => h.owned.chain_nodup m'⟩ m'
    rw [← concat_eq_append]
    exact (h.owned.chain_nodup m).concat (hfresh m)
  · have hres : ∀ p' msg' v i, s.producers p' = .reserved m' msg' v i →
        update s.producers p (.moving m msg t seg) p' = .reserved m' msg' v i := by
      intro p' msg' v i hr
      exact update_keep hp hr nofun
    unfold LaneAt
    by_cases hm : m' = m
    · subst hm
      rw [update_self]
      exact (h.lane m').append hlast hfits.1.full (hfresh m') hfits.2
        (update_self ..) (fun w hw => hbases hw) hres
    · rw [update_of_ne hm]
      exact Lane.congr (h.lane m') (fun w hw => .of_eq (hother w (h.ne_of_mem hmem hw hm)))
        (fun w hw => hbases hw) fun p' msg' v i _ => hres p' msg' v i
  · refine (h.caller m').mono (fun _ => ?_) (fun hopened => ?_) prefix_rfl
      (fun w i hw hr => ?_) (fun w _ hle => hle.trans (hwrite w).ge) (fun w x hw => ?_)
    · exact ⟨(hwrite _).ge, hdeq _, hlinks _, fun i val hi => (congrFun (hdata _) i).trans hi⟩
    · exact hbases ((h.lane m').head_mem ((h.lane m').opened.mpr hopened))
    · exact (congrArg (Reset n i) (hkept (a := .newSeg m') hw nofun)).mpr hr
    · have hold : s.At chain (.oldSeg m') w := congrArg SegmentedDequeue.oldSeg hw
      exact congrArg next (hkept hold nofun)
  · change ProducerFits n _ _ _ p' (update s.producers p _ p')
    by_cases hpp : p' = p
    · subst hpp
      rw [update_self]
      refine ⟨⟨⟨hopen m hfits.1.opened, .inl (hmemNew.mpr (.inl hmem))⟩,
        hfits.1.full.trans (hwrite t).ge⟩, fun _ => ?_⟩
      exact congrArg next (modify_self _)
    · rw [update_of_ne hpp]
      refine (h.producer p').mono hopen (fun m' t' _ hr => ⟨hopen m' hr.opened, ?_⟩)
        (fun t' _ hle => hle.trans (hwrite t').ge) (fun w i hw hr => ?_)
        (fun m' msg' v i _ hr => ⟨hmemNew.mpr (.inl hr.mem), hr.lt, ?_, ?_, ?_⟩)
        (fun m' msg' t' x hphase hleads hlive => ?_)
      · rcases hr.alive with hmem' | hret
        · exact .inl (hmemNew.mpr (.inl hmem'))
        · refine .inr (hret.mono (fun a ha => ?_) le_rfl fun hle => hle.trans (hwrite t').ge)
          rcases hat a t' ha with ⟨heq, -⟩ | ⟨hold, -⟩
          · exact absurd heq (hretired t' hret)
          · exact hold
      · exact (congrArg (Reset n i) (hkept (a := .producer p') hw nofun)).mpr hr
      · rw [hbases hr.mem]
        exact hr.slot
      · exact (congrFun (hdata v) i).trans hr.vacant
      · intro hv
        refine le_trans (le_of_eq ?_) (hr.ahead hv)
        exact congrArg (fun d => (s.consumers m').cleared d) (hdeq (s.head m'))
      · refine hlinks t' x (hleads (hlive.imp_left fun ht => ?_))
        rcases hmemNew.mp ht with ht | ⟨rfl, rfl⟩
        · exact ht
        · rcases (h.producer_at hphase).1.alive with ht | hret
          · exact ht
          · exact absurd rfl (hretired _ hret)

/-- The new segment is linked behind a segment that is out of use. -/
lemma Sound.linkRetired {t seg : ℕ}
    (hp : s.producers p = .linking m msg t seg) (hretired : s.Retired n chain t)
    (hnext : (s.segments t).next = none) :
    ((s.modify t (Segment.storeNext (some seg))).setProducer p (.moving m msg t seg)).Sound n chain
      base := by
  have hnot : ∀ m' x, s.consumers m' ≠ .unlinking t x := by
    intro m' x hx
    have hlink := (h.caller_at hx).2.1
    rw [hnext] at hlink
    cases hlink
  have hsound : (s.modify t (storeNext (some seg))).Sound n chain base :=
    h.modifyFree hretired.free.not_mem_chain (fun _ => id) (fun m' x hx => absurd hx (hnot m' x))
      fun hfree => absurd hretired.free hfree
  refine hsound.setProducer hp nofun nofun ⟨(hsound.producer_at hp).1, fun hlive => ?_⟩
  rcases hlive with hmem | ⟨x, hx⟩
  · exact absurd hmem (hretired.free.not_mem_chain m)
  · exact absurd hx (hnot m x)

/-- The tail of a mailbox is in its list, or the consumer has just taken it out. -/
lemma Sound.refers_tail (hne : chain m ≠ []) : s.Refers n chain m (s.tail m) := by
  refine ⟨hne, ?_⟩
  rcases (h.lane m).tail_mem hne with hmem | ⟨x, hx⟩
  · exact .inl hmem
  · have hold : s.At chain (.oldSeg m) (s.tail m) := congrArg SegmentedDequeue.oldSeg hx
    exact .inr ⟨(h.caller_at hx).2.2, h.owned.born hold, h.owned.free_of_oldSeg hold⟩

lemma Sound.enqueue [DecidableEq κ] {place : Option ℕ}
    (hhazard : ¬s.Hazard n (.enqueue p place)) (hstep : s.enqueue n p place = some s') :
    ∃ chain' base', s'.Sound n chain' base' := by
  unfold SegmentedMailboxes.enqueue at hstep
  split at hstep <;> try cases hstep
  next m msg hp =>
    exact ⟨chain, base, h.setProducer hp nofun nofun (h.refers_tail (h.producer_at hp))⟩
  next m msg tail hp =>
    dsimp only at hstep
    split_ifs at hstep with hlt <;> cases hstep
    · exact ⟨chain, base, h.reserve hp hlt⟩
    · exact ⟨chain, base, h.overflow hp (not_lt.mp hlt)⟩
  next m msg tail idx hp => exact ⟨chain, base, h.fill hp⟩
  next m hp => exact ⟨chain, base, (h.addLength m 1).setProducer hp nofun nofun trivial⟩
  next m msg tail hp =>
    have hfits := h.producer_at hp
    refine ⟨chain, base, ?_⟩
    cases hnext : (s.segments tail).next with
    | none => exact h.setProducer hp nofun nofun hfits
    | some x => exact h.setProducer hp nofun nofun ⟨hfits, fun _ => hnext⟩
  next m msg tail hp =>
    obtain ⟨⟨seg, s₁⟩, hget, rfl⟩ := Option.map_eq_some_iff.mp hstep
    have hplace : ¬s.HandsOut place := fun hout => hhazard ⟨⟨m, msg, tail, hp⟩, hout⟩
    obtain ⟨hsound, hnowhere, hborn, hrefs, hproducers, -⟩ := h.get hplace hget
    refine ⟨chain, base, hsound.prepare ?_ hnowhere hborn hrefs⟩
    rw [hproducers]
    exact hp
  next m msg tail seg i hp => exact ⟨chain, base, h.resetSegment hp⟩
  next m msg tail seg hp =>
    have hfits := h.producer_at hp
    split_ifs at hstep with hnext <;> cases hstep
    · rcases hfits.1.alive with hmem | hretired
      · exact ⟨_, _, h.append hp hmem hnext⟩
      · exact ⟨chain, base, h.linkRetired hp hretired hnext⟩
    · exact ⟨chain, base, h.setProducer hp nofun nofun hfits.1.opened⟩
  next m msg tail next hp => exact ⟨chain, base, h.moveTail hp⟩

end
end GoAkt.Actor.SegmentedMailboxes
