import GoAkt.NetClientInvariant

/-!
# Responses are never mixed up

Every step keeps the invariant. A connection returns to the pool only after a call has
read one response for each of its requests, so that the next call finds it clean; every
other way to end a call closes the connection.
-/
namespace GoAkt.Net
open Option GoAkt.ByteStrings GoAkt.FramedPipes GoAkt.Interleavings Function List
namespace Network

lemma filter_key_eq_singleton {α β : Type*} [DecidableEq β] {key : α → β} {l : List α} {a : α}
    (hnodup : (l.map key).Nodup) (ha : a ∈ l) : l.filter (fun b => key b = key a) = [a] := by
  induction l with
  | nil => cases ha
  | cons b l ih =>
    rw [map_cons, nodup_cons] at hnodup
    rcases mem_cons.mp ha with rfl | ha
    · have hrest : l.filter (fun b => key b = key a) = [] := by
        rw [filter_eq_nil_iff]
        intro b hb heq
        exact hnodup.1 (mem_map.mpr ⟨b, hb, of_decide_eq_true heq⟩)
      simp [hrest]
    · have hne : key b ≠ key a := fun heq => hnodup.1 (heq ▸ mem_map_of_mem ha)
      rw [filter_cons_of_neg (by simpa using hne), ih hnodup.2 ha]

variable {κ M T : Type} [DecidableEq κ] {pb : Protobuf M T}

/-! ## Steps of a call that holds a connection -/

section Holding
variable {s : Network κ M} {c : κ} {k : ℕ} {stage : Stage}

lemma held_setPhase (s : Network κ M) (c : κ) (phase : Phase) {k : ℕ} {stage : Stage} :
    (s.setPhase c phase).held c = some (k, stage) ↔
      (s.calls c).conn = some k ∧ phase = .holding stage := by
  simp [held_eq_some, setPhase, setCall]

lemma Matched.closed (h : s.Matched pb) (k : ℕ) : (s.closeConn k).Matched pb := by
  have hok := h.conn k
  exact h.withConn ⟨hok.up, hok.down, hok.nodup, hok.in_order, hok.encoded, hok.pending⟩ rfl rfl rfl

/-- The call returns, without an error only if it has decoded all responses. -/
lemma Matched.returned (h : s.Matched pb) {err : Option CallError}
    (herr : err = none → (s.calls c).resps.length = (s.calls c).reqs.length) :
    (s.setPhase c (.returned err)).Matched pb := by
  have hnot : ∀ k stage, (s.setPhase c (.returned err)).held c ≠ some (k, stage) :=
    fun k stage hheld => nomatch ((held_setPhase s c (.returned err)).mp hheld).2
  refine h.withCall rfl (fun k stage hheld => absurd hheld (hnot k stage))
    ⟨?_, fun k stage hheld => absurd hheld (hnot k stage), ?_, ?_, ?_⟩
  · simp [setCall]
  · simpa [setCall] using (h.calls c).matched
  · simpa [setCall] using (h.calls c).sendable
  · intro hphase
    have hnone : err = none := by simpa [setCall] using hphase
    simpa [setCall] using herr hnone

section
variable (h : s.Matched pb) (hheld : s.held c = some (k, stage))
include h hheld

lemma Matched.release {err : Option CallError}
    (herr : err = none → stage.decoded (s.calls c).reqs.length = (s.calls c).reqs.length) :
    (s.release c k err).Matched pb :=
  (h.closed k).returned fun hnone => ((h.calls c).holding k stage hheld).count.trans (herr hnone)

lemma Matched.discard (err : CallError) : (s.discard c k err).Matched pb := h.release hheld nofun

/-- The call works on its connection and moves to another stage. -/
lemma Matched.exchange_setStage {conn : Conn κ M} {stage' : Stage} (hok : ConnOk pb conn)
    (hup : ∀ request ∈ conn.requests, request ∈ (s.conns k).requests ∨ request.1 = c)
    (hdown : conn.down.frames = (s.conns k).down.frames)
    (hrange : stage'.InRange (s.calls c).reqs.length)
    (hex : conn.Exchange c (stage'.begun (s.calls c).reqs.length)
      (stage'.got (s.calls c).reqs.length))
    (hdecoded : stage'.decoded (s.calls c).reqs.length = stage.decoded (s.calls c).reqs.length)
    (hframe : ∀ i frame, stage' = .decoding i frame →
      ∃ resp, marshalBinaryTo pb (some resp) = .ok frame ∧ s.answers (c, i) = [resp]) :
    ((s.setConn k conn).setStage c stage').Matched pb := by
  have hcall := (h.calls c).holding k stage hheld
  have hconn := (held_eq_some.mp hheld).1
  refine h.exchange hheld hok hup hdown hconn ⟨?_, fun k' stage'' hheld' => ?_, ?_, ?_, ?_⟩
  · simp [setCall]
  · obtain ⟨hk', hstage⟩ := (held_setPhase (s.setConn k conn) c (.holding stage')).mp hheld'
    have hkk : k' = k := by
      have hk'' : (s.calls c).conn = some k' := hk'
      rw [hconn, some.injEq] at hk''
      exact hk''.symm
    cases hstage
    subst k'
    refine ⟨hcall.not_idle, ?_, ?_, ?_, hframe⟩
    · simpa [setCall, setConn] using hrange
    · simpa [setCall, setConn] using hex
    · simpa [setCall, setConn, hdecoded] using hcall.count
  · simpa [setCall, setConn] using (h.calls c).matched
  · simpa [setCall, setConn] using (h.calls c).sendable
  · simp [setCall]

/-- Moving on to a stage with the same counts. -/
lemma Matched.advance {stage' : Stage} (hrange : stage'.InRange (s.calls c).reqs.length)
    (hbegun : stage'.begun (s.calls c).reqs.length = stage.begun (s.calls c).reqs.length)
    (hgot : stage'.got (s.calls c).reqs.length = stage.got (s.calls c).reqs.length)
    (hdecoded : stage'.decoded (s.calls c).reqs.length = stage.decoded (s.calls c).reqs.length)
    (hframe : ∀ i frame, stage' ≠ .decoding i frame) : (s.setStage c stage').Matched pb := by
  have hex := ((h.calls c).holding k stage hheld).exchange
  rw [← hbegun, ← hgot] at hex
  have hmoved := h.exchange_setStage hheld (h.conn k) (fun _ => .inl) rfl hrange hex hdecoded
    fun i frame hi => absurd hi (hframe i frame)
  rwa [setConn, update_eq_self] at hmoved

end

variable {i : ℕ}

lemma Matched.marshal (h : s.Matched pb) (now : Int64)
    (hheld : s.held c = some (k, .sending i)) : (s.marshal pb c k i now).Matched pb := by
  have hok := (h.calls c).holding k _ hheld
  have hle : i ≤ (s.calls c).reqs.length := hok.in_range
  unfold Network.marshal
  split
  next hreq =>
    have hge := List.getElem?_eq_none_iff.mp hreq
    exact h.advance hheld (Nat.zero_le _) (by simp [Stage.begun]; omega) rfl rfl nofun
  next req hreq =>
    have hlt := (List.getElem?_eq_some_iff.mp hreq).1
    split
    next err _ => exact h.discard hheld _
    next frame hframe =>
      have hex : (s.conns k).Exchange c i 0 := hok.exchange
      obtain ⟨hnew, hnext⟩ := hex.begin frame
      have hsend := (h.calls c).sendable req (mem_of_getElem? hreq)
      refine h.exchange_setStage hheld ((h.conn k).begin (framed_of_marshal hsend hframe) hnew)
        (fun request hrequest => ?_) rfl hlt hnext rfl nofun
      have hbegin : Conn.requests { s.conns k with up := (s.conns k).up.begin (c, i) frame } =
          (s.conns k).requests ++ [(c, i)] := by simp [Conn.requests, Pipe.begin]
      rw [hbegin, mem_append, mem_singleton] at hrequest
      exact hrequest.imp_right (congrArg Prod.fst)

lemma Matched.afterWrite (h : s.Matched pb) (hheld : s.held c = some (k, .writing i)) :
    (s.afterWrite c i).Matched pb := by
  have hlt : i < (s.calls c).reqs.length := ((h.calls c).holding k _ hheld).in_range
  unfold Network.afterWrite
  split_ifs with hmore
  · exact h.advance hheld (show i + 1 < _ by omega) rfl rfl rfl nofun
  · exact h.advance hheld (show i + 1 ≤ _ by omega) rfl rfl rfl nofun

variable {cfg : ClientSettings} {s' : Network κ M}

lemma Matched.readHeader (h : s.Matched pb)
    (hheld : s.held c = some (k, .reading i)) (hlt : i < (s.calls c).reqs.length)
    (hstep : s.readHeader cfg c k i = some s') : s'.Matched pb := by
  unfold Network.readHeader at hstep
  split at hstep
  · cases hstep
  next down hdown =>
    dsimp only at hstep
    split_ifs at hstep <;> cases hstep
    · exact h.discard hheld _
    · exact h.discard hheld _
    · have hconn := h.conn k
      have hframes := Pipe.readHeader_counts hdown
      have hok := hconn.withDown (hconn.down.readHeader hdown) hframes.1
      have hex : (s.conns k).Exchange c (s.calls c).reqs.length i :=
        ((h.calls c).holding k _ hheld).exchange
      refine h.exchange_setStage hheld hok (fun _ h => .inl h) hframes.1 hlt ?_ rfl nofun
      obtain ⟨earlier, hrequests, hearlier, hread⟩ := hex
      exact ⟨earlier, hrequests, hearlier, hframes.2.trans hread⟩

section
variable (h : s.Matched pb)
include h

/-- The answers to a request whose response has been produced are that response. -/
lemma Matched.answers_of_response {f : (RequestId κ × M) × Bytes}
    (hf : f ∈ (s.conns k).down.frames) : s.answers f.1.1 = [f.1.2] := by
  have hconn := h.conn k
  have hanswered : f.1.1 ∈ (s.conns k).answered := mem_map_of_mem hf
  have hrequest : f.1.1 ∈ (s.conns k).requests := hconn.in_order.subset hanswered
  have hnodup : (s.conns k).answered.Nodup := hconn.nodup.sublist hconn.in_order.sublist
  have hfilter : (s.conns k).down.frames.filter (fun g => g.1.1 = f.1.1) = [f] :=
    filter_key_eq_singleton hnodup hf
  rw [h.answers, recorded, h.requests k _ hrequest]
  simp only [hfilter, map_cons, map_nil]

lemma Matched.readBody
    (hheld : s.held c = some (k, .readingBody i)) (hstep : s.readBody c k i = some s') :
    s'.Matched pb := by
  unfold Network.readBody at hstep
  split at hstep <;> cases hstep
  next frame down hdown =>
    have hconn := h.conn k
    have hcall := (h.calls c).holding k _ hheld
    obtain ⟨hvalid, hframes, -, hread, response, hresponse⟩ := hconn.down.readBody hdown
    have hok := hconn.withDown hvalid hframes
    have hex : (s.conns k).Exchange c (s.calls c).reqs.length i := hcall.exchange
    have hmem := mem_of_getElem? hresponse
    have hrequest : response.1 = (c, i) := hconn.next_response hex hresponse
    refine h.exchange_setStage hheld hok (fun _ h => .inl h) hframes hcall.in_range ?_ rfl ?_
    · obtain ⟨earlier, hrequests, hearlier, hread'⟩ := hex
      exact ⟨earlier, hrequests, hearlier, by rw [hread, hread']; rfl⟩
    · intro i' frame' hstage
      cases hstage
      refine ⟨response.2, hconn.encoded _ hmem, ?_⟩
      rw [← hrequest]
      exact h.answers_of_response hmem

lemma Matched.decode {frame : Bytes} (now : Int64)
    (hheld : s.held c = some (k, .decoding i frame)) :
    (s.decode pb c k i frame now).Matched pb := by
  have hok := (h.calls c).holding k _ hheld
  have hlt : i < (s.calls c).reqs.length := hok.in_range
  obtain ⟨hconn, hphase⟩ := held_eq_some.mp hheld
  unfold Network.decode
  split
  next failure _ => exact h.discard hheld _
  next result hresult =>
    obtain ⟨resp, hresp, hanswers⟩ := hok.frame i frame rfl
    have hcount : (s.calls c).resps.length = i := hok.count
    obtain ⟨stage', hstage', hrange, hbegun, hgot, hdecoded, hframe⟩ :
        ∃ stage', stage' = (if i < (s.calls c).reqs.length - 1 then Stage.betweenReads i
          else .reading (i + 1)) ∧ stage'.InRange (s.calls c).reqs.length ∧
        stage'.begun (s.calls c).reqs.length = (s.calls c).reqs.length ∧
        stage'.got (s.calls c).reqs.length = i + 1 ∧
        stage'.decoded (s.calls c).reqs.length = i + 1 ∧
        ∀ j frame, stage' ≠ .decoding j frame := by
      refine ⟨_, rfl, ?_⟩
      split_ifs with hmore
      · exact ⟨show i + 1 < _ by omega, rfl, rfl, rfl, nofun⟩
      · exact ⟨show i + 1 ≤ _ by omega, rfl, rfl, rfl, nofun⟩
    have hstate : (s.setCall c { s.calls c with
        resps := (s.calls c).resps ++ [result] }).afterRead c i =
        s.setCall c { s.calls c with
          resps := (s.calls c).resps ++ [result], phase := .holding stage' } := by
      rw [hstage']
      simp [afterRead, setStage, setPhase, setCall]
    rw [hstate]
    refine h.withCall rfl (fun k' stage'' hheld' => ?_)
      ⟨?_, fun k' stage'' hheld' => ?_, ?_, ?_, ?_⟩
    · have hk' : (s.calls c).conn = some k' := by simpa [setCall] using (held_eq_some.mp hheld').1
      exact ⟨_, held_eq_some.mpr ⟨hk', hphase⟩⟩
    · simp [setCall]
    · obtain ⟨hk', hstage''⟩ := held_eq_some.mp hheld'
      simp only [setCall, update_self, hconn, some.injEq, Phase.holding.injEq] at hk' hstage''
      subst k' stage''
      refine ⟨hok.not_idle, ?_, ?_, ?_, fun j f hj => absurd hj (hframe j f)⟩
      · simpa [setCall] using hrange
      · have hex : (s.conns k).Exchange c (s.calls c).reqs.length (i + 1) := hok.exchange
        simpa [setCall, hbegun, hgot] using hex
      · simp [setCall, hdecoded, hcount]
    · intro j r hr
      simp only [setCall, update_self] at hr
      by_cases hj : j < i
      · rw [List.getElem?_append_left (by omega)] at hr
        exact (h.calls c).matched j r hr
      · rw [List.getElem?_append_right (by omega)] at hr
        obtain ⟨hlast, rfl⟩ := List.getElem?_eq_some_iff.mp hr
        have hji : j = i := by
          rw [length_singleton] at hlast
          omega
        subst j
        exact ⟨resp, hanswers, frame, now, hresp, by simpa using hresult⟩
    · simpa [setCall] using (h.calls c).sendable
    · simp [setCall]

/-- The pool changes: a connection that is new in it is clean, and nobody has it. -/
lemma Matched.setIdle {idle : List (ℕ × Int64)} (hnodup : (idle.map Prod.fst).Nodup)
    (hnew : ∀ k ∈ idle.map Prod.fst, k ∈ s.idle.map Prod.fst ∨
      k < s.dialed ∧ (s.conns k).Clean ∧ ∀ c stage, s.held c ≠ some (k, stage))
    (closed closing : Bool) :
    { s with idle, closed, closing }.Matched pb := by
  refine ⟨h.conn, hnodup, fun k hk => (hnew k hk).elim (h.idle_lt k) (·.1),
    fun k hk => (hnew k hk).elim (h.idle_clean k) (·.2.1), h.owner, h.conn_lt, h.requests,
    h.answers, fun c => ?_⟩
  exact (h.calls c).of_agree rfl
    (fun k stage hheld hidle hk => (hnew k hk).elim hidle (·.2.2 c stage hheld))
    (fun _ _ _ => ⟨rfl, rfl⟩) (fun _ _ h => h)

/-- The connection is put back; by now all its requests have been answered and read. -/
lemma Matched.putLock (now : Int64)
    (hheld : s.held c = some (k, .locking)) : (s.putLock cfg c k now).Matched pb := by
  have hok := (h.calls c).holding k _ hheld
  have hconn := (held_eq_some.mp hheld).1
  unfold Network.putLock
  split_ifs
  · have hclean : (s.conns k).Clean := Conn.Exchange.clean hok.exchange
    have hreturned : (s.setPhase c (.returned none)).Matched pb := h.returned fun _ => hok.count
    have hfree : ∀ c' k' stage', (s.setPhase c (.returned none)).held c' = some (k', stage') →
        k' ≠ k := by
      rintro c' k' stage' hheld' rfl
      by_cases hc : c' = c
      · subst hc
        exact absurd ((held_setPhase s c' (.returned none)).mp hheld').2 nofun
      · have hold : s.held c' = some (k', stage') := by
          rw [held_eq_some] at hheld' ⊢
          simpa [setPhase, setCall, hc] using hheld'
        exact hc (h.owner c' c k' _ _ hold hheld)
    have hids : (s.idle ++ [(k, now)]).map Prod.fst = s.idle.map Prod.fst ++ [k] := by simp
    have hnodup : ((s.idle ++ [(k, now)]).map Prod.fst).Nodup := by
      rw [hids]
      exact nodup_append.mpr ⟨h.idle_nodup, nodup_singleton k,
        fun a ha b hb => by rintro rfl; exact hok.not_idle (mem_singleton.mp hb ▸ ha)⟩
    refine hreturned.setIdle hnodup (fun k' hk' => ?_) s.closed s.closing
    rw [hids, mem_append, mem_singleton] at hk'
    rcases hk' with hk' | rfl
    · exact .inl hk'
    · exact .inr ⟨h.conn_lt c k' hconn, hclean, fun c' stage' hheld' => hfree c' _ _ hheld' rfl⟩
  · exact h.release hheld fun _ => rfl

lemma matched_holdingStep {e : NetEvent κ M} (hheld : s.held c = some (k, stage))
    (hstep : s.holdingStep pb cfg c k stage e = some s') : s'.Matched pb := by
  have hok := (h.calls c).holding k stage hheld
  cases e with
  | setDeadline c' err =>
    obtain ⟨rfl, rfl⟩ := allow_eq_some.mp hstep
    cases err with
    | some err => exact h.discard hheld _
    | none => exact h.advance hheld (Nat.zero_le _) rfl rfl rfl (by simp)
  | marshal c' now =>
    cases stage <;> cases hstep
    exact h.marshal now hheld
  | write c' n =>
    cases stage <;> cases hstep
    have hconn := h.conn k
    exact h.withConn { hconn with up := hconn.up.push n } rfl rfl rfl
  | writeFail c' err =>
    cases stage <;> cases hstep
    exact h.discard hheld _
  | writeDone c' =>
    cases stage <;> simp only [holdingStep, allow_eq_some, reduceCtorEq] at hstep
    obtain ⟨-, rfl⟩ := hstep
    exact h.afterWrite hheld
  | checkContext c' err =>
    cases stage <;> cases err <;> cases hstep
    · exact h.advance hheld (Nat.le_of_lt hok.in_range) rfl rfl rfl (by simp)
    · exact h.discard hheld _
    · exact h.advance hheld (Nat.le_of_lt hok.in_range) rfl rfl rfl (by simp)
    · exact h.discard hheld _
  | readHeader c' =>
    cases stage <;> simp only [holdingStep, reduceCtorEq] at hstep
    split_ifs at hstep with hlt
    exact h.readHeader hheld hlt hstep
  | readBody c' =>
    cases stage <;> simp only [holdingStep, reduceCtorEq] at hstep
    exact h.readBody hheld hstep
  | readFail c' err =>
    cases stage <;> simp only [holdingStep, allow_eq_some, some.injEq, reduceCtorEq] at hstep
    · obtain ⟨-, rfl⟩ := hstep
      exact h.discard hheld _
    · subst hstep
      exact h.discard hheld _
  | decode c' now =>
    cases stage <;> cases hstep
    exact h.decode now hheld
  | readDone c' =>
    cases stage <;> simp only [holdingStep, allow_eq_some, reduceCtorEq] at hstep
    obtain ⟨hi, rfl⟩ := hstep
    exact h.advance hheld trivial rfl hi.symm hi.symm (by simp)
  | putClosedCheck c' =>
    obtain ⟨rfl, rfl⟩ := allow_eq_some.mp hstep
    split_ifs
    · exact h.release hheld fun _ => rfl
    · exact h.advance hheld trivial rfl rfl rfl (by simp)
  | putSetDeadline c' ok =>
    obtain ⟨rfl, rfl⟩ := allow_eq_some.mp hstep
    split_ifs
    · exact h.advance hheld trivial rfl rfl rfl (by simp)
    · exact h.release hheld fun _ => rfl
  | putLock c' now =>
    obtain ⟨rfl, rfl⟩ := allow_eq_some.mp hstep
    exact h.putLock now hheld
  | _ => simp [holdingStep] at hstep

end
end Holding

/-! ## Steps of a call that does not hold a connection -/

section Obtaining
variable {s : Network κ M} {c : κ} {k : ℕ}

section
variable (h : s.Matched pb)
include h

section
variable (hphase : (s.calls c).phase ∈ [Phase.notCalled, .getting, .popping, .dialing])
include hphase

/-- A call that has no connection yet moves on without one. -/
lemma Matched.early {call : Call M}
    (hconn : call.conn = none) (hresps : call.resps = []) (hret : call.phase ≠ .returned none)
    (hsend : ∀ req ∈ call.reqs, Sendable pb call.md req) : (s.setCall c call).Matched pb := by
  have hnot : ∀ k stage, (s.setCall c call).held c ≠ some (k, stage) := by
    intro k stage hheld
    have hk := (held_eq_some.mp hheld).1
    simp [setCall, hconn] at hk
  refine h.withCall (hconn.trans ((h.calls c).early hphase).1.symm)
    (fun k stage hheld => absurd hheld (hnot k stage))
    ⟨fun _ => ?_, fun k stage hheld => absurd hheld (hnot k stage), fun j r hr => ?_, ?_,
      fun hp => ?_⟩
  · simp [setCall, hconn, hresps]
  · simp [setCall, hresps] at hr
  · simpa [setCall] using hsend
  · simp [setCall, hret] at hp

lemma Matched.setPhase_early {phase : Phase}
    (hret : phase ≠ .returned none) : (s.setPhase c phase).Matched pb := by
  obtain ⟨hconn, hresps⟩ := (h.calls c).early hphase
  exact h.early hphase hconn hresps hret (h.calls c).sendable

end

/-- Connections leave the pool, and the client may be closed. -/
lemma Matched.shrink {idle : List (ℕ × Int64)} (hsub : idle.Sublist s.idle)
    (closed closing : Bool) : { s with idle, closed, closing }.Matched pb :=
  h.setIdle (h.idle_nodup.sublist (hsub.map _)) (fun _ hk => .inl ((hsub.map _).subset hk)) _ _

/-- A call obtains a clean connection that is neither idle nor held. -/
lemma Matched.hold (hphase : (s.calls c).phase ∈ [Phase.notCalled, .getting, .popping, .dialing])
    (hlt : k < s.dialed) (hclean : (s.conns k).Clean) (hidle : k ∉ s.idle.map Prod.fst)
    (hfree : ∀ c' stage, s.held c' ≠ some (k, stage)) : (s.hold c k).Matched pb := by
  obtain ⟨hnone, hresps⟩ := (h.calls c).early hphase
  have hnot : ∀ k', ∀ request ∈ (s.conns k').requests, request.1 ≠ c := by
    rintro k' request hrequest rfl
    have hconn := h.requests k' request hrequest
    rw [hnone] at hconn
    cases hconn
  have hself : (s.hold c k).calls c =
      { s.calls c with conn := some k, phase := .holding .deadline } := by
    simp [Network.hold, Network.setCall]
  have hother : ∀ c', c' ≠ c → (s.hold c k).calls c' = s.calls c' := by
    intro c' hc
    simp [Network.hold, Network.setCall, hc]
  have hheldSelf : ∀ k' stage, (s.hold c k).held c = some (k', stage) →
      k' = k ∧ stage = .deadline := by
    intro k' stage hheld
    rw [held_eq_some, hself] at hheld
    obtain ⟨hk', hstage⟩ := hheld
    cases hk'
    cases hstage
    exact ⟨rfl, rfl⟩
  have hheldOther : ∀ c', c' ≠ c → ∀ k' stage, (s.hold c k).held c' = some (k', stage) →
      s.held c' = some (k', stage) ∧ k' ≠ k := by
    intro c' hc k' stage hheld
    have hold : s.held c' = some (k', stage) := by
      rw [held_eq_some, hother c' hc] at hheld
      exact held_eq_some.mpr hheld
    refine ⟨hold, ?_⟩
    rintro rfl
    exact hfree c' stage hold
  refine ⟨h.conn, h.idle_nodup, h.idle_lt, h.idle_clean, ?_, fun c' k' hc' => ?_,
    fun k' request hrequest => ?_, fun request => ?_, fun c' => ?_⟩
  · intro c₁ c₂ k' stage₁ stage₂ h₁ h₂
    by_cases hc₁ : c₁ = c
    · subst hc₁
      by_contra hne
      exact (hheldOther c₂ (Ne.symm hne) k' stage₂ h₂).2 (hheldSelf k' stage₁ h₁).1
    · obtain ⟨hold₁, hne⟩ := hheldOther c₁ hc₁ k' stage₁ h₁
      by_cases hc₂ : c₂ = c
      · subst hc₂
        exact absurd (hheldSelf k' stage₂ h₂).1 hne
      · exact h.owner c₁ c₂ k' stage₁ stage₂ hold₁ (hheldOther c₂ hc₂ k' stage₂ h₂).1
  · by_cases hc : c' = c
    · subst hc
      rw [hself] at hc'
      cases hc'
      exact hlt
    · rw [hother c' hc] at hc'
      exact h.conn_lt c' k' hc'
  · rw [hother request.1 (hnot k' request hrequest)]
    exact h.requests k' request hrequest
  · change s.answers request = _
    rw [h.answers]
    by_cases hc : request.1 = c
    · -- The connection has no requests of this call yet, let alone answers to them.
      have hempty : (s.conns k).down.frames.filter (fun f => f.1.1 = request) = [] := by
        rw [filter_eq_nil_iff]
        intro f hf heq
        have hanswered : f.1.1 ∈ (s.conns k).requests :=
          (h.conn k).in_order.subset (mem_map_of_mem hf)
        rw [of_decide_eq_true heq] at hanswered
        exact hnot k request hanswered hc
      rw [recorded, recorded, hc, hself, hnone]
      change [] = ((s.conns k).down.frames.filter fun f => f.1.1 = request).map fun f => f.1.2
      rw [hempty]
      rfl
    · rw [recorded, recorded, hother _ hc]
      rfl
  · by_cases hc : c' = c
    · subst hc
      refine ⟨?_, fun k' stage hheld => ?_, ?_, ?_, ?_⟩
      · rw [hself]
        simp
      · obtain ⟨rfl, rfl⟩ := hheldSelf k' stage hheld
        refine ⟨hidle, trivial, Conn.exchange_of_clean hclean (hnot k'), ?_, (by simp)⟩
        rw [hself]
        exact congrArg List.length hresps
      · rw [hself]
        exact (h.calls c').matched
      · rw [hself]
        exact (h.calls c').sendable
      · rw [hself]
        simp
    · exact (h.calls c').of_agree (hother c' hc) (fun _ _ _ h => h) (fun _ _ _ => ⟨rfl, rfl⟩)
        (fun _ _ h => h)

lemma Matched.getPop (hphase : (s.calls c).phase = .popping)
    (cutoff : Int64) : (s.getPop c cutoff).Matched pb := by
  have hearly : (s.calls c).phase ∈ [Phase.notCalled, .getting, .popping, .dialing] := by
    simp [hphase]
  unfold Network.getPop
  split
  · exact h.setPhase_early hearly nofun
  next k since hlast =>
    have hidle := dropLast_append_getLast? _ hlast
    have hrest := h.shrink (dropLast_sublist s.idle) s.closed s.closing
    dsimp only
    split_ifs
    · exact hrest.closed k
    · have hk : k ∈ s.idle.map Prod.fst := mem_map.mpr ⟨_, mem_of_getLast? hlast, rfl⟩
      have hnodup := h.idle_nodup
      rw [← hidle, map_append, nodup_append] at hnodup
      refine hrest.hold hearly (h.idle_lt k hk) (h.idle_clean k hk) (fun hmem => ?_)
        (fun c' stage hheld => ?_)
      · exact hnodup.2.2 k hmem k (mem_singleton_self k) rfl
      · exact ((h.calls c').holding k stage hheld).not_idle hk

lemma Matched.dialed : ({ s with dialed := s.dialed + 1 }.setConn s.dialed newConn).Matched pb := by
  have hconns : ∀ k, k < s.dialed →
      ({ s with dialed := s.dialed + 1 }.setConn s.dialed newConn).conns k = s.conns k := by
    intro k hk
    simp [setConn, hk.ne]
  refine ⟨fun k => ?_, h.idle_nodup, fun k hk => Nat.lt_succ_of_lt (h.idle_lt k hk),
    fun k hk => ?_, h.owner, fun c k hc => Nat.lt_succ_of_lt (h.conn_lt c k hc),
    fun k request hrequest => ?_, fun request => ?_, fun c => ?_⟩
  · by_cases hk : k = s.dialed
    · simpa [setConn, hk] using connOk_newConn
    · simpa [setConn, hk] using h.conn k
  · rw [hconns k (h.idle_lt k hk)]
    exact h.idle_clean k hk
  · by_cases hk : k = s.dialed
    · simp [setConn, hk, newConn, Conn.requests, Pipe.empty] at hrequest
    · simp only [setConn, ne_eq, hk, not_false_eq_true, update_of_ne] at hrequest
      exact h.requests k request hrequest
  · change s.answers request = _
    rw [h.answers]
    cases hconn : (s.calls request.1).conn with
    | none =>
      rw [recorded_of_none hconn]
      symm
      exact recorded_of_none hconn
    | some k =>
      rw [recorded_of_some hconn, ← hconns k (h.conn_lt _ k hconn)]
      symm
      exact recorded_of_some hconn
  · refine (h.calls c).of_agree rfl (fun _ _ _ h => h) (fun k stage hheld => ?_) (fun _ _ h => h)
    rw [hconns k (h.conn_lt c k (held_eq_some.mp hheld).1)]
    exact ⟨rfl, rfl⟩

lemma Matched.dial (hphase : (s.calls c).phase = .dialing)
    (err : Option String) : (s.dial c err).Matched pb := by
  have hearly : (s.calls c).phase ∈ [Phase.notCalled, .getting, .popping, .dialing] := by
    simp [hphase]
  cases err with
  | some err => exact h.setPhase_early hearly nofun
  | none =>
    refine h.dialed.hold hearly (Nat.lt_succ_self s.dialed) ?_ (fun hmem => ?_)
      (fun c' stage hheld => ?_)
    · simp [setConn, newConn, Conn.Clean, Pipe.empty]
    · exact (h.idle_lt s.dialed hmem).false
    · exact (h.conn_lt c' s.dialed (held_eq_some.mp hheld).1).false

end
end Obtaining

/-! ## Steps of the server -/

section Serving
variable {s s' : Network κ M} {k : ℕ}

section
variable (h : s.Matched pb)
include h

/-- The server moves between two points at which the same requests are pending. -/
lemma Matched.setServer {server : ServerPhase M}
    (hpending : server.Pending (s.conns k).down.frames.length (s.conns k).up.read) :
    (s.setServer k server).Matched pb := by
  have hok := h.conn k
  exact h.withConn ⟨hok.up, hok.down, hok.nodup, hok.in_order, hok.encoded, hpending⟩ rfl rfl rfl

lemma Matched.serverClosed (k : ℕ) : (s.setServer k .closed).Matched pb :=
  h.setServer (h.conn k).answered_le_read

lemma Matched.serverReadHeader {cfg : ClientSettings}
    (hstep : s.serverReadHeader cfg k = some s') : s'.Matched pb := by
  unfold Network.serverReadHeader at hstep
  split at hstep
  · cases hstep
  next up hup =>
    dsimp only at hstep
    split_ifs at hstep <;> cases hstep
    · exact h.serverClosed k
    · have hok := h.conn k
      obtain ⟨hframes, hread⟩ := Pipe.readHeader_counts hup
      refine h.withConn ⟨hok.up.readHeader hup, hok.down, ?_, ?_, hok.encoded, ?_⟩ hframes rfl rfl
      · simpa [Conn.requests, hframes] using hok.nodup
      · simpa [Conn.requests, Conn.answered, hframes] using hok.in_order
      · simpa [hread] using hok.pending

lemma Matched.serverReadBody (hserver : (s.conns k).server = .reading)
    (hstep : s.serverReadBody k = some s') : s'.Matched pb := by
  unfold Network.serverReadBody at hstep
  split at hstep <;> cases hstep
  next frame up hup =>
    have hok := h.conn k
    have hpending : (s.conns k).down.frames.length = (s.conns k).up.read := by
      have hp := hok.pending
      rwa [hserver] at hp
    obtain ⟨hvalid, hframes, -, hread, -⟩ := hok.up.readBody hup
    refine h.withConn ⟨hvalid, hok.down, ?_, ?_, hok.encoded, ?_⟩ hframes rfl rfl
    · simpa [Conn.requests, hframes] using hok.nodup
    · simpa [Conn.requests, Conn.answered, hframes] using hok.in_order
    · change (s.conns k).down.frames.length + 1 = up.read
      rw [hpending, hread]

lemma Matched.serverDecode {frame : Bytes}
    (hserver : (s.conns k).server = .decoding frame) (now : Int64) :
    (s.serverDecode pb k frame now).Matched pb := by
  unfold Network.serverDecode
  split
  · exact h.serverClosed k
  · refine h.setServer ?_
    have hp := (h.conn k).pending
    rwa [hserver] at hp

/-- The server produces the answer to a request that has none yet. -/
lemma Matched.answer {conn : Conn κ M} {request : RequestId κ} {resp : M}
    {frame : Bytes} (hok : ConnOk pb conn) (hup : conn.up.frames = (s.conns k).up.frames)
    (hdown : conn.down.frames = (s.conns k).down.frames ++ [((request, resp), frame)])
    (hread : conn.down.read = (s.conns k).down.read)
    (hrequest : request ∈ (s.conns k).requests) (hnew : request ∉ (s.conns k).answered) :
    { s.setConn k conn with
      answers := update s.answers request (s.answers request ++ [resp]) }.Matched pb := by
  have howner := h.requests k request hrequest
  have hsame : ∀ k', (update s.conns k conn k').requests = (s.conns k').requests ∧
      (update s.conns k conn k').down.read = (s.conns k').down.read := by
    intro k'
    by_cases hk : k' = k
    · subst k'
      simp [Conn.requests, hup, hread]
    · simp [hk]
  have hlength : ∀ k', (update s.conns k conn k').up.frames.length =
      (s.conns k').up.frames.length := by
    intro k'
    simpa [Conn.requests] using congrArg List.length (hsame k').1
  have hunanswered : s.answers request = [] := by
    rw [h.answers, recorded, howner]
    change List.map _ _ = []
    rw [map_eq_nil_iff, filter_eq_nil_iff]
    intro f hf heq
    exact hnew (of_decide_eq_true heq ▸ mem_map_of_mem hf)
  refine ⟨fun k' => ?_, h.idle_nodup, h.idle_lt, fun k' hk' => ?_, h.owner, h.conn_lt,
    fun k' request' hrequest' => ?_, fun request' => ?_, fun c => ?_⟩
  · by_cases hk : k' = k
    · subst k'
      simpa [setConn] using hok
    · simpa [setConn, hk] using h.conn k'
  · change (update s.conns k conn k').down.read = _
    rw [(hsame k').2]
    exact (h.idle_clean k' hk').trans (hlength k').symm
  · exact h.requests k' request' ((hsame k').1 ▸ hrequest')
  · change update s.answers request (s.answers request ++ [resp]) request' = _
    by_cases hr : request' = request
    · subst hr
      rw [update_self, h.answers, recorded_of_some howner]
      symm
      refine Eq.trans (recorded_of_some howner) ?_
      simp [setConn, hdown]
    · rw [update_of_ne hr, h.answers]
      cases hconn : (s.calls request'.1).conn with
      | none =>
        rw [recorded_of_none hconn]
        symm
        exact recorded_of_none hconn
      | some k' =>
        rw [recorded_of_some hconn]
        symm
        refine Eq.trans (recorded_of_some hconn) ?_
        by_cases hk : k' = k
        · subst k'
          simp [setConn, hdown, Ne.symm hr]
        · simp [setConn, hk]
  · refine (h.calls c).of_agree rfl (fun _ _ _ h => h) (fun k' _ _ => hsame k')
      (fun j resp' hj => ?_)
    have hne : (c, j) ≠ request := by
      rintro rfl
      rw [hunanswered] at hj
      cases hj
    change update s.answers request (s.answers request ++ [resp]) (c, j) = [resp']
    rw [update_of_ne hne, hj]

lemma Matched.serverHandle {msg : M} {resp : Option M}
    (hserver : (s.conns k).server = .handling msg) (hsend : ∀ r ∈ resp, Sendable pb none r)
    (hstep : s.serverHandle pb k resp = some s') : s'.Matched pb := by
  unfold Network.serverHandle at hstep
  split at hstep
  · cases hstep
    exact h.serverClosed k
  next resp =>
    split at hstep
    · cases hstep
      exact h.serverClosed k
    next frame hframe =>
      obtain ⟨request, hlast, rfl⟩ := map_eq_some_iff.mp hstep
      have hok := h.conn k
      obtain ⟨hrequest, hnew, hpre⟩ := hok.unanswered hserver hlast
      have hmarshal : marshalProtoWithContext pb none (some resp) 0 = .ok frame := hframe
      have hframed : Framed frame := framed_of_marshal (hsend resp rfl) hmarshal
      refine h.answer ⟨hok.up, hok.down.begin _ hframed, hok.nodup, ?_, ?_, ?_⟩ rfl rfl rfl
        hrequest hnew
      · simpa [Conn.answered, Conn.requests, Pipe.begin] using hpre
      · intro f hf
        rcases mem_append.mp hf with hf | hf
        · exact hok.encoded f hf
        · rw [mem_singleton.mp hf]
          exact hframe
      · have hpending := hok.pending
        rw [hserver] at hpending
        simpa [Pipe.begin, ServerPhase.Pending] using hpending

end
end Serving

/-- The requests of the calls and the responses of the handlers fit the length field. -/
def Fits (pb : Protobuf M T) : NetEvent κ M → Prop
  | .invoke _ reqs md => ∀ req ∈ reqs, Sendable pb md req
  | .serverHandle _ resp => ∀ r ∈ resp, Sendable pb none r
  | _ => True

variable {cfg : ClientSettings}

lemma matched_otherStep {s s' : Network κ M} {e : NetEvent κ M}
    (h : s.Matched pb) (hfits : Fits pb e) (hstep : s.otherStep pb cfg e = some s') :
    s'.Matched pb := by
  cases e with simp only [otherStep] at hstep
  | invoke c reqs md =>
    obtain ⟨hphase, rfl⟩ := allow_eq_some.mp hstep
    exact h.early (by simp [hphase]) rfl rfl nofun hfits
  | getClosedCheck c =>
    obtain ⟨hphase, rfl⟩ := allow_eq_some.mp hstep
    refine h.setPhase_early (by simp [hphase]) ?_
    split_ifs <;> exact nofun
  | getPop c cutoff =>
    obtain ⟨hphase, rfl⟩ := allow_eq_some.mp hstep
    exact h.getPop hphase cutoff
  | dial c err =>
    obtain ⟨hphase, rfl⟩ := allow_eq_some.mp hstep
    exact h.dial hphase err
  | close =>
    obtain rfl := some.inj hstep
    split_ifs
    · exact h
    · exact h.shrink (List.Sublist.refl s.idle) true true
  | closeIdle =>
    obtain ⟨-, rfl⟩ := allow_eq_some.mp hstep
    have hconns : { s with
        conns := fun k => if k ∈ s.idle.map Prod.fst then { s.conns k with closed := true }
          else s.conns k }.Matched pb := by
      refine h.setConns (fun k => ?_) (fun k => ?_) (fun k => ?_) (fun k => ?_) <;> split_ifs
      · have hok := h.conn k
        exact ⟨hok.up, hok.down, hok.nodup, hok.in_order, hok.encoded, hok.pending⟩
      · exact h.conn k
      all_goals rfl
    exact hconns.shrink (nil_sublist s.idle) s.closed false
  | serverReadHeader k =>
    split at hstep
    · exact h.serverReadHeader hstep
    · cases hstep
  | serverReadBody k =>
    split at hstep
    next hserver => exact h.serverReadBody hserver hstep
    · cases hstep
  | serverDecode k now =>
    split at hstep <;> cases hstep
    next frame hserver => exact h.serverDecode hserver now
  | serverHandle k resp =>
    split at hstep
    next msg hserver => exact h.serverHandle hserver hfits hstep
    · cases hstep
  | serverWrite k n =>
    split at hstep <;> cases hstep
    next hserver =>
      have hok := h.conn k
      exact h.withConn (hok.withDown (hok.down.push n) rfl) rfl rfl rfl
  | serverWriteDone k =>
    split at hstep
    next hserver =>
      obtain ⟨-, rfl⟩ := allow_eq_some.mp hstep
      have hpending := (h.conn k).pending
      rw [hserver] at hpending
      exact h.setServer hpending
    · cases hstep
  | serverClose k =>
    cases hstep
    exact h.serverClosed k
  | _ => simp at hstep

lemma matched_step {s s' : Network κ M} {e : NetEvent κ M}
    (h : s.Matched pb) (hfits : Fits pb e) (hstep : s.step pb cfg e = some s') : s'.Matched pb := by
  unfold step at hstep
  split at hstep
  · exact matched_otherStep h hfits hstep
  · split at hstep
    · cases hstep
    next k stage hheld => exact matched_holdingStep h hheld hstep

/-- A call that returned without an error has one response for each of its requests, in
their order, decoded from the only response that the server produced for that request;
idle connections have nothing in transit. -/
structure NotMixedUp (pb : Protobuf M T) (s : Network κ M) : Prop where
  complete : ∀ c, (s.calls c).phase = .returned none →
    (s.calls c).resps.length = (s.calls c).reqs.length
  own : ∀ c, (s.calls c).phase = .returned none → ∀ j r, (s.calls c).resps[j]? = some r →
    ∃ resp, s.answers (c, j) = [resp] ∧ DecodesTo pb resp r ∧
      ∀ payload, Registered pb resp payload →
        8 + (pb.messageName resp).length + payload.length ≤ defaultMaxFrameSize → r = (resp, none)
  idle : ∀ k ∈ s.idle.map Prod.fst, (s.conns k).Quiet

/-- In every interleaving, responses are never mixed up between requests. -/
theorem responses_not_mixed_up (pb : Protobuf M T) (cfg : ClientSettings)
    (events : List (NetEvent κ M)) (hfits : ∀ e ∈ events, Fits pb e) (s : Network κ M)
    (hrun : (Network.system pb cfg).run events = some s) : s.NotMixedUp pb := by
  have h : s.Matched pb := by
    refine System.run_induction (P := fun events s => (∀ e ∈ events, Fits pb e) → s.Matched pb)
      (fun _ => ⟨fun _ => connOk_newConn, nodup_nil, nofun, nofun, nofun, nofun, nofun,
        fun _ => rfl, fun _ => ⟨fun _ => ⟨rfl, rfl⟩, nofun, nofun, nofun, nofun⟩⟩)
      (fun events s e s' _ ih hstep hfits => ?_) hrun hfits
    obtain ⟨hpast, he⟩ := forall_mem_append.mp hfits
    exact matched_step (ih hpast) (he e (mem_singleton_self e)) hstep
  refine ⟨fun c => (h.calls c).complete, fun c _ j r hr => ?_, fun k hk => ?_⟩
  · obtain ⟨resp, hanswers, hresp⟩ := (h.calls c).matched j r hr
    exact ⟨resp, hanswers, hresp, fun payload hreg hsize => hresp.eq hreg hsize⟩
  · exact (h.conn k).quiet (h.idle_clean k hk)

/-- A call that dials, sends a request, reads its response and puts the connection back, and
another call that takes the connection from the pool. -/
def twoCalls : List (NetEvent ℕ (Bytes × Bytes)) :=
  [.invoke 0 [([97], [1])] none, .getClosedCheck 0, .getPop 0 0, .dial 0 none, .setDeadline 0 none,
    .marshal 0 0, .write 0 6, .serverReadHeader 0, .write 0 6, .writeDone 0, .marshal 0 0,
    .serverReadBody 0, .serverDecode 0 0, .serverHandle 0 (some ([97], [2])), .serverWrite 0 20,
    .serverWriteDone 0, .readHeader 0, .readBody 0, .decode 0 0, .readDone 0, .putClosedCheck 0,
    .putSetDeadline 0 true, .invoke 1 [([97], [3])] none, .getClosedCheck 1, .putLock 0 5,
    .getPop 1 5, .setDeadline 1 none, .marshal 1 6, .write 1 20, .writeDone 1, .marshal 1 6,
    .serverReadHeader 0, .serverReadBody 0, .serverDecode 0 6, .serverHandle 0 (some ([97], [4])),
    .serverWrite 0 20, .serverWriteDone 0, .readHeader 1, .readBody 1, .decode 1 6, .readDone 1,
    .putClosedCheck 1, .putSetDeadline 1 true, .putLock 1 7]

lemma sendable_rawProtobuf (b : UInt8) : Sendable rawProtobuf none ([97], [b]) := by
  intro now frame hframe
  have hlegacy : legacyFrame [97] [b] = frame := by
    simpa [marshalProtoWithContext, marshalBinaryTo, rawProtobuf, legacyFrame] using hframe
  rw [← hlegacy, length_legacyFrame]
  exact Nat.lt_of_le_of_lt (le_refl 10) (by decide)

theorem responses_not_mixed_up_twoCalls :
    ∃ s, (Network.system rawProtobuf ⟨1, 100, 100⟩).run twoCalls = some s ∧
      (s.calls 0).phase = .returned none ∧ (s.calls 0).resps = [(([97], [2]), none)] ∧
      (s.calls 1).phase = .returned none ∧ (s.calls 1).resps = [(([97], [4]), none)] ∧
      s.idle = [(0, 7)] ∧ s.NotMixedUp rawProtobuf := by
  have hfits : ∀ e ∈ twoCalls, Fits rawProtobuf e := by
    simp [twoCalls, Fits, sendable_rawProtobuf]
  exact ⟨_, rfl, rfl, rfl, rfl, rfl, rfl,
    responses_not_mixed_up rawProtobuf ⟨1, 100, 100⟩ twoCalls hfits _ rfl⟩

end Network
end GoAkt.Net
