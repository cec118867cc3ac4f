import GoAkt.NetClient

/-!
# What calls know about their connections

On a connection the server answers the requests in the order in which they were written,
and the client reads the answers in the order in which they were produced. The invariant
therefore is a matter of counting: a call that takes a connection finds as many responses
read as requests written, and at each stage it knows how many of its requests have been
written and how many responses have been read since. The frame rules say which changes of
the state the invariant does not see.
-/
namespace GoAkt.Net
open GoAkt.ByteStrings GoAkt.FramedPipes GoAkt.Interleavings Function List
variable {κ M T : Type}

/-- The length of the frame of a message fits the four bytes that hold it. -/
def Sendable (pb : Protobuf M T) (md : Option Metadata) (message : M) : Prop :=
  ∀ now frame, marshalProtoWithContext pb md (some message) now = .ok frame → frame.length < 2 ^ 32

/-- The client obtained the result by decoding the frame of the response. -/
def DecodesTo (pb : Protobuf M T) (resp : M) (result : M × Option Metadata) : Prop :=
  ∃ frame now, marshalBinaryTo pb (some resp) = .ok frame ∧
    unmarshalProtoResponse pb frame now = .ok result

section Marshal
variable {pb : Protobuf M T}

lemma framed_putUint {rest : Bytes} {n : ℕ} (hn : n = 4 + rest.length) (hlt : n < 2 ^ 32) :
    Framed (putUint 4 n ++ rest) where
  header_le := by simp
  header_eq := by
    rw [take_left' (length_putUint 4 n), uint_putUint_of_lt hlt, length_append, length_putUint, hn]

lemma framed_of_marshal {md : Option Metadata} {message : M} (hsend : Sendable pb md message)
    {now : Int64} {frame : Bytes}
    (hframe : marshalProtoWithContext pb md (some message) now = .ok frame) : Framed frame := by
  have hfits := hsend now frame hframe
  cases md with
  | none =>
    simp only [marshalProtoWithContext, marshalBinaryTo] at hframe
    split_ifs at hframe
    split at hframe
    · cases hframe
    next payload _ =>
      have hlegacy : legacyFrame (pb.messageName message) payload = frame := by
        simpa [legacyFrame] using hframe
      rw [← hlegacy] at hfits ⊢
      rw [length_legacyFrame] at hfits
      refine framed_putUint ?_ (by omega)
      simp only [length_append, length_putUint]
      omega
  | some md =>
    simp only [marshalProtoWithContext, marshalBinaryWithMetadataTo] at hframe
    split_ifs at hframe
    split at hframe
    · cases hframe
    next payload _ =>
      have hmeta : metadataFrame (pb.messageName message) (md.marshalBinary now) payload =
          frame := by
        simpa [metadataFrame] using hframe
      rw [← hmeta] at hfits ⊢
      rw [length_metadataFrame] at hfits
      refine framed_putUint ?_ (by omega)
      simp only [length_append, length_putUint]
      omega

/-- What the client decodes from a response of a registered type is the response. -/
lemma DecodesTo.eq {resp : M} {payload : Bytes} {result : M × Option Metadata}
    (h : DecodesTo pb resp result) (hreg : Registered pb resp payload)
    (hsize : 8 + (pb.messageName resp).length + payload.length ≤ defaultMaxFrameSize) :
    result = (resp, none) := by
  obtain ⟨frame, now, hframe, hresult⟩ := h
  obtain ⟨b, rest, hname, -⟩ := hreg.letter
  have hnonempty : ¬(pb.messageName resp).length = 0 := by
    rw [hname]
    exact Nat.succ_ne_zero _
  have hlegacy : legacyFrame (pb.messageName resp) payload = frame := by
    simpa [marshalBinaryTo, hnonempty, hreg.marshals, legacyFrame] using hframe
  rw [← length_legacyFrame] at hsize
  rw [← hlegacy, unmarshalProtoResponse_legacyFrame now hreg hsize, Except.ok.injEq] at hresult
  exact hresult.symm

end Marshal

/-! ## One connection -/

/-- The requests written on a connection, in order. -/
def Conn.requests (conn : Conn κ M) : List (RequestId κ) := conn.up.frames.map Prod.fst

/-- The requests answered on a connection, in order. -/
def Conn.answered (conn : Conn κ M) : List (RequestId κ) := conn.down.frames.map fun f => f.1.1

/-- How many requests the server has read beyond those it has answered. -/
def ServerPhase.Pending (answered read : ℕ) : ServerPhase M → Prop
  | .reading => answered = read
  | .decoding _ => answered + 1 = read
  | .handling _ => answered + 1 = read
  | .writing => answered = read
  | .closed => answered ≤ read

structure ConnOk (pb : Protobuf M T) (conn : Conn κ M) : Prop where
  up : conn.up.Valid
  down : conn.down.Valid
  nodup : conn.requests.Nodup
  in_order : conn.answered <+: conn.requests
  encoded : ∀ f ∈ conn.down.frames, marshalBinaryTo pb (some f.1.2) = .ok f.2
  pending : conn.server.Pending conn.down.frames.length conn.up.read

/-- Every request has been answered and every answer has been read. -/
def Conn.Clean (conn : Conn κ M) : Prop := conn.down.read = conn.up.frames.length

/-- A connection has nothing in transit: no byte of a request or of a response is left
unread, and no request is still to be answered. -/
structure Conn.Quiet (conn : Conn κ M) : Prop where
  up : conn.up.unsent = [] ∧ conn.up.stream = [] ∧ conn.up.header = []
  down : conn.down.unsent = [] ∧ conn.down.stream = [] ∧ conn.down.header = []
  read : conn.up.read = conn.up.frames.length
  answered : conn.answered = conn.requests

open Conn

/-- Since the call obtained the connection it has begun to write its first `n` requests
and has read `m` responses. -/
def Conn.Exchange (conn : Conn κ M) (c : κ) (n m : ℕ) : Prop :=
  ∃ earlier : List (RequestId κ), conn.requests = earlier ++ (List.range n).map (fun j => (c, j)) ∧
    (∀ request ∈ earlier, request.1 ≠ c) ∧ conn.down.read = earlier.length + m

section Connection
variable {pb : Protobuf M T} {conn : Conn κ M}

lemma connOk_newConn : ConnOk pb (newConn : Conn κ M) where
  up := Pipe.valid_empty
  down := Pipe.valid_empty
  nodup := nodup_nil
  in_order := prefix_rfl
  encoded := by simp [newConn, Pipe.empty]
  pending := rfl

lemma ConnOk.answered_le_read (h : ConnOk pb conn) : conn.down.frames.length ≤ conn.up.read := by
  have hpending := h.pending
  cases hs : conn.server <;> simp only [hs, ServerPhase.Pending] at hpending <;> omega

/-- A clean connection has nothing in transit and nothing to be answered. -/
lemma ConnOk.clean_counts (h : ConnOk pb conn) (hclean : conn.Clean) :
    conn.down.read = conn.down.frames.length ∧ conn.up.read = conn.up.frames.length ∧
      conn.down.frames.length = conn.up.frames.length := by
  have h₁ := h.down.read_le
  have h₂ := h.answered_le_read
  have h₃ := h.up.read_le
  unfold Conn.Clean at hclean
  omega

lemma ConnOk.quiet (hok : ConnOk pb conn) (hclean : conn.Clean) : conn.Quiet := by
  obtain ⟨hdown, hup, hlength⟩ := hok.clean_counts hclean
  obtain ⟨hheader, hstream, hunsent⟩ := hok.up.drained hup
  obtain ⟨hheader', hstream', hunsent'⟩ := hok.down.drained hdown
  refine ⟨⟨hunsent, hstream, hheader⟩, ⟨hunsent', hstream', hheader'⟩, hup, ?_⟩
  refine hok.in_order.eq_of_length ?_
  rw [answered, requests, length_map, length_map, hlength]

variable {c : κ}

lemma Conn.exchange_of_clean (hclean : conn.Clean)
    (hc : ∀ request ∈ conn.requests, request.1 ≠ c) : conn.Exchange c 0 0 :=
  ⟨conn.requests, by simp, hc, by rw [hclean, requests, length_map, Nat.add_zero]⟩

lemma Conn.Exchange.clean {n : ℕ} (h : conn.Exchange c n n) : conn.Clean := by
  obtain ⟨earlier, hrequests, -, hread⟩ := h
  have hlen := congrArg List.length hrequests
  simp only [requests, length_map, length_append, length_range] at hlen
  rw [Conn.Clean, hread, hlen]

/-- The next response to be read answers the next request of the call. -/
lemma ConnOk.next_response (h : ConnOk pb conn) {n m : ℕ} (hex : conn.Exchange c n m)
    {f : (RequestId κ × M) × Bytes} (hf : conn.down.frames[conn.down.read]? = some f) :
    f.1.1 = (c, m) := by
  obtain ⟨earlier, hrequests, -, hread⟩ := hex
  have hanswered : conn.answered[conn.down.read]? = some f.1.1 := by
    rw [answered, List.getElem?_map, hf]
    rfl
  have hrequest : conn.requests[conn.down.read]? = some f.1.1 := by
    obtain ⟨later, hlater⟩ := h.in_order
    rw [← hlater, List.getElem?_append_left (List.getElem?_eq_some_iff.mp hanswered).1, hanswered]
  rw [hrequests, hread, List.getElem?_append_right (Nat.le_add_right _ _),
    Nat.add_sub_cancel_left, List.getElem?_map] at hrequest
  obtain ⟨j, hj, hrequest⟩ := Option.map_eq_some_iff.mp hrequest
  obtain ⟨_, rfl⟩ := List.getElem?_eq_some_iff.mp hj
  rw [← hrequest, getElem_range]

/-- The request that the server handles is the first one without an answer. -/
lemma ConnOk.unanswered (hok : ConnOk pb conn) {msg : M}
    (hserver : conn.server = .handling msg) {request : RequestId κ}
    (hlast : (conn.up.frames[conn.up.read - 1]?).map Prod.fst = some request) :
    request ∈ conn.requests ∧ request ∉ conn.answered ∧
      conn.answered ++ [request] <+: conn.requests := by
  have hpending : conn.down.frames.length + 1 = conn.up.read := by
    have hp := hok.pending
    rwa [hserver] at hp
  have hlen : conn.answered.length = conn.up.read - 1 := by
    rw [answered, length_map]
    omega
  have hat : conn.requests[conn.answered.length]? = some request := by
    rw [requests, List.getElem?_map, hlen, hlast]
  obtain ⟨later, hlater⟩ := hok.in_order
  have hnodup := hok.nodup
  rw [← hlater, List.getElem?_append_right le_rfl, Nat.sub_self] at hat
  cases later with
  | nil => cases hat
  | cons first later =>
    cases hat
    rw [← hlater] at hnodup ⊢
    refine ⟨by simp, fun hmem => ?_, by simp⟩
    exact (nodup_append.mp hnodup).2.2 _ hmem _ mem_cons_self rfl

lemma ConnOk.withDown (hconn : ConnOk pb conn) {down : Pipe (RequestId κ × M)}
    (hvalid : down.Valid) (hframes : down.frames = conn.down.frames) :
    ConnOk pb { conn with down } where
  up := hconn.up
  down := hvalid
  nodup := hconn.nodup
  in_order := by
    have hanswered : answered { conn with down } = conn.answered := by simp [answered, hframes]
    rw [hanswered]
    exact hconn.in_order
  encoded := by simpa [hframes] using hconn.encoded
  pending := by simpa [hframes] using hconn.pending

/-- A request of the call is begun on its connection. -/
lemma ConnOk.begin (hconn : ConnOk pb conn) {request : RequestId κ}
    {frame : Bytes} (hframed : Framed frame) (hnew : request ∉ conn.requests) :
    ConnOk pb { conn with up := conn.up.begin request frame } where
  up := hconn.up.begin request hframed
  down := hconn.down
  nodup := by
    have hrequests : requests { conn with up := conn.up.begin request frame } =
        conn.requests ++ [request] := by simp [requests, Pipe.begin]
    rw [hrequests]
    exact nodup_append.mpr ⟨hconn.nodup, nodup_singleton request,
      fun a ha b hb => by rintro rfl; exact hnew (mem_singleton.mp hb ▸ ha)⟩
  in_order := by
    refine hconn.in_order.trans ?_
    simp [requests, Pipe.begin]
  encoded := hconn.encoded
  pending := hconn.pending

lemma Conn.Exchange.begin {n m : ℕ} (h : conn.Exchange c n m) (frame : Bytes) :
    (c, n) ∉ conn.requests ∧
      Conn.Exchange { conn with up := conn.up.begin (c, n) frame } c (n + 1) m := by
  obtain ⟨earlier, hrequests, hearlier, hread⟩ := h
  constructor
  · rw [hrequests, mem_append]
    rintro (hmem | hmem)
    · exact hearlier _ hmem rfl
    · obtain ⟨j, hj, heq⟩ := mem_map.mp hmem
      cases heq
      exact absurd (mem_range.mp hj) (lt_irrefl n)
  · refine ⟨earlier, ?_, hearlier, hread⟩
    have hbegin : requests { conn with up := conn.up.begin (c, n) frame } =
        conn.requests ++ [(c, n)] := by simp [requests, Pipe.begin]
    rw [hbegin, hrequests, range_succ, map_append, append_assoc]
    rfl

end Connection

/-! ## The stages of a call -/

namespace Stage

/-- The number of requests that the call has begun to write, of `len`. -/
def begun (len : ℕ) : Stage → ℕ
  | .deadline => 0
  | .sending i => i
  | .writing i => i + 1
  | .betweenSends i => i + 1
  | _ => len

/-- The number of responses that the call has read. -/
def got (len : ℕ) : Stage → ℕ
  | .reading i => i
  | .readingBody i => i
  | .decoding i _ => i + 1
  | .betweenReads i => i + 1
  | .putting => len
  | .clearingDeadline => len
  | .locking => len
  | _ => 0

/-- The number of responses that the call has decoded. -/
def decoded (len : ℕ) : Stage → ℕ
  | .reading i => i
  | .readingBody i => i
  | .decoding i _ => i
  | .betweenReads i => i + 1
  | .putting => len
  | .clearingDeadline => len
  | .locking => len
  | _ => 0

def InRange (len : ℕ) : Stage → Prop
  | .sending i => i ≤ len
  | .writing i => i < len
  | .betweenSends i => i + 1 < len
  | .reading i => i ≤ len
  | .readingBody i => i < len
  | .decoding i _ => i < len
  | .betweenReads i => i + 1 < len
  | _ => True

end Stage

namespace Network
variable {pb : Protobuf M T}

/-- The responses the server produced for a request, as the connection of its call
records them. -/
def recorded [DecidableEq κ] (s : Network κ M) (request : RequestId κ) : List M :=
  match (s.calls request.1).conn with
  | none => []
  | some k => ((s.conns k).down.frames.filter fun f => f.1.1 = request).map fun f => f.1.2

variable {s : Network κ M}

lemma recorded_of_none [DecidableEq κ] {request : RequestId κ}
    (hconn : (s.calls request.1).conn = none) : s.recorded request = [] := by
  rw [recorded, hconn]

variable {k : ℕ}

lemma recorded_of_some [DecidableEq κ] {request : RequestId κ}
    (hconn : (s.calls request.1).conn = some k) : s.recorded request =
      ((s.conns k).down.frames.filter fun f => f.1.1 = request).map fun f => f.1.2 := by
  rw [recorded, hconn]

/-- A call at a stage, with the connection it holds. -/
structure HoldingOk (pb : Protobuf M T) (s : Network κ M) (c : κ) (k : ℕ) (stage : Stage) :
    Prop where
  not_idle : k ∉ s.idle.map Prod.fst
  in_range : stage.InRange (s.calls c).reqs.length
  exchange : (s.conns k).Exchange c (stage.begun (s.calls c).reqs.length)
    (stage.got (s.calls c).reqs.length)
  count : (s.calls c).resps.length = stage.decoded (s.calls c).reqs.length
  frame : ∀ i frame, stage = .decoding i frame →
    ∃ resp, marshalBinaryTo pb (some resp) = .ok frame ∧ s.answers (c, i) = [resp]

structure CallOk (pb : Protobuf M T) (s : Network κ M) (c : κ) : Prop where
  early : (s.calls c).phase ∈ [Phase.notCalled, .getting, .popping, .dialing] →
    (s.calls c).conn = none ∧ (s.calls c).resps = []
  holding : ∀ k stage, s.held c = some (k, stage) → s.HoldingOk pb c k stage
  matched : ∀ j r, (s.calls c).resps[j]? = some r →
    ∃ resp, s.answers (c, j) = [resp] ∧ DecodesTo pb resp r
  sendable : ∀ req ∈ (s.calls c).reqs, Sendable pb (s.calls c).md req
  complete : (s.calls c).phase = .returned none → (s.calls c).resps.length = (s.calls c).reqs.length

structure Matched [DecidableEq κ] (pb : Protobuf M T) (s : Network κ M) : Prop where
  conn : ∀ k, ConnOk pb (s.conns k)
  idle_nodup : (s.idle.map Prod.fst).Nodup
  idle_lt : ∀ k ∈ s.idle.map Prod.fst, k < s.dialed
  idle_clean : ∀ k ∈ s.idle.map Prod.fst, (s.conns k).Clean
  owner : ∀ c c' k stage stage', s.held c = some (k, stage) → s.held c' = some (k, stage') → c = c'
  conn_lt : ∀ c k, (s.calls c).conn = some k → k < s.dialed
  requests : ∀ k, ∀ request ∈ (s.conns k).requests, (s.calls request.1).conn = some k
  answers : ∀ request, s.answers request = s.recorded request
  calls : ∀ c, s.CallOk pb c

/-! ## Frame rules -/

variable {c : κ}

lemma held_eq_some {stage : Stage} : s.held c = some (k, stage) ↔
      (s.calls c).conn = some k ∧ (s.calls c).phase = .holding stage := by
  unfold held
  cases hconn : (s.calls c).conn with
  | none => simp
  | some k' => cases hphase : (s.calls c).phase <;> simp

/-- A call is not disturbed when its own record, what it sees of its connection and the
answers it relies on stay the same. -/
lemma CallOk.of_agree {s s' : Network κ M} (h : s.CallOk pb c) (hcall : s'.calls c = s.calls c)
    (hidle : ∀ k stage, s.held c = some (k, stage) → k ∉ s.idle.map Prod.fst →
      k ∉ s'.idle.map Prod.fst) (hconn : ∀ k stage, s.held c = some (k, stage) →
      (s'.conns k).requests = (s.conns k).requests ∧ (s'.conns k).down.read = (s.conns k).down.read)
    (hanswers : ∀ j resp, s.answers (c, j) = [resp] → s'.answers (c, j) = [resp]) :
    s'.CallOk pb c := by
  refine ⟨by rw [hcall]; exact h.early, fun k stage hheld => ?_, fun j r hr => ?_,
    by rw [hcall]; exact h.sendable, by rw [hcall]; exact h.complete⟩
  · have hheld' : s.held c = some (k, stage) := by
      rw [held_eq_some] at hheld ⊢
      rwa [hcall] at hheld
    have hok := h.holding k stage hheld'
    obtain ⟨hrequests, hread⟩ := hconn k stage hheld'
    refine ⟨hidle k stage hheld' hok.not_idle, by rw [hcall]; exact hok.in_range, ?_,
      by rw [hcall]; exact hok.count, fun i frame hstage => ?_⟩
    · rw [hcall, Conn.Exchange, hrequests, hread]
      exact hok.exchange
    · obtain ⟨resp, hresp, hans⟩ := hok.frame i frame hstage
      exact ⟨resp, hresp, hanswers i resp hans⟩
  · rw [hcall] at hr
    obtain ⟨resp, hans, hresp⟩ := h.matched j r hr
    exact ⟨resp, hanswers j resp hans, hresp⟩

variable [DecidableEq κ]

/-- Connections change in ways that neither their requests, nor their responses, nor
what has been read of them show. -/
lemma Matched.setConns (h : s.Matched pb) {conns : ℕ → Conn κ M}
    (hok : ∀ k, ConnOk pb (conns k)) (hup : ∀ k, (conns k).up.frames = (s.conns k).up.frames)
    (hdown : ∀ k, (conns k).down.frames = (s.conns k).down.frames)
    (hread : ∀ k, (conns k).down.read = (s.conns k).down.read) :
    { s with conns }.Matched pb := by
  have hrequests : ∀ k, (conns k).requests = (s.conns k).requests := by
    intro k
    rw [Conn.requests, Conn.requests, hup]
  refine ⟨hok, h.idle_nodup, h.idle_lt, fun k hk => ?_, h.owner, h.conn_lt,
    fun k request hrequest => ?_, fun request => ?_, fun c => ?_⟩
  · change (conns k).down.read = (conns k).up.frames.length
    rw [hread, hup]
    exact h.idle_clean k hk
  · exact h.requests k request (hrequests k ▸ hrequest)
  · change s.answers request = _
    rw [h.answers, recorded, recorded]
    dsimp only
    cases (s.calls request.1).conn with
    | none => rfl
    | some k => simp only [hdown]
  · exact (h.calls c).of_agree rfl (fun _ _ _ h => h) (fun k _ _ => ⟨hrequests k, hread k⟩)
      (fun _ _ h => h)

lemma Matched.withConn (h : s.Matched pb) {conn : Conn κ M}
    (hok : ConnOk pb conn) (hup : conn.up.frames = (s.conns k).up.frames)
    (hdown : conn.down.frames = (s.conns k).down.frames)
    (hread : conn.down.read = (s.conns k).down.read) : (s.setConn k conn).Matched pb := by
  refine h.setConns (fun k' => ?_) (fun k' => ?_) (fun k' => ?_) (fun k' => ?_) <;>
    by_cases hk : k' = k
  · subst k'
    simpa using hok
  · simpa [hk] using h.conn k'
  · subst k'
    simpa using hup
  · simp [hk]
  · subst k'
    simpa using hdown
  · simp [hk]
  · subst k'
    simpa using hread
  · simp [hk]

/-- The record of one call changes, and the connections that it holds do. They may get more
requests of the call and may have been read further. The call does not come to hold another
connection. -/
lemma Matched.work (h : s.Matched pb) {conns : ℕ → Conn κ M} {call : Call M}
    (hcall : call.conn = (s.calls c).conn)
    (hheld : ∀ k stage, ({ s with conns }.setCall c call).held c = some (k, stage) →
      ∃ stage', s.held c = some (k, stage'))
    (hconns : ∀ k, conns k = s.conns k ∨ (∃ stage, s.held c = some (k, stage)) ∧
      ConnOk pb (conns k) ∧ (∀ request ∈ (conns k).requests,
        request ∈ (s.conns k).requests ∨ request.1 = c) ∧
      (conns k).down.frames = (s.conns k).down.frames)
    (hcallOk : ({ s with conns }.setCall c call).CallOk pb c) :
    ({ s with conns }.setCall c call).Matched pb := by
  have hother : ∀ c', c' ≠ c → ({ s with conns }.setCall c call).calls c' = s.calls c' := by
    intro c' hc
    simp [setCall, hc]
  have hcalls : ∀ c', (({ s with conns }.setCall c call).calls c').conn = (s.calls c').conn := by
    intro c'
    by_cases hc : c' = c
    · subst c'
      simp [setCall, hcall]
    · rw [hother c' hc]
  have hback : ∀ c' k stage, ({ s with conns }.setCall c call).held c' = some (k, stage) →
      ∃ stage', s.held c' = some (k, stage') := by
    intro c' k stage hc'
    by_cases hc : c' = c
    · subst c'
      exact hheld k stage hc'
    · refine ⟨stage, ?_⟩
      rw [held_eq_some] at hc' ⊢
      rwa [hother c' hc] at hc'
  have hfar : ∀ k, (∀ stage, s.held c ≠ some (k, stage)) → conns k = s.conns k := fun k hnot =>
    (hconns k).resolve_right fun ⟨⟨stage, hstage⟩, _⟩ => hnot stage hstage
  have hdown : ∀ k, (conns k).down.frames = (s.conns k).down.frames := fun k =>
    (hconns k).elim (fun heq => by rw [heq]) (·.2.2.2)
  refine ⟨fun k => ?_, h.idle_nodup, h.idle_lt, fun k hk => ?_, ?_, fun c' k hc' => ?_,
    fun k request hrequest => ?_, fun request => ?_, fun c' => ?_⟩
  · rcases hconns k with heq | ⟨-, hok, -⟩
    · change ConnOk pb (conns k)
      rw [heq]
      exact h.conn k
    · exact hok
  · change (conns k).Clean
    rw [hfar k fun stage hstage => ((h.calls c).holding k stage hstage).not_idle hk]
    exact h.idle_clean k hk
  · intro c₁ c₂ k stage₁ stage₂ h₁ h₂
    obtain ⟨stage₁', h₁'⟩ := hback c₁ k stage₁ h₁
    obtain ⟨stage₂', h₂'⟩ := hback c₂ k stage₂ h₂
    exact h.owner c₁ c₂ k stage₁' stage₂' h₁' h₂'
  · rw [hcalls] at hc'
    exact h.conn_lt c' k hc'
  · rw [hcalls]
    rcases hconns k with heq | ⟨⟨stage, hstage⟩, -, hup, -⟩
    · exact h.requests k request (heq ▸ hrequest)
    · rcases hup request hrequest with hold | hc
      · exact h.requests k request hold
      · rw [hc]
        exact (held_eq_some.mp hstage).1
  · change s.answers request = _
    rw [h.answers, recorded, recorded, hcalls]
    cases (s.calls request.1).conn with
    | none => rfl
    | some k => exact congrArg _ (congrArg _ (hdown k).symm)
  · by_cases hc : c' = c
    · subst c'
      exact hcallOk
    · refine (h.calls c').of_agree (hother c' hc) (fun _ _ _ h => h) (fun k stage hstage => ?_)
        (fun _ _ h => h)
      change (conns k).requests = _ ∧ (conns k).down.read = _
      rw [hfar k fun stage' hstage' => hc (h.owner c' c k stage stage' hstage hstage')]
      exact ⟨rfl, rfl⟩

/-- A call that holds a connection works on it. -/
lemma Matched.exchange (h : s.Matched pb) {stage : Stage}
    (hheld : s.held c = some (k, stage)) {conn : Conn κ M} {call : Call M} (hok : ConnOk pb conn)
    (hup : ∀ request ∈ conn.requests, request ∈ (s.conns k).requests ∨ request.1 = c)
    (hdown : conn.down.frames = (s.conns k).down.frames) (hcall : call.conn = some k)
    (hcallOk : ((s.setConn k conn).setCall c call).CallOk pb c) :
    ((s.setConn k conn).setCall c call).Matched pb := by
  refine h.work (hcall.trans (held_eq_some.mp hheld).1.symm) (fun k' stage' hheld' => ?_)
    (fun k' => ?_) hcallOk
  · have hk' := (held_eq_some.mp hheld').1
    simp only [setCall, update_self, hcall, Option.some.injEq] at hk'
    exact ⟨stage, hk' ▸ hheld⟩
  · by_cases hk : k' = k
    · subst k'
      rw [update_self]
      exact .inr ⟨⟨stage, hheld⟩, hok, hup, hdown⟩
    · exact .inl (update_of_ne hk ..)

lemma Matched.withCall (h : s.Matched pb) {call : Call M} (hcall : call.conn = (s.calls c).conn)
    (hheld : ∀ k stage, (s.setCall c call).held c = some (k, stage) →
      ∃ stage', s.held c = some (k, stage'))
    (hcallOk : (s.setCall c call).CallOk pb c) : (s.setCall c call).Matched pb :=
  h.work hcall hheld (fun _ => .inl rfl) hcallOk

end Network
end GoAkt.Net
