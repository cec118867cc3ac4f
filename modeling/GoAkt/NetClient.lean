import GoAkt.Frames
import GoAkt.FramedPipes
import GoAkt.Interleavings

/-!
# The pooling client and its server

Calls share a pool of idle connections. A call takes a connection from the pool or dials
one, writes its requests, reads as many responses, and puts the connection back; on every
error it closes the connection instead. The server reads one frame after the other from a
connection and answers each of them before it reads the next. Frames carry nothing that
would tell which request a response belongs to.

A step is one operation on a connection, one section of the client under its lock, or one
read of its closed flag. Bytes are written in pieces of any size, and every operation on
a connection may fail. A single request is the case of a batch of one. Next to the state
stand the connection that each call obtained and the responses that the server produced
for each request.
-/
namespace GoAkt.Net
open GoAkt.ByteStrings GoAkt.FramedPipes GoAkt.Interleavings

structure ClientSettings where
  maxIdle : ℕ
  maxFrameSize : ℕ
  serverMaxFrameSize : ℕ

inductive CallError where
  | net (err : NetError)
  /-- An error of the connection, of dialing or of the context. -/
  | transport (err : String)
  | outOfRange
  deriving DecidableEq, Repr

def CallError.ofFailure : Failure → CallError
  | .outOfRange => .outOfRange
  | .err e => .net e

/-- Where a call that holds a connection is. The number is the index of the request, or
of the response, that it is working on. -/
inductive Stage where
  | deadline
  | sending (i : ℕ)
  | writing (i : ℕ)
  | betweenSends (i : ℕ)
  | reading (i : ℕ)
  | readingBody (i : ℕ)
  | decoding (i : ℕ) (frame : Bytes)
  | betweenReads (i : ℕ)
  | putting
  | clearingDeadline
  | locking
  deriving DecidableEq, Repr

inductive Phase where
  | notCalled
  | getting
  | popping
  | dialing
  | holding (stage : Stage)
  | returned (err : Option CallError)
  deriving DecidableEq, Repr

/-- A call with its requests, the metadata of its context and the responses so far. -/
structure Call (M : Type) where
  reqs : List M
  md : Option Metadata
  resps : List (M × Option Metadata)
  /-- The connection that the call obtained. -/
  conn : Option ℕ
  phase : Phase

inductive ServerPhase (M : Type) where
  | reading
  | decoding (frame : Bytes)
  | handling (msg : M)
  | writing
  | closed

/-- A request is named by its call and its index. -/
abbrev RequestId (κ : Type) := κ × ℕ

structure Conn (κ M : Type) where
  up : Pipe (RequestId κ)
  down : Pipe (RequestId κ × M)
  server : ServerPhase M
  /-- The client has closed the connection. -/
  closed : Bool

def newConn {κ M : Type} : Conn κ M := ⟨.empty, .empty, .reading, false⟩

structure Network (κ M : Type) where
  conns : ℕ → Conn κ M
  /-- The number of connections dialed so far. -/
  dialed : ℕ
  /-- The idle connections with the time since when they are idle. -/
  idle : List (ℕ × Int64)
  closed : Bool
  /-- The client has been marked closed and its idle connections are still to be closed. -/
  closing : Bool
  calls : κ → Call M
  /-- The responses that the server produced for a request. -/
  answers : RequestId κ → List M

inductive NetEvent (κ M : Type) where
  | invoke (c : κ) (reqs : List M) (md : Option Metadata)
  | getClosedCheck (c : κ)
  | getPop (c : κ) (cutoff : Int64)
  | dial (c : κ) (err : Option String)
  | setDeadline (c : κ) (err : Option String)
  | marshal (c : κ) (now : Int64)
  | write (c : κ) (n : ℕ)
  | writeFail (c : κ) (err : String)
  | writeDone (c : κ)
  | checkContext (c : κ) (err : Option String)
  | readHeader (c : κ)
  | readBody (c : κ)
  | readFail (c : κ) (err : String)
  | decode (c : κ) (now : Int64)
  | readDone (c : κ)
  | putClosedCheck (c : κ)
  | putSetDeadline (c : κ) (ok : Bool)
  | putLock (c : κ) (now : Int64)
  | close
  | closeIdle
  | serverReadHeader (k : ℕ)
  | serverReadBody (k : ℕ)
  | serverDecode (k : ℕ) (now : Int64)
  | serverHandle (k : ℕ) (resp : Option M)
  | serverWrite (k : ℕ) (n : ℕ)
  | serverWriteDone (k : ℕ)
  | serverClose (k : ℕ)

namespace Network
variable {κ M T : Type} [DecidableEq κ] (s : Network κ M) (c : κ) (k : ℕ)

def setCall (call : Call M) : Network κ M :=
  { s with calls := Function.update s.calls c call }

def setConn (conn : Conn κ M) : Network κ M :=
  { s with conns := Function.update s.conns k conn }

def closeConn : Network κ M := s.setConn k { s.conns k with closed := true }

def setPhase (phase : Phase) : Network κ M := s.setCall c { s.calls c with phase }

def setStage (stage : Stage) : Network κ M := s.setPhase c (.holding stage)

/-- The connection is closed and the call returns, with an error or, when the connection
was not put back although the exchange succeeded, without. -/
def release (err : Option CallError) : Network κ M := (s.closeConn k).setPhase c (.returned err)

def discard (err : CallError) : Network κ M := s.release c k (some err)

/-- The call obtains the connection. -/
def hold : Network κ M := s.setCall c { s.calls c with conn := some k, phase := .holding .deadline }

/-- What the call holds: its connection and its stage. -/
def held : Option (ℕ × Stage) :=
  match (s.calls c).conn, (s.calls c).phase with
  | some k, .holding stage => some (k, stage)
  | _, _ => none

/-- The idle connections are tried from the last one on; one that has been idle for too
long is closed, and the next one is tried. -/
def getPop (cutoff : Int64) : Network κ M :=
  match s.idle.getLast? with
  | none => s.setPhase c .dialing
  | some (k, since) =>
    let s' := { s with idle := s.idle.dropLast }
    if since < cutoff then s'.closeConn k else s'.hold c k

def dial : Option String → Network κ M
  | some err => s.setPhase c (.returned (some (.transport err)))
  | none => ({ s with dialed := s.dialed + 1 }.setConn s.dialed newConn).hold c s.dialed

section Client
variable (pb : Protobuf M T) (cfg : ClientSettings) (s : Network κ M) (c : κ)

def marshal (k i : ℕ) (now : Int64) : Network κ M :=
  match (s.calls c).reqs[i]? with
  | none => s.setStage c (.reading 0)
  | some req =>
    match marshalProtoWithContext pb (s.calls c).md (some req) now with
    | .error err => s.discard c k (.net err)
    | .ok frame =>
      (s.setConn k { s.conns k with up := (s.conns k).up.begin (c, i) frame }).setStage c
        (.writing i)

/-- Between two requests, and between two responses, the context is checked. -/
def afterWrite (i : ℕ) : Network κ M :=
  s.setStage c (if i < (s.calls c).reqs.length - 1 then .betweenSends i else .sending (i + 1))

def afterRead (i : ℕ) : Network κ M :=
  s.setStage c (if i < (s.calls c).reqs.length - 1 then .betweenReads i else .reading (i + 1))

def readHeader (s : Network κ M) (c : κ) (k i : ℕ) : Option (Network κ M) :=
  match (s.conns k).down.readHeader with
  | none => none
  | some down =>
    let totalLen := uint down.header
    if totalLen < 8 then some (s.discard c k (.net .invalidMessageLength))
    else if totalLen > cfg.maxFrameSize then some (s.discard c k (.net .frameTooLarge))
    else some ((s.setConn k { s.conns k with down }).setStage c (.readingBody i))

def readBody (s : Network κ M) (c : κ) (k i : ℕ) : Option (Network κ M) :=
  match (s.conns k).down.readBody with
  | none => none
  | some (frame, down) =>
    some ((s.setConn k { s.conns k with down }).setStage c (.decoding i frame))

def decode (k i : ℕ) (frame : Bytes) (now : Int64) : Network κ M :=
  match unmarshalProtoResponse pb frame now with
  | .error failure => s.discard c k (.ofFailure failure)
  | .ok resp => (s.setCall c { s.calls c with resps := (s.calls c).resps ++ [resp] }).afterRead c i

def putLock (k : ℕ) (now : Int64) : Network κ M :=
  if s.idle.length < cfg.maxIdle then
    { s with idle := s.idle ++ [(k, now)] }.setPhase c (.returned none)
  else s.release c k none

end Client

section Server
variable (pb : Protobuf M T) (cfg : ClientSettings)

section
omit [DecidableEq κ]

variable (s : Network κ M) (k : ℕ)

def setServer (server : ServerPhase M) : Network κ M := s.setConn k { s.conns k with server }

def serverReadHeader : Option (Network κ M) :=
  match (s.conns k).up.readHeader with
  | none => none
  | some up =>
    let totalLen := uint up.header
    if totalLen < 8 ∨ totalLen > cfg.serverMaxFrameSize then some (s.setServer k .closed)
    else some (s.setConn k { s.conns k with up })

def serverReadBody : Option (Network κ M) :=
  match (s.conns k).up.readBody with
  | none => none
  | some (frame, up) => some (s.setConn k { s.conns k with up, server := .decoding frame })

def serverDecode (frame : Bytes) (now : Int64) : Network κ M :=
  match handleConnUnmarshal pb frame now with
  | .error _ => s.setServer k .closed
  | .ok (msg, _, _) => s.setServer k (.handling msg)

/-- The request that the server has read last. -/
def lastRead : Option (RequestId κ) :=
  ((s.conns k).up.frames[(s.conns k).up.read - 1]?).map Prod.fst

end

/-- A handler that is missing, panics or fails closes the connection, and so does a
response that cannot be marshaled. -/
def serverHandle (s : Network κ M) (k : ℕ) (resp : Option M) : Option (Network κ M) :=
  match resp with
  | none => some (s.setServer k .closed)
  | some resp =>
    match marshalBinaryTo pb (some resp) with
    | .error _ => some (s.setServer k .closed)
    | .ok frame =>
      (s.lastRead k).map fun request =>
        { s.setConn k { s.conns k with
            down := (s.conns k).down.begin (request, resp) frame
            server := .writing } with
          answers := Function.update s.answers request (s.answers request ++ [resp]) }

end Server

variable (pb : Protobuf M T) (cfg : ClientSettings)

/-- The moves of a call that holds a connection. -/
def holdingStep (s : Network κ M) (c : κ) (k : ℕ) (stage : Stage) :
    NetEvent κ M → Option (Network κ M)
  | .setDeadline _ err => allow (stage = .deadline) (match err with
    | some err => s.discard c k (.transport err)
    | none => s.setStage c (.sending 0))
  | .marshal _ now =>
    match stage with
    | .sending i => some (s.marshal pb c k i now)
    | _ => none
  | .write _ n =>
    match stage with
    | .writing _ => some (s.setConn k { s.conns k with up := (s.conns k).up.push n })
    | _ => none
  | .writeFail _ err =>
    match stage with
    | .writing _ => some (s.discard c k (.transport err))
    | _ => none
  | .writeDone _ =>
    match stage with
    | .writing i => allow ((s.conns k).up.unsent = []) (s.afterWrite c i)
    | _ => none
  | .checkContext _ err =>
    match stage, err with
    | .betweenSends _, some err => some (s.discard c k (.transport err))
    | .betweenSends i, none => some (s.setStage c (.sending (i + 1)))
    | .betweenReads _, some err => some (s.discard c k (.transport err))
    | .betweenReads i, none => some (s.setStage c (.reading (i + 1)))
    | _, _ => none
  | .readHeader _ =>
    match stage with
    | .reading i => if i < (s.calls c).reqs.length then s.readHeader cfg c k i else none
    | _ => none
  | .readBody _ =>
    match stage with
    | .readingBody i => s.readBody c k i
    | _ => none
  | .readFail _ err =>
    match stage with
    | .reading i => allow (i < (s.calls c).reqs.length) (s.discard c k (.transport err))
    | .readingBody _ => some (s.discard c k (.transport err))
    | _ => none
  | .decode _ now =>
    match stage with
    | .decoding i frame => some (s.decode pb c k i frame now)
    | _ => none
  | .readDone _ =>
    match stage with
    | .reading i => allow (i = (s.calls c).reqs.length) (s.setStage c .putting)
    | _ => none
  | .putClosedCheck _ => allow (stage = .putting)
      (if s.closed then s.release c k none else s.setStage c .clearingDeadline)
  | .putSetDeadline _ ok => allow (stage = .clearingDeadline)
      (if ok then s.setStage c .locking else s.release c k none)
  | .putLock _ now => allow (stage = .locking) (s.putLock cfg c k now)
  | _ => none

/-- The moves of a call that does not hold a connection, of the closing client, and of
the server. -/
def otherStep (s : Network κ M) : NetEvent κ M → Option (Network κ M)
  | .invoke c reqs md => allow ((s.calls c).phase = .notCalled)
      (s.setCall c ⟨reqs, md, [], none, .getting⟩)
  | .getClosedCheck c => allow ((s.calls c).phase = .getting)
      (s.setPhase c (if s.closed then .returned (some (.net .clientClosed)) else .popping))
  | .getPop c cutoff => allow ((s.calls c).phase = .popping) (s.getPop c cutoff)
  | .dial c err => allow ((s.calls c).phase = .dialing) (s.dial c err)
  | .close => some (if s.closed then s else { s with closed := true, closing := true })
  | .closeIdle => allow (s.closing = true)
      { s with
        conns := fun k => if k ∈ s.idle.map Prod.fst then { s.conns k with closed := true }
          else s.conns k
        idle := []
        closing := false }
  | .serverReadHeader k =>
    match (s.conns k).server with
    | .reading => s.serverReadHeader cfg k
    | _ => none
  | .serverReadBody k =>
    match (s.conns k).server with
    | .reading => s.serverReadBody k
    | _ => none
  | .serverDecode k now =>
    match (s.conns k).server with
    | .decoding frame => some (s.serverDecode pb k frame now)
    | _ => none
  | .serverHandle k resp =>
    match (s.conns k).server with
    | .handling _ => s.serverHandle pb k resp
    | _ => none
  | .serverWrite k n =>
    match (s.conns k).server with
    | .writing => some (s.setConn k { s.conns k with down := (s.conns k).down.push n })
    | _ => none
  | .serverWriteDone k =>
    match (s.conns k).server with
    | .writing => allow ((s.conns k).down.unsent = []) (s.setServer k .reading)
    | _ => none
  | .serverClose k => some (s.setServer k .closed)
  | _ => none

end Network

/-- The call that moves, for the moves of a call that holds a connection. -/
def NetEvent.holder {κ M : Type} : NetEvent κ M → Option κ
  | .setDeadline c _ => some c
  | .marshal c _ => some c
  | .write c _ => some c
  | .writeFail c _ => some c
  | .writeDone c => some c
  | .checkContext c _ => some c
  | .readHeader c => some c
  | .readBody c => some c
  | .readFail c _ => some c
  | .decode c _ => some c
  | .readDone c => some c
  | .putClosedCheck c => some c
  | .putSetDeadline c _ => some c
  | .putLock c _ => some c
  | _ => none

namespace Network
variable {κ M T : Type} [DecidableEq κ] (pb : Protobuf M T) (cfg : ClientSettings)

def step (s : Network κ M) (e : NetEvent κ M) : Option (Network κ M) :=
  match e.holder with
  | none => s.otherStep pb cfg e
  | some c =>
    match s.held c with
    | none => none
    | some (k, stage) => s.holdingStep pb cfg c k stage e

def system : System (Network κ M) (NetEvent κ M) where
  start := ⟨fun _ => newConn, 0, [], false, false, fun _ => ⟨[], none, [], none, .notCalled⟩,
    fun _ => []⟩
  step := step pb cfg

end Network
end GoAkt.Net
