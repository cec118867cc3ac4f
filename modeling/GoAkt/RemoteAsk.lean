import GoAkt.Fallible
import GoAkt.SerializerDispatch

/-!
# Remote asks

The three calls that wait for the answer of a remote actor or grain. The client encodes a
request by the type of the request and the server decodes it on its receive path; the
server encodes the reply by the type of the reply. The client decodes it with the
serializer that it resolved for the request at the same position. Whether this is the
serializer that encoded the reply depends on the registrations alone.
-/
namespace GoAkt.Remote
open GoAkt.ByteStrings GoAkt.Fallible List

inductive Code where
  | notFound
  | deadlineExceeded
  | unavailable
  | failedPrecondition
  | alreadyExists
  | invalidArgument
  | internalError
  deriving DecidableEq, Repr

inductive AskError where
  | invalidMessage (err : String)
  | invalidResponseType
  | text (err : String)
  /-- The errors that the client recognises by their code or their text. -/
  | known (err : String)
  /-- The connection was closed before a response came. -/
  | connectionClosed
  /-- The batch loop read past the serializers it had collected. -/
  | outOfRange
  deriving DecidableEq, Repr

structure RemoteMessage where
  sender : String
  receiver : String
  message : Bytes

structure Grain where
  hostPort : String
  identity : String

structure AskGrainRequest where
  grain : Grain
  message : Bytes

inductive Response where
  | error (code : Code) (message : String)
  | ask (messages : List Bytes)
  | askGrain (message : Bytes)
  deriving DecidableEq, Repr

def errRequestTimeout : String := "request timed out"
def errRemotingDisabled : String := "remoting is not enabled"
def errRemoteSendFailure : String := "remote send failed"
def errAddressNotFound : String := "address not found"
def errInvalidHost : String := "invalid host"
def errDead : String := "actor is not alive"
def errInvalidRemoteMessage : String := "invalid remote message"
def errTypeNotRegistered : String := "actor type is not registered"
def errClusterDisabled : String := "cluster is not enabled"
def errSingletonAlreadyExists : String := "singleton already exists"
def errActorAlreadyExists : String := "actor already exists"
def errInvalidGrainIdentity : String := "invalid graind identity"
def errReservedName : String := "actor name is reserved"

/-- How a handler fails: with an error for the client, or with a panic, after which the
connection is closed. -/
inductive HandlerFailure where
  | reply (code : Code) (text : String)
  | panic
  deriving DecidableEq, Repr

def joinErrors (first second : String) : String := first ++ "\n" ++ second

/-! ## The client -/

section Client
variable {T E : Type} [DecidableEq T]

def contains (text part : String) : Bool := 1 < (text.splitOn part).length

def parseFailedPrecondition (msg : String) : AskError :=
  if contains msg errTypeNotRegistered then .known errTypeNotRegistered
  else if contains msg errRemotingDisabled then .known errRemotingDisabled
  else if contains msg errClusterDisabled then .known errClusterDisabled
  else .text msg

def parseAlreadyExists (msg : String) : AskError :=
  if contains msg "singleton" then .known errSingletonAlreadyExists
  else .known errActorAlreadyExists

def protoError (code : Code) (msg : String) : AskError :=
  match code with
  | .notFound => .known errAddressNotFound
  | .deadlineExceeded => .known errRequestTimeout
  | .unavailable => .known errRemoteSendFailure
  | .failedPrecondition => parseFailedPrecondition msg
  | .alreadyExists => parseAlreadyExists msg
  | .invalidArgument => .text ("invalid argument: " ++ msg)
  | .internalError => .text msg

def checkProtoError : Response → Except AskError Unit
  | .error code msg => .error (protoError code msg)
  | _ => .ok ()

def invalidMessage {α : Type} : Except String α → Except AskError α
  | .ok a => .ok a
  | .error err => .error (.invalidMessage err)

variable (r : Remoting T E) (typeText : E → String)

def resolveOrFail (message : E) (text : String) : Except AskError (Serializer E) :=
  match r.resolveSerializer message with
  | some serializer => .ok serializer
  | none => .error (.invalidMessage text)

/-- The result is nil when the server sent no reply. -/
def remoteAsk (send : List RemoteMessage → Except AskError Response)
    (sender receiver : String) (message : E) : Except AskError (Option E) := do
  let serializer ← resolveOrFail r message
    ("no serializer found for message type " ++ typeText message)
  let marshaled ← invalidMessage (serializer.serialize message)
  let resp ← send [⟨sender, receiver, marshaled⟩]
  checkProtoError resp
  match resp with
  | .ask [] => return none
  | .ask (reply :: _) => return some (← invalidMessage (serializer.deserialize reply))
  | _ => throw .invalidResponseType

def remoteAskGrain (send : AskGrainRequest → Except AskError Response)
    (grain : Except String Grain) (message : E) : Except AskError E := do
  let grain ← match grain with
    | .ok grain => pure grain
    | .error err => throw (.text err)
  let serializer ← resolveOrFail r message "no serializer found for message type"
  let marshaled ← invalidMessage (serializer.serialize message)
  let resp ← send ⟨grain, marshaled⟩
  checkProtoError resp
  match resp with
  | .askGrain reply => invalidMessage (serializer.deserialize reply)
  | _ => throw .invalidResponseType

/-- The encoded requests of a batch, each with the serializer that encoded it. -/
def packBatch (messages : List E) : Except AskError (List (Serializer E × Bytes)) :=
  (messages.filter fun message => (r.reflection.typeOf message).isSome).mapM fun message => do
    let serializer ← resolveOrFail r message
      ("no serializer found for message type " ++ typeText message)
    let packed ← invalidMessage (serializer.serialize message)
    return (serializer, packed)

/-- The reply at each position is decoded with the serializer of the request there. -/
def unpackBatch (serializers : List (Serializer E)) : ℕ → List Bytes → Except AskError (List E)
  | _, [] => return []
  | index, reply :: replies => do
    match serializers[index]? with
    | none => throw .outOfRange
    | some serializer =>
      let response ← invalidMessage (serializer.deserialize reply)
      let responses ← unpackBatch serializers (index + 1) replies
      return response :: responses

def remoteBatchAsk (send : List RemoteMessage → Except AskError Response)
    (sender receiver : String) (messages : List E) : Except AskError (List E) := do
  let packed ← packBatch r typeText messages
  let resp ← send (packed.map fun p => ⟨sender, receiver, p.2⟩)
  checkProtoError resp
  match resp with
  | .ask replies => unpackBatch (packed.map Prod.fst) 0 replies
  | _ => throw .invalidResponseType

end Client

/-! ## The server -/

/-- A local actor: whether it is running, and what an ask gives in a state of the system,
a reply or, when none came in time, the error of the wait. -/
structure LocalActor (E σ : Type) where
  running : Bool
  ask : σ → E → Except String E × σ

structure Address where
  text : String
  hostPort : String

structure GrainIdentity where
  text : String
  name : String

structure IdentityError where
  text : String
  isInvalidGrainIdentity : Bool

/-- The node that answers, as far as asks see it. -/
structure Node (T E σ : Type) where
  remoting : Remoting T E
  remotingEnabled : Bool
  remoteHostPort : String
  /-- The tree of actors by address; a node of the tree may have lost its actor. -/
  actors : String → Option (Option (LocalActor E σ))
  parse : String → Except String Address
  toIdentity : String → Except IdentityError GrainIdentity
  isSystemName : String → Bool
  /-- What a synchronous send to a grain gives. -/
  localSend : σ → GrainIdentity → E → Except String E × σ

namespace Node
variable {T E σ : Type} [DecidableEq T] (node : Node T E σ)

section
omit [DecidableEq T]

def validateRemoteHost (hostPort : String) : Except HandlerFailure Unit :=
  if node.remoteHostPort ≠ hostPort then .error (.reply .invalidArgument errInvalidHost)
  else .ok ()

def notFound (receiver : String) : HandlerFailure :=
  .reply .notFound ("(actor address=" ++ receiver ++ ") " ++ errAddressNotFound)

/-- The receiver is looked up as it stands in the message and then in its canonical
form. -/
def lookup (receiver : String) : Except HandlerFailure (Option (LocalActor E σ)) :=
  match node.actors receiver with
  | some pid => .ok pid
  | none => do
    let addr ← match node.parse receiver with
      | .ok addr => pure addr
      | .error err => .error (.reply .invalidArgument err)
    node.validateRemoteHost addr.hostPort
    match node.actors addr.text with
    | some pid => .ok pid
    | none => .error (notFound receiver)

def receiver (address : String) : Except HandlerFailure (LocalActor E σ) := do
  match ← node.lookup address with
  | none => .error (notFound address)
  | some pid =>
    if pid.running then .ok pid
    else .error (.reply .internalError (joinErrors errRemoteSendFailure errDead))

end

/-- The payload of a wire message. A sender that is given must be an address. -/
def unwrapRemoteMessage (message : RemoteMessage) : Except String E :=
  match node.remoting.dispatchDeserialize message.message with
  | .error err => .error (joinErrors errInvalidRemoteMessage err)
  | .ok payload =>
    if message.sender = "" then .ok payload
    else match node.parse message.sender with
      | .ok _ => .ok payload
      | .error err => .error (joinErrors errInvalidRemoteMessage err)

/-- A reply without a serializer makes the handler call a method of a nil interface. -/
def encodeReply (reply : E) : Except HandlerFailure Bytes :=
  match node.remoting.resolveSerializer reply with
  | none => .error .panic
  | some serializer =>
    match serializer.serialize reply with
    | .ok data => .ok data
    | .error err => .error (.reply .internalError err)

/-- One message of an ask: the actor is found, the message is decoded, the actor is asked
and its reply is encoded. -/
def handleMessage (s : σ) : Option RemoteMessage → Except HandlerFailure Bytes × σ
  | none => (.error (.reply .invalidArgument "remote message cannot be nil"), s)
  | some message =>
    match node.receiver message.receiver with
    | .error failure => (.error failure, s)
    | .ok pid =>
      match node.unwrapRemoteMessage message with
      | .error err => (.error (.reply .internalError (joinErrors errRemoteSendFailure err)), s)
      | .ok payload =>
        match pid.ask s payload with
        | (.error err, s') =>
          (.error (.reply .deadlineExceeded (joinErrors errRemoteSendFailure err)), s')
        | (.ok reply, s') => (node.encodeReply reply, s')

/-- The loop stops at the first message that fails. -/
def handleMessages : σ → List (Option RemoteMessage) → List Bytes →
    Except HandlerFailure Response × σ
  | s, [], responses => (.ok (.ask responses), s)
  | s, message :: messages, responses =>
    match node.handleMessage s message with
    | (.error failure, s') => (.error failure, s')
    | (.ok data, s') => handleMessages s' messages (responses ++ [data])

def remoteAskHandler (s : σ) (messages : List (Option RemoteMessage)) :
    Except HandlerFailure Response × σ :=
  if node.remotingEnabled then node.handleMessages s messages []
  else (.error (.reply .failedPrecondition errRemotingDisabled), s)

def remoteAskGrainHandler (s : σ) (request : AskGrainRequest) :
    Except HandlerFailure Response × σ :=
  if node.remotingEnabled = false then
    (.error (.reply .failedPrecondition errRemotingDisabled), s)
  else match node.validateRemoteHost request.grain.hostPort with
  | .error failure => (.error failure, s)
  | .ok () =>
    match node.remoting.dispatchDeserialize request.message with
    | .error err => (.error (.reply .invalidArgument err), s)
    | .ok message =>
      match node.toIdentity request.grain.identity with
      | .error err => (.error (.reply .invalidArgument
          (if err.isInvalidGrainIdentity then err.text
          else joinErrors err.text errInvalidGrainIdentity)), s)
      | .ok identity =>
        if node.isSystemName identity.name then
          (.error (.reply .failedPrecondition
            ("name=(" ++ identity.text ++ ") " ++ errReservedName)), s)
        else match node.localSend s identity message with
          | (.error err, s') => (.error (.reply .internalError err), s')
          | (.ok reply, s') => ((node.encodeReply reply).map .askGrain, s')

end Node

open Node

/-- What the client receives for the outcome of a handler. -/
def deliver : Except HandlerFailure Response → Except AskError Response
  | .ok response => .ok response
  | .error (.reply code text) => .ok (.error code text)
  | .error .panic => .error .connectionClosed

namespace Node
variable {T E σ : Type} [DecidableEq T] (node : Node T E σ)

def answerAsk (s : σ) (messages : List RemoteMessage) : Except AskError Response :=
  deliver (node.remoteAskHandler s (messages.map some)).1

def answerAskGrain (s : σ) (request : AskGrainRequest) : Except AskError Response :=
  deliver (node.remoteAskGrainHandler s request).1

/-- The messages of the sender reach the running actor. -/
structure Reaches (sender receiver : String) (pid : LocalActor E σ) : Prop where
  enabled : node.remotingEnabled = true
  found : node.receiver receiver = .ok pid
  sender_valid : sender = "" ∨ ∃ addr, node.parse sender = .ok addr

/-- The messages for the grain reach it. -/
structure ReachesGrain (grain : Grain) (identity : GrainIdentity) : Prop where
  enabled : node.remotingEnabled = true
  host : node.remoteHostPort = grain.hostPort
  identified : node.toIdentity grain.identity = .ok identity
  not_system : node.isSystemName identity.name = false

end Node

/-- Asked one after the other, the actor answers the requests with the replies. -/
def LocalActor.Answers {E σ : Type} (pid : LocalActor E σ) : σ → List E → List E → Prop
  | _, [], [] => True
  | s, request :: requests, reply :: replies =>
    ∃ s', pid.ask s request = (.ok reply, s') ∧ pid.Answers s' requests replies
  | _, _, _ => False

namespace Remoting
variable {T E : Type} [DecidableEq T] (r : Remoting T E)

/-- The type of the message matches some entry. -/
def Registered (message : E) : Prop :=
  ∃ msgType, r.reflection.typeOf message = some msgType ∧
    ∃ entry ∈ r.serializers, r.matchesEntry msgType entry = true

/-- The request and the reply are encoded by one and the same serializer. -/
def SharedSerializer (request reply : E) : Prop :=
  ∃ serializer requestData replyData, r.Encodes request serializer requestData ∧
    r.Encodes reply serializer replyData

end Remoting

/-! ## What comes back -/

section Exchange
variable {T E σ : Type} [DecidableEq T] {node : Node T E σ} {pid : LocalActor E σ}
  {sender receiver : String} {s s' : σ} {request reply : E}

lemma invalidMessage_eq_ok {α : Type} {result : Except String α} {a : α} :
    invalidMessage result = .ok a ↔ result = .ok a := by
  cases result <;> simp [invalidMessage]

variable {serializer : Serializer E} {data : Bytes}

/-- A registered request is packed if and only if its serializer encodes it. -/
lemma pack_eq_ok_iff {r : Remoting T E} {message : E} (hreg : r.Registered message)
    {text : String} : (resolveOrFail r message text = .ok serializer ∧
      invalidMessage (serializer.serialize message) = .ok data) ↔
      r.Encodes message serializer data := by
  obtain ⟨msgType, htype, -⟩ := hreg
  have hresolve : resolveOrFail r message text = .ok serializer ↔
      r.resolveSerializer message = some serializer := by
    unfold resolveOrFail
    cases r.resolveSerializer message <;> simp
  rw [hresolve, invalidMessage_eq_ok]
  constructor
  · rintro ⟨hresolved, hencoded⟩
    exact ⟨by simp [htype], hresolved, hencoded⟩
  · rintro ⟨-, hresolved, hencoded⟩
    exact ⟨hresolved, hencoded⟩

lemma encodeReply_eq_ok_iff (hreg : node.remoting.Registered reply) :
    node.encodeReply reply = .ok data ↔
      ∃ serializer, node.remoting.Encodes reply serializer data := by
  obtain ⟨msgType, htype, -⟩ := hreg
  unfold encodeReply
  constructor
  · intro h
    split at h
    · cases h
    next serializer hresolved =>
      split at h
      next hencoded =>
        cases h
        exact ⟨serializer, by simp [htype], hresolved, hencoded⟩
      · cases h
  · rintro ⟨serializer, hserializer⟩
    simp only [hserializer.resolved, hserializer.encoded]

/-- The server decodes the request, whatever serializer encoded it. -/
lemma handleMessage_of_encodes (hr : node.remoting.WellBehaved)
    (hreach : node.Reaches sender receiver pid)
    (hrequest : node.remoting.Encodes request serializer data)
    (hask : pid.ask s request = (.ok reply, s')) :
    node.handleMessage s (some ⟨sender, receiver, data⟩) = (node.encodeReply reply, s') := by
  have hunwrap : node.unwrapRemoteMessage ⟨sender, receiver, data⟩ = .ok request := by
    simp only [unwrapRemoteMessage, Remoting.dispatchDeserialize_of_encodes hr hrequest]
    rcases hreach.sender_valid with hempty | ⟨addr, haddr⟩
    · rw [if_pos hempty]
    · simp [haddr]
  simp only [handleMessage, hreach.found, hunwrap, hask]

/-- What passes the client's error check is what a handler returned without failing. -/
lemma eq_of_delivered {α : Type} {result : Except HandlerFailure α} {f : α → Response}
    {resp : Response} (hsend : deliver (result.map f) = .ok resp)
    (hcheck : checkProtoError resp = .ok ()) : ∃ a, result = .ok a ∧ resp = f a := by
  cases result with
  | ok a =>
    cases hsend
    exact ⟨a, rfl, rfl⟩
  | error failure =>
    cases failure with
    | reply code text =>
      cases hsend
      cases hcheck
    | panic => cases hsend

section
variable (hr : node.remoting.WellBehaved)
include hr

/-- The client decodes the reply if and only if one serializer encoded both. -/
lemma decodes_iff_shared (hreply : node.remoting.Registered reply)
    (hencodes : node.remoting.Encodes request serializer data) :
    (∃ replyData, node.encodeReply reply = .ok replyData ∧
      serializer.deserialize replyData = .ok reply) ↔
      node.remoting.SharedSerializer request reply := by
  constructor
  · rintro ⟨replyData, hencoded, hdecoded⟩
    obtain ⟨other, hother⟩ := (encodeReply_eq_ok_iff hreply).mp hencoded
    obtain ⟨entry, hentry, rfl⟩ := hencodes.mem
    have heq := (hother.deserialize_iff hr hentry).mp hdecoded
    exact ⟨entry.serializer, data, replyData, hencodes, heq ▸ hother⟩
  · rintro ⟨other, requestData, replyData, hrequest, hother⟩
    have heq : other = serializer :=
      Option.some.inj (hrequest.resolved.symm.trans hencodes.resolved)
    subst heq
    exact ⟨replyData, (encodeReply_eq_ok_iff hreply).mpr ⟨other, hother⟩, hother.deserialize hr⟩

lemma remoteAsk_eq_ok_iff (typeText : E → String)
    (hreach : node.Reaches sender receiver pid) (hrequest : node.remoting.Registered request)
    (hreply : node.remoting.Registered reply) (hask : pid.ask s request = (.ok reply, s')) :
    remoteAsk node.remoting typeText (node.answerAsk s) sender receiver request =
        .ok (some reply) ↔
      node.remoting.SharedSerializer request reply := by
  have hanswer : ∀ serializer data, node.remoting.Encodes request serializer data →
      node.answerAsk s [⟨sender, receiver, data⟩] =
        deliver ((node.encodeReply reply).map fun replyData => .ask [replyData]) := by
    intro serializer data hencodes
    have hhandle := handleMessage_of_encodes hr hreach hencodes hask
    simp only [answerAsk, remoteAskHandler, hreach.enabled, if_true, map_cons,
      map_nil, handleMessages, hhandle]
    cases node.encodeReply reply <;> rfl
  simp only [remoteAsk, bind_eq_ok]
  constructor
  · rintro ⟨serializer, hresolve, data, hmarshal, resp, hsend, ⟨⟩, hcheck, hresult⟩
    have hencodes := (pack_eq_ok_iff hrequest).mp ⟨hresolve, hmarshal⟩
    rw [hanswer serializer data hencodes] at hsend
    obtain ⟨replyData, hencoded, rfl⟩ := eq_of_delivered hsend hcheck
    simp only [bind_eq_ok, invalidMessage_eq_ok, pure_eq_ok, Option.some.injEq,
      exists_eq_right] at hresult
    exact (decodes_iff_shared hr hreply hencodes).mp ⟨replyData, hencoded, hresult⟩
  · intro hshared
    have ⟨serializer, data, _, hencodes, _⟩ := hshared
    obtain ⟨replyData, hencoded, hdecoded⟩ := (decodes_iff_shared hr hreply hencodes).mpr hshared
    obtain ⟨hresolve, hmarshal⟩ := (pack_eq_ok_iff hrequest).mpr hencodes
    refine ⟨serializer, hresolve, data, hmarshal, .ask [replyData], ?_, (), rfl, ?_⟩
    · rw [hanswer serializer data hencodes, hencoded]
      rfl
    · simp only [bind_eq_ok, invalidMessage_eq_ok, pure_eq_ok, Option.some.injEq,
        exists_eq_right]
      exact hdecoded

lemma remoteAskGrain_eq_ok_iff {grain : Grain}
    {identity : GrainIdentity} (hreach : node.ReachesGrain grain identity)
    (hrequest : node.remoting.Registered request) (hreply : node.remoting.Registered reply)
    (hsend : node.localSend s identity request = (.ok reply, s')) :
    remoteAskGrain node.remoting (node.answerAskGrain s) (.ok grain) request = .ok reply ↔
      node.remoting.SharedSerializer request reply := by
  have hanswer : ∀ serializer data, node.remoting.Encodes request serializer data →
      node.answerAskGrain s ⟨grain, data⟩ = deliver ((node.encodeReply reply).map .askGrain) := by
    intro serializer data hencodes
    simp [answerAskGrain, remoteAskGrainHandler, hreach.enabled,
      validateRemoteHost, hreach.host, Remoting.dispatchDeserialize_of_encodes hr hencodes,
      hreach.identified, hreach.not_system, hsend]
  simp only [remoteAskGrain, bind_eq_ok]
  constructor
  · rintro ⟨found, hfound, serializer, hresolve, data, hmarshal, resp, hsend, ⟨⟩, hcheck, hresult⟩
    cases hfound
    have hencodes := (pack_eq_ok_iff hrequest).mp ⟨hresolve, hmarshal⟩
    rw [hanswer serializer data hencodes] at hsend
    obtain ⟨replyData, hencoded, rfl⟩ := eq_of_delivered hsend hcheck
    have hdecoded := invalidMessage_eq_ok.mp hresult
    exact (decodes_iff_shared hr hreply hencodes).mp ⟨replyData, hencoded, hdecoded⟩
  · intro hshared
    have ⟨serializer, data, _, hencodes, _⟩ := hshared
    obtain ⟨replyData, hencoded, hdecoded⟩ := (decodes_iff_shared hr hreply hencodes).mpr hshared
    obtain ⟨hresolve, hmarshal⟩ := (pack_eq_ok_iff hrequest).mpr hencodes
    refine ⟨grain, rfl, serializer, hresolve, data, hmarshal, .askGrain replyData, ?_, (), rfl,
      invalidMessage_eq_ok.mpr hdecoded⟩
    rw [hanswer serializer data hencodes, hencoded]
    rfl

end

/-! ## Batches -/

lemma packBatch_eq_ok_iff {r : Remoting T E} (typeText : E → String) {messages : List E}
    (hreg : ∀ message ∈ messages, r.Registered message) (packed : List (Serializer E × Bytes)) :
    packBatch r typeText messages = .ok packed ↔
      List.Forall₂ (fun message p => r.Encodes message p.1 p.2) messages packed := by
  have hfilter : messages.filter (fun message => (r.reflection.typeOf message).isSome) =
      messages := by
    rw [filter_eq_self]
    intro message hmessage
    obtain ⟨msgType, htype, -⟩ := hreg message hmessage
    simp [htype]
  rw [packBatch, hfilter]
  clear hfilter
  induction messages generalizing packed with
  | nil => rw [mapM_nil_eq_ok, forall₂_nil_left_iff]
  | cons message messages ih =>
    obtain ⟨hmessage, hmessages⟩ := forall_mem_cons.mp hreg
    rw [mapM_cons_eq_ok, forall₂_cons_left_iff]
    simp only [bind_eq_ok, pure_eq_ok, ih hmessages]
    constructor
    · rintro ⟨_, rest, ⟨serializer, hresolve, data, hmarshal, rfl⟩, hrest, rfl⟩
      exact ⟨_, rest, (pack_eq_ok_iff hmessage).mp ⟨hresolve, hmarshal⟩, hrest, rfl⟩
    · rintro ⟨p, rest, hp, hrest, rfl⟩
      obtain ⟨hresolve, hmarshal⟩ := (pack_eq_ok_iff hmessage).mpr hp
      exact ⟨p, rest, ⟨p.1, hresolve, p.2, hmarshal, rfl⟩, hrest, rfl⟩

variable {requests replies : List E}

/-- The server answers the requests of a batch in order, up to the first reply that cannot
be encoded. -/
lemma handleMessages_of_answers (hr : node.remoting.WellBehaved)
    (hreach : node.Reaches sender receiver pid)
    (hanswers : pid.Answers s requests replies) {packed : List (Serializer E × Bytes)}
    (hpacked : List.Forall₂ (fun message p => node.remoting.Encodes message p.1 p.2)
      requests packed) (responses : List Bytes) :
    (node.handleMessages s (packed.map fun p => some ⟨sender, receiver, p.2⟩) responses).1 =
      (replies.mapM node.encodeReply).map fun datas => .ask (responses ++ datas) := by
  induction requests generalizing s replies packed responses with
  | nil =>
    cases replies with
    | cons reply replies => cases hanswers
    | nil =>
      rw [forall₂_nil_left_iff.mp hpacked]
      simp [handleMessages, Except.map, pure, Except.pure]
  | cons request requests ih =>
    cases replies with
    | nil => cases hanswers
    | cons reply replies =>
      obtain ⟨s', hask, hrest⟩ := hanswers
      obtain ⟨p, rest, hp, hpackedRest, rfl⟩ := forall₂_cons_left_iff.mp hpacked
      have hhandle := handleMessage_of_encodes hr hreach hp hask
      rw [map_cons, handleMessages, hhandle, mapM_cons]
      cases hencode : node.encodeReply reply with
      | error failure => rfl
      | ok data =>
        dsimp only
        rw [ih hrest hpackedRest (responses ++ [data]), ok_bind]
        cases replies.mapM node.encodeReply with
        | error failure => rfl
        | ok datas => simp [Except.map, pure, Except.pure]

/-- The replies of a batch are decoded if and only if at each position one serializer
encoded both the request and the reply. The serializers in `front` have been used. -/
lemma unpackBatch_iff_shared (hr : node.remoting.WellBehaved)
    (hlen : requests.length = replies.length)
    (hreplies : ∀ reply ∈ replies, node.remoting.Registered reply) (front : List (Serializer E)) :
    (∃ packed, List.Forall₂ (fun message p => node.remoting.Encodes message p.1 p.2)
        requests packed ∧ ∃ datas, replies.mapM node.encodeReply = .ok datas ∧
        unpackBatch (front ++ packed.map Prod.fst) front.length datas = .ok replies) ↔
      List.Forall₂ node.remoting.SharedSerializer requests replies := by
  induction requests generalizing replies front with
  | nil =>
    obtain rfl : replies = [] := length_eq_zero_iff.mp hlen.symm
    simp [unpackBatch, pure_eq_ok]
  | cons request requests ih =>
    cases replies with
    | nil => cases hlen
    | cons reply replies =>
      obtain ⟨hreply, hrepliesRest⟩ := forall_mem_cons.mp hreplies
      have hnext : ∀ (p : Serializer E × Bytes) (packed : List (Serializer E × Bytes)),
          (front ++ (p :: packed).map Prod.fst)[front.length]? = some p.1 ∧
          front ++ (p :: packed).map Prod.fst = (front ++ [p.1]) ++ packed.map Prod.fst := by
        intro p packed
        simp
      rw [forall₂_cons]
      constructor
      · rintro ⟨packed, hpacked, datas, hdatas, hunpack⟩
        obtain ⟨p, packed, hp, hpackedRest, rfl⟩ := forall₂_cons_left_iff.mp hpacked
        obtain ⟨data, datas, hdata, hdatasRest, rfl⟩ := (mapM_cons_eq_ok _ _ _ _).mp hdatas
        simp only [unpackBatch, (hnext p packed).1, bind_eq_ok, invalidMessage_eq_ok, pure_eq_ok,
          List.cons.injEq] at hunpack
        obtain ⟨decoded, hdecoded, rest, hrest, hdecodedEq, hrestEq⟩ := hunpack
        rw [hdecodedEq] at hdecoded
        rw [hrestEq, (hnext p packed).2] at hrest
        refine ⟨(decodes_iff_shared hr hreply hp).mp ⟨data, hdata, hdecoded⟩, ?_⟩
        refine (ih (Nat.succ.inj hlen) hrepliesRest (front ++ [p.1])).mp
          ⟨packed, hpackedRest, datas, hdatasRest, ?_⟩
        simpa using hrest
      · rintro ⟨hshared, hrest⟩
        have ⟨serializer, data, _, hencodes, _⟩ := hshared
        obtain ⟨replyData, hencoded, hdecoded⟩ :=
          (decodes_iff_shared hr hreply hencodes).mpr hshared
        obtain ⟨packed, hpacked, datas, hdatas, hunpack⟩ :=
          (ih (Nat.succ.inj hlen) hrepliesRest (front ++ [serializer])).mpr hrest
        refine ⟨(serializer, data) :: packed, .cons hencodes hpacked, replyData :: datas,
          (mapM_cons_eq_ok _ _ _ _).mpr ⟨replyData, datas, hencoded, hdatas, rfl⟩, ?_⟩
        simp only [unpackBatch, (hnext (serializer, data) packed).1, bind_eq_ok,
          invalidMessage_eq_ok, pure_eq_ok, List.cons.injEq]
        refine ⟨reply, hdecoded, replies, ?_, rfl, rfl⟩
        rw [(hnext (serializer, data) packed).2]
        simpa using hunpack

lemma LocalActor.Answers.length_eq
    (h : pid.Answers s requests replies) : requests.length = replies.length := by
  induction requests generalizing s replies with
  | nil =>
    cases replies with
    | nil => rfl
    | cons => cases h
  | cons request requests ih =>
    cases replies with
    | nil => cases h
    | cons reply replies =>
      obtain ⟨s', -, hrest⟩ := h
      rw [length_cons, length_cons, ih hrest]

lemma remoteBatchAsk_eq_ok_iff (hr : node.remoting.WellBehaved) (typeText : E → String)
    (hreach : node.Reaches sender receiver pid)
    (hrequests : ∀ request ∈ requests, node.remoting.Registered request)
    (hreplies : ∀ reply ∈ replies, node.remoting.Registered reply)
    (hanswers : pid.Answers s requests replies) :
    remoteBatchAsk node.remoting typeText (node.answerAsk s) sender receiver requests =
        .ok replies ↔ List.Forall₂ node.remoting.SharedSerializer requests replies := by
  have hanswer : ∀ packed : List (Serializer E × Bytes),
      List.Forall₂ (fun message p => node.remoting.Encodes message p.1 p.2) requests packed →
      node.answerAsk s (packed.map fun p => ⟨sender, receiver, p.2⟩) =
        deliver ((replies.mapM node.encodeReply).map .ask) := by
    intro packed hpacked
    have hhandle := handleMessages_of_answers hr hreach hanswers hpacked []
    simp only [answerAsk, remoteAskHandler, hreach.enabled, if_true, map_map]
    rw [Function.comp_def, hhandle]
    rfl
  rw [← unpackBatch_iff_shared hr hanswers.length_eq hreplies []]
  simp only [remoteBatchAsk, bind_eq_ok, nil_append, length_nil]
  constructor
  · rintro ⟨packed, hpack, resp, hsend, ⟨⟩, hcheck, hresult⟩
    have hpacked := (packBatch_eq_ok_iff typeText hrequests packed).mp hpack
    rw [hanswer packed hpacked] at hsend
    obtain ⟨datas, hdatas, rfl⟩ := eq_of_delivered hsend hcheck
    exact ⟨packed, hpacked, datas, hdatas, hresult⟩
  · rintro ⟨packed, hpacked, datas, hdatas, hunpack⟩
    have hpack := (packBatch_eq_ok_iff typeText hrequests packed).mpr hpacked
    refine ⟨packed, hpack, .ask datas, ?_, (), rfl, hunpack⟩
    rw [hanswer packed hpacked, hdatas]
    rfl

/-- Asks return exactly the replies of the actor, if and only if at each position the
request and the reply are encoded by one and the same serializer. -/
theorem asks_return_replies_iff (hr : node.remoting.WellBehaved) (typeText : E → String)
    (s : σ) :
    (∀ pid sender receiver, node.Reaches sender receiver pid →
      ∀ request reply, node.remoting.Registered request → node.remoting.Registered reply →
      ∀ s', pid.ask s request = (.ok reply, s') →
        (remoteAsk node.remoting typeText (node.answerAsk s) sender receiver request =
            .ok (some reply) ↔ node.remoting.SharedSerializer request reply)) ∧
    (∀ grain identity, node.ReachesGrain grain identity →
      ∀ request reply, node.remoting.Registered request → node.remoting.Registered reply →
      ∀ s', node.localSend s identity request = (.ok reply, s') →
        (remoteAskGrain node.remoting (node.answerAskGrain s) (.ok grain) request = .ok reply ↔
          node.remoting.SharedSerializer request reply)) ∧
    (∀ pid sender receiver, node.Reaches sender receiver pid →
      ∀ requests replies, (∀ request ∈ requests, node.remoting.Registered request) →
      (∀ reply ∈ replies, node.remoting.Registered reply) → pid.Answers s requests replies →
        (remoteBatchAsk node.remoting typeText (node.answerAsk s) sender receiver requests =
            .ok replies ↔ List.Forall₂ node.remoting.SharedSerializer requests replies)) := by
  refine ⟨?_, ?_, ?_⟩
  · intro pid sender receiver hreach request reply hrequest hreply s' hask
    exact remoteAsk_eq_ok_iff hr typeText hreach hrequest hreply hask
  · intro grain identity hreach request reply hrequest hreply s' hsend
    exact remoteAskGrain_eq_ok_iff hr hreach hrequest hreply hsend
  · intro pid sender receiver hreach requests replies hrequests hreplies hanswers
    exact remoteBatchAsk_eq_ok_iff hr typeText hreach hrequests hreplies hanswers

end Exchange

/-! ## Two types with a serializer each -/

/-- A message is a tag, which is its type, and a value. -/
def taggedSerializer (tag : UInt8) : Serializer (UInt8 × UInt8) where
  serialize message := if message.1 = tag then .ok [tag, message.2] else .error "wrong type"
  deserialize
    | [t, v] => if t = tag then .ok (t, v) else .error "wrong frame"
    | _ => .error "wrong frame"

/-- A node whose actor and whose grain answer every value with itself, under a given
tag. -/
def taggedNode (replyTag : UInt8) : Node UInt8 (UInt8 × UInt8) Unit where
  remoting :=
    { reflection := ⟨fun message => some message.1, fun _ => false, fun _ _ => false⟩
      serializers := [⟨1, taggedSerializer 1, false⟩, ⟨2, taggedSerializer 2, false⟩]
      findMessageType := fun _ => false }
  remotingEnabled := true
  remoteHostPort := "host:9000"
  actors receiver := if receiver = "actor" then
    some (some ⟨true, fun _ request => (.ok (replyTag, request.2), ())⟩) else none
  parse _ := .error "address format is invalid"
  toIdentity text := .ok ⟨text, text⟩
  isSystemName _ := false
  localSend _ _ request := (.ok (replyTag, request.2), ())

lemma taggedNode_wellBehaved (replyTag : UInt8) : (taggedNode replyTag).remoting.WellBehaved := by
  have hencoded : ∀ tag message data,
      (taggedSerializer tag).serialize message = .ok data →
        message.1 = tag ∧ data = [tag, message.2] := by
    intro tag message data h
    simp only [taggedSerializer] at h
    split_ifs at h with htag
    exact ⟨htag, (Except.ok.inj h).symm⟩
  have hmem : ∀ entry ∈ (taggedNode replyTag).remoting.serializers,
      ∃ tag, entry.serializer = taggedSerializer tag := by
    simp [taggedNode]
  refine ⟨fun entry hentry message data hdata => ?_,
    fun entry hentry other hother hne message data hdata => ?_⟩
  · obtain ⟨tag, htag⟩ := hmem entry hentry
    rw [htag] at hdata ⊢
    obtain ⟨rfl, rfl⟩ := hencoded tag message data hdata
    simp [taggedSerializer]
  · obtain ⟨tag, htag⟩ := hmem entry hentry
    obtain ⟨otherTag, hotherTag⟩ := hmem other hother
    rw [hotherTag] at hdata hne
    rw [htag] at hne ⊢
    obtain ⟨-, rfl⟩ := hencoded otherTag message data hdata
    have htags : otherTag ≠ tag := by
      rintro rfl
      exact hne rfl
    exact ⟨"wrong frame", by simp [taggedSerializer, htags]⟩

lemma taggedNode_registered (replyTag v : UInt8) {tag : UInt8} (htag : tag = 1 ∨ tag = 2) :
    (taggedNode replyTag).remoting.Registered (tag, v) := by
  refine ⟨tag, rfl, ?_⟩
  rcases htag with rfl | rfl
  · exact ⟨⟨1, taggedSerializer 1, false⟩, by simp [taggedNode], rfl⟩
  · exact ⟨⟨2, taggedSerializer 2, false⟩, by simp [taggedNode], rfl⟩

/-- An actor that answers with the type of the request is heard. -/
theorem asks_return_replies_same_type :
    remoteAsk (taggedNode 1).remoting (fun _ => "") ((taggedNode 1).answerAsk ()) "" "actor"
      (1, 7) = .ok (some (1, 7)) := by
  refine ((asks_return_replies_iff (taggedNode_wellBehaved 1) (fun _ => "") ()).1
    ⟨true, fun _ request => (.ok (1, request.2), ())⟩ "" "actor" ⟨rfl, rfl, .inl rfl⟩ (1, 7) (1, 7)
    (taggedNode_registered 1 7 (.inl rfl)) (taggedNode_registered 1 7 (.inl rfl)) () rfl).mpr ?_
  exact ⟨taggedSerializer 1, [1, 7], [1, 7], ⟨rfl, rfl, rfl⟩, ⟨rfl, rfl, rfl⟩⟩

/-- An actor answers with a type that has a serializer of its own: each of the three calls
fails, although the type of the request and the type of the reply are registered. -/
theorem other_type_not_returned :
    (taggedNode 2).remoting.WellBehaved ∧ (taggedNode 2).remoting.Registered (1, 7) ∧
      (taggedNode 2).remoting.Registered (2, 7) ∧
      remoteAsk (taggedNode 2).remoting (fun _ => "") ((taggedNode 2).answerAsk ()) "" "actor"
        (1, 7) = .error (.invalidMessage "wrong frame") ∧
      remoteAskGrain (taggedNode 2).remoting ((taggedNode 2).answerAskGrain ())
        (.ok ⟨"host:9000", "grain"⟩) (1, 7) = .error (.invalidMessage "wrong frame") ∧
      remoteBatchAsk (taggedNode 2).remoting (fun _ => "") ((taggedNode 2).answerAsk ()) ""
        "actor" [(1, 7)] = .error (.invalidMessage "wrong frame") :=
  ⟨taggedNode_wellBehaved 2, taggedNode_registered 2 7 (.inl rfl),
    taggedNode_registered 2 7 (.inr rfl), rfl, rfl, rfl⟩

end GoAkt.Remote
