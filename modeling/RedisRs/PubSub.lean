import RedisRs.Connection
import RedisRs.Run

/-!
# The blocking `PubSub`
-/

namespace RedisRs

open FromRedisValue

structure Msg where
  payload : Value
  channel : Value
  pattern : Option Value

namespace Msg

def fromPushInfo (info : PushInfo) : Option Msg :=
  if info.kind = .message ∨ info.kind = .sMessage then
    match info.data with
    | channel :: payload :: _ => some ⟨payload, channel, none⟩
    | _ => none
  else if info.kind = .pMessage then
    match info.data with
    | pattern :: channel :: payload :: _ => some ⟨payload, channel, some pattern⟩
    | _ => none
  else none

def fromItems (rawMsg : List Value) : Option Msg :=
  match rawMsg with
  | [] => none
  | msgType :: rest =>
    match (fromRedisValue msgType : ParseResult Text) with
    | .error _ => none
    | .ok msgType =>
      if msgType = .str "message" then
        match rest with
        | channel :: payload :: _ => some ⟨payload, channel, none⟩
        | _ => none
      else if msgType = .str "pmessage" then
        match rest with
        | pattern :: channel :: payload :: _ => some ⟨payload, channel, some pattern⟩
        | _ => none
      else none

def fromOwnedValue : Value → Option Msg
  | .push kind data => fromPushInfo ⟨kind, data⟩
  | value =>
    match (fromRedisValue value : ParseResult (List Value)) with
    | .error _ => none
    | .ok rawMsg => fromItems rawMsg

end Msg

structure PubSub where
  con : Connection
  waitingMessages : List Msg

def cmdWith (name : String) (args : List Bytes) : Cmd := args.foldl Cmd.writeArg (cmd name)

namespace PubSub

def new (con : Connection) : PubSub := ⟨con, []⟩

def cacheBody (waiting : List Msg) : RedisResult Value → List Msg ⊕ RedisResult Value × List Msg
  | .error e => .inr (.error e, waiting)
  | .ok response =>
    match Msg.fromOwnedValue response with
    | some msg => .inl (waiting ++ [msg])
    | none => .inr (.ok response, waiting)

def cacheMessagesUntilReceivedResponse (cmd : Cmd) (isSubUnsub : Bool) (ps : PubSub) (wire : Wire) :
    Option (RedisResult Value × PubSub × Wire) :=
  let ignoreResponse := ps.con.protocol.supportsResp3 && isSubUnsub
  let cmd := { cmd with noResponse := ignoreResponse }
  match ps.con.sendBytes cmd.getPackedCommand with
  | (.error e, con) => some (.error e, ⟨con, ps.waitingMessages⟩, wire)
  | (.ok _, con) =>
    (Connection.readLoop cacheBody ps.waitingMessages con wire).map fun ((result, waiting), con, wire) =>
      (result, ⟨con, waiting⟩, wire)

def subUnsub (name : String) (channels : List Bytes) (ps : PubSub) (wire : Wire) :
    Option (RedisResult Unit × PubSub × Wire) :=
  (ps.cacheMessagesUntilReceivedResponse (cmdWith name channels) true wire).map fun (result, ps, wire) =>
    (result.map fun _ => (), ps, wire)

def subscribe : List Bytes → PubSub → Wire → Option (RedisResult Unit × PubSub × Wire) :=
  subUnsub "SUBSCRIBE"

def psubscribe : List Bytes → PubSub → Wire → Option (RedisResult Unit × PubSub × Wire) :=
  subUnsub "PSUBSCRIBE"

def unsubscribe : List Bytes → PubSub → Wire → Option (RedisResult Unit × PubSub × Wire) :=
  subUnsub "UNSUBSCRIBE"

def punsubscribe : List Bytes → PubSub → Wire → Option (RedisResult Unit × PubSub × Wire) :=
  subUnsub "PUNSUBSCRIBE"

def pingMessage {α : Type} [FromRedisValue α] (message : List Bytes) (ps : PubSub) (wire : Wire) :
    Option (RedisResult α × PubSub × Wire) :=
  (ps.cacheMessagesUntilReceivedResponse (cmdWith "PING" message) false wire).map fun (result, ps, wire) =>
    (result.bind fun v => (fromRedisValue v).toRedisResult, ps, wire)

def readMessage : Connection → Wire → Option (RedisResult Msg × Connection × Wire)
  | _, [] => none
  | con, result :: wire =>
    match con.readStep false result with
    | (none, con) => readMessage con wire
    | (some (.error e), con) => some (.error e, con, wire)
    | (some (.ok v), con) =>
      match Msg.fromOwnedValue v with
      | some msg => some (.ok msg, con, wire)
      | none => readMessage con wire

def getMessage (ps : PubSub) (wire : Wire) : Option (RedisResult Msg × PubSub × Wire) :=
  match ps.waitingMessages with
  | msg :: waiting => some (.ok msg, ⟨ps.con, waiting⟩, wire)
  | [] => (readMessage ps.con wire).map fun (result, con, wire) => (result, ⟨con, []⟩, wire)

end PubSub

inductive ConfirmationKind
  | subscribe
  | pSubscribe
  | unsubscribe
  | pUnsubscribe
deriving DecidableEq, Repr

namespace ConfirmationKind

def pushKind : ConfirmationKind → PushKind
  | subscribe => .subscribe
  | pSubscribe => .pSubscribe
  | unsubscribe => .unsubscribe
  | pUnsubscribe => .pUnsubscribe

def name : ConfirmationKind → String
  | subscribe => "subscribe"
  | pSubscribe => "psubscribe"
  | unsubscribe => "unsubscribe"
  | pUnsubscribe => "punsubscribe"

end ConfirmationKind

inductive Reply
  /-- One channel was added or removed and `count` subscriptions are left. -/
  | confirmation (kind : ConfirmationKind) (channel : Option Bytes) (count : Nat)
  | pong (message : Option Bytes)
  /-- The answer to `PING` of a RESP2 connection with subscriptions. -/
  | subscribedPong (message : Bytes)
  | error (err : ServerError)
deriving DecidableEq, Repr

def Reply.isConfirmation : Reply → Bool
  | confirmation _ _ _ => true
  | _ => false

def bulkOrNil : Option Bytes → Value
  | some bytes => .bulkString bytes
  | none => .nil

def Reply.value (protocol : ProtocolVersion) : Reply → Value
  | confirmation kind channel count =>
    match protocol with
    | .resp2 => .array [.bulkString (bytesOf kind.name), bulkOrNil channel, .int (Int64.ofNat count)]
    | .resp3 => .push kind.pushKind [bulkOrNil channel, .int (Int64.ofNat count)]
  | pong none => .simpleString "PONG"
  | pong (some message) => .bulkString message
  | subscribedPong message => .array [.bulkString (bytesOf "pong"), .bulkString message]
  | error err => .serverError err

structure Message where
  pattern : Option Bytes
  channel : Bytes
  payload : Bytes
deriving DecidableEq, Repr

namespace Message

def value (protocol : ProtocolVersion) (m : Message) : Value :=
  match protocol, m.pattern with
  | .resp2, none => .array [.bulkString (bytesOf "message"), .bulkString m.channel, .bulkString m.payload]
  | .resp2, some pattern =>
    .array [.bulkString (bytesOf "pmessage"), .bulkString pattern, .bulkString m.channel, .bulkString m.payload]
  | .resp3, none => .push .message [.bulkString m.channel, .bulkString m.payload]
  | .resp3, some pattern =>
    .push .pMessage [.bulkString pattern, .bulkString m.channel, .bulkString m.payload]

def msg (m : Message) : Msg := ⟨.bulkString m.payload, .bulkString m.channel, m.pattern.map .bulkString⟩

end Message

structure Subscriptions where
  channels : List Bytes
  patterns : List Bytes

inductive PubSubRequest
  | subscribe (channels : List Bytes)
  | pSubscribe (patterns : List Bytes)
  | unsubscribe (channels : List Bytes)
  | pUnsubscribe (patterns : List Bytes)
  | ping (message : List Bytes)

namespace Subscriptions

def count (s : Subscriptions) : Nat := s.channels.length + s.patterns.length

def addChannel (s : Subscriptions) (channel : Bytes) : Subscriptions :=
  { s with channels := s.channels.insert channel }

def addPattern (s : Subscriptions) (pattern : Bytes) : Subscriptions :=
  { s with patterns := s.patterns.insert pattern }

def dropChannel (s : Subscriptions) (channel : Bytes) : Subscriptions :=
  { s with channels := s.channels.erase channel }

def dropPattern (s : Subscriptions) (pattern : Bytes) : Subscriptions :=
  { s with patterns := s.patterns.erase pattern }

def confirmEach (kind : ConfirmationKind) (change : Subscriptions → Bytes → Subscriptions) :
    Subscriptions → List Bytes → List Reply × Subscriptions
  | s, [] => ([], s)
  | s, channel :: channels =>
    let s := change s channel
    let (replies, s') := confirmEach kind change s channels
    (.confirmation kind (some channel) s.count :: replies, s')

def dropAllChannels (s : Subscriptions) : List Reply × Subscriptions :=
  match s.channels with
  | [] => ([.confirmation .unsubscribe none s.count], s)
  | channels => confirmEach .unsubscribe dropChannel s channels

def dropAllPatterns (s : Subscriptions) : List Reply × Subscriptions :=
  match s.patterns with
  | [] => ([.confirmation .pUnsubscribe none s.count], s)
  | patterns => confirmEach .pUnsubscribe dropPattern s patterns

def wrongNumberOfArguments : ServerError := .known .responseError (some "wrong number of arguments")

def answer (protocol : ProtocolVersion) (s : Subscriptions) : PubSubRequest → List Reply × Subscriptions
  | .subscribe [] | .pSubscribe [] => ([.error wrongNumberOfArguments], s)
  | .subscribe channels => confirmEach .subscribe addChannel s channels
  | .pSubscribe patterns => confirmEach .pSubscribe addPattern s patterns
  | .unsubscribe [] => s.dropAllChannels
  | .unsubscribe channels => confirmEach .unsubscribe dropChannel s channels
  | .pUnsubscribe [] => s.dropAllPatterns
  | .pUnsubscribe patterns => confirmEach .pUnsubscribe dropPattern s patterns
  | .ping message =>
    match message with
    | _ :: _ :: _ => ([.error wrongNumberOfArguments], s)
    | _ =>
      if protocol = .resp2 ∧ 0 < s.count then ([.subscribedPong (message.headD [])], s)
      else ([.pong message.head?], s)

end Subscriptions

inductive PubSubEvent
  | reply
  | message (m : Message)
  | fail (kind : IoErrorKind) (notEof : kind ≠ .unexpectedEof)

namespace PubSubEvent

def isMessage : PubSubEvent → Bool
  | message _ => true
  | _ => false

def isFail : PubSubEvent → Bool
  | fail _ _ => true
  | _ => false

end PubSubEvent

def hear (protocol : ProtocolVersion) :
    List Reply → List PubSubEvent → Option (Wire × List Reply × List Message)
  | owed, [] => some ([], owed, [])
  | [], .reply :: _ => none
  | r :: owed, .reply :: events =>
    (hear protocol owed events).map fun (wire, owed, messages) => (.ok (r.value protocol) :: wire, owed, messages)
  | owed, .message m :: events =>
    (hear protocol owed events).map fun (wire, owed, messages) =>
      (.ok (m.value protocol) :: wire, owed, m :: messages)
  | owed, .fail kind _ :: events =>
    (hear protocol owed events).map fun (wire, owed, messages) => (.error (.ofIo kind) :: wire, owed, messages)

inductive PubSubCall
  | request (request : PubSubRequest) (events : List PubSubEvent)
  | getMessage (events : List PubSubEvent)
  | rehash (subs : Subscriptions)

inductive PubSubAnswer (α : Type)
  | unit (result : RedisResult Unit)
  | pong (result : RedisResult α)
  | msg (result : RedisResult Msg)
  | rehashed

structure PubSubSession where
  pubsub : PubSub
  subs : Subscriptions
  owed : List Reply
  sent : List Message
  received : List Msg

namespace PubSubSession

def start (con : Connection) : PubSubSession := ⟨.new con, ⟨[], []⟩, [], [], []⟩

def protocol (s : PubSubSession) : ProtocolVersion := s.pubsub.con.protocol

def request {ρ : Type} (s : PubSubSession) (req : PubSubRequest) (events : List PubSubEvent)
    (call : PubSub → Wire → Option (ρ × PubSub × Wire)) : Option (ρ × PubSubSession) :=
  let (replies, subs) := s.subs.answer s.protocol req
  match hear s.protocol (s.owed ++ replies) events with
  | none => none
  | some (wire, owed, messages) =>
    match call s.pubsub wire with
    | some (out, pubsub, []) => some (out, ⟨pubsub, subs, owed, s.sent ++ messages, s.received⟩)
    | _ => none

def getMessage (s : PubSubSession) (events : List PubSubEvent) : Option (RedisResult Msg × PubSubSession) :=
  match hear s.protocol s.owed events with
  | none => none
  | some (wire, owed, messages) =>
    match s.pubsub.getMessage wire with
    | some (out, pubsub, []) =>
      some (out, ⟨pubsub, s.subs, owed, s.sent ++ messages, s.received ++ out.toOption.toList⟩)
    | _ => none

def step (α : Type) [FromRedisValue α] (s : PubSubSession) : PubSubCall → Option (PubSubAnswer α × PubSubSession)
  | .request (.subscribe channels) events =>
    (s.request (.subscribe channels) events (PubSub.subscribe channels)).map fun (r, s) => (.unit r, s)
  | .request (.pSubscribe patterns) events =>
    (s.request (.pSubscribe patterns) events (PubSub.psubscribe patterns)).map fun (r, s) => (.unit r, s)
  | .request (.unsubscribe channels) events =>
    (s.request (.unsubscribe channels) events (PubSub.unsubscribe channels)).map fun (r, s) => (.unit r, s)
  | .request (.pUnsubscribe patterns) events =>
    (s.request (.pUnsubscribe patterns) events (PubSub.punsubscribe patterns)).map fun (r, s) => (.unit r, s)
  | .request (.ping message) events =>
    (s.request (.ping message) events (PubSub.pingMessage message)).map fun (r, s) => (.pong r, s)
  | .getMessage events => (s.getMessage events).map fun (r, s) => (.msg r, s)
  | .rehash subs =>
    if subs.channels.isPerm s.subs.channels && subs.patterns.isPerm s.subs.patterns then
      some (.rehashed, { s with subs := subs })
    else none

end PubSubSession

end RedisRs
