import RedisRs.PubSubDelivery

/-!
# The asynchronous `PubSub`
-/

namespace RedisRs

namespace PubSubRequest

def isSubUnsub : PubSubRequest → Bool
  | ping _ => false
  | _ => true

def command : PubSubRequest → Cmd
  | subscribe channels => cmdWith "SUBSCRIBE" channels
  | pSubscribe patterns => cmdWith "PSUBSCRIBE" patterns
  | unsubscribe channels => cmdWith "UNSUBSCRIBE" channels
  | pUnsubscribe patterns => cmdWith "PUNSUBSCRIBE" patterns
  | ping message => cmdWith "PING" message

end PubSubRequest

namespace AsyncPubSub

structure PipelineMessage where
  input : Bytes
  output : Nat

structure PipelineSink where
  written : List Bytes
  inFlight : List Nat
  /-- What was sent to the `PubSubStream`, which yields it in this order. -/
  sender : List Msg

structure Handled where
  sink : PipelineSink
  answered : Option (Nat × RedisResult Value)
  ok : Bool

def isReply : List Value → Bool
  | .bulkString kind :: _ =>
    (["subscribe", "psubscribe", "unsubscribe", "punsubscribe", "pong"].map bytesOf).contains kind
  | _ => false

namespace PipelineSink

def answerFirst (sink : PipelineSink) (result : RedisResult Value) (okIfNone : Bool) : Handled :=
  match sink.inFlight with
  | [] => ⟨sink, none, okIfNone⟩
  | entry :: inFlight => ⟨{ sink with inFlight }, some (entry, result), true⟩

def sendMsg (sink : PipelineSink) : Option Msg → Handled
  | some msg => ⟨{ sink with sender := sink.sender ++ [msg] }, none, true⟩
  | none => ⟨sink, none, false⟩

def handleMessage (sink : PipelineSink) (result : RedisResult Value) : Handled :=
  match result with
  | .ok (.array value) =>
    if isReply value then sink.answerFirst result true else sink.sendMsg (Msg.fromOwnedValue (.array value))
  | .ok (.push kind data) =>
    if kind.hasReply then sink.answerFirst result true else sink.sendMsg (Msg.fromPushInfo ⟨kind, data⟩)
  | .error err => if err.isUnrecoverableError then ⟨sink, none, false⟩ else sink.answerFirst result false
  | _ => sink.answerFirst result false

def startSend (sink : PipelineSink) (message : PipelineMessage) : PipelineSink :=
  { sink with written := sink.written ++ [message.input], inFlight := sink.inFlight ++ [message.output] }

end PipelineSink

def returned (α : Type) [FromRedisValue α] (request : PubSubRequest) (result : RedisResult Value) : PubSubAnswer α :=
  if request.isSubUnsub then .unit (result.map fun _ => ())
  else .pong (result.bind fun v => (FromRedisValue.fromRedisValue v).toRedisResult)

structure Answer where
  request : Nat
  producedFor : Option Nat
  result : RedisResult Value
  heard : Bool

structure OwedReply where
  request : Nat
  first : Bool
  reply : Reply

def owedReplies (request : Nat) : List Reply → List OwedReply
  | [] => []
  | reply :: replies => ⟨request, true, reply⟩ :: replies.map (⟨request, false, ·⟩)

end AsyncPubSub

open AsyncPubSub

inductive AsyncPubSubStep
  | call (request : PubSubRequest)
  | cancel (request : Nat)
  | startSend (refusal : Option ServerError)
  | sendFails (err : RedisError)
  | reply
  | message (m : Message)
  | fails (err : RedisError)
  | disconnect

def AsyncPubSubStep.isCancel : AsyncPubSubStep → Bool
  | cancel _ => true
  | _ => false

structure AsyncPubSub where
  protocol : ProtocolVersion
  requests : List PubSubRequest
  cancelled : List Nat
  queue : List PipelineMessage
  sink : PipelineSink
  running : Bool
  connected : Bool
  subs : Subscriptions
  owed : List OwedReply
  sent : List Message

namespace AsyncPubSub

def start (protocol : ProtocolVersion) : AsyncPubSub where
  protocol := protocol
  requests := []
  cancelled := []
  queue := []
  sink := ⟨[], [], []⟩
  running := true
  connected := true
  subs := ⟨[], []⟩
  owed := []
  sent := []

def answer (s : AsyncPubSub) (producedFor : Option Nat) (entry : Nat × RedisResult Value) : Answer :=
  ⟨entry.1, producedFor, entry.2, !s.cancelled.contains entry.1⟩

def stop (s : AsyncPubSub) : List Answer × AsyncPubSub :=
  ((s.sink.inFlight ++ s.queue.map (·.output)).map fun i => s.answer none (i, .error closedConnectionError),
    { s with queue := [], sink := { s.sink with inFlight := [] }, running := false })

def handle (s : AsyncPubSub) (producedFor : Option Nat) (result : RedisResult Value) : List Answer × AsyncPubSub :=
  let handled := s.sink.handleMessage result
  let answers := handled.answered.toList.map (s.answer producedFor)
  let s := { s with sink := handled.sink }
  if handled.ok then (answers, s) else (answers ++ s.stop.1, s.stop.2)

def serve (s : AsyncPubSub) (request : PubSubRequest) : Option ServerError → List Reply × Subscriptions
  | some err => ([.error err], s.subs)
  | none => s.subs.answer s.protocol request

def step (s : AsyncPubSub) : AsyncPubSubStep → Option (List Answer × AsyncPubSub)
  | .call request =>
    let called := { s with requests := s.requests ++ [request] }
    let i := s.requests.length
    if s.running then some ([], { called with queue := s.queue ++ [⟨request.command.getPackedCommand, i⟩] })
    else some ([s.answer none (i, .error closedConnectionError)], called)
  | .cancel i => some ([], { s with cancelled := i :: s.cancelled })
  | .startSend refusal =>
    match s.queue with
    | [] => none
    | message :: queue =>
      (s.requests[message.output]?).map fun request =>
        let (replies, subs) := s.serve request refusal
        ([], { s with
          queue
          sink := s.sink.startSend message
          subs
          owed := s.owed ++ owedReplies message.output replies })
  | .sendFails err =>
    match s.queue with
    | [] => none
    | message :: queue =>
      let stopped := ({ s with queue, connected := false } : AsyncPubSub).stop
      some (s.answer none (message.output, .error err) :: stopped.1, stopped.2)
  | .reply =>
    if s.connected then
      match s.owed with
      | [] => none
      | next :: owed =>
        let s := { s with owed }
        if s.running then some (s.handle (some next.request) (.ok (next.reply.value s.protocol))) else some ([], s)
    else none
  | .message m =>
    if s.connected then
      let s := { s with sent := s.sent ++ [m] }
      if s.running then some (s.handle none (.ok (m.value s.protocol))) else some ([], s)
    else none
  | .fails err =>
    if s.running then
      let (answers, failed) := s.handle none (.error err)
      let stopped := ({ failed with connected := false } : AsyncPubSub).stop
      some (answers ++ stopped.1, stopped.2)
    else none
  | .disconnect => some ({ s with connected := false } : AsyncPubSub).stop

/-- The steps one by one, with the answers they give. -/
inductive Moves (s : AsyncPubSub) : AsyncPubSubStep → List Answer → AsyncPubSub → Prop
  | call (request : PubSubRequest) (hrunning : s.running = true) :
    Moves s (.call request) [] { s with
      requests := s.requests ++ [request]
      queue := s.queue ++ [⟨request.command.getPackedCommand, s.requests.length⟩] }
  | callClosed (request : PubSubRequest) (hrunning : s.running = false) :
    Moves s (.call request) [s.answer none (s.requests.length, .error closedConnectionError)]
      { s with requests := s.requests ++ [request] }
  | cancel (i : Nat) : Moves s (.cancel i) [] { s with cancelled := i :: s.cancelled }
  | startSend (refusal : Option ServerError) {message : PipelineMessage} {queue : List PipelineMessage}
    {request : PubSubRequest} (hqueue : s.queue = message :: queue)
    (hrequest : s.requests[message.output]? = some request) :
    Moves s (.startSend refusal) [] { s with
      queue
      sink := s.sink.startSend message
      subs := (s.serve request refusal).2
      owed := s.owed ++ owedReplies message.output (s.serve request refusal).1 }
  | sendFails (err : RedisError) {message : PipelineMessage} {queue : List PipelineMessage}
    (hqueue : s.queue = message :: queue) :
    Moves s (.sendFails err)
      (s.answer none (message.output, .error err) :: ({ s with queue, connected := false } : AsyncPubSub).stop.1)
      ({ s with queue, connected := false } : AsyncPubSub).stop.2
  | reply {next : OwedReply} {owed : List OwedReply} (hconnected : s.connected = true) (howed : s.owed = next :: owed)
    (hrunning : s.running = true) :
    Moves s .reply
      (({ s with owed } : AsyncPubSub).handle (some next.request) (.ok (next.reply.value s.protocol))).1
      (({ s with owed } : AsyncPubSub).handle (some next.request) (.ok (next.reply.value s.protocol))).2
  | unreadReply {next : OwedReply} {owed : List OwedReply} (hconnected : s.connected = true)
    (howed : s.owed = next :: owed) (hrunning : s.running = false) : Moves s .reply [] { s with owed }
  | message (m : Message) (hconnected : s.connected = true) (hrunning : s.running = true) :
    Moves s (.message m) (({ s with sent := s.sent ++ [m] } : AsyncPubSub).handle none (.ok (m.value s.protocol))).1
      (({ s with sent := s.sent ++ [m] } : AsyncPubSub).handle none (.ok (m.value s.protocol))).2
  | unreadMessage (m : Message) (hconnected : s.connected = true) (hrunning : s.running = false) :
    Moves s (.message m) [] { s with sent := s.sent ++ [m] }
  | fails (err : RedisError) (hrunning : s.running = true) :
    Moves s (.fails err)
      ((s.handle none (.error err)).1 ++
        ({ (s.handle none (.error err)).2 with connected := false } : AsyncPubSub).stop.1)
      ({ (s.handle none (.error err)).2 with connected := false } : AsyncPubSub).stop.2
  | disconnect :
    Moves s .disconnect ({ s with connected := false } : AsyncPubSub).stop.1
      ({ s with connected := false } : AsyncPubSub).stop.2

theorem moves_of_step {s s' : AsyncPubSub} {a : AsyncPubSubStep} {answers : List Answer}
    (h : s.step a = some (answers, s')) : s.Moves a answers s' := by
  cases a with
  | call request =>
    by_cases hrunning : s.running = true
    · rw [step, if_pos hrunning] at h
      cases h
      exact .call request hrunning
    · rw [step, if_neg hrunning] at h
      cases h
      exact .callClosed request (Bool.eq_false_of_not_eq_true hrunning)
  | cancel i =>
    cases h
    exact .cancel i
  | startSend refusal =>
    rw [step] at h
    rcases hqueue : s.queue with _ | ⟨message, queue⟩ <;> rw [hqueue] at h
    · cases h
    · obtain ⟨request, hrequest, heq⟩ := Option.map_eq_some_iff.1 h
      cases heq
      exact .startSend refusal hqueue hrequest
  | sendFails err =>
    rw [step] at h
    rcases hqueue : s.queue with _ | ⟨message, queue⟩ <;> rw [hqueue] at h <;> cases h
    exact .sendFails err hqueue
  | reply =>
    by_cases hconnected : s.connected = true
    · rw [step, if_pos hconnected] at h
      rcases howed : s.owed with _ | ⟨next, owed⟩ <;> rw [howed] at h
      · cases h
      · dsimp only at h
        by_cases hrunning : s.running = true
        · rw [if_pos hrunning, Option.some.injEq, Prod.ext_iff] at h
          obtain ⟨rfl, rfl⟩ := h
          exact .reply hconnected howed hrunning
        · rw [if_neg hrunning] at h
          cases h
          exact .unreadReply hconnected howed (Bool.eq_false_of_not_eq_true hrunning)
    · rw [step, if_neg hconnected] at h
      cases h
  | message m =>
    by_cases hconnected : s.connected = true
    · rw [step, if_pos hconnected] at h
      dsimp only at h
      by_cases hrunning : s.running = true
      · rw [if_pos hrunning, Option.some.injEq, Prod.ext_iff] at h
        obtain ⟨rfl, rfl⟩ := h
        exact .message m hconnected hrunning
      · rw [if_neg hrunning] at h
        cases h
        exact .unreadMessage m hconnected (Bool.eq_false_of_not_eq_true hrunning)
    · rw [step, if_neg hconnected] at h
      cases h
  | fails err =>
    by_cases hrunning : s.running = true
    · rw [step, if_pos hrunning] at h
      cases h
      exact .fails err hrunning
    · rw [step, if_neg hrunning] at h
      cases h
  | disconnect =>
    cases h
    exact .disconnect

end AsyncPubSub

end RedisRs
