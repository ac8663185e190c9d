import RedisRs.CacheReads

/-!
# Callers and the driver around one cache
-/

namespace RedisRs

open Function

namespace CacheableCommand

def pairs : CacheableCommand → List (RedisKey × RedisCmd)
  | single command => [(command.redisKey, command.cmdKey)]
  | multiple _ commands _ _ _ => commands.map fun command => (command.2.redisKey, command.2.cmdKey)

def valueIndex (mode : CacheMode) (command : CacheableCommand) : Nat :=
  (match mode with
    | .all => 0
    | .optIn => 1) +
  match command with
  | single _ => 1
  | multiple _ _ _ _ _ => 0

end CacheableCommand

/-- The value is the reply or an item of it. -/
def Carries (reply value : Value) : Prop := reply = value ∨ ∃ values, reply = .array values ∧ value ∈ values

structure CachedConnection (E : CacheEnv) where
  sink : PipelineSink (CacheManager E)
  channel : List PipelineMessage
  prepared : Output → Option CacheableCommand
  mailbox : Output → Option (RedisResult Value)
  dropped : List Output
  nextOutput : Output
  history : List (RedisResult Value)
  arrived : Output → List Nat
  stamp : RedisKey × RedisCmd → Nat

inductive CacheTask
  | call (clock : Nat → Instant) (q : ByteCmd)
  | take
  | receive (result : RedisResult Value)
  | resume (clock : Nat → Instant) (output : Output)
  | drop (output : Output)

namespace CachedConnection

variable {E : CacheEnv}

def start (E : CacheEnv) (cacheConfig : CacheConfig) (pushSender : Option (List PushInfo)) :
    CachedConnection E where
  sink := .new pushSender (some (.new E cacheConfig))
  channel := []
  prepared _ := none
  mailbox _ := none
  dropped := []
  nextOutput := 0
  history := []
  arrived _ := []
  stamp _ := 0

def mode (s : CachedConnection E) : CacheMode := (s.sink.cacheManager.map (·.cacheConfig.mode)).getD .all

def setManager (s : CachedConnection E) (m : CacheManager E) : CachedConnection E :=
  { s with sink := { s.sink with cacheManager := some m } }

def sendRecv (s : CachedConnection E) (command : Option CacheableCommand) (input : Bytes)
    (expectation : Option PipelineResponseExpectation) (skipResponse : Bool) :
    Option (RedisResult Value) × CachedConnection E :=
  if input = [] then (some (.error .makeEmptyCommand), s)
  else
    (none, { s with
      channel := s.channel ++ [⟨input, if skipResponse then none else some s.nextOutput, expectation⟩]
      prepared := update s.prepared s.nextOutput command
      mailbox := if skipResponse then update s.mailbox s.nextOutput (some (.ok .nil)) else s.mailbox
      nextOutput := s.nextOutput + 1 })

def deliver (s : CachedConnection E) : Option Completion → CachedConnection E
  | none => s
  | some (output, result) => { s with mailbox := update s.mailbox output (some result) }

def noted (n : Nat) : RedisResult Value → List Nat
  | .ok v => if v.isNonReplyPush then [] else [n]
  | .error _ => []

def arrivedWith (s : CachedConnection E) (result : RedisResult Value) : Output → List Nat :=
  match s.sink.inFlight.head?.bind (·.output) with
  | some output => update s.arrived output (s.arrived output ++ noted s.history.length result)
  | none => s.arrived

def leave (s : CachedConnection E) (output : Output) : CachedConnection E :=
  { s with
    mailbox := update s.mailbox output none
    prepared := update s.prepared output none }

def resolve (clock : Nat → Instant) (s : CachedConnection E) (m : CacheManager E) (output : Output)
    (command : CacheableCommand) (v : Value) : RedisResult Value × CachedConnection E :=
  match (FromRedisValue.fromRedisValue v : ParseResult (List Value)) with
  | .error err => (.error (.parsing err), s)
  | .ok replies =>
    let r := command.resolve clock m replies
    (r.1, { s.setManager r.2.1 with
      stamp := fun p =>
        if p ∈ (command.stores m.cacheConfig.mode replies).map (·.1) then
          (s.arrived output).getD (command.valueIndex m.cacheConfig.mode) 0
        else s.stamp p })

def step (s : CachedConnection E) : CacheTask → Option (Option (RedisResult Value) × CachedConnection E)
  | .call clock q =>
    match s.sink.cacheManager with
    | none => some (s.sendRecv none q.cmd.getPackedCommand none q.cmd.noResponse)
    | some m =>
      match m.getCachedCmd clock q.cmd with
      | .error _ => none
      | .ok (.cached value, m') => some (some (.ok value), s.setManager m')
      | .ok (.notCached command, m') =>
        let commands := command.packCommand m.cacheConfig.mode
        some ((s.setManager m').sendRecv (some command) (encodePipeline commands false)
          (some ⟨0, commands.length, false, 0⟩) q.cmd.noResponse)
      | .ok (.notCacheable, m') =>
        some ((s.setManager m').sendRecv none q.cmd.getPackedCommand none q.cmd.noResponse)
  | .take =>
    match s.channel with
    | [] => none
    | message :: channel =>
      let r := s.sink.startSend (s.dropped.contains ·) message
      some (none, { s with sink := r.2.1, channel }.deliver r.2.2)
  | .receive result =>
    match s.sink.sendResult result with
    | .error _ => none
    | .ok (sink, c) =>
      some (none, { s with
        sink, history := s.history ++ [result], arrived := s.arrivedWith result }.deliver c)
  | .resume clock output =>
    if output ∈ s.dropped then none
    else
      match s.mailbox output with
      | none => none
      | some result =>
        match s.prepared output, s.sink.cacheManager, result with
        | some command, some m, .ok v =>
          let r := (s.leave output).resolve clock m output command v
          some (some r.1, r.2)
        | _, _, result => some (some result, s.leave output)
  | .drop output => some (none, { s with dropped := output :: s.dropped })

end CachedConnection

end RedisRs
