import RedisRs.Convert
import RedisRs.Cmd

/-!
# The blocking connection
-/

namespace RedisRs

inductive ProtocolVersion
  | resp2
  | resp3
deriving DecidableEq, Repr

def ProtocolVersion.supportsResp3 : ProtocolVersion → Bool
  | resp2 => false
  | resp3 => true

abbrev Wire := List (RedisResult Value)

structure Connection where
  protocol : ProtocolVersion
  pubsub : Bool
  /-- The answers still to come that the user no longer waits for. -/
  messagesToSkip : Nat
  pushSender : Option (List PushInfo)
  isOpen : Bool
  writeError : Option RedisError
  written : List Bytes

namespace Connection

def sendPush (con : Connection) (push : PushInfo) : Connection :=
  { con with pushSender := con.pushSender.map (· ++ [push]) }

def trySend (con : Connection) : RedisResult Value → Connection
  | .ok (.push kind data) => con.sendPush ⟨kind, data⟩
  | _ => con

def sendDisconnect (con : Connection) : Connection := con.sendPush .disconnect

def closeConnection (con : Connection) : Connection := { con.sendDisconnect with isOpen := false }

def readStep (isResponse : Bool) (con : Connection) (result : RedisResult Value) :
    Option (RedisResult Value) × Connection :=
  let con := con.trySend result
  match result with
  | .ok _ =>
    if 0 < con.messagesToSkip then (none, { con with messagesToSkip := con.messagesToSkip - 1 })
    else (some result, con)
  | .error err =>
    match err.asIoError with
    | none =>
      if 0 < con.messagesToSkip then (none, { con with messagesToSkip := con.messagesToSkip - 1 })
      else (some result, con)
    | some ioError =>
      -- shutdown connection on protocol error
      if ioError = .unexpectedEof then (some result, con.closeConnection)
      else if isResponse then (some result, { con with messagesToSkip := con.messagesToSkip + 1 })
      else (some result, con)

def read (isResponse : Bool) : Connection → Wire → Option (RedisResult Value × Connection × Wire)
  | _, [] => none
  | con, result :: wire =>
    match con.readStep isResponse result with
    | (none, con) => read isResponse con wire
    | (some result, con) => some (result, con, wire)

def readLoop {σ ρ : Type} (body : σ → RedisResult Value → σ ⊕ ρ) :
    σ → Connection → Wire → Option (ρ × Connection × Wire)
  | _, _, [] => none
  | s, con, result :: wire =>
    match con.readStep true result with
    | (none, con) => readLoop body s con wire
    | (some result, con) =>
      match body s result with
      | .inl s => readLoop body s con wire
      | .inr out => some (out, con, wire)

variable {σ ρ : Type}

theorem readLoop_eq (body : σ → RedisResult Value → σ ⊕ ρ) (s : σ) (con : Connection) (wire : Wire) :
    readLoop body s con wire =
      match con.read true wire with
      | none => none
      | some (result, con, wire) =>
        match body s result with
        | .inl s => readLoop body s con wire
        | .inr out => some (out, con, wire) := by
  induction wire generalizing con with
  | nil => rfl
  | cons result wire ih =>
    rw [readLoop, read]
    rcases hs : con.readStep true result with ⟨_ | r, con'⟩
    · exact ih con'
    · rfl

def writeAll (con : Connection) (bytes : Bytes) : RedisResult Value × Connection :=
  match con.writeError with
  | some e => (.error e, if e.isUnrecoverableError then { con with isOpen := false } else con)
  | none => (.ok .okay, { con with written := con.written ++ [bytes] })

def sendBytes (con : Connection) (bytes : Bytes) : RedisResult Value × Connection :=
  if bytes = [] then (.error .makeEmptyCommand, con)
  else
    match con.writeAll bytes with
    | (.error e, con) =>
      (.error e, if con.protocol.supportsResp3 && e.isConnectionDropped then con.sendDisconnect else con)
    | (.ok v, con) => (.ok v, con)

def resp2IsPubSubStateCleared (received : Bool × Bool) (kind : Bytes) (num : Int64) :
    (Bool × Bool) × Bool :=
  let received := match kind.head? with
    | some b => if b = 'u'.toUInt8 then (true, received.2)
      else if b = 'p'.toUInt8 then (received.1, true) else received
    | none => received
  (received, received.1 && received.2 && num == 0)

def resp3IsPubSubStateCleared (received : Bool × Bool) (kind : PushKind) (num : Int64) :
    (Bool × Bool) × Bool :=
  let received := match kind with
    | .unsubscribe => (true, received.2)
    | .pUnsubscribe => (received.1, true)
    | _ => received
  (received, received.1 && received.2 && num == 0)

def noSubErrIsPubSubStateCleared (received : Bool × Bool) (err : ServerError) : (Bool × Bool) × Bool :=
  let starts (s : String) : Bool := (err.details.map (·.startsWith s)).getD false
  let received := (received.1 || starts "'unsub", received.2 || starts "'punsub")
  (received, received.1 && received.2)

def untilCleared : (Bool × Bool) × Bool → (Bool × Bool) ⊕ RedisResult Unit
  | (_, true) => .inr (.ok ())
  | (received, false) => .inl received

def drainBody (received : Bool × Bool) : RedisResult Value → (Bool × Bool) ⊕ RedisResult Unit
  | .error e => .inr (.error e)
  | .ok (.push kind data) =>
    match data with
    | _ :: .int num :: _ => untilCleared (resp3IsPubSubStateCleared received kind num)
    | _ => .inl received
  | .ok (.serverError err) =>
    if err.kind = some .noSub then untilCleared (noSubErrIsPubSubStateCleared received err)
    else .inr (.error (.server err))
  | .ok (.array vec) =>
    match (fromRedisValueTuple3 (.array vec) : ParseResult (Bytes × Unit × Int64)) with
    | .error e => .inr (.error (.parsing e))
    | .ok (kind, _, num) => untilCleared (resp2IsPubSubStateCleared received kind num)
  | .ok resp => .inr (.error (.general .client "Unexpected unsubscribe response" (some (.debug resp))))

def clearActiveSubscriptions (con : Connection) (wire : Wire) :
    Option (RedisResult Unit × Connection × Wire) :=
  match con.sendBytes (cmd "UNSUBSCRIBE").getPackedCommand with
  | (.error e, con) => some (.error e, con, wire)
  | (.ok _, con) =>
    match con.sendBytes (cmd "PUNSUBSCRIBE").getPackedCommand with
    | (.error e, con) => some (.error e, con, wire)
    | (.ok _, con) => readLoop drainBody (false, false) con wire

def exitPubsub (con : Connection) (wire : Wire) : Option (RedisResult Unit × Connection × Wire) :=
  match con.clearActiveSubscriptions wire with
  | none => none
  | some (.ok (), con, wire) => some (.ok (), { con with pubsub := false }, wire)
  | some (.error e, con, wire) => some (.error e, { con with pubsub := true }, wire)

def request {ρ : Type} (fail : RedisError → ρ) (bytes : Bytes)
    (k : Connection → Wire → Option (ρ × Connection × Wire)) (con : Connection) (wire : Wire) :
    Option (ρ × Connection × Wire) :=
  let send (con : Connection) (wire : Wire) :=
    match con.sendBytes bytes with
    | (.error e, con) => some (fail e, con, wire)
    | (.ok _, con) => k con wire
  if con.pubsub then
    match con.exitPubsub wire with
    | none => none
    | some (.error e, con, wire) => some (fail e, con, wire)
    | some (.ok (), con, wire) => send con wire
  else send con wire

def replyBody (_ : Unit) : RedisResult Value → Unit ⊕ RedisResult Value
  | .error e => .inr (.error e)
  | .ok (.push _ _) => .inl ()
  | .ok val => .inr (.ok val)

def readReply (con : Connection) (wire : Wire) : Option (RedisResult Value × Connection × Wire) :=
  readLoop replyBody () con wire

def reqCommand (cmd : Cmd) : Connection → Wire → Option (RedisResult Value × Connection × Wire) :=
  request .error cmd.getPackedCommand fun con wire =>
    if cmd.noResponse then some (.ok .nil, con, wire) else con.readReply wire

def reqPackedCommand (cmd : Bytes) : Connection → Wire → Option (RedisResult Value × Connection × Wire) :=
  request .error cmd fun con wire => con.readReply wire

structure Packed where
  rv : List Value
  firstErr : Option RedisError
  serverErrors : List (Nat × ServerError)
  count : Nat
  idx : Nat

namespace Packed

def new (count : Nat) : Packed := ⟨[], none, [], count, 0⟩

def finish (p : Packed) : RedisResult (List Value) :=
  if p.serverErrors ≠ [] then .error (.makeAbortedTransaction p.serverErrors)
  else match p.firstErr with
    | some e => .error e
    | none => .ok p.rv

def receive (offset : Nat) (p : Packed) : RedisResult Value → Ends Packed
  | .ok (.serverError err) =>
    if p.idx < offset then do
      let i ← checkedSub p.idx 1
      return { p with serverErrors := p.serverErrors ++ [(i, err)] }
    else return { p with rv := p.rv ++ [.serverError err] }
  | .ok (.push _ _) => return { p with count := p.count + 1 }
  | .ok item => if offset ≤ p.idx then return { p with rv := p.rv ++ [item] } else return p
  | .error err => return { p with firstErr := p.firstErr <|> some err }

def body (offset : Nat) (p : Packed) (response : RedisResult Value) :
    Packed ⊕ Ends (RedisResult (List Value)) :=
  match p.receive offset response with
  | .error panic => .inr (.error panic)
  | .ok p =>
    let p := { p with idx := p.idx + 1 }
    if p.idx < offset + p.count then .inl p else .inr (.ok p.finish)

end Packed

def reqPackedCommands (cmd : Bytes) (offset count : Nat) :
    Connection → Wire → Option (Ends (RedisResult (List Value)) × Connection × Wire) :=
  request (fun e => .ok (.error e)) cmd fun con wire =>
    if 0 < offset + count then readLoop (Packed.body offset) (.new count) con wire
    else some (.ok (Packed.new count).finish, con, wire)

/-- The connection accepts bytes and is not in the pubsub state. -/
structure Ready (con : Connection) : Prop where
  pubsub : con.pubsub = false
  writeError : con.writeError = none

/-- No answer to an earlier request is outstanding either. -/
structure Idle (con : Connection) : Prop extends Ready con where
  skip : con.messagesToSkip = 0

def fresh (protocol : ProtocolVersion) : Connection where
  protocol := protocol
  pubsub := false
  messagesToSkip := 0
  pushSender := none
  isOpen := true
  writeError := none
  written := []

theorem fresh_idle (protocol : ProtocolVersion) : (fresh protocol).Idle := ⟨⟨rfl, rfl⟩, rfl⟩

variable {con : Connection}

theorem request_of_ready (h : con.Ready) (fail : RedisError → ρ) {bytes : Bytes} (hb : bytes ≠ [])
    (k : Connection → Wire → Option (ρ × Connection × Wire)) (wire : Wire) :
    request fail bytes k con wire = k { con with written := con.written ++ [bytes] } wire := by
  simp [request, h.pubsub, sendBytes, writeAll, h.writeError, hb]

theorem request_empty (h : con.Ready) (fail : RedisError → ρ) (k : Connection → Wire → Option (ρ × Connection × Wire))
    (wire : Wire) : request fail [] k con wire = some (fail .makeEmptyCommand, con, wire) := by
  simp [request, h.pubsub, sendBytes]

variable {con' : Connection} {o : Option (RedisResult Value)}

theorem readStep_ready {b : Bool} {r : RedisResult Value} (hs : con.readStep b r = (o, con')) (h : con.Ready) :
    con'.Ready := by
  have ht : (con.trySend r).Ready := by
    rcases r with _ | v
    · exact h
    · cases v <;> exact ⟨h.pubsub, h.writeError⟩
  simp only [readStep] at hs
  repeat' split at hs
  all_goals
    simp only [Prod.mk.injEq] at hs
    rw [← hs.2]
    exact ⟨ht.pubsub, ht.writeError⟩

theorem trySend_messagesToSkip (con : Connection) (r : RedisResult Value) :
    (con.trySend r).messagesToSkip = con.messagesToSkip := by
  unfold trySend
  split <;> rfl

theorem readStep_value (h : con.messagesToSkip = 0) (b : Bool) (v : Value) :
    con.readStep b (.ok v) = (some (.ok v), con.trySend (.ok v)) := by
  simp [readStep, trySend_messagesToSkip, h]

theorem readStep_take (h : con.messagesToSkip = 0) (b : Bool) (v : Value) :
    ∃ con', con.readStep b (.ok v) = (some (.ok v), con') ∧ con'.messagesToSkip = 0 :=
  ⟨_, readStep_value h b v, (trySend_messagesToSkip con (.ok v)).trans h⟩

theorem readStep_skip (h : 0 < con.messagesToSkip) (b : Bool) (v : Value) :
    ∃ con', con.readStep b (.ok v) = (none, con') ∧ con'.messagesToSkip = con.messagesToSkip - 1 :=
  ⟨{ con.trySend (.ok v) with messagesToSkip := con.messagesToSkip - 1 },
    by simp [readStep, trySend_messagesToSkip, h], rfl⟩

theorem readStep_fail {kind : IoErrorKind} (h : kind ≠ .unexpectedEof) (b : Bool) (con : Connection) :
    con.readStep b (.error (.ofIo kind)) = (some (.error (.ofIo kind)),
      if b then { con with messagesToSkip := con.messagesToSkip + 1 } else con) := by
  cases b <;> simp [readStep, trySend, h]

theorem readStep_idle {b : Bool} {v : Value} (hs : con.readStep b (.ok v) = (o, con')) (h : con.Idle) : con'.Idle := by
  refine ⟨readStep_ready hs h.toReady, ?_⟩
  rw [readStep_value h.skip] at hs
  cases hs
  rw [trySend_messagesToSkip, h.skip]

variable {body : σ → RedisResult Value → σ ⊕ ρ}

theorem readLoop_inv {I : Connection → Prop} {s : σ} {wire rest : Wire} {out : ρ}
    (hI : ∀ r ∈ wire, ∀ con o con', con.readStep true r = (o, con') → I con → I con')
    (hr : readLoop body s con wire = some (out, con', rest)) (h : I con) : I con' := by
  induction wire generalizing s con with
  | nil => simp [readLoop] at hr
  | cons result wire ih =>
    rw [readLoop] at hr
    have hI₁ := hI result List.mem_cons_self
    have hI₂ := fun r hr => hI r (List.mem_cons_of_mem result hr)
    rcases hs : con.readStep true result with ⟨_ | r, con₁⟩
    · rw [hs] at hr
      exact ih hI₂ hr (hI₁ _ _ _ hs h)
    · rw [hs] at hr
      dsimp only at hr
      split at hr
      · exact ih hI₂ hr (hI₁ _ _ _ hs h)
      · simp only [Option.some.injEq, Prod.mk.injEq] at hr
        rw [← hr.2.1]
        exact hI₁ _ _ _ hs h

theorem readLoop_ready {s : σ} {wire rest : Wire} {out : ρ} (hr : readLoop body s con wire = some (out, con', rest))
    (h : con.Ready) : con'.Ready :=
  readLoop_inv (fun _ _ _ _ _ => readStep_ready) hr h

end Connection

end RedisRs
