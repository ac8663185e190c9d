import RedisRs.Value

/-!
# Errors of the client
-/

namespace RedisRs

inductive Panic
  | subtractWithOverflow
  | addWithOverflow
  | sliceIndex
  | assertion
  | unreachable
  | overflow
  | emptyRange
deriving DecidableEq, Repr

abbrev Ends := Except Panic

section Returned

variable {ε α β : Type} {x : Except ε α} {b : β}

theorem exists_of_bind_eq_ok {f : α → Except ε β} (h : (x >>= f) = .ok b) : ∃ a, x = .ok a ∧ f a = .ok b := by
  rcases x with e | a
  · cases h
  · exact ⟨a, rfl, h⟩

theorem exists_of_map_eq_ok {f : α → β} (h : x.map f = .ok b) : ∃ a, x = .ok a ∧ f a = b := by
  rcases x with e | a
  · cases h
  · exact ⟨a, rfl, Except.ok.inj h⟩

theorem mapM_eq_ok_map {as : List α} {f : α → Except ε β} {g : α → β} (h : ∀ a ∈ as, f a = .ok (g a)) :
    as.mapM f = .ok (as.map g) := by
  induction as with
  | nil => rfl
  | cons a as ih =>
    rw [List.mapM_cons, h a List.mem_cons_self, ih fun b hb => h b (List.mem_cons_of_mem a hb)]
    rfl

end Returned

def checkedSub (a b : Nat) : Ends Nat :=
  if b ≤ a then .ok (a - b) else .error .subtractWithOverflow

def checkedAdd (a b : Int64) : Ends Int64 :=
  if (a + b).toInt = a.toInt + b.toInt then .ok (a + b) else .error .addWithOverflow

def indexSet {α : Type} (xs : List α) (i : Nat) (x : α) : Ends (List α) :=
  if i < xs.length then .ok (xs.set i x) else .error .sliceIndex

inductive IoErrorKind
  | unexpectedEof
  | brokenPipe
  | connectionReset
  | connectionRefused
  | connectionAborted
  | notConnected
  | notFound
  | timedOut
  | wouldBlock
  | permissionDenied
  | unsupported
  | other
deriving DecidableEq, Repr

inductive ErrorKind
  | parse
  | authenticationFailed
  | unexpectedReturnType
  | invalidClientConfig
  | ioKind
  | client
  | extension
  | masterNameNotFoundBySentinel
  | noValidReplicasFoundBySentinel
  | emptySentinelList
  | clusterConnectionNotFound
  | server (kind : ServerErrorKind)
  | serialize
  | resp3NotSupported
deriving DecidableEq, Repr

inductive InternalError
  | ofIo (kind : IoErrorKind)
  | foreign
deriving DecidableEq, Repr

inductive ParsingError
  | invalidType (v : Value) (det : String)
  | invalidUtf8
  | interiorNul (position : Nat)
  | ofServerError (err : ServerError)
  | arity (len n : Nat)

inductive Detail
  | text (s : String)
  | debug (v : Value)

inductive RedisError
  | general (kind : ErrorKind) (desc : String) (detail : Option Detail)
  | internal (kind : ErrorKind) (err : InternalError)
  | parsing (err : ParsingError)
  | server (err : ServerError)
  | pipeline (errs : List (Nat × ServerError))
  | transactionAborted (errs : List (Nat × ServerError))

abbrev RedisResult := Except RedisError

inductive RetryMethod
  | reconnect
  | noRetry
  | retryImmediately
  | waitAndRetry
  | askRedirect
  | movedRedirect
  | reconnectFromInitialConnections
  | refreshSlotsAndRetry
deriving DecidableEq, Repr

def ServerErrorKind.retryMethod : ServerErrorKind → RetryMethod
  | moved => .movedRedirect
  | ask => .askRedirect
  | tryAgain | masterDown | clusterDown | busyLoading => .waitAndRetry
  | readOnly => .refreshSlotsAndRetry
  | responseError | execAbort | noScript | crossSlot | notBusy | noSub | noPerm => .noRetry

namespace RedisError

def ofIo (kind : IoErrorKind) : RedisError := internal .ioKind (.ofIo kind)

def makeEmptyCommand : RedisError := general .client "empty command" none

def makeAbortedTransaction (errs : List (Nat × ServerError)) : RedisError := transactionAborted errs

def kind : RedisError → ErrorKind
  | general kind _ _ => kind
  | internal kind _ => kind
  | parsing _ => .parse
  | server err => match err.kind with
    | some kind => .server kind
    | none => .extension
  | pipeline items => (items.head?.bind fun item => item.2.kind.map ErrorKind.server).getD .extension
  | transactionAborted _ => .server .execAbort

def asIoError : RedisError → Option IoErrorKind
  | internal _ (.ofIo kind) => some kind
  | _ => none

def isConnectionDropped : RedisError → Bool
  | general kind _ _ => kind == .ioKind
  | internal _ (.ofIo kind) =>
    kind ∈ [.brokenPipe, .connectionReset, .connectionRefused, .connectionAborted, .unexpectedEof,
      .notConnected, .notFound]
  | _ => false

def retryMethod (e : RedisError) : RetryMethod :=
  match e.kind with
  | .server kind => kind.retryMethod
  | .masterNameNotFoundBySentinel | .noValidReplicasFoundBySentinel => .waitAndRetry
  | .extension | .unexpectedReturnType | .invalidClientConfig | .client | .emptySentinelList
  | .serialize | .resp3NotSupported => .noRetry
  | .parse | .authenticationFailed => .reconnect
  | .clusterConnectionNotFound => .reconnectFromInitialConnections
  | .ioKind =>
    if e.isConnectionDropped then .reconnect
    else match e.asIoError with
      | some .permissionDenied | some .unsupported => .noRetry
      | some _ => .retryImmediately
      | none => .noRetry

def isIoError (e : RedisError) : Bool := e.kind == .ioKind

def isUnrecoverableError (e : RedisError) : Bool :=
  e.retryMethod == .reconnect || e.retryMethod == .reconnectFromInitialConnections

end RedisError

def closedConnectionError : RedisError := .ofIo .brokenPipe

@[simp] theorem RedisError.asIoError_ofIo (kind : IoErrorKind) :
    (RedisError.ofIo kind).asIoError = some kind := rfl

end RedisRs
