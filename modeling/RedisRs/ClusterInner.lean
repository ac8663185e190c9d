import RedisRs.AsyncRequest

/-!
# The requests of the asynchronous cluster connection
-/

namespace RedisRs.AsyncCluster

variable {C : Type}

inductive ResultExpectation
  | external (sender : Nat)
  | internal
deriving DecidableEq

structure QueuedRequest (C : Type) extends PendingRequest C where
  sender : ResultExpectation

inductive RequestState
  | future
  | sleep

structure Request (C : Type) where
  retryParams : RetryParams
  request : Option (QueuedRequest C)
  state : RequestState

structure Sent where
  sender : Nat
  result : RedisResult Response
  retry : Nat
  target : OperationTarget

structure Callers where
  opened : Nat
  dropped : List Nat
  sent : List Sent
  started : List Nat

namespace Callers

def isClosed (callers : Callers) : ResultExpectation → Bool
  | .external sender => decide (sender ∈ callers.dropped)
  | .internal => false

def send (callers : Callers) (result : RedisResult Response) (retry : Nat) (target : OperationTarget) :
    ResultExpectation → Callers
  | .external sender =>
    if sender ∈ callers.dropped then callers
    else { callers with sent := ⟨sender, result, retry, target⟩ :: callers.sent }
  | .internal => callers

def start (callers : Callers) : ResultExpectation → Callers
  | .external sender => { callers with started := sender :: callers.started }
  | .internal => callers

end Callers

structure ClusterConnInner (C : Type) where
  retryParams : RetryParams
  inFlightRequests : List (Request C)
  pendingRequests : List (QueuedRequest C)
  refreshError : Option RedisError
  callers : Callers
  random : Nat → Nat
  panicked : Bool

namespace ClusterConnInner

def numberOfRetries (inner : ClusterConnInner C) : Nat := inner.retryParams.limit

def new (retryParams : RetryParams) (random : Nat → Nat) : ClusterConnInner C :=
  ⟨retryParams, [], [], none, ⟨0, [], [], []⟩, random, false⟩

def push (inner : ClusterConnInner C) (external : Bool) (cmd : CmdArg C) : ClusterConnInner C :=
  if external then
    { inner with
      pendingRequests := inner.pendingRequests ++ [⟨⟨0, cmd⟩, .external inner.callers.opened⟩]
      callers := { inner.callers with opened := inner.callers.opened + 1 } }
  else { inner with pendingRequests := inner.pendingRequests ++ [⟨⟨0, cmd⟩, .internal⟩] }

def start (inner : ClusterConnInner C) (request : QueuedRequest C) : ClusterConnInner C :=
  { inner with
    inFlightRequests := inner.inFlightRequests ++ [⟨inner.retryParams, some request, .future⟩]
    callers := inner.callers.start request.sender }

def handleRetries (inner : ClusterConnInner C) (sender : ResultExpectation) : Option (Retry C) → ClusterConnInner C
  | some (.moveToPending request) => { inner with pendingRequests := inner.pendingRequests ++ [⟨request, sender⟩] }
  | some (.immediately request) => inner.start ⟨request, sender⟩
  | some (.afterSleep request _) =>
    { inner with
      inFlightRequests := inner.inFlightRequests ++ [⟨inner.retryParams, some ⟨request, sender⟩, .sleep⟩] }
  | none => inner

def dispatch (inner : ClusterConnInner C) (request : QueuedRequest C) : ClusterConnInner C :=
  if inner.callers.isClosed request.sender then inner else inner.start request

def dispatchPending (inner : ClusterConnInner C) : ClusterConnInner C :=
  inner.pendingRequests.foldl dispatch { inner with pendingRequests := [] }

def settle (inner : ClusterConnInner C) (result : OperationResult) (request : QueuedRequest C)
    (retryParams : RetryParams) : Ends (PollFlushAction × ClusterConnInner C) := do
  let choice ← chooseResponse result request.toPendingRequest retryParams (inner.random 0)
  let callers := match choice.sent with
    | some sent => inner.callers.send sent request.retry result.1 request.sender
    | none => inner.callers
  let inner := { inner with callers, random := fun n => inner.random (n + 1) }
  return (choice.action, inner.handleRetries request.sender choice.retry)

def pollRequest (inner : ClusterConnInner C) (i : Nat) (outcome : Option OperationResult) :
    Option (Ends (PollFlushAction × ClusterConnInner C)) :=
  inner.inFlightRequests[i]?.map fun r =>
    let removed := { inner with inFlightRequests := inner.inFlightRequests.eraseIdx i }
    match r.request with
    -- `send_refresh_error` took the request
    | none => .ok (.none, removed)
    | some request =>
      if inner.callers.isClosed request.sender then .ok (.none, removed)
      else match outcome, r.state with
        | none, _ => .ok (.none, inner)
        | some _, .sleep =>
          .ok (.none, removed.handleRetries request.sender (some (.immediately request.toPendingRequest)))
        | some result, .future => removed.settle result request r.retryParams

end ClusterConnInner

def Request.take (r : Request C) : Request C :=
  if r.request.isSome then { r with request := none, retryParams := {} } else r

namespace ClusterConnInner

def takenRequests (inner : ClusterConnInner C) : List (QueuedRequest C × RetryParams) :=
  inner.inFlightRequests.filterMap fun r => r.request.map fun request => (request, r.retryParams)

def failWith (refreshError : RedisError) (inner : ClusterConnInner C) (pending : QueuedRequest C × RetryParams) :
    Ends (ClusterConnInner C) :=
  (inner.settle (.notFound, .error refreshError) pending.1 pending.2).map Prod.snd

def sendRefreshError (inner : ClusterConnInner C) : Ends (ClusterConnInner C) :=
  match inner.refreshError with
  | none => .ok inner
  | some refreshError =>
    let taken := { inner with refreshError := none, inFlightRequests := inner.inFlightRequests.map Request.take }
    match inner.takenRequests, inner.pendingRequests with
    | [], [] => .ok taken
    -- one request of the queue is failed if there is none in flight
    | [], request :: pendingRequests => failWith refreshError { taken with pendingRequests } (request, inner.retryParams)
    | requests, _ => requests.foldlM (failWith refreshError) taken

inductive Event (C : Type)
  | push (external : Bool) (cmd : CmdArg C)
  | dispatchPending
  | poll (i : Nat) (outcome : Option OperationResult)
  | refreshFailed (err : RedisError)
  | sendRefreshError
  | dropReceiver (sender : Nat)

def orPanicked (inner : ClusterConnInner C) :
    Ends (PollFlushAction × ClusterConnInner C) → PollFlushAction × ClusterConnInner C
  | .ok r => r
  | .error _ => (.none, { inner with inFlightRequests := [], pendingRequests := [], panicked := true })

def step (inner : ClusterConnInner C) (event : Event C) : Option (PollFlushAction × ClusterConnInner C) :=
  if inner.panicked then none
  else match event with
    | .push external cmd => some (.none, inner.push external cmd)
    | .dispatchPending => some (.none, inner.dispatchPending)
    | .poll i outcome => (inner.pollRequest i outcome).map inner.orPanicked
    | .refreshFailed err => some (.none, { inner with refreshError := some err })
    | .sendRefreshError => some (inner.orPanicked (inner.sendRefreshError.map fun inner => (.none, inner)))
    | .dropReceiver sender =>
      some (.none, { inner with callers := { inner.callers with dropped := sender :: inner.callers.dropped } })

end ClusterConnInner

end RedisRs.AsyncCluster
