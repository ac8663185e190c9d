import RedisRs.ClusterRouting
import RedisRs.RetryWaits

/-!
# Requests of the asynchronous cluster connection
-/

namespace RedisRs

def ServerError.requiresAction (err : ServerError) : Bool :=
  ((err.kind.map ServerErrorKind.retryMethod).getD .noRetry) != .noRetry

def Value.errorThatRequiresAction : Value → Option RedisError
  | .serverError err => if err.requiresAction then some (.server err) else none
  | _ => none

namespace AsyncCluster

variable {C : Type}

inductive InternalSingleNodeRouting (C : Type)
  | random
  | specificNode (route : Route)
  | byAddress (address : NodeAddress)
  | connection (identifier : NodeAddress) (conn : C)
  | redirect (redirect : Redirect) (previousRouting : InternalSingleNodeRouting C)

inductive InternalRoutingInfo (C : Type)
  | singleNode (route : InternalSingleNodeRouting C)
  | multiNode (routing : MultipleNodeRoutingInfo) (policy : Option ResponsePolicy)

def InternalSingleNodeRouting.reset : InternalSingleNodeRouting C → InternalSingleNodeRouting C
  | redirect _ previousRouting => previousRouting.reset
  | connection identifier _ => byAddress identifier
  | route => route

inductive CmdArg (C : Type)
  | cmd (cmd : Cmd) (routing : InternalRoutingInfo C)
  | pipeline (pipeline : Pipeline) (offset count : Nat) (route : InternalSingleNodeRouting C)
  | reconnect (address : NodeAddress)

namespace CmdArg

def setRedirect (arg : CmdArg C) : Option Redirect → CmdArg C
  | none => arg
  | some redirect => match arg with
    | .reconnect address => .reconnect address
    | .cmd c (.singleNode route) => .cmd c (.singleNode (.redirect redirect route))
    -- a request to several nodes cannot be redirected
    | .cmd c (.multiNode routing policy) => .cmd c (.multiNode routing policy)
    | .pipeline p offset count route => .pipeline p offset count (.redirect redirect route)

def resetRouting : CmdArg C → CmdArg C
  | .reconnect address => .reconnect address
  | .cmd c (.singleNode route) => .cmd c (.singleNode route.reset)
  | .cmd c (.multiNode routing policy) => .cmd c (.multiNode routing policy)
  | .pipeline p offset count route => .pipeline p offset count route.reset

end CmdArg

inductive Response
  | single (value : Value)
  | multiple (values : List Value)

inductive OperationTarget
  | node (address : NodeAddress)
  | notFound
  | fanOut

abbrev OperationResult := OperationTarget × RedisResult Response

inductive PollFlushAction
  | none
  | rebuildSlots
  | reconnect (addresses : List NodeAddress)
  | reconnectFromInitialConnections
deriving DecidableEq

structure PendingRequest (C : Type) where
  retry : Nat
  cmd : CmdArg C

inductive Retry (C : Type)
  | immediately (request : PendingRequest C)
  | moveToPending (request : PendingRequest C)
  | afterSleep (request : PendingRequest C) (sleepDuration : Nat)

def Retry.request : Retry C → PendingRequest C
  | immediately request => request
  | moveToPending request => request
  | afterSleep request _ => request

def Response.errorToActOn : Response → Option RedisError
  | single value => value.errorThatRequiresAction
  | multiple values => values.findSome? Value.errorThatRequiresAction

def OperationResult.errorToActOn (result : OperationResult) : Option RedisError :=
  match result.2 with
  | .ok item => item.errorToActOn
  | .error err => some err

structure Choice (C : Type) where
  sent : Option (RedisResult Response)
  retry : Option (Retry C)
  action : PollFlushAction

def retryOrSend (request : PendingRequest C) (numberOfRetries : Nat) (err : RedisError)
    (retryFunc : PendingRequest C → Retry C) (action : PollFlushAction) : Choice C :=
  if request.retry < numberOfRetries then ⟨none, some (retryFunc { request with retry := request.retry + 1 }), action⟩
  else ⟨some (.error err), none, action⟩

def redirectTo (err : RedisError) : Option NodeAddress :=
  err.redirectNode.bind fun node => (NodeAddress.tryFrom node).toOption

def chooseRetry (target : OperationTarget) (err : RedisError) (request : PendingRequest C) (numberOfRetries : Nat)
    (sleepDuration : Nat) : Choice C :=
  let retryOrSend := retryOrSend request numberOfRetries err
  match target, err.retryMethod with
  | _, .reconnectFromInitialConnections =>
    retryOrSend (fun request => .moveToPending { request with cmd := request.cmd.resetRouting })
      .reconnectFromInitialConnections
  | .node address, .reconnect =>
    retryOrSend (fun request => .moveToPending { request with cmd := request.cmd.resetRouting })
      (.reconnect [address])
  -- the requests of a fan-out are tried again one by one
  | .fanOut, _ => ⟨some (.error err), none, .none⟩
  | .notFound, _ =>
    retryOrSend (fun request => .afterSleep { request with cmd := request.cmd.resetRouting } sleepDuration) .rebuildSlots
  | _, .askRedirect =>
    retryOrSend (fun request =>
      .immediately { request with cmd := request.cmd.setRedirect ((redirectTo err).map .ask) }) .none
  | _, .movedRedirect =>
    retryOrSend (fun request =>
      .immediately { request with cmd := request.cmd.setRedirect ((redirectTo err).map .moved) }) .rebuildSlots
  | _, .refreshSlotsAndRetry =>
    retryOrSend (fun request => .moveToPending { request with cmd := request.cmd.resetRouting }) .rebuildSlots
  | _, .waitAndRetry => retryOrSend (fun request => .afterSleep request sleepDuration) .none
  | _, .noRetry => ⟨some (.error err), none, .none⟩
  | _, .retryImmediately => retryOrSend .moveToPending .none

def PendingRequest.nextRetry (request : PendingRequest C) : UInt32 := .ofNat (min (request.retry + 1) (2 ^ 32 - 1))

def chooseAfterError (target : OperationTarget) (err : RedisError) (request : PendingRequest C)
    (retryParams : RetryParams) (pick : Nat) : Ends (Choice C) := do
  let sleepDuration ← retryParams.waitTimeForRetry request.nextRetry pick
  return chooseRetry target err request retryParams.limit sleepDuration

def chooseResponse (result : OperationResult) (request : PendingRequest C) (retryParams : RetryParams) (pick : Nat) :
    Ends (Choice C) :=
  match request.cmd with
  | .reconnect address => .ok ⟨some (.ok (.single .nil)), none, .reconnect [address]⟩
  | _ =>
    match result.2 with
    | .ok item =>
      match item.errorToActOn with
      | some err => chooseAfterError result.1 err request retryParams pick
      | none => .ok ⟨some (.ok item), none, .none⟩
    | .error err => chooseAfterError result.1 err request retryParams pick

theorem nextRetry_le_lastRetry {request : PendingRequest C} {p : RetryParams} (h : request.retry ≤ p.limit) :
    request.nextRetry ≤ p.lastRetry := by
  rw [PendingRequest.nextRetry, RetryParams.lastRetry, UInt32.le_iff_toNat_le, UInt32.toNat_ofNat',
    UInt32.toNat_ofNat']
  omega

def CmdArg.isReconnect : CmdArg C → Bool
  | .reconnect _ => true
  | _ => false

variable (arg : CmdArg C) (target : OperationTarget) (err : RedisError) (request : PendingRequest C)
  (numberOfRetries sleepDuration : Nat)

@[simp] theorem CmdArg.isReconnect_resetRouting : arg.resetRouting.isReconnect = arg.isReconnect := by
  rcases arg with ⟨c, route | ⟨routing, policy⟩⟩ | _ | _ <;> rfl

@[simp] theorem CmdArg.isReconnect_setRedirect (redirect : Option Redirect) :
    (arg.setRedirect redirect).isReconnect = arg.isReconnect := by
  rcases redirect with _ | redirect
  · rfl
  · rcases arg with ⟨c, route | ⟨routing, policy⟩⟩ | _ | _ <;> rfl

/-- The request is tried once more, and nothing is sent yet. -/
def RetriedOnce (request : PendingRequest C) (numberOfRetries : Nat) (choice : Choice C) : Prop :=
  choice.sent = none ∧ request.retry < numberOfRetries ∧ ∃ retry, choice.retry = some retry ∧
    retry.request.retry = request.retry + 1 ∧ retry.request.cmd.isReconnect = request.cmd.isReconnect

/-- The error is sent and the request is not tried again, with retries left only if they are not worth it. -/
def GaveUp (target : OperationTarget) (err : RedisError) (request : PendingRequest C) (numberOfRetries : Nat)
    (choice : Choice C) : Prop :=
  choice.sent = some (.error err) ∧ choice.retry = none ∧
    (request.retry < numberOfRetries → err.retryMethod = .noRetry ∨ target = .fanOut)

theorem retryOrSend_cases (err : RedisError) {retryFunc : PendingRequest C → Retry C} (action : PollFlushAction)
    (hretry : ∀ request, (retryFunc request).request.retry = request.retry ∧
      (retryFunc request).request.cmd.isReconnect = request.cmd.isReconnect) :
    GaveUp target err request numberOfRetries (retryOrSend request numberOfRetries err retryFunc action) ∨
      RetriedOnce request numberOfRetries (retryOrSend request numberOfRetries err retryFunc action) := by
  unfold retryOrSend
  split_ifs with h
  · exact .inr ⟨rfl, h, _, rfl, hretry _⟩
  · exact .inl ⟨rfl, rfl, fun hlt => absurd hlt h⟩

theorem chooseRetry_cases :
    GaveUp target err request numberOfRetries (chooseRetry target err request numberOfRetries sleepDuration) ∨
      RetriedOnce request numberOfRetries (chooseRetry target err request numberOfRetries sleepDuration) := by
  unfold chooseRetry
  split
  · exact retryOrSend_cases _ _ _ _ _ fun _ => ⟨rfl, CmdArg.isReconnect_resetRouting _⟩
  · exact retryOrSend_cases _ _ _ _ _ fun _ => ⟨rfl, CmdArg.isReconnect_resetRouting _⟩
  · exact .inl ⟨rfl, rfl, fun _ => .inr rfl⟩
  · exact retryOrSend_cases _ _ _ _ _ fun _ => ⟨rfl, CmdArg.isReconnect_resetRouting _⟩
  · exact retryOrSend_cases _ _ _ _ _ fun _ => ⟨rfl, CmdArg.isReconnect_setRedirect _ _⟩
  · exact retryOrSend_cases _ _ _ _ _ fun _ => ⟨rfl, CmdArg.isReconnect_setRedirect _ _⟩
  · exact retryOrSend_cases _ _ _ _ _ fun _ => ⟨rfl, CmdArg.isReconnect_resetRouting _⟩
  · exact retryOrSend_cases _ _ _ _ _ fun _ => ⟨rfl, rfl⟩
  · exact .inl ⟨rfl, rfl, fun _ => .inl (by assumption)⟩
  · exact retryOrSend_cases _ _ _ _ _ fun _ => ⟨rfl, rfl⟩

section ChooseResponse

variable {result : OperationResult} {request : PendingRequest C} {retryParams : RetryParams} {pick : Nat}
  {choice : Choice C}

theorem chooseResponse_inv (h : chooseResponse result request retryParams pick = .ok choice) :
    (∃ address, request.cmd = .reconnect address ∧ choice = ⟨some (.ok (.single .nil)), none, .reconnect [address]⟩) ∨
      request.cmd.isReconnect = false ∧
        ((∃ item, result.2 = .ok item ∧ OperationResult.errorToActOn result = none ∧
            choice = ⟨some (.ok item), none, .none⟩) ∨
          ∃ err ms, OperationResult.errorToActOn result = some err ∧
            choice = chooseRetry result.1 err request retryParams.limit ms) := by
  have hretry : ∀ err, chooseAfterError result.1 err request retryParams pick = .ok choice →
      ∃ ms, choice = chooseRetry result.1 err request retryParams.limit ms := by
    intro err h
    obtain ⟨ms, -, h⟩ := exists_of_bind_eq_ok h
    exact ⟨ms, (Except.ok.inj h).symm⟩
  rw [OperationResult.errorToActOn]
  unfold chooseResponse at h
  split at h
  · next address hrec => exact .inl ⟨address, hrec, (Except.ok.inj h).symm⟩
  · next hcmd =>
    refine .inr ⟨?_, ?_⟩
    · cases hrec : request.cmd with
      | reconnect address => exact absurd hrec (hcmd address)
      | _ => rfl
    rcases hres : result.2 with err | item <;> rw [hres] at h
    · obtain ⟨ms, hms⟩ := hretry err h
      exact .inr ⟨err, ms, rfl, hms⟩
    · dsimp only at h ⊢
      rcases herr : item.errorToActOn with _ | err <;> rw [herr] at h
      · exact .inl ⟨item, rfl, rfl, (Except.ok.inj h).symm⟩
      · obtain ⟨ms, hms⟩ := hretry err h
        exact .inr ⟨err, ms, rfl, hms⟩

theorem chooseResponse_cases (h : chooseResponse result request retryParams pick = .ok choice) :
    (∃ item, choice.sent = some (.ok item) ∧ choice.retry = none ∧
      (request.cmd.isReconnect = false → result.2 = .ok item)) ∨
      (∃ err, GaveUp result.1 err request retryParams.limit choice) ∨
      RetriedOnce request retryParams.limit choice := by
  rcases chooseResponse_inv h with ⟨address, hcmd, rfl⟩ | ⟨-, ⟨item, hres, -, rfl⟩ | ⟨err, ms, -, rfl⟩⟩
  · refine .inl ⟨_, rfl, rfl, fun hno => ?_⟩
    rw [hcmd] at hno
    cases hno
  · exact .inl ⟨item, rfl, rfl, fun _ => hres⟩
  · exact .inr ((chooseRetry_cases result.1 err request _ ms).imp_left fun h => ⟨err, h⟩)

theorem chooseResponse_of_noOverflow (h : retryParams.NoOverflow request.nextRetry) (result : OperationResult)
    (pick : Nat) :
    ∃ choice, chooseResponse result request retryParams pick = .ok choice := by
  have hretry : ∀ err, ∃ choice, chooseAfterError result.1 err request retryParams pick = .ok choice := by
    intro err
    obtain ⟨ms, hms, -⟩ := RetryParams.waitTimeForRetry_of_noOverflow h pick
    exact ⟨_, by rw [chooseAfterError, hms]; rfl⟩
  unfold chooseResponse
  split
  · exact ⟨_, rfl⟩
  · rcases result.2 with err | item
    · exact hretry err
    · dsimp only
      rcases item.errorToActOn with _ | err
      · exact ⟨_, rfl⟩
      · exact hretry err

end ChooseResponse

end AsyncCluster

end RedisRs
