import RedisRs.AsyncCore
import RedisRs.ClusterFanOut

/-!
# Requests to several nodes of the asynchronous connection
-/

namespace RedisRs.AsyncCluster

variable {C : Type}

inductive Handling
  /-- The results of the attempts; the number of an attempt is that of the retries before it. -/
  | attempts (results : Nat → OperationTarget × RedisResult Value)
  | dropped

def deliver (retryParams : RetryParams) (random : Nat → Nat) (results : Nat → OperationTarget × RedisResult Value) :
    Nat → PendingRequest C → Ends (Option (RedisResult Response))
  | 0, _ => .ok none
  | fuel + 1, request => do
    let attempt := results request.retry
    let choice ← chooseResponse (attempt.1, attempt.2.map .single) request retryParams (random request.retry)
    match choice.sent, choice.retry with
    | some sent, _ => return some sent
    | none, some retry => deliver retryParams random results fuel retry.request
    | none, none => return none

def notHandled : RedisError := .general .client "request wasn't handled due to internal failure" none

def receive (retryParams : RetryParams) (random : Nat → Nat) (request : PendingRequest C) :
    Handling → Ends (RedisResult Value)
  | .dropped => .ok (.error notHandled)
  | .attempts results => do
    match ← deliver retryParams random results (retryParams.limit + 1 - request.retry) request with
    | some (.ok (.single value)) => return .ok value
    | some (.error e) => return .error e
    | _ => return .error notHandled

/-- One of the attempts gets this value. -/
def Handling.Answers (handling : Handling) (value : Value) : Prop :=
  ∃ results k, handling = .attempts results ∧ (results k).2 = .ok value

section Receive

variable {retryParams : RetryParams} {random : Nat → Nat} {request : PendingRequest C}

theorem deliver_spec {results : Nat → OperationTarget × RedisResult Value} {fuel : Nat}
    {sent : Option (RedisResult Response)} (hcmd : request.cmd.isReconnect = false)
    (hretry : request.retry ≤ retryParams.limit) (hfuel : retryParams.limit < fuel + request.retry)
    (h : deliver retryParams random results fuel request = .ok sent) :
    (∃ k value, (results k).2 = .ok value ∧ sent = some (.ok (.single value))) ∨ ∃ e, sent = some (.error e) := by
  induction fuel generalizing request with
  | zero => omega
  | succ fuel ih =>
    obtain ⟨choice, hchoice, h⟩ := exists_of_bind_eq_ok h
    rcases chooseResponse_cases hchoice with
      ⟨item, hsent, -, hitem⟩ | ⟨e, hsent, -⟩ | ⟨hsent, hlt, retry, hagain, hnext, hnextCmd⟩
    · rw [hsent] at h
      cases h
      obtain ⟨value, hval, rfl⟩ := exists_of_map_eq_ok (hitem hcmd)
      exact .inl ⟨request.retry, value, hval, rfl⟩
    · rw [hsent] at h
      cases h
      exact .inr ⟨e, rfl⟩
    · rw [hsent, hagain] at h
      exact ih (hnextCmd.trans hcmd) (by omega) (by omega) h

theorem receive_ok {handling : Handling} {value : Value} (hcmd : request.cmd.isReconnect = false)
    (hretry : request.retry ≤ retryParams.limit)
    (h : receive retryParams random request handling = .ok (.ok value)) : handling.Answers value := by
  cases handling with
  | dropped => cases h
  | attempts results =>
    obtain ⟨sent, hdeliver, h⟩ := exists_of_bind_eq_ok h
    rcases deliver_spec hcmd hretry (by omega) hdeliver with ⟨k, value', hk, rfl⟩ | ⟨e, rfl⟩
    · cases h
      exact ⟨results, k, rfl, hk⟩
    · cases h

end Receive

def errorOf {α : Type} : RedisResult α → Option RedisError
  | .error e => some e
  | .ok _ => none

structure Progress where
  handling : Nat → Handling
  completion : Nat → List Nat
  completion_perm : ∀ n, (completion n).Perm (List.range n)

namespace Progress

variable {α : Type} (progress : Progress)

def completed (results : List α) : List α := (progress.completion results.length).filterMap fun i => results[i]?

def tryJoinAll (results : List (RedisResult α)) : RedisResult (List α) :=
  match (progress.completed results).findSome? errorOf with
  | some e => .error e
  | none => .ok (results.filterMap Except.toOption)

end Progress

def selectOk {α : Type} : List (RedisResult α) → Ends (RedisResult α)
  | [] => .error .assertion
  | .ok a :: _ => .ok (.ok a)
  | [.error e] => .ok (.error e)
  | .error _ :: result :: results => selectOk (result :: results)

def noConnectionsForMultiNode : RedisError :=
  .general .clusterConnectionNotFound "No connections found for multi-node operation" none

def noNodesForMultiNode : RedisError :=
  .general .clusterConnectionNotFound "No nodes found for multi-node operation" none

def noConnectionLeft : RedisError := .general .clusterConnectionNotFound "Couldn't find any connection" none

def firstNonEmpty (numResults : Nat) : Nat → Option RedisError → List (RedisResult Value) → RedisResult Value
  | nilCounter, lastErr, [] => if nilCounter = numResults then .ok .nil else .error (lastErr.getD noConnectionLeft)
  | nilCounter, lastErr, .ok .nil :: results => firstNonEmpty numResults (nilCounter + 1) lastErr results
  | nilCounter, _, .ok (.serverError err) :: results => firstNonEmpty numResults nilCounter (some (.server err)) results
  | _, _, .ok value :: _ => .ok value
  | nilCounter, _, .error e :: results => firstNonEmpty numResults nilCounter (some e) results

def errorAsValue : RedisResult Value → RedisResult Value
  | .error (.server err) => .ok (.serverError err)
  | result => result

def aggregateResults (keyOrder : List Bytes → List Bytes) (progress : Progress)
    (receivers : List (NodeAddress × RedisResult Value)) (routing : MultipleNodeRoutingInfo)
    (policy : Option ResponsePolicy) : Ends (RedisResult Value) :=
  let results := receivers.map Prod.snd
  let ofAll (f : List Value → Ends (RedisResult Value)) : Ends (RedisResult Value) :=
    match progress.tryJoinAll results with
    | .error e => .ok (.error e)
    | .ok values => f values
  if receivers.isEmpty then .ok (.error noNodesForMultiNode)
  else match policy with
  | some .allSucceeded =>
    ofAll fun values => .ok (match values.getLast? with
      | some value => .ok value
      | none => .error Cluster.noResults)
  | some .oneSucceeded => selectOk (progress.completed results)
  | some .firstSucceededNonEmptyOrAllEmpty => .ok (firstNonEmpty results.length 0 none results)
  | some (.aggregate op) => ofAll fun values => aggregate values op
  | some (.aggregateLogical op) => ofAll fun values => logicalAggregate values op
  | some .combineArrays => ofAll fun values => match routing with
    | .multiSlot routes pattern => combineAndSortArrayResults values routes pattern
    | _ => .ok (combineArrayResults values)
  | some .combineMaps => ofAll (combineMapResults keyOrder)
  | some .special | none =>
    .ok ((Cluster.allOk (receivers.map fun receiver =>
      (errorAsValue receiver.2).map fun value => (.bulkString (bytesOf receiver.1.text), value))).map .map)

variable (env : CoreEnv C)

namespace Core

def toRequest (s : Core C) (addr : NodeAddress) (cmd : Cmd) : Option (NodeAddress × PendingRequest C) :=
  ((s.connections.lookup addr).bind ConnState.connectedOrReconnecting).map fun conn =>
    (addr, ⟨0, .cmd cmd (.singleNode (.connection addr conn))⟩)

def partRequest (s : Core C) (cmd : Cmd) (route : Route × List Nat) (n : Nat) :
    Ends (Option (NodeAddress × PendingRequest C)) :=
  match s.slots.slotAddrForRoute route.1 ⟨env.strategy.map fun strategy => strategy n, env.random n⟩ with
  | none => .ok none
  | some addr => (commandForMultiSlotIndices cmd route.2).map (s.toRequest addr)

def targets (s : Core C) (cmd : Cmd) : MultipleNodeRoutingInfo → Ends (List (Option (NodeAddress × PendingRequest C)))
  | .allNodes => .ok ((env.order s.tick s.slots.addressesForAllNodes).map fun addr => s.toRequest addr cmd)
  | .allMasters => .ok ((env.order s.tick s.slots.addressesForAllPrimaries).map fun addr => s.toRequest addr cmd)
  | .multiSlot routes _ => routes.zipIdx.mapM fun route => partRequest env s cmd route.1 (s.tick + route.2)

def receivers (progress : Progress) (requests : List (NodeAddress × PendingRequest C)) :
    Ends (List (NodeAddress × RedisResult Value)) :=
  requests.zipIdx.mapM fun request =>
    (receive env.retryParams env.random request.1.2 (progress.handling request.2)).map fun result =>
      (request.1.1, result)

def executeOnMultipleNodes (progress : Progress) (s : Core C) (cmd : Cmd) (routing : MultipleNodeRoutingInfo)
    (policy : Option ResponsePolicy) : Ends OperationResult :=
  if s.connections.entries.isEmpty then .ok (.fanOut, .error noConnectionsForMultiNode)
  else do
    -- a target without a connection is passed over
    let requests := (← targets env s cmd routing).reduceOption
    let results ← receivers env progress requests
    let result ← aggregateResults (env.keyOrder s.tick) progress results routing policy
    return (.fanOut, result.map .single)

end Core

end RedisRs.AsyncCluster
