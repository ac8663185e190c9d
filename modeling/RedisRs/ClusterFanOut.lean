import RedisRs.ClusterConnection

/-!
# Requests to several nodes
-/

namespace RedisRs.Cluster

open ConnectionLike Connect

def allOk {α : Type} : List (RedisResult α) → RedisResult (List α)
  | [] => .ok []
  | .error e :: _ => .error e
  | .ok a :: results => (allOk results).map (a :: ·)

def noResults : RedisError :=
  .general .clusterConnectionNotFound "No results received for multi-node operation" none

def noConnectionFound : RedisError := .general .ioKind "Couldn't find a connection" none

def oneSucceeded : Option RedisError → List (RedisResult Value) → RedisResult Value
  | lastFailure, [] => .error (lastFailure.getD noConnectionFound)
  | _, .ok value :: _ => .ok value
  | _, .error e :: results => oneSucceeded (some e) results

def firstNonEmpty (numOfResults : Nat) : Nat → Option RedisError → List (RedisResult Value) → RedisResult Value
  | nilCounter, lastFailure, [] =>
    if nilCounter = numOfResults then .ok .nil else .error (lastFailure.getD noConnectionFound)
  | nilCounter, lastFailure, .ok .nil :: results => firstNonEmpty numOfResults (nilCounter + 1) lastFailure results
  | _, _, .ok value :: _ => .ok value
  | nilCounter, _, .error e :: results => firstNonEmpty numOfResults nilCounter (some e) results

def combine (keyOrder : List Bytes → List Bytes) (routing : MultipleNodeRoutingInfo)
    (results : List (RedisResult (NodeAddress × Value))) (policy : Option ResponsePolicy) :
    Ends (RedisResult Value) :=
  let values := allOk (results.map fun result => result.map Prod.snd)
  let ofAll (f : List Value → Ends (RedisResult Value)) : Ends (RedisResult Value) :=
    match values with
    | .error e => .ok (.error e)
    | .ok values => f values
  match policy with
  | some .allSucceeded =>
    ofAll fun values => .ok (match values.getLast? with
      | some value => .ok value
      | none => .error noResults)
  | some .oneSucceeded => .ok (oneSucceeded none (results.map fun result => result.map Prod.snd))
  | some .combineMaps => ofAll (combineMapResults keyOrder)
  | some .firstSucceededNonEmptyOrAllEmpty =>
    .ok (firstNonEmpty results.length 0 none (results.map fun result => result.map Prod.snd))
  | some (.aggregate op) => ofAll fun values => aggregate values op
  | some (.aggregateLogical op) => ofAll fun values => logicalAggregate values op
  | some .combineArrays => ofAll fun values => match routing with
    | .multiSlot routes pattern => combineAndSortArrayResults values routes pattern
    | _ => .ok (combineArrayResults values)
  | some .special | none =>
    .ok ((allOk results).map fun results =>
      .map (results.map fun result => (.bulkString (bytesOf result.1.text), result.2)))

namespace ClusterConnection

variable {C : Type} [Connect C] (env : ClusterEnv C)

def executeOnAll (input : Input) (addresses : List NodeAddress) :
    ClusterM C (List (RedisResult (NodeAddress × Value))) := do
  let n ← choice
  Prog.forEach (fun addr => do
      let result ← requestSingleNode env input (.byAddress addr.host addr.port)
      return result.map fun output => (addr, output.toValue))
    (env.order n addresses)

def executePart (input : Input) (slots : SlotMap) (route : Route × List Nat) :
    ClusterM C (RedisResult (NodeAddress × Value)) := do
  match slots.slotAddrForRoute route.1 (← readPick env) with
  | none => return .error (.general .ioKind "Couldn't find connection" none)
  | some addr =>
    match ← getConnectionByAddr env addr with
    | .error e => return .error e
    | .ok link =>
      let part ← ends (commandForMultiSlotIndices input route.2)
      let (r, con) := reqCommand part link.con
      setLink addr { link with con := con }
      record (.part addr part r)
      return r.map fun value => (addr, value)

def executeMultiSlot (input : Input) (slots : SlotMap) (routes : List (Route × List Nat)) :
    ClusterM C (List (RedisResult (NodeAddress × Value))) :=
  Prog.forEach (executePart env input slots) routes

def executeOnAllOf (input : Input) (addresses : SlotMap → List NodeAddress) :
    ClusterM C (List (RedisResult (NodeAddress × Value))) := do
  holdConnections (return ())
  holdSlots do
    executeOnAll env input (addresses (← Prog.get).slots.value)

def nodeResults (input : Input) : MultipleNodeRoutingInfo → ClusterM C (List (RedisResult (NodeAddress × Value)))
  | .multiSlot routes _ =>
    holdConnections (holdSlots do
      executeMultiSlot env input (← Prog.get).slots.value routes)
  | .allMasters => executeOnAllOf env input SlotMap.addressesForAllPrimaries
  | .allNodes => executeOnAllOf env input SlotMap.addressesForAllNodes

def executeOnMultipleNodes (input : Input) (routing : MultipleNodeRoutingInfo)
    (policy : Option ResponsePolicy) : ClusterM C (RedisResult Value) := do
  let results ← nodeResults env input routing
  let n ← choice
  ends (combine (env.keyOrder n) routing results policy)

def unroutable : RedisError := .general .client "This command cannot be safely routed in cluster mode" none

def request (input : Input) : Option RoutingInfo → ClusterM C (RedisResult Output)
  | some (.singleNode routing) => requestSingleNode env input routing
  | some (.multiNode routing policy) => do
    return (← executeOnMultipleNodes env input routing policy).map .single
  | none => return .error unroutable

end ClusterConnection

end RedisRs.Cluster
