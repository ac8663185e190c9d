import RedisRs.ClusterRouting

/-!
# Combining the answers of several nodes
-/

namespace RedisRs

def unexpectedReturnType (desc : String) : RedisError := .general .unexpectedReturnType desc none

def notIntegers : RedisError := unexpectedReturnType "expected array of integers as response"

def notArray : RedisError := unexpectedReturnType "expected array of values as response"

def AggregateOp.initial : AggregateOp → Int64
  | min => Int64.maxValue
  | sum => 0

def AggregateOp.apply (acc int : Int64) : AggregateOp → Ends Int64
  | min => .ok (Min.min acc int)
  | sum => checkedAdd acc int

def aggregateFrom (op : AggregateOp) : Int64 → List Value → Ends (RedisResult Value)
  | acc, [] => .ok (.ok (.int acc))
  | acc, .int int :: values => do aggregateFrom op (← op.apply acc int) values
  | _, _ :: _ => .ok (.error notIntegers)

def aggregate (values : List Value) (op : AggregateOp) : Ends (RedisResult Value) :=
  aggregateFrom op op.initial values

def logicalAggregateItems : List Bool → Nat → List Value → Ends (RedisResult (List Bool))
  | acc, _, [] => .ok (.ok acc)
  | acc, index, .int int :: values => do
    match acc[index]? with
    | none => .error .sliceIndex
    | some b => logicalAggregateItems (acc.set index (b && decide (0 < int))) (index + 1) values
  | _, _, _ :: _ => .ok (.error notIntegers)

def logicalAggregateFrom : List Bool → List Value → Ends (RedisResult Value)
  | acc, [] => .ok (.ok (.array (acc.map fun b => .int (if b then 1 else 0))))
  | acc, .array items :: values => do
    let acc := if acc.isEmpty then List.replicate items.length true else acc
    match ← logicalAggregateItems acc 0 items with
    | .error e => return .error e
    | .ok acc => logicalAggregateFrom acc values
  | _, _ :: _ => .ok (.error notIntegers)

def logicalAggregate (values : List Value) (_ : LogicalAggregateOp) : Ends (RedisResult Value) :=
  logicalAggregateFrom [] values

def combineMapItems (map : AList (fun _ : Bytes => Int64)) :
    List Value → Ends (RedisResult (AList (fun _ : Bytes => Int64)))
  | [] => .ok (.ok map)
  | .bulkString key :: .int value :: items => do
    let sum ← checkedAdd ((map.lookup key).getD 0) value
    combineMapItems (map.insert key sum) items
  | .bulkString _ :: _ => .ok (.error (unexpectedReturnType "expected integer value"))
  | _ :: _ => .ok (.error (unexpectedReturnType "expected string key"))

def combineMapFrom (map : AList (fun _ : Bytes => Int64)) :
    List Value → Ends (RedisResult (AList (fun _ : Bytes => Int64)))
  | [] => .ok (.ok map)
  | .array items :: values => do
    match ← combineMapItems map items with
    | .error e => return .error e
    | .ok map => combineMapFrom map values
  | _ :: _ => .ok (.error notArray)

def combineMapResults (order : List Bytes → List Bytes) (values : List Value) : Ends (RedisResult Value) := do
  match ← combineMapFrom ∅ values with
  | .error e => return .error e
  | .ok map => return .ok (.map ((order map.keys).map fun key => (.bulkString key, .int ((map.lookup key).getD 0))))

def combineArrayFrom : List Value → List Value → RedisResult Value
  | results, [] => .ok (.array results)
  | results, .array items :: values => combineArrayFrom (results ++ items) values
  | _, _ :: _ => .error notArray

def combineArrayResults (values : List Value) : RedisResult Value := combineArrayFrom [] values

def stepIndices (n : Nat) (indices : List Nat) : List Nat :=
  (indices.zipIdx.filter fun p => p.2 % n = 0).map fun p => p.1 / n

def checkIndicesInput (stepCount : Nat) (routes : List (Route × List Nat)) : RedisResult Unit :=
  match routes.find? fun route => route.2.length % stepCount ≠ 0 with
  | none => .ok ()
  | some (_, indices) => .error (.general .client "Invalid indices input detected" (some (.text
      ("Expected argument pattern with tuples of size " ++ toString stepCount ++ ", but found indices: " ++
        toString indices))))

def calculateMultiSlotResultIndices (routes : List (Route × List Nat)) :
    MultiSlotArgPattern → RedisResult (List (Ends (List Nat)))
  | .keysOnly => .ok (routes.map fun route => .ok route.2)
  | .keysAndLastArg =>
    -- the last index is the one of the path
    .ok (routes.map fun route => (checkedSub route.2.length 1).map route.2.take)
  | .keyWithTwoArgTriples =>
    (checkIndicesInput 3 routes).map fun _ => routes.map fun route => .ok (stepIndices 3 route.2)
  | .keyValuePairs =>
    (checkIndicesInput 2 routes).map fun _ => routes.map fun route => .ok (stepIndices 2 route.2)

def combinedLength (values : List Value) : Nat :=
  values.foldl (fun acc value => match value with
    | .array items => items.length + acc
    | _ => 0) 0

def placeItems : List Value → List Nat → List Value → Ends (List Value)
  | results, index :: indices, item :: items => do placeItems (← indexSet results index item) indices items
  | results, _, _ => .ok results

def placeResults : List Value → List (Ends (List Nat)) → List Value → Ends (RedisResult Value)
  | results, keyIndices :: rest, .array items :: values => do
    let indices ← keyIndices
    if items.length = indices.length then placeResults (← placeItems results indices items) rest values
    else .error .assertion
  | _, keyIndices :: _, _ :: _ => keyIndices.map fun _ => .error notArray
  | results, _, _ => .ok (.ok (.array results))

def combineAndSortArrayResults (values : List Value) (routes : List (Route × List Nat))
    (pattern : MultiSlotArgPattern) : Ends (RedisResult Value) :=
  match calculateMultiSlotResultIndices routes pattern with
  | .error e => .ok (.error e)
  | .ok resultIndices =>
    if values.length ≠ resultIndices.length then
      .ok (.error (.general .client
        "Mismatch in the number of multi-slot results compared to the expected result count."
        (some (.text ("Expected: " ++ toString values.length ++ ", Found: " ++ toString resultIndices.length)))))
    else placeResults (List.replicate (combinedLength values) .nil) resultIndices values

end RedisRs
