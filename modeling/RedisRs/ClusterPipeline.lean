import RedisRs.ClusterFanOut

/-!
# Pipelines of the blocking cluster connection
-/

namespace RedisRs.Cluster

open ConnectionLike Connect

structure NodeCmd where
  indexes : List Nat
  pipe : Bytes
  addr : NodeAddress
deriving DecidableEq

namespace NodeCmd

def new (addr : NodeAddress) : NodeCmd := ⟨[], [], addr⟩

def push (nc : NodeCmd) (index : Nat) (cmd : Cmd) : NodeCmd :=
  { nc with indexes := nc.indexes ++ [index], pipe := nc.pipe ++ cmd.writePackedCommand }

end NodeCmd

namespace ClusterConnection

variable {C : Type} [Connect C] (env : ClusterEnv C)

def missingSlotCoverage : RedisError := .general .client "Missing slot coverage" none

def addrForSlot (slots : SlotMap) (route : Route) : ClusterM C (RedisResult NodeAddress) := do
  match slots.slotAddrForRoute route (← readPick env) with
  | some addr => return .ok addr
  | none => return .error missingSlotCoverage

def getAddrForCmd [Crc16] (cmd : Cmd) : ClusterM C (RedisResult NodeAddress) :=
  shareSlots fun slots => do
    let n ← choice
    match ← ends (RoutingInfo.forRoutable (env.routeOrder n) cmd) with
    | some (.singleNode .random) => addrForSlot env slots (.withSlot (randomSlot (env.random n)) .master)
    | some (.singleNode (.specificNode route)) => addrForSlot env slots route
    | _ => return .error unroutable

def mapCmdsFrom [Crc16] : Nat → AList (fun _ : NodeAddress => NodeCmd) → List Cmd →
    ClusterM C (RedisResult (AList (fun _ : NodeAddress => NodeCmd)))
  | _, cmdMap, [] => return .ok cmdMap
  | idx, cmdMap, cmd :: cmds => do
    match ← getAddrForCmd env cmd with
    | .error e => return .error e
    | .ok addr =>
      let nc := (cmdMap.lookup addr).getD (.new addr)
      mapCmdsFrom (idx + 1) (cmdMap.insert addr (nc.push idx cmd)) cmds

def mapCmdsToNodes [Crc16] (cmds : List Cmd) : ClusterM C (RedisResult (List NodeCmd)) := do
  match ← mapCmdsFrom env 0 ∅ cmds with
  | .error e => return .error e
  | .ok cmdMap =>
    let n ← choice
    return .ok ((env.order n cmdMap.keys).filterMap cmdMap.lookup)

def sendNodeCmd (nc : NodeCmd) : ClusterM C (RedisResult Unit) := do
  match ← getConnectionByAddr env nc.addr with
  | .error e => return .error e
  | .ok link =>
    let (r, con) := sendPackedCommand nc.pipe link.con
    setLink nc.addr { link with
      con := con
      sent := match r with
        | .ok _ => link.sent + nc.indexes.length
        | .error _ => link.sent }
    return r

def sendNodeCmds : List NodeCmd → ClusterM C (RedisResult Unit)
  | [] => return .ok ()
  | nc :: ncs => do
    match ← sendNodeCmd env nc with
    | .error e => return .error e
    | .ok () => sendNodeCmds ncs

def sendAllCommands [Crc16] (cmds : List Cmd) : ClusterM C (RedisResult (List NodeCmd)) :=
  holdConnections do
    match ← mapCmdsToNodes env cmds with
    | .error e => return .error e
    | .ok nodeCmds =>
      match ← sendNodeCmds env nodeCmds with
      | .error e => return .error e
      | .ok () => return .ok nodeCmds

structure Received where
  results : List Value
  toRetry : List Nat
  firstErr : Option RedisError

def Received.take (r : Received) (idx : Nat) : RedisResult Value → Ends Received
  | .ok item => return { r with results := ← indexSet r.results idx item }
  | .error e =>
    if e.isClusterError then return { r with toRetry := r.toRetry ++ [idx] }
    else return { r with firstErr := r.firstErr <|> some e }

def recvNode (addr : NodeAddress) : List Nat → Received → ClusterM C (RedisResult Received)
  | [], r => return .ok r
  | idx :: indexes, r => do
    match ← getConnectionByAddr env addr with
    | .error e => return .error e
    | .ok link =>
      let (response, con) := recvResponse link.con
      setLink addr { link with con := con, received := link.received + 1 }
      record (.recv idx response)
      recvNode addr indexes (← ends (r.take idx response))

def recvNodes : List NodeCmd → Received → ClusterM C (RedisResult Received)
  | [], r => return .ok r
  | nc :: ncs, r => do
    match ← recvNode env nc.addr nc.indexes r with
    | .error e => return .error e
    | .ok r => recvNodes ncs r

def recvAllCommands (results : List Value) (nodeCmds : List NodeCmd) :
    ClusterM C (RedisResult (List Value × List Nat)) :=
  holdConnections do
    match ← recvNodes env nodeCmds ⟨results, [], none⟩ with
    | .error e => return .error e
    | .ok r =>
      match r.firstErr with
      | some e => return .error e
      | none => return .ok (r.results, r.toRetry)

def retryCmds [Crc16] (cmds : List Cmd) : List Nat → List Value → ClusterM C (RedisResult (List Value))
  | [], results => return .ok results
  | idx :: toRetry, results => do
    match cmds[idx]? with
    | none => ends (.error .sliceIndex)
    | some cmd =>
      let n ← choice
      let routing ← ends (RoutingInfo.forRoutable (env.routeOrder n) cmd)
      match ← request env (.cmd cmd) routing with
      | .error e => return .error e
      | .ok output =>
        retryCmds cmds toRetry (← ends (indexSet results idx output.toValue))

def finishCmds [Crc16] (cmds : List Cmd) (results : List Value) (toRetry : List Nat) :
    ClusterM C (RedisResult (List Value)) := do
  if toRetry.isEmpty then return .ok results
  else
    match ← refreshSlots env with
    | .error e => return .error e
    | .ok () => retryCmds env cmds toRetry results

def sendRecvAndRetryCmds [Crc16] (cmds : List Cmd) : ClusterM C (RedisResult (List Value)) := do
  match ← sendAllCommands env cmds with
  | .error e => return .error e
  | .ok nodeCmds =>
    match ← recvAllCommands env (List.replicate cmds.length .nil) nodeCmds with
    | .error e => return .error e
    | .ok (results, toRetry) => finishCmds env cmds results toRetry

end ClusterConnection

end RedisRs.Cluster
