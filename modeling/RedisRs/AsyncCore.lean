import RedisRs.AsyncRequest
import RedisRs.ClusterAggregate
import RedisRs.SlotMap

/-!
# The core of the asynchronous cluster connection
-/

namespace RedisRs

class AsyncConnectionLike (C : Type) where
  reqPackedCommand : Cmd → C → RedisResult Value × C

namespace AsyncCluster

open AsyncConnectionLike

inductive ConnState (C : Type)
  | connected (conn : C)
  | reconnecting (conn : C)
  | connecting

namespace ConnState

variable {C : Type}

def connectedOrReconnecting : ConnState C → Option C
  | connected conn => some conn
  | reconnecting conn => some conn
  | connecting => none

def intoConn : ConnState C → Option C
  | connected conn => some conn
  | reconnecting conn => some conn
  | connecting => none

end ConnState

abbrev ConnectionMap (C : Type) := AList fun _ : NodeAddress => ConnState C

structure Core (C : Type) where
  connections : ConnectionMap C
  slots : SlotMap
  attempts : NodeAddress → Nat
  tick : Nat

structure CoreEnv (C : Type) where
  readRouting : Bool
  retryParams : RetryParams
  connect : NodeAddress → Nat → RedisResult C
  random : Nat → Nat
  strategy : Option (Nat → ReadCandidates → NodeAddress)
  order : Nat → List NodeAddress → List NodeAddress
  order_perm : ∀ n l, (order n l).Perm l
  keyOrder : Nat → List Bytes → List Bytes
  keyOrder_perm : ∀ n l, (keyOrder n l).Perm l

variable {C : Type} [AsyncConnectionLike C] (env : CoreEnv C)

def checkConnection (conn : C) : RedisResult Unit × C :=
  let (r, conn) := reqPackedCommand (cmd "PING") conn
  (r.bind fun value => value.extractError.map fun _ => (), conn)

def connectAndCheck (addr : NodeAddress) (n : Nat) : RedisResult C := do
  let conn ← env.connect addr n
  let (r, conn) := reqPackedCommand (cmd (if env.readRouting then "READONLY" else "PING")) conn
  let _ ← r
  return conn

def getOrCreateConn (addr : NodeAddress) (connOption : Option C) (n : Nat) : RedisResult C × Nat :=
  match connOption.map checkConnection with
  | some (.ok (), conn) => (.ok conn, n)
  | _ => (connectAndCheck env addr n, n + 1)

def buildSlotMap (slotMap : SlotMap) (slotsData : List SlotRange) : SlotMap := slotMap.clear.fillSlots slotsData

def askSlots (conn : C) (addr : NodeAddress) : RedisResult (List SlotRange) × C :=
  let (r, conn) := reqPackedCommand slotCmd conn
  ((r.bind Value.extractError).bind fun value => parseSlots value addr.host, conn)

def querySlots (conn : C) (addr : NodeAddress) (slots : SlotMap) : RedisResult Unit × C × SlotMap :=
  let (r, conn) := askSlots conn addr
  match r with
  | .error e => (.error e, conn, slots)
  | .ok slotsData => (.ok (), conn, buildSlotMap slots slotsData)

namespace Core

def firstPass : List NodeAddress → Option RedisError → Core C → (Bool × Option RedisError) × Core C
  | [], lastErr, s => ((false, lastErr), s)
  | addr :: addrs, lastErr, s =>
    match s.connections.lookup addr with
    | some (.connected conn) =>
      let (r, conn, slots) := querySlots conn addr s.slots
      let s := { s with connections := s.connections.insert addr (.connected conn), slots := slots }
      match r with
      | .ok () => ((true, lastErr), s)
      | .error e => firstPass addrs (some e) s
    | _ => firstPass addrs lastErr s

def secondPass : List NodeAddress → Option RedisError → Core C → (Bool × Option RedisError) × Core C
  | [], lastErr, s => ((false, lastErr), s)
  | addr :: addrs, lastErr, s =>
    match s.connections.lookup addr with
    | none => secondPass addrs lastErr s
    | some state =>
      let (conn, n) := getOrCreateConn env addr state.intoConn (s.attempts addr)
      let s := { s with
        connections := s.connections.insert addr .connecting
        attempts := Function.update s.attempts addr n }
      match conn with
      | .error e => secondPass addrs (some e) s
      | .ok conn =>
        let (r, conn, slots) := querySlots conn addr s.slots
        let s := { s with connections := s.connections.insert addr (.connected conn), slots := slots }
        match r with
        | .ok () => ((true, lastErr), s)
        | .error e => secondPass addrs (some e) s

def nodes (s : Core C) : List NodeAddress := (s.slots.values.flatMap SlotAddrs.toList).dedup

def retain (nodes : List NodeAddress) (s : Core C) : Core C :=
  { s with
    connections := s.connections.keys.foldl
      (fun connections addr => if nodes.contains addr then connections else connections.erase addr) s.connections }

def refreshConnection (s : Core C) (node : NodeAddress × Option C) : Core C :=
  let (conn, n) := getOrCreateConn env node.1 node.2 (s.attempts node.1)
  let s := { s with attempts := Function.update s.attempts node.1 n }
  match conn with
  | .ok conn => { s with connections := s.connections.insert node.1 (.connected conn) }
  | .error _ => s

def refreshConnectionsLocked (nodes : List NodeAddress) (s : Core C) : Core C :=
  let taken := (env.order s.tick nodes).map fun addr => (addr, (s.connections.lookup addr).bind ConnState.intoConn)
  let s := { s with
    tick := s.tick + 1
    connections := nodes.foldl (fun connections addr => connections.erase addr) s.connections }
  taken.foldl (refreshConnection env) s

def noConnectionsFound : RedisError := .general .clusterConnectionNotFound "No connections found" none

def findSlots (s : Core C) : (Bool × Option RedisError) × Core C :=
  let addrs := env.order s.tick s.connections.keys
  match firstPass addrs none { s with tick := s.tick + 1 } with
  | ((true, lastErr), s) => ((true, lastErr), s)
  | ((false, lastErr), s) => secondPass env addrs lastErr s

def refreshSlots (s : Core C) : RedisResult Unit × Core C :=
  match findSlots env s with
  | ((false, lastErr), s) => (.error (lastErr.getD noConnectionsFound), s)
  | ((true, _), s) => (.ok (), refreshConnectionsLocked env s.nodes (s.retain s.nodes))

end Core

end AsyncCluster

end RedisRs
