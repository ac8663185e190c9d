import RedisRs.ClusterRouting
import RedisRs.ConnectionSetup
import RedisRs.Prog
import RedisRs.Queries

/-!
# Connections to sentinels

Blocking and asynchronous methods are the same code, here given once with the cache as an argument.
-/

namespace RedisRs

open FromRedisValue ParsingError

structure ReplicaInfo where
  ip : Text
  port : UInt16
  replicationOffset : Int64

def ReplicaInfo.fromRedisValue (v : Value) : ParseResult ReplicaInfo :=
  match (getInnerValue v).intoSequence with
  | .error v => .error (invalidType v "Replica response should be an array")
  | .ok (ip :: port :: offset :: _) => do
    return ⟨← FromRedisValue.fromRedisValue ip, ← FromRedisValue.fromRedisValue port,
      ← FromRedisValue.fromRedisValue offset⟩
  | .ok items => .error (invalidType (.array items) "Replica array is too short, expected 3 elements")

instance : FromRedisValue ReplicaInfo where
  fromRedisValueRef := ReplicaInfo.fromRedisValue
  fromRedisValue := ReplicaInfo.fromRedisValue

inductive Role
  | primary (replicationOffset : UInt64) (replicas : List ReplicaInfo)
  | replica (primaryIp : Text) (primaryPort : UInt16) (replicationState : Text) (dataReceived : UInt64)
  | sentinel (primaryNames : List Text)

namespace Role

def newPrimary : List Value → ParseResult Role
  | _ :: replicationOffset :: replicas :: _ => do
    return .primary (← fromRedisValue replicationOffset) (← fromRedisValue replicas)
  | values => .error (invalidType (.array values) "Role primary response too short, expected 3 elements")

def newReplica : List Value → ParseResult Role
  | _ :: primaryIp :: primaryPort :: replicationState :: dataReceived :: _ => do
    return .replica (← fromRedisValue primaryIp) (← fromRedisValue primaryPort) (← fromRedisValue replicationState)
      (← fromRedisValue dataReceived)
  | values => .error (invalidType (.array values) "Role replica response too short, expected 5 elements")

def newSentinel : List Value → ParseResult Role
  | _ :: primaryNames :: _ => do return .sentinel (← fromRedisValue primaryNames)
  | values => .error (invalidType (.array values) "Role sentinel response too short, expected at least 2 elements")

def ofSequence (values : List Value) : ParseResult Role :=
  if values.length < 2 then
    .error (invalidType (.array values) "Role array is too short, expected at least 2 elements")
  else
    match values.head? with
    | some (.bulkString role) =>
      if role = bytesOf "master" then newPrimary values
      else if role = bytesOf "slave" then newReplica values
      else if role = bytesOf "sentinel" then newSentinel values
      else .error (invalidType (.array values) "Role type is not master, slave or sentinel")
    | _ => .error (invalidType (.array values) "Role type is not a bulk string")

def fromRedisValue (v : Value) : ParseResult Role :=
  match (getInnerValue v).intoSequence with
  | .error v => .error (invalidType v "Role response should be an array")
  | .ok values => ofSequence values

end Role

instance : FromRedisValue Role where
  fromRedisValueRef := Role.fromRedisValue
  fromRedisValue := Role.fromRedisValue

structure ConnectionInfo where
  addr : ConnectionAddr
  redis : RedisConnectionInfo

inductive SentinelEvent
  | connectFailed (info : ConnectionInfo) (err : RedisError)
  | connected (info : ConnectionInfo) (con : Nat) (role : RedisResult Value)
  | queried (con : Nat) (cmd : Cmd) (reply : RedisResult Value)

structure SentinelWorld where
  connect : List SentinelEvent → ConnectionInfo → RedisResult Unit
  role : List SentinelEvent → ConnectionInfo → RedisResult Value
  reply : List SentinelEvent → Nat → Cmd → RedisResult Value

inductive CacheKind
  | sync
  | async
deriving DecidableEq, Repr

structure SentinelState where
  cache : CacheKind → Nat → Option Nat
  history : List SentinelEvent

inductive SentinelPanic
  | noConnection
  | noError

abbrev SentinelM := Prog SentinelPanic SentinelState

structure Sentinel where
  sentinelsConnectionInfo : List ConnectionInfo
  nonempty : sentinelsConnectionInfo ≠ []

namespace Sentinel

def build (params : List ConnectionInfo) : RedisResult Sentinel :=
  if h : params = [] then .error (.general .emptySentinelList "At least one sentinel is required" none) else .ok ⟨params, h⟩

def notASentinelError : RedisError := .general .invalidClientConfig "Address does not point to a sentinel node" none

def sentinelMastersCmd : Cmd := .ofWords ["SENTINEL", "MASTERS"]

def sentinelReplicasCmd (masterName : String) : Cmd := .ofWords ["SENTINEL", "SLAVES", masterName]

section Methods

variable (world : SentinelWorld) (kind : CacheKind) {α : Type} [FromRedisValue α]

def slot (i : Nat) : SentinelM (Option Nat) := fun s => (.ok (s.cache kind i), s)

def setSlot (i : Nat) (con : Option Nat) : SentinelM Unit :=
  .modify fun s => { s with cache := Function.update s.cache kind (Function.update (s.cache kind) i con) }

def unwrapSlot (i : Nat) : SentinelM Nat := fun s =>
  match s.cache kind i with
  | some con => (.ok con, s)
  | none => (.error .noConnection, s)

def query (i : Nat) (cmd : Cmd) : SentinelM (RedisResult α) := do
  let con ← unwrapSlot kind i
  fun s =>
    let reply := world.reply s.history con cmd
    (.ok (cmd.query reply), { s with history := s.history ++ [.queried con cmd reply] })

def connect (info : ConnectionInfo) : SentinelM (RedisResult (Nat × RedisResult Role)) := fun s =>
  match world.connect s.history info with
  | .error err => (.ok (.error err), { s with history := s.history ++ [.connectFailed info err] })
  | .ok _ =>
    let con := s.history.length
    let role := world.role s.history info
    (.ok (.ok (con, (cmd "ROLE").query role)), { s with history := s.history ++ [.connected info con role] })

def reconnect (i : Nat) (info : ConnectionInfo) : SentinelM (RedisResult Unit) := do
  match ← connect world info with
  | .error err => return .error err
  | .ok (con, role) =>
    setSlot kind i (some con)
    match role with
    | .error err => return .error err
    | .ok (.sentinel _) => return .ok ()
    | .ok _ =>
      setSlot kind i none
      return .error notASentinelError

def ensureConnected (i : Nat) (info : ConnectionInfo) : SentinelM (RedisResult Unit) := do
  if (← slot kind i).isNone then reconnect world kind i info else return .ok ()

def trySingleSentinel (cmd : Cmd) (i : Nat) (info : ConnectionInfo) : SentinelM (RedisResult α) := do
  match ← ensureConnected world kind i info with
  | .error err => return .error err
  | .ok _ =>
    match ← query world kind i cmd with
    | .ok a => return .ok a
    | .error err =>
      if err.isUnrecoverableError || err.isIoError then
        match ← reconnect world kind i info with
        | .error err => return .error err
        | .ok _ => query world kind i cmd
      else return .error err

def tryFrom (cmd : Cmd) : Nat → List ConnectionInfo → Option RedisError → SentinelM (RedisResult α)
  | _, [], some lastErr => return .error lastErr
  | _, [], none => .ofExcept (.error .noError)
  | i, info :: infos, _ => do
    match ← trySingleSentinel world kind cmd i info with
    | .ok a => return .ok a
    | .error err => tryFrom cmd (i + 1) infos (some err)

def tryAllSentinels (sentinel : Sentinel) (cmd : Cmd) : SentinelM (RedisResult α) :=
  tryFrom world kind cmd 0 sentinel.sentinelsConnectionInfo none

def getSentinelClientFrom : List ConnectionInfo → RedisError → SentinelM (RedisResult ConnectionInfo)
  | [], err => return .error err
  | info :: infos, err => do
    match ← trySingleSentinel world kind (cmd "ROLE") 0 info with
    | .ok (Role.sentinel _) => return .ok info
    | .ok _ => getSentinelClientFrom infos err
    | .error e => getSentinelClientFrom infos e

def getSentinelClient (sentinel : Sentinel) : SentinelM (RedisResult ConnectionInfo) :=
  getSentinelClientFrom world kind sentinel.sentinelsConnectionInfo
    (.general .invalidClientConfig "Couldn't open connection to a sentinel node." none)

end Methods

end Sentinel

inductive SentinelCall
  | getSentinelMasters (kind : CacheKind)
  | getSentinelReplicas (kind : CacheKind) (serviceName : String)
  | getSentinelClient (kind : CacheKind)

inductive SentinelResult (α : Type)
  | servers (result : RedisResult α)
  | client (result : RedisResult ConnectionInfo)

namespace SentinelState

def start : SentinelState := ⟨fun _ _ => none, []⟩

def step (α : Type) [FromRedisValue α] (world : SentinelWorld) (sentinel : Sentinel) (s : SentinelState) :
    SentinelCall → Option (SentinelResult α × SentinelState)
  | .getSentinelMasters kind =>
    match sentinel.tryAllSentinels world kind Sentinel.sentinelMastersCmd s with
    | (.ok result, s) => some (.servers result, s)
    | (.error _, _) => none
  | .getSentinelReplicas kind serviceName =>
    match sentinel.tryAllSentinels world kind (Sentinel.sentinelReplicasCmd serviceName) s with
    | (.ok result, s) => some (.servers result, s)
    | (.error _, _) => none
  | .getSentinelClient kind =>
    match sentinel.getSentinelClient world kind s with
    | (.ok result, s) => some (.client result, s)
    | (.error _, _) => none

end SentinelState

end RedisRs
