import RedisRs.Cmd
import RedisRs.Commands
import RedisRs.Convert
import Mathlib.Data.List.AList

/-!
# Routing of commands in a cluster
-/

namespace RedisRs

structure NodeAddress where
  host : String
  port : UInt16
deriving DecidableEq, Repr

instance : Inhabited NodeAddress := ⟨⟨"", 0⟩⟩

inductive ConnectionAddr
  | tcp (host : String) (port : UInt16)
  | tcpTls (host : String) (port : UInt16)
  | unix (path : String)
deriving DecidableEq, Repr

def parseU16 (s : String) : Option UInt16 := (parseInt 0 65535 s).map fun n => UInt16.ofNat n.toNat

namespace NodeAddress

def splitNodeAddress (node : String) : RedisResult (String × UInt16) :=
  let invalidError : RedisError := .general .invalidClientConfig "Invalid node string" none
  match node.toList.reverse.span (· ≠ ':') with
  | (_, []) => .error invalidError
  | (port, _ :: host) =>
    let host := (host.dropWhile (· = ']')).reverse.dropWhile (· = '[')
    match parseU16 (String.ofList port.reverse) with
    | some port => if host.isEmpty then .error invalidError else .ok (String.ofList host, port)
    | none => .error invalidError

def tryFrom (s : String) : RedisResult NodeAddress := do
  let (host, port) ← splitNodeAddress s
  return ⟨host, port⟩

def tryFromAddr : ConnectionAddr → RedisResult NodeAddress
  | .tcp host port | .tcpTls host port => .ok ⟨host, port⟩
  | .unix _ => .error (.general .invalidClientConfig "Unix sockets are not supported in cluster mode" none)

def text (addr : NodeAddress) : String := addr.host ++ ":" ++ toString addr.port.toNat

end NodeAddress

def slotSize : UInt16 := 16384

structure Slot where
  val : UInt16
  lt : val < slotSize
deriving DecidableEq

class Crc16 where
  crc16 : Bytes → UInt16

export Crc16 (crc16)

def getHashtag (key : Bytes) : Option Bytes := do
  let opening ← key.findIdx? (· = '{'.toUInt8)
  let closing ← (key.drop opening).findIdx? (· = '}'.toUInt8)
  let rv := (key.drop (opening + 1)).take (closing - 1)
  if rv.isEmpty then none else some rv

theorem mod_slotSize_lt (n : UInt16) : n % slotSize < slotSize := UInt16.mod_lt n (by decide)

namespace Slot

def new (slot : UInt16) : Option Slot := if h : slot < slotSize then some ⟨slot, h⟩ else none

def forKey [Crc16] (key : Bytes) : Slot := ⟨crc16 ((getHashtag key).getD key) % slotSize, mod_slotSize_lt _⟩

end Slot

inductive SlotAddr
  | master
  | replicaOptional
  | replicaRequired
deriving DecidableEq, Repr

structure Route where
  slot : UInt16
  slotAddr : SlotAddr
deriving DecidableEq, Repr

namespace Route

def withSlot (slot : Slot) (slotAddr : SlotAddr) : Route := ⟨slot.val, slotAddr⟩

def withKey [Crc16] (key : Bytes) (slotAddr : SlotAddr) : Route := withSlot (.forKey key) slotAddr

end Route

def getRoute [Crc16] (isReadonly : Bool) (key : Bytes) : Route :=
  if isReadonly then .withKey key .replicaOptional else .withKey key .master

theorem getRoute_slot [Crc16] (isReadonly : Bool) (key : Bytes) :
    (getRoute isReadonly key).slot = (Slot.forKey key).val := by
  cases isReadonly <;> rfl

theorem getRoute_eq_of_slot [Crc16] {isReadonly : Bool} {a b : Bytes}
    (h : (getRoute isReadonly a).slot = (getRoute isReadonly b).slot) :
    getRoute isReadonly a = getRoute isReadonly b := by
  cases isReadonly <;> exact congrArg (Route.mk · _) h

theorem getRoute_eq_iff [Crc16] {isReadonly : Bool} {a b : Bytes} :
    getRoute isReadonly a = getRoute isReadonly b ↔ Slot.forKey a = Slot.forKey b := by
  constructor
  · intro h
    have hslot := congrArg Route.slot h
    rw [getRoute_slot, getRoute_slot] at hslot
    rcases ha : Slot.forKey a with ⟨x, hx⟩
    rcases hb : Slot.forKey b with ⟨y, hy⟩
    rw [ha, hb] at hslot
    exact Slot.mk.injEq .. |>.mpr hslot
  · intro h
    refine getRoute_eq_of_slot ?_
    rw [getRoute_slot, getRoute_slot, h]

inductive LogicalAggregateOp
  | and
deriving DecidableEq, Repr

inductive AggregateOp
  | min
  | sum
deriving DecidableEq, Repr

inductive ResponsePolicy
  | oneSucceeded
  | firstSucceededNonEmptyOrAllEmpty
  | allSucceeded
  | aggregateLogical (op : LogicalAggregateOp)
  | aggregate (op : AggregateOp)
  | combineArrays
  | special
  | combineMaps
deriving DecidableEq, Repr

inductive MultiSlotArgPattern
  | keysOnly
  | keyValuePairs
  | keysAndLastArg
  | keyWithTwoArgTriples
deriving DecidableEq, Repr

inductive SingleNodeRoutingInfo
  | random
  | randomPrimary
  | specificNode (route : Route)
  | byAddress (host : String) (port : UInt16)
deriving DecidableEq, Repr

inductive MultipleNodeRoutingInfo
  | allNodes
  | allMasters
  | multiSlot (routes : List (Route × List Nat)) (pattern : MultiSlotArgPattern)
deriving DecidableEq, Repr

inductive RoutingInfo
  | singleNode (info : SingleNodeRoutingInfo)
  | multiNode (info : MultipleNodeRoutingInfo) (policy : Option ResponsePolicy)
deriving DecidableEq, Repr

inductive RouteBy
  | allNodes
  | allPrimaries
  | firstKey
  | multiShard (pattern : MultiSlotArgPattern)
  | random
  | secondArg
  | secondArgAfterKeyCount
  | secondArgSlot
  | streamsIndex
  | thirdArgAfterKeyCount
  | undefined
deriving DecidableEq, Repr

def armOf {α : Type} (table : List (α × List String)) (cmd : Bytes) : Option α :=
  (table.find? fun arm => (arm.2.map bytesOf).contains cmd).map Prod.fst

def responsePolicies : List (ResponsePolicy × List String) :=
  [(.aggregateLogical .and, ["SCRIPT EXISTS"]),
   (.aggregate .sum, ["DBSIZE", "DEL", "EXISTS", "SLOWLOG LEN", "TOUCH", "UNLINK", "LATENCY RESET",
      "PUBSUB NUMPAT"]),
   (.aggregate .min, ["WAIT"]),
   (.allSucceeded, ["ACL SETUSER", "ACL DELUSER", "ACL SAVE", "CLIENT SETNAME", "CLIENT SETINFO",
      "CONFIG SET", "CONFIG RESETSTAT", "CONFIG REWRITE", "FLUSHALL", "FLUSHDB", "FUNCTION DELETE",
      "FUNCTION FLUSH", "FUNCTION LOAD", "FUNCTION RESTORE", "MEMORY PURGE", "MSET", "JSON.MSET", "PING",
      "SCRIPT FLUSH", "SCRIPT LOAD", "SLOWLOG RESET", "UNWATCH", "WATCH"]),
   (.combineArrays, ["KEYS", "FT._ALIASLIST", "FT._LIST", "MGET", "JSON.MGET", "SLOWLOG GET",
      "PUBSUB CHANNELS", "PUBSUB SHARDCHANNELS"]),
   (.combineMaps, ["PUBSUB NUMSUB", "PUBSUB SHARDNUMSUB"]),
   (.oneSucceeded, ["FUNCTION KILL", "SCRIPT KILL"]),
   (.firstSucceededNonEmptyOrAllEmpty, ["RANDOMKEY"]),
   (.special, ["LATENCY GRAPH", "LATENCY HISTOGRAM", "LATENCY HISTORY", "LATENCY DOCTOR", "LATENCY LATEST",
      "FUNCTION STATS", "MEMORY MALLOC-STATS", "MEMORY DOCTOR", "MEMORY STATS", "INFO"])]

def ResponsePolicy.forCommand (cmd : Bytes) : Option ResponsePolicy := armOf responsePolicies cmd

def baseRoutes : List (RouteBy × List String) :=
  [(.allNodes, ["ACL SETUSER", "ACL DELUSER", "ACL SAVE", "CLIENT SETNAME", "CLIENT SETINFO", "SLOWLOG GET",
      "SLOWLOG LEN", "SLOWLOG RESET", "CONFIG SET", "CONFIG RESETSTAT", "CONFIG REWRITE", "SCRIPT FLUSH",
      "SCRIPT LOAD", "LATENCY RESET", "LATENCY GRAPH", "LATENCY HISTOGRAM", "LATENCY HISTORY",
      "LATENCY DOCTOR", "LATENCY LATEST", "PUBSUB NUMPAT", "PUBSUB CHANNELS", "PUBSUB NUMSUB",
      "PUBSUB SHARDCHANNELS", "PUBSUB SHARDNUMSUB", "SCRIPT KILL", "FUNCTION KILL", "FUNCTION STATS"]),
   (.allPrimaries, ["DBSIZE", "DEBUG", "FLUSHALL", "FLUSHDB", "FT._ALIASLIST", "FT._LIST",
      "FUNCTION DELETE", "FUNCTION FLUSH", "FUNCTION LOAD", "FUNCTION RESTORE", "INFO", "KEYS",
      "MEMORY DOCTOR", "MEMORY MALLOC-STATS", "MEMORY PURGE", "MEMORY STATS", "PING", "SCRIPT EXISTS",
      "UNWATCH", "WAIT", "RANDOMKEY", "WAITAOF"]),
   (.multiShard .keysOnly, ["MGET", "DEL", "EXISTS", "UNLINK", "TOUCH", "WATCH"]),
   (.multiShard .keyValuePairs, ["MSET"]),
   (.multiShard .keysAndLastArg, ["JSON.MGET"]),
   (.multiShard .keyWithTwoArgTriples, ["JSON.MSET"]),
   (.undefined, ["SCAN", "SHUTDOWN", "SLAVEOF", "REPLICAOF"]),
   (.thirdArgAfterKeyCount, ["BLMPOP", "BZMPOP", "EVAL", "EVALSHA", "EVALSHA_RO", "EVAL_RO", "FCALL",
      "FCALL_RO"]),
   (.secondArg, ["BITOP", "MEMORY USAGE", "PFDEBUG", "XGROUP CREATE", "XGROUP CREATECONSUMER",
      "XGROUP DELCONSUMER", "XGROUP DESTROY", "XGROUP SETID", "XINFO CONSUMERS", "XINFO GROUPS",
      "XINFO STREAM", "OBJECT ENCODING", "OBJECT FREQ", "OBJECT IDLETIME", "OBJECT REFCOUNT", "JSON.DEBUG"]),
   (.secondArgAfterKeyCount, ["LMPOP", "SINTERCARD", "ZDIFF", "ZINTER", "ZINTERCARD", "ZMPOP", "ZUNION"]),
   (.streamsIndex, ["XREAD", "XREADGROUP"]),
   (.random, ["ACL DRYRUN", "ACL GENPASS", "ACL GETUSER", "ACL HELP", "ACL LIST", "ACL LOG", "ACL USERS",
      "ACL WHOAMI", "AUTH", "BGSAVE", "CLIENT GETNAME", "CLIENT GETREDIR", "CLIENT ID", "CLIENT INFO",
      "CLIENT KILL", "CLIENT PAUSE", "CLIENT REPLY", "CLIENT TRACKINGINFO", "CLIENT UNBLOCK",
      "CLIENT UNPAUSE", "CLUSTER COUNT-FAILURE-REPORTS", "CLUSTER INFO", "CLUSTER KEYSLOT", "CLUSTER MEET",
      "CLUSTER MYSHARDID", "CLUSTER NODES", "CLUSTER REPLICAS", "CLUSTER RESET", "CLUSTER SET-CONFIG-EPOCH",
      "CLUSTER SHARDS", "CLUSTER SLOTS", "COMMAND COUNT", "COMMAND GETKEYS", "COMMAND LIST", "COMMAND",
      "CONFIG GET", "ECHO", "FUNCTION LIST", "LASTSAVE", "LOLWUT", "MODULE LIST", "MODULE LOAD",
      "MODULE LOADEX", "MODULE UNLOAD", "READONLY", "READWRITE", "SAVE", "SCRIPT SHOW", "TFCALL",
      "TFCALLASYNC", "TFUNCTION DELETE", "TFUNCTION LIST", "TFUNCTION LOAD", "TIME"]),
   (.secondArgSlot, ["CLUSTER ADDSLOTS", "CLUSTER COUNTKEYSINSLOT", "CLUSTER DELSLOTS",
      "CLUSTER DELSLOTSRANGE", "CLUSTER GETKEYSINSLOT", "CLUSTER SETSLOT"])]

def baseRouting (cmd : Bytes) : RouteBy := (armOf baseRoutes cmd).getD .firstKey

class Routable (R : Type) where
  argIdx : R → Nat → Ends (Option Bytes)
  position : R → Bytes → Option Nat
  argCount : R → Nat
  argIdx_argCount : ∀ r i, argCount r ≤ i → argIdx r i = .ok none

def asciiUppercase (bytes : Bytes) : Bytes := bytes.map fun b => if 97 ≤ b ∧ b ≤ 122 then b - 32 else b

def eqIgnoreAsciiCase (a b : Bytes) : Bool := asciiUppercase a = asciiUppercase b

def twoWordCommands : List String :=
  ["XGROUP", "OBJECT", "SLOWLOG", "FUNCTION", "MODULE", "COMMAND", "PUBSUB", "CONFIG", "MEMORY", "XINFO",
    "CLIENT", "ACL", "SCRIPT", "CLUSTER", "LATENCY"]

def Value.argIdx : Value → Nat → Option Bytes
  | .array args, idx => match args[idx]? with
    | some (.bulkString data) => some data
    | _ => none
  | _, _ => none

theorem Cmd.argIdx_of_length_le (c : Cmd) (i : Nat) (h : c.args.length ≤ i) : c.argIdx i = .ok none := by
  simp [Cmd.argIdx, h]

instance : Routable Cmd where
  argIdx := Cmd.argIdx
  position c candidate := c.argsIter.findIdx? fun a => match a with
    | .simple d => eqIgnoreAsciiCase d candidate
    | .cursor => false
  argCount c := c.args.length
  argIdx_argCount := Cmd.argIdx_of_length_le

def Value.argCount : Value → Nat
  | .array args => args.length
  | _ => 0

theorem Value.argIdx_of_argCount_le (v : Value) (i : Nat) (h : v.argCount ≤ i) :
    (.ok (v.argIdx i) : Ends (Option Bytes)) = .ok none := by
  cases v <;> simp_all [Value.argIdx, Value.argCount]

instance : Routable Value where
  argIdx v idx := .ok (v.argIdx idx)
  position v candidate := match v with
    | .array args => args.findIdx? fun a => match a with
      | .bulkString d => eqIgnoreAsciiCase d candidate
      | _ => false
    | _ => none
  argCount := Value.argCount
  argIdx_argCount := Value.argIdx_of_argCount_le

section ForRoutable

variable {R : Type} [Routable R]

open Routable

def Routable.command (r : R) : Ends (Option Bytes) := do
  match ← argIdx r 0 with
  | none => return none
  | some name =>
    let primary := asciiUppercase name
    if (twoWordCommands.map bytesOf).contains primary then
      match ← argIdx r 1 with
      | some secondary => return some (primary ++ bytesOf " " ++ asciiUppercase secondary)
      | none => return some primary
    else return some primary

def incrAddNextArg (r : R) (argIndices : List Nat) (currArgIdx : Nat) : Ends (Option (List Nat × Nat)) := do
  let currArgIdx := currArgIdx + 1
  match ← argIdx r currArgIdx with
  | none => return none
  | some _ => return some (argIndices ++ [currArgIdx], currArgIdx)

variable [Crc16]

def multiShardLoop (r : R) (isReadonly : Bool) (firstKeyIndex : Nat) (pattern : MultiSlotArgPattern) :
    Nat → AList (fun _ : Route => List Nat) → Nat → Ends (Option (List (Route × List Nat)))
  | 0, routes, _ => return some (routes.entries.map fun entry => (entry.1, entry.2))
  | fuel + 1, routes, currArgIdx => do
    match ← argIdx r (firstKeyIndex + currArgIdx) with
    | none => return some (routes.entries.map fun entry => (entry.1, entry.2))
    | some arg =>
      let route := getRoute isReadonly arg
      let argIndices := (routes.lookup route).getD [] ++ [currArgIdx]
      match pattern with
      | .keysOnly =>
        multiShardLoop r isReadonly firstKeyIndex pattern fuel (routes.insert route argIndices) (currArgIdx + 1)
      | .keyValuePairs =>
        match ← incrAddNextArg r argIndices currArgIdx with
        | none => return none
        | some (argIndices, currArgIdx) =>
          multiShardLoop r isReadonly firstKeyIndex pattern fuel (routes.insert route argIndices) (currArgIdx + 1)
      | .keysAndLastArg =>
        let routes := routes.insert route argIndices
        match ← argIdx r (firstKeyIndex + currArgIdx + 2) with
        | none =>
          -- the last key: every route gets the index of the path
          return some (routes.entries.map fun entry => (entry.1, entry.2 ++ [currArgIdx + 1]))
        | some _ => multiShardLoop r isReadonly firstKeyIndex pattern fuel routes (currArgIdx + 1)
      | .keyWithTwoArgTriples =>
        match ← incrAddNextArg r argIndices currArgIdx with
        | none => return none
        | some (argIndices, currArgIdx) =>
          match ← incrAddNextArg r argIndices currArgIdx with
          | none => return none
          | some (argIndices, currArgIdx) =>
            multiShardLoop r isReadonly firstKeyIndex pattern fuel (routes.insert route argIndices) (currArgIdx + 1)

abbrev RouteOrder := List (Route × List Nat) → List (Route × List Nat)

def multiShard (order : RouteOrder) (r : R) (cmd : Bytes)
    (firstKeyIndex : Nat) (pattern : MultiSlotArgPattern) : Ends (Option RoutingInfo) := do
  match ← multiShardLoop r (isReadonlyCmd cmd) firstKeyIndex pattern (argCount r) ∅ 0 with
  | none => return none
  | some routes =>
    match order routes with
    | [] => return none
    | [(route, _)] => return some (.singleNode (.specificNode route))
    | routes => return some (.multiNode (.multiSlot routes pattern) (ResponsePolicy.forCommand cmd))

namespace RoutingInfo

def forKey (cmd key : Bytes) : RoutingInfo := singleNode (.specificNode (getRoute (isReadonlyCmd cmd) key))

def forKeyAfterCount (r : R) (cmd : Bytes) (idx : Nat) : Ends (Option RoutingInfo) := do
  match (← argIdx r idx).bind fun x => (fromUtf8 x).bind (parseInt 0 (2 ^ 64 - 1)) with
  | none => return none
  | some keyCount =>
    if keyCount = 0 then return some (singleNode .random)
    else return (← argIdx r (idx + 1)).map (forKey cmd)

def forCommand (order : RouteOrder) (r : R) (cmd : Bytes) :
    Ends (Option RoutingInfo) := do
  match baseRouting cmd with
  | .allNodes => return some (multiNode .allNodes (ResponsePolicy.forCommand cmd))
  | .allPrimaries => return some (multiNode .allMasters (ResponsePolicy.forCommand cmd))
  | .multiShard pattern => multiShard order r cmd 1 pattern
  | .random => return some (singleNode .random)
  | .thirdArgAfterKeyCount => forKeyAfterCount r cmd 2
  | .secondArg => return (← argIdx r 2).map (forKey cmd)
  | .secondArgAfterKeyCount => forKeyAfterCount r cmd 1
  | .streamsIndex =>
    match position r (bytesOf "STREAMS") with
    | none => return none
    | some streamsPosition => return (← argIdx r (streamsPosition + 1)).map (forKey cmd)
  | .secondArgSlot =>
    return ((← argIdx r 2).bind fun x => (fromUtf8 x).bind parseU16 |>.bind Slot.new).map fun slot =>
      singleNode (.specificNode (.withSlot slot .master))
  | .firstKey =>
    match ← argIdx r 1 with
    | some key => return some (forKey cmd key)
    | none => return some (singleNode .random)
  | .undefined => return none

def forRoutable (order : RouteOrder) (r : R) : Ends (Option RoutingInfo) := do
  match ← Routable.command r with
  | none => return none
  | some cmd => forCommand order r cmd

theorem forRoutable_eq (order : RouteOrder) (r : R) :
    forRoutable order r = Routable.command r >>= fun cmd => (cmd.map (forCommand order r)).getD (pure none) := by
  rw [forRoutable]
  refine congrArg _ (funext fun cmd => ?_)
  cases cmd <;> rfl

end RoutingInfo

def Cmd.argOption (c : Cmd) : Option Bytes → Cmd
  | some arg => c.writeArg arg
  | none => c

def commandForMultiSlotIndices (r : R) (indices : List Nat) : Ends Cmd := do
  let name ← argIdx r 0
  indices.foldlM (fun newCmd index => return newCmd.argOption (← argIdx r (index + 1))) (Cmd.new.argOption name)

end ForRoutable

inductive Redirect
  | moved (addr : NodeAddress)
  | ask (addr : NodeAddress)
deriving DecidableEq, Repr

namespace RedisError

def isClusterError (e : RedisError) : Bool :=
  [ErrorKind.server .moved, .server .ask, .server .tryAgain, .server .clusterDown].contains e.kind

def detail : RedisError → Option String
  | general _ _ (some (.text s)) => some s
  | server err => err.details
  | _ => none

def isAsciiWhitespace (c : Char) : Bool := [' ', '\t', '\n', '\r', '\x0c'].contains c

def redirectNode (e : RedisError) : Option String :=
  if e.kind = .server .ask ∨ e.kind = .server .moved then do
    let words := ((← e.detail).toList.splitOnP isAsciiWhitespace).filter (· ≠ [])
    let slot ← words[0]?
    let _ ← parseU16 (String.ofList slot)
    (words[1]?).map String.ofList
  else none

end RedisError

def xmodemByte (crc : UInt16) (byte : UInt8) : UInt16 :=
  (List.range 8).foldl (fun crc _ => if crc &&& 0x8000 ≠ 0 then (crc <<< 1) ^^^ 0x1021 else crc <<< 1)
    (crc ^^^ (byte.toUInt16 <<< 8))

instance xmodem : Crc16 := ⟨fun bytes => bytes.foldl xmodemByte 0⟩

example : (Slot.forKey (bytesOf "foo")).val = 12182 := by decide +kernel

end RedisRs
