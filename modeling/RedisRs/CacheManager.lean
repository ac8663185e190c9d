import RedisRs.Commands
import RedisRs.Convert
import RedisRs.ShardedLru
import RedisRs.Sink

/-!
# The cache manager

A call reads the clock several times: `clock i` is its `i`-th reading.
-/

namespace RedisRs

open Lru

inductive CacheMode
  | all
  | optIn
deriving DecidableEq, Repr

def CacheMode.admits (mode : CacheMode) (cmd : Cmd) : Bool :=
  match mode with
  | .all => true
  | .optIn => (cmd.cache.map (·.enableCache)).getD false

structure CacheConfig where
  mode : CacheMode
  size : NonZero
  defaultClientTtl : Duration

def CacheConfig.new : CacheConfig := ⟨.all, ⟨10000, by decide⟩, 60 * 30 * 1000000000⟩

structure SingleCachedCommand where
  redisKey : RedisKey
  cmdKey : RedisCmd
  cmd : Cmd
  clientSideExpire : Instant

structure MultipleCachedCommandPart where
  redisKey : RedisKey
  cmdKey : RedisCmd
deriving DecidableEq, Repr

inductive CacheableCommand
  | single (command : SingleCachedCommand)
  | multiple (commandName : String) (commands : List (Nat × MultipleCachedCommandPart))
      (response : List Value) (clientSideExpire : Instant) (tailArgs : List Bytes)

inductive PrepCacheItem
  | cached (value : Value)
  | notCached (command : CacheableCommand)
  | notCacheable

inductive CachingResult
  | item (item : PrepCacheItem)
  | ignored

def isMultiKey (commandName : Bytes) : Option (String × Bytes) :=
  if commandName = bytesOf "MGET" then some ("MGET", bytesOf "GET")
  else if commandName = bytesOf "JSON.MGET" then some ("JSON.MGET", bytesOf "JSON.GET")
  else none

def prepareKeyBuffer (singleCommandName redisKey : Bytes) (jsonPathKey : Option Bytes) : Bytes :=
  singleCommandName ++ redisKey ++ jsonPathKey.getD []

def extractSimpleArguments (cmd : Cmd) : List Bytes :=
  (cmd.argsIter.drop 1).filterMap fun
    | .simple arg => some arg
    | .cursor => none

structure CacheManager (E : CacheEnv) where
  lru : ShardedLru E
  cacheConfig : CacheConfig
  epoch : Nat

namespace CacheManager

variable {E : CacheEnv}

def new (E : CacheEnv) (cacheConfig : CacheConfig) : CacheManager E :=
  let (epoch, lru) := (ShardedLru.new E cacheConfig.size).increaseEpoch
  ⟨lru, cacheConfig, epoch⟩

def cloneAndIncreaseEpoch (m : CacheManager E) : CacheManager E × CacheManager E :=
  let (epoch, lru) := m.lru.increaseEpoch
  ({ m with lru }, ⟨lru, m.cacheConfig, epoch⟩)

def get (now : Instant) (redisKey : RedisKey) (redisCmd : RedisCmd) (m : CacheManager E) :
    Option Value × CacheManager E :=
  let (value, lru) := m.lru.get now redisKey redisCmd m.epoch
  (value, { m with lru })

def expireTime (now clientSideExpireTime : Instant) (serverSideTtlValue : Value) : Instant :=
  match (FromRedisValue.fromRedisValueRef serverSideTtlValue : ParseResult Int64) with
  | .ok pttl =>
    if 0 < pttl then min (now + Duration.fromMillis pttl.toInt.toNat) clientSideExpireTime
    else clientSideExpireTime
  | .error _ => clientSideExpireTime

def insert (now : Instant) (redisKey : RedisKey) (cmdKey : RedisCmd) (value : Value)
    (clientSideExpireTime : Instant) (serverSideTtlValue : Value) (m : CacheManager E) : CacheManager E :=
  { m with
    lru := m.lru.insert redisKey cmdKey value (expireTime now clientSideExpireTime serverSideTtlValue) m.epoch }

def handlePushValue (m : CacheManager E) (kind : PushKind) (data : List Value) : CacheManager E :=
  match kind, data with
  | .invalidate, .array (redisKey :: _) :: _ =>
    match (FromRedisValue.fromRedisValueRef redisKey : ParseResult Bytes) with
    | .ok redisKey => { m with lru := m.lru.invalidate redisKey }
    | .error _ => m
  | _, _ => m

instance : HandlesPush (CacheManager E) := ⟨handlePushValue⟩

def calculateExpirationTime (now : Instant) (m : CacheManager E) (cmd : Cmd) : Instant :=
  now + ((cmd.cache.bind (·.clientSideTtl)).getD m.cacheConfig.defaultClientTtl)

def processKeys (clock : Nat → Instant) (singleCommandName : Bytes) (jsonPathKey : Option Bytes) :
    Nat → List Bytes → CacheManager E →
      (List Value × List (Nat × MultipleCachedCommandPart)) × CacheManager E
  | _, [], m => (([], []), m)
  | i, redisKey :: arguments, m =>
    let cmdKey := prepareKeyBuffer singleCommandName redisKey jsonPathKey
    let (value, m) := m.get (clock (i + 1)) redisKey cmdKey
    let ((response, commands), m) := processKeys clock singleCommandName jsonPathKey (i + 1) arguments m
    match value with
    | some value => ((value :: response, commands), m)
    | none => ((.nil :: response, (i, ⟨redisKey, cmdKey⟩) :: commands), m)

def splitArguments (commandName : String) (arguments : List Bytes) : List Bytes × Option Bytes :=
  if (bytesOf "JSON").isPrefixOf (bytesOf commandName) then (arguments.dropLast, arguments.getLast?)
  else (arguments, none)

def handleMultiKeyCommand (clock : Nat → Instant) (m : CacheManager E) (cmd : Cmd) (commandName : String)
    (singleCommandName : Bytes) (clientSideExpire : Instant) : PrepCacheItem × CacheManager E :=
  let (keys, jsonPathKey) := splitArguments commandName (extractSimpleArguments cmd)
  let ((response, commands), m) := processKeys clock singleCommandName jsonPathKey 0 keys m
  if commands = [] then (.cached (.array response), m)
  else (.notCached (.multiple commandName commands response clientSideExpire jsonPathKey.toList), m)

def handleSingleKeyCommand (clock : Nat → Instant) (m : CacheManager E) (cmd : Cmd)
    (clientSideExpire : Instant) : Ends (PrepCacheItem × CacheManager E) := do
  match ← cmd.argIdx 1 with
  | none => return (.notCacheable, m)
  | some redisKey =>
    let cmdKey := cmd.data
    match m.get (clock 1) redisKey cmdKey with
    | (some value, m) => return (.cached value, m)
    | (none, m) => return (.notCached (.single ⟨redisKey, cmdKey, cmd, clientSideExpire⟩), m)

def getCachedCmdInner (clock : Nat → Instant) (m : CacheManager E) (cmd : Cmd) :
    Ends (PrepCacheItem × CacheManager E) := do
  if cmdLen cmd < 2 then return (.notCacheable, m)
  match ← cmd.argIdx 0 with
  | none => return (.notCacheable, m)
  | some commandName =>
    let clientSideExpire := m.calculateExpirationTime (clock 0) cmd
    match isMultiKey commandName with
    | some (commandNameStr, singleCommandName) =>
      return m.handleMultiKeyCommand clock cmd commandNameStr singleCommandName clientSideExpire
    | none =>
      if isCachableCmd commandName then m.handleSingleKeyCommand clock cmd clientSideExpire
      else return (.notCacheable, m)

def getCachedCmd (clock : Nat → Instant) (m : CacheManager E) (cmd : Cmd) :
    Ends (PrepCacheItem × CacheManager E) :=
  if m.cacheConfig.mode.admits cmd then m.getCachedCmdInner clock cmd else return (.notCacheable, m)

end CacheManager

def getNextReply : List Value → RedisResult (Value × List Value)
  | reply :: replies => .ok (reply, replies)
  | [] => .error (.general .unexpectedReturnType "Expected Value from server" none)

namespace CacheableCommand

variable {E : CacheEnv}

def store (now : Instant) (redisKey : RedisKey) (cmdKey : RedisCmd) (reply : Value)
    (clientSideExpire : Instant) (pttl : Value) (m : CacheManager E) : CacheManager E :=
  if reply.isServerError then m else m.insert now redisKey cmdKey reply clientSideExpire pttl

def resolveParts (clock : Nat → Instant) (clientSideExpire : Instant) :
    Nat → List Value → List Value → List (Nat × MultipleCachedCommandPart) → List Value → CacheManager E →
      List Value × CacheManager E × List Value
  | i, keyValue :: values, pttl :: replies, (keyIndex, part) :: commands, response, m =>
    resolveParts clock clientSideExpire (i + 1) values replies commands (response.set keyIndex keyValue)
      (store (clock i) part.redisKey part.cmdKey keyValue clientSideExpire pttl m)
  | _, _ :: _, _ :: replies, [], response, m => (response, m, replies)
  | _, _ :: _, [], _, response, m => (response, m, [])
  | _, [], replies, _, response, m => (response, m, replies)

def resolveInner (clock : Nat → Instant) (m : CacheManager E) (replies : List Value) :
    CacheableCommand → RedisResult Value × CacheManager E × List Value
  | single command =>
    match replies with
    | pttl :: reply :: replies =>
      (.ok reply, store (clock 0) command.redisKey command.cmdKey reply command.clientSideExpire pttl m, replies)
    | _ => (.error (.general .unexpectedReturnType "Expected two Value from server" none), m, [])
  | multiple _ commands response clientSideExpire _ =>
    match replies with
    | .array values :: replies =>
      let (response, m, replies) := resolveParts clock clientSideExpire 0 values replies commands response m
      (.ok (.array response), m, replies)
    | replies =>
      (.error (.general .unexpectedReturnType "Expected Value::Array from server" none), m, replies.drop 1)

def resolve (clock : Nat → Instant) (m : CacheManager E) (replies : List Value) (command : CacheableCommand) :
    RedisResult Value × CacheManager E × List Value :=
  match m.cacheConfig.mode with
  | .optIn =>
    -- skipping the response of `CLIENT CACHING YES`
    match getNextReply replies with
    | .ok (_, replies) => command.resolveInner clock m replies
    | .error e => (.error e, m, [])
  | .all => command.resolveInner clock m replies

def packCommand (mode : CacheMode) (command : CacheableCommand) : List Cmd :=
  (match mode with
    | .optIn => [Cmd.ofArgs [bytesOf "CLIENT", bytesOf "CACHING", bytesOf "YES"]]
    | .all => []) ++
  match command with
  | single scc => [Cmd.pttl scc.redisKey, scc.cmd]
  | multiple commandName commands _ _ tailArgs =>
    Cmd.ofArgs (bytesOf commandName :: commands.map (·.2.redisKey) ++ tailArgs) ::
      commands.map fun command => Cmd.pttl command.2.redisKey

end CacheableCommand

end RedisRs
