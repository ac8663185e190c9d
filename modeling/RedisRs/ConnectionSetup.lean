import RedisRs.CacheManager
import RedisRs.Dialogue
import RedisRs.PackedReplies

/-!
# Setting up a connection
-/

namespace RedisRs

structure RedisConnectionInfo where
  db : Int64
  username : Option String
  password : Option String
  protocol : ProtocolVersion
  skipSetLibName : Bool
  libName : Option String
  libVer : Option String

def defaultClientSetinfoLibName : String := "redis-rs"

def defaultClientSetinfoLibVer : String := "1.7.0"

def Cmd.ofWords (words : List String) : Cmd := .ofArgs (words.map bytesOf)

def authenticateCmd (username : Option String) (password : String) : Cmd :=
  .ofWords (["AUTH"] ++ username.toList ++ [password])

def resp3Hello (info : RedisConnectionInfo) : Cmd :=
  .ofWords (["HELLO", "3"] ++
    match info.password with
    | some password => ["AUTH", info.username.getD "default", password]
    | none => [])

def selectCmd (info : RedisConnectionInfo) : Cmd := .ofWords ["SELECT", info.db.toInt.repr]

def trackingCmd (cacheConfig : CacheConfig) : Cmd :=
  .ofWords (["CLIENT", "TRACKING", "ON"] ++
    match cacheConfig.mode with
    | .all => []
    | .optIn => ["OPTIN"])

def setLibNameCmd (info : RedisConnectionInfo) : Cmd :=
  .ofWords ["CLIENT", "SETINFO", "LIB-NAME", info.libName.getD defaultClientSetinfoLibName]

def setLibVerCmd (info : RedisConnectionInfo) : Cmd :=
  .ofWords ["CLIENT", "SETINFO", "LIB-VER", info.libVer.getD defaultClientSetinfoLibVer]

structure ConnectionSetupComponents where
  resp3AuthCmdIdx : Option Nat
  resp2AuthCmdIdx : Option Nat
  selectCmdIdx : Option Nat
  cacheCmdIdx : Option Nat

namespace Pipeline

def len (p : Pipeline) : Nat := p.commands.length

def ignore (p : Pipeline) : Pipeline :=
  if p.commands = [] then p else { p with ignoredCommands := insert (p.len - 1) p.ignoredCommands }

def setupAuth (info : RedisConnectionInfo) (checkUsername : Bool) : Pipeline × Option Nat × Option Nat :=
  if info.protocol.supportsResp3 then (new.addCommand (resp3Hello info), some 0, none)
  else match info.password with
    | some password =>
      (new.addCommand (authenticateCmd (if checkUsername then info.username else none) password), none, some 0)
    | none => (new, none, none)

def setupSelect (info : RedisConnectionInfo) (p : Pipeline) : Pipeline × Option Nat :=
  if info.db ≠ 0 then (p.addCommand (selectCmd info), some p.len) else (p, none)

def setupTracking (cacheConfig : Option CacheConfig) (p : Pipeline) : Pipeline × Option Nat :=
  match cacheConfig with
  | some cacheConfig => let p := p.addCommand (trackingCmd cacheConfig); (p, some (p.len - 1))
  | none => (p, none)

def setupLibName (info : RedisConnectionInfo) (p : Pipeline) : Pipeline :=
  if !info.skipSetLibName then ((p.addCommand (setLibNameCmd info)).ignore.addCommand (setLibVerCmd info)).ignore
  else p

end Pipeline

def connectionSetupPipeline (info : RedisConnectionInfo) (checkUsername : Bool) (cacheConfig : Option CacheConfig) :
    Pipeline × ConnectionSetupComponents :=
  let (pipeline, resp3, resp2) := Pipeline.setupAuth info checkUsername
  let (pipeline, select) := pipeline.setupSelect info
  let (pipeline, cache) := pipeline.setupTracking cacheConfig
  (pipeline.setupLibName info, ⟨resp3, resp2, select, cache⟩)

def getResp3HelloCommandError (err : ServerError) : RedisError :=
  if (err.details.map (·.startsWith "unknown command `HELLO`")).getD false then
    .general .resp3NotSupported "Redis Server doesn't support HELLO command therefore resp3 cannot be used" none
  else .server err

def checkResp3Auth : Value → RedisResult Unit
  | .serverError err => .error (getResp3HelloCommandError err)
  | _ => .ok ()

inductive AuthResult
  | succeeded
  | shouldRetryWithoutUsername
deriving DecidableEq, Repr

def wrongAuthArity (errMsg : String) : Bool :=
  decide (bytesOf "wrong number of arguments for 'auth' command" <:+: bytesOf errMsg)

def checkResp2Auth : Value → RedisResult AuthResult
  | .okay => .ok .succeeded
  | .serverError err =>
    match err.details with
    | none => .error (.general .authenticationFailed "Password authentication failed" none)
    | some errMsg =>
      if !wrongAuthArity errMsg then .error (.general .authenticationFailed "Password authentication failed" none)
      else .ok .shouldRetryWithoutUsername
  | _ =>
    .error (.general (.server .responseError)
      "Redis server refused to authenticate, returns Ok() != Value::Okay" none)

def checkDbSelect : Value → RedisResult Unit
  | .serverError err =>
    .error (.general (.server .responseError) "Redis server refused to switch database" (err.details.map .text))
  | _ => .ok ()

def checkCaching : Value → RedisResult Unit
  | .okay => .ok ()
  | result =>
    .error (.general (.server .responseError) "Client-side caching returned unknown response" (some (.debug result)))

def checkResult {α : Type} (results : List Value) (index : Nat) (missing : String) (check : Value → RedisResult α) :
    RedisResult α :=
  match results[index]? with
  | none => .error (.general .client missing none)
  | some value => check value

def checkAuth (results : List Value) (idx : ConnectionSetupComponents) : RedisResult AuthResult :=
  match idx.resp3AuthCmdIdx, idx.resp2AuthCmdIdx with
  | some index, _ => do
    checkResult results index "Missing RESP3 auth response" checkResp3Auth
    return .succeeded
  | none, some index => checkResult results index "Missing RESP2 auth response" checkResp2Auth
  | none, none => .ok .succeeded

def checkAt (results : List Value) (index : Option Nat) (missing : String) (check : Value → RedisResult Unit) :
    RedisResult Unit :=
  match index with
  | none => .ok ()
  | some index => checkResult results index missing check

def checkConnectionSetup (results : List Value) (idx : ConnectionSetupComponents) : Ends (RedisResult AuthResult) :=
  -- can't have both values set
  if idx.resp2AuthCmdIdx.isSome && idx.resp3AuthCmdIdx.isSome then .error .assertion
  else .ok do
    match ← checkAuth results idx with
    | .shouldRetryWithoutUsername => return .shouldRetryWithoutUsername
    | .succeeded =>
      checkAt results idx.selectCmdIdx "Missing SELECT DB response" checkDbSelect
      checkAt results idx.cacheCmdIdx "Missing Caching response" checkCaching
      return .succeeded

inductive SetupStep
  | hello
  | auth
  | select
  | tracking
  | setLibName
  | setLibVer
deriving DecidableEq, Repr

def setupSteps (info : RedisConnectionInfo) (cacheConfig : Option CacheConfig) : List SetupStep :=
  (if info.protocol.supportsResp3 then [.hello] else if info.password.isSome then [.auth] else []) ++
    (if info.db ≠ 0 then [.select] else []) ++ (if cacheConfig.isSome then [.tracking] else []) ++
    if info.skipSetLibName then [] else [.setLibName, .setLibVer]

def SetupStep.command (info : RedisConnectionInfo) (checkUsername : Bool) (cacheConfig : Option CacheConfig) :
    SetupStep → Cmd
  | hello => resp3Hello info
  | auth => authenticateCmd (if checkUsername then info.username else none) (info.password.getD "")
  | select => selectCmd info
  | tracking => trackingCmd (cacheConfig.getD .new)
  | setLibName => setLibNameCmd info
  | setLibVer => setLibVerCmd info

/-- The reply to a step that lets the setup go on. -/
def SetupStep.Accepts : SetupStep → Value → Prop
  | hello, v | select, v => v.isServerError = false
  | auth, v | tracking, v => v = .okay
  | setLibName, _ | setLibVer, _ => True

section Steps

variable (info : RedisConnectionInfo) (checkUsername : Bool) (cacheConfig : Option CacheConfig)

theorem connectionSetupPipeline_commands :
    (connectionSetupPipeline info checkUsername cacheConfig).1.commands =
      (setupSteps info cacheConfig).map (SetupStep.command info checkUsername cacheConfig) := by
  rcases info with ⟨db, username, password, protocol, skip, name, ver⟩
  cases protocol <;> cases password <;> cases cacheConfig <;> cases skip <;> by_cases hdb : db = 0 <;>
    simp [connectionSetupPipeline, Pipeline.setupAuth, Pipeline.setupSelect, Pipeline.setupTracking,
      Pipeline.setupLibName, setupSteps, ProtocolVersion.supportsResp3, hdb, Pipeline.new, Pipeline.addCommand,
      Pipeline.ignore, SetupStep.command, resp3Hello, selectCmd, setLibNameCmd, setLibVerCmd]

theorem len_connectionSetupPipeline :
    (connectionSetupPipeline info checkUsername cacheConfig).1.len = (setupSteps info cacheConfig).length := by
  rw [Pipeline.len, connectionSetupPipeline_commands, List.length_map]

theorem setupSteps_nodup : (setupSteps info cacheConfig).Nodup := by
  simp only [setupSteps]
  repeat' split
  all_goals decide

theorem not_hello_and_auth : ¬ (.hello ∈ setupSteps info cacheConfig ∧ .auth ∈ setupSteps info cacheConfig) := by
  simp only [setupSteps]
  repeat' split
  all_goals decide

def SetupStep.places (steps : List SetupStep) : ConnectionSetupComponents :=
  ⟨steps.idxOf? .hello, steps.idxOf? .auth, steps.idxOf? .select, steps.idxOf? .tracking⟩

theorem places_connectionSetupPipeline :
    (connectionSetupPipeline info checkUsername cacheConfig).2 = SetupStep.places (setupSteps info cacheConfig) := by
  rcases info with ⟨db, username, password, protocol, skip, name, ver⟩
  cases protocol <;> cases password <;> cases cacheConfig <;> cases skip <;> by_cases hdb : db = 0 <;>
    simp [connectionSetupPipeline, Pipeline.setupAuth, Pipeline.setupSelect, Pipeline.setupTracking, setupSteps,
      SetupStep.places, ProtocolVersion.supportsResp3, hdb, Pipeline.new, Pipeline.addCommand, Pipeline.len,
      List.idxOf?_cons]

end Steps

abbrev SetupDialogue := Dialogue Pipeline (Ends (RedisResult (List Value)))

abbrev SetupRounds := List (Pipeline × Ends (RedisResult (List Value)))

def checkAnswer (idx : ConnectionSetupComponents) :
    Ends (RedisResult (List Value)) → Ends (RedisResult AuthResult)
  | .error panic => .error panic
  | .ok (.error err) => .ok (.error err)
  | .ok (.ok results) => checkConnectionSetup results idx

def executeConnectionPipeline (setup : Pipeline × ConnectionSetupComponents) :
    SetupDialogue (Ends (RedisResult AuthResult)) :=
  if setup.1.isEmpty then return .ok (.ok .succeeded)
  else return checkAnswer setup.2 (← Dialogue.answerTo setup.1)

def setupConnection (info : RedisConnectionInfo) (cacheConfig : Option CacheConfig) :
    SetupDialogue (Ends (RedisResult Unit)) := do
  match ← executeConnectionPipeline (connectionSetupPipeline info true cacheConfig) with
  | .error panic => return .error panic
  | .ok (.error err) => return .ok (.error err)
  | .ok (.ok .succeeded) => return .ok (.ok ())
  | .ok (.ok .shouldRetryWithoutUsername) =>
    -- what the second round says about the authentication is not looked at
    match ← executeConnectionPipeline (connectionSetupPipeline info false cacheConfig) with
    | .error panic => return .error panic
    | .ok (.error err) => return .ok (.error err)
    | .ok (.ok _) => return .ok (.ok ())

def Connection.setup (info : RedisConnectionInfo) (cacheConfig : Option CacheConfig) (wire : Wire) :
    Option (Ends (RedisResult Unit) × SetupRounds × Connection × Wire) :=
  (setupConnection info cacheConfig).serve
    (fun pipeline (con, wire) => reqPackedCommands pipeline.getPackedPipeline 0 pipeline.len con wire)
    (fresh info.protocol, wire)

structure Codec where
  written : List Bytes
  sendError : Option RedisError
  stream : Wire

namespace Codec

def nextValues : Nat → Wire → Option (RedisResult (List Value) × Wire)
  | 0, stream => some (.ok [], stream)
  | _ + 1, [] => none
  | _ + 1, .error err :: stream => some (.error err, stream)
  | count + 1, .ok value :: stream =>
    (nextValues count stream).map fun (results, stream) => (results.map (value :: ·), stream)

def results (pipeline : Pipeline) (codec : Codec) : Option (Ends (RedisResult (List Value)) × Codec) :=
  match codec.sendError with
  | some err => some (.ok (.error err), codec)
  | none =>
    (nextValues pipeline.len codec.stream).map fun (results, stream) =>
      (.ok results, { codec with written := codec.written ++ [pipeline.getPackedPipeline], stream })

def setup (info : RedisConnectionInfo) (cacheConfig : Option CacheConfig) (codec : Codec) :
    Option (Ends (RedisResult Unit) × SetupRounds × Codec) :=
  (setupConnection info cacheConfig).serve results codec

def opened (stream : List Value) : Codec := ⟨[], none, stream.map .ok⟩

end Codec

end RedisRs
