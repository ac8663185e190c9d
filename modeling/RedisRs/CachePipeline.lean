import RedisRs.CacheReads
import RedisRs.Multiplexing

/-!
# Pipelines through the cache
-/

namespace RedisRs

structure CacheablePipeline where
  commands : List CachingResult
  transactionMode : Bool

def PrepCacheItem.sent (mode : CacheMode) (cmd : Cmd) : PrepCacheItem → List Cmd
  | cached _ => []
  | notCached command => command.packCommand mode
  | notCacheable => [cmd]

def CachingResult.sent (mode : CacheMode) (cmd : Cmd) : CachingResult → List Cmd
  | .ignored => [cmd]
  | .item prepared => prepared.sent mode cmd

namespace CacheManager

variable {E : CacheEnv}

def prepareCommand (clock : Nat → Instant) (m : CacheManager E) (isIgnored : Bool) (cmd : Cmd) :
    Ends (CachingResult × CacheManager E) :=
  if isIgnored then return (.ignored, m)
  else do
    let (item, m) ← m.getCachedCmd clock cmd
    return (.item item, m)

def prepareCommands (clocks : Nat → Nat → Instant) (ignoredCommands : Finset Nat) :
    Nat → List Cmd → CacheManager E → Ends ((List CachingResult × List Cmd) × CacheManager E)
  | _, [], m => return (([], []), m)
  | idx, cmd :: cmds, m => do
    let (result, m₁) ← m.prepareCommand (clocks idx) (idx ∈ ignoredCommands) cmd
    let ((commands, packed), m₂) ← prepareCommands clocks ignoredCommands (idx + 1) cmds m₁
    return ((result :: commands, result.sent m.cacheConfig.mode cmd ++ packed), m₂)

def getCachedPipeline (clocks : Nat → Nat → Instant) (m : CacheManager E) (requestedPipeline : Pipeline) :
    Ends ((CacheablePipeline × Pipeline × Nat × Nat) × CacheManager E) := do
  let ((commands, packed), m) ←
    prepareCommands clocks requestedPipeline.ignoredCommands 0 requestedPipeline.commands m
  let transactionMode := requestedPipeline.transactionMode
  let counts := if transactionMode then (packed.length + 1, 1) else (0, packed.length)
  return ((⟨commands, transactionMode⟩, { Pipeline.new with commands := packed, transactionMode }, counts), m)

end CacheManager

section

variable {E : CacheEnv}

def CachingResult.resolve (clock : Nat → Instant) (m : CacheManager E) (replies : List Value) :
    CachingResult → RedisResult Value × CacheManager E × List Value
  | item (.cached reply) => (.ok reply, m, replies)
  | item (.notCached command) => command.resolve clock m replies
  | item .notCacheable | ignored =>
    match getNextReply replies with
    | .ok (reply, replies) => (.ok reply, m, replies)
    | .error err => (.error err, m, [])

namespace CacheablePipeline

def resolveCommands (clocks : Nat → Nat → Instant) :
    Nat → List CachingResult → List Value → CacheManager E → RedisResult (List Value) × CacheManager E
  | _, [], _, m => (.ok [], m)
  | i, command :: commands, replies, m =>
    match command.resolve (clocks i) m replies with
    | (.error err, m, _) => (.error err, m)
    | (.ok reply, m, replies) =>
      let r := resolveCommands clocks (i + 1) commands replies m
      (r.1.map (reply :: ·), r.2)

def resolve (clocks : Nat → Nat → Instant) (cp : CacheablePipeline) (m : CacheManager E) (result : Value) :
    RedisResult (List Value) × CacheManager E :=
  let replies : RedisResult (List Value) :=
    -- in a transaction the result is contained in an array
    if cp.transactionMode then (fromRedisValueTuple1 result).toRedisResult
    else (FromRedisValue.fromRedisValue result : ParseResult (List Value)).toRedisResult
  match replies with
  | .error err => (.error err, m)
  | .ok replies =>
    let r := resolveCommands clocks 0 cp.commands replies m
    (if cp.transactionMode then r.1.map fun response => [.array response] else r.1, r.2)

end CacheablePipeline

def sendRecv (input : Bytes) (expectation : PipelineResponseExpectation) (answers : List Value) :
    Ends (Option (RedisResult Value)) :=
  if input = [] then return some (.error .makeEmptyCommand)
  else do
    let r := (PipelineSink.new none none : PipelineSink Unit).startSend (fun _ => false)
      ⟨input, some 0, some expectation⟩
    let (_, completions) ← r.2.1.sendResults answers
    return completions.head?.map (·.2)

def sendPackedCommands (clocks clocks' : Nat → Nat → Instant) (cacheManager : Option (CacheManager E))
    (cmd : Pipeline) (offset count : Nat) (answers : List Value) :
    Ends (Option (RedisResult (List Value)) × Option (CacheManager E)) :=
  match cacheManager with
  | some m => do
    let ((cp, packed, skipped, expected), m) ← m.getCachedPipeline clocks cmd
    if packed.isEmpty then
      let r := cp.resolve clocks' m (.array [])
      return (some r.1, some r.2)
    else
      match ← sendRecv packed.getPackedPipeline ⟨skipped, expected, cp.transactionMode, 0⟩ answers with
      | none => return (none, some m)
      | some (.error err) => return (some (.error err), some m)
      | some (.ok result) =>
        let r := cp.resolve clocks' m result
        return (some r.1, some r.2)
  | none => do
    let value ← sendRecv cmd.getPackedPipeline ⟨offset, count, cmd.transactionMode, 0⟩ answers
    return (value.map fun value => value.map fun
      | .array values => values
      | value => [value], none)

end

section Prepare

open CacheManager

variable {E : CacheEnv} {m : CacheManager E} {clocks : Nat → Nat → Instant} {ignoredCommands : Finset Nat}

/-- What the cache makes of a command that has been read at some times before. -/
inductive Prepared (times : Set Instant) (m : CacheManager E) (clock : Nat → Instant) (isIgnored : Bool) (c : Cmd) :
    CachingResult → Prop
  | ignored (hig : isIgnored = true) : Prepared times m clock isIgnored c .ignored
  | notAdmitted (hig : isIgnored = false) (hadmits : m.cacheConfig.mode.admits c = false) :
    Prepared times m clock isIgnored c (.item .notCacheable)
  | item (hig : isIgnored = false) (hadmits : m.cacheConfig.mode.admits c = true) {shape : Shape}
    (hshape : c.shape = .ok shape) {m₁ : CacheManager E} (hf : Fades times m m₁) :
    Prepared times m clock isIgnored c (.item (m₁.answerShape clock c shape).1)

def readBefore (clocks : Nat → Nat → Instant) (i : Nat) : Set Instant := { t | ∃ k < i, ∃ j, clocks k j = t }

/-- Each command of the pipeline is prepared, after those before it. -/
def PreparedAll (m : CacheManager E) (clocks : Nat → Nat → Instant) (ignoredCommands : Finset Nat) :
    Nat → List Cmd → List CachingResult → Prop
  | _, [], [] => True
  | i, c :: cs, result :: results =>
    Prepared (readBefore clocks i) m (clocks i) (i ∈ ignoredCommands) c result ∧
      PreparedAll m clocks ignoredCommands (i + 1) cs results
  | _, _, _ => False

/-- The command is looked for in the cache. -/
def LookedUp (mode : CacheMode) (isIgnored : Bool) (c : Cmd) : Prop := isIgnored = false ∧ mode.admits c = true

instance (mode : CacheMode) (isIgnored : Bool) (c : Cmd) : Decidable (LookedUp mode isIgnored c) :=
  inferInstanceAs (Decidable (_ ∧ _))

end Prepare

end RedisRs
