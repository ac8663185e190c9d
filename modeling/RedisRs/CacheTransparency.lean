import RedisRs.CacheResolve
import RedisRs.TransactionErrors

/-!
# What a pipeline returns with and without a cache
-/

namespace RedisRs

open List CacheManager Footprint

namespace PipelineReplies

variable {n : Nat} (s : PipelineReplies n) (mode : CacheMode) (commands : List CachingResult)

end PipelineReplies

section Outcome

variable {E : CacheEnv} {m : CacheManager E} {p : Pipeline} (s : PipelineReplies p.commands.length)
  (clocks clocks' : Nat → Nat → Instant)

variable {commands : List CachingResult} {m' : CacheManager E}

end Outcome

section Errors

variable {E : CacheEnv}

variable {m : CacheManager E} {replies : List Value}

variable {clocks : Nat → Nat → Instant} {err : RedisError}

end Errors

namespace Footprint

def places : Nat → List (Option Footprint) → List (Option Nat)
  | _, [] => []
  | pos, none :: fs => none :: places pos fs
  | pos, some f :: fs => some (pos + f.before) :: places (pos + size (some f)) fs

variable {added : Nat → Nat → Value} {i : Nat} {fs : List (Option Footprint)} {vs : List Value} {f : Option Footprint}

end Footprint

namespace PipelineReplies

variable {n : Nat}

end PipelineReplies

section Transparency

variable {E : CacheEnv} {m m' : CacheManager E} {p : Pipeline} {s : PipelineReplies p.commands.length}
  {clocks : Nat → Nat → Instant} {commands : List CachingResult}

section Resolve

variable (hall : PreparedAll m clocks p.ignoredCommands 0 p.commands commands)
  (hacc : ∀ (k : Nat) c r, p.commands[k]? = some c → s.results[k]? = some r →
    LookedUp m.cacheConfig.mode (k ∈ p.ignoredCommands) c → Accurate m c r)
  (hconfig : m'.cacheConfig = m.cacheConfig) (clocks' : Nat → Nat → Instant)

include hall hacc hconfig

end Resolve

end Transparency

end RedisRs
