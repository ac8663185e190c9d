import RedisRs.CachePipeline

/-!
# The replies to a rewritten pipeline
-/

namespace RedisRs

open List CacheManager CacheablePipeline

inductive ExecOutcome
  | nil
  | ran
  | refused (err : ServerError)

structure PipelineReplies (n : Nat) where
  multi : Value
  queued : List Value
  exec : ExecOutcome
  results : List Value
  added : Nat → Nat → Value
  addedQueued : Nat → Nat → Value
  length_queued : queued.length = n
  length_results : results.length = n
  multi_isPush : multi.isPush = false
  queued_isPush : ∀ v ∈ queued, v.isPush = false
  results_isPush : ∀ v ∈ results, v.isPush = false
  added_isPush : ∀ i j, (added i j).isPush = false
  addedQueued_isPush : ∀ i j, (addedQueued i j).isPush = false

structure Footprint where
  before : Nat
  after : Nat
deriving DecidableEq

def CacheMode.cachingCommands : CacheMode → Nat
  | .optIn => 1
  | .all => 0

namespace Footprint

def size : Option Footprint → Nat
  | none => 0
  | some f => f.before + 1 + f.after

def around (added : Nat → Value) (v : Value) : Option Footprint → List Value
  | none => []
  | some f => (range f.before).map added ++ v :: (range f.after).map fun j => added (f.before + j)

def spread (added : Nat → Nat → Value) : Nat → List (Option Footprint) → List Value → List Value
  | i, f :: fs, v :: vs => around (added i) v f ++ spread added (i + 1) fs vs
  | _, _, _ => []

end Footprint

open Footprint

def CachingResult.footprint (mode : CacheMode) : CachingResult → Option Footprint
  | item (.cached _) => none
  | item (.notCached (.single _)) => some ⟨mode.cachingCommands + 1, 0⟩
  | item (.notCached (.multiple _ commands _ _ _)) => some ⟨mode.cachingCommands, commands.length⟩
  | item .notCacheable | ignored => some ⟨0, 0⟩

def CachingResult.partReply (reply : Value) : CachingResult → Value
  | item (.notCached (.multiple _ commands response _ _)) =>
    match reply with
    | .array items =>
      if items.length = response.length then .array (commands.map fun command => items.getD command.1 .nil)
      else reply
    | reply => reply
  | _ => reply

namespace PipelineReplies

variable {n : Nat}

def execReply (results : List Value) : ExecOutcome → Value
  | .nil => .nil
  | .ran => .array results
  | .refused err => .serverError err

def answers (s : PipelineReplies n) (atomic : Bool) : List Value :=
  if atomic then s.multi :: (s.queued ++ [execReply s.results s.exec]) else s.results

end PipelineReplies

namespace Shape

def entries (data : Bytes) : Shape → List (RedisKey × RedisCmd)
  | single key => [(key, data)]
  | multi _ singleName keys path => keys.map fun key => (key, prepareKeyBuffer singleName key path)
  | uncached => []

def footprint (mode : CacheMode) (missing : Nat) : Shape → Option Footprint
  | single _ => if missing = 0 then none else some ⟨mode.cachingCommands + 1, 0⟩
  | multi .. => if missing = 0 then none else some ⟨mode.cachingCommands, missing⟩
  | uncached => some ⟨0, 0⟩

end Shape

namespace CacheManager

variable {E : CacheEnv}

def lookups (clock : Nat → Instant) (m : CacheManager E) : Nat → List (RedisKey × RedisCmd) → List (Option Value)
  | _, [] => []
  | i, e :: entries => (m.get (clock (i + 1)) e.1 e.2).1 :: lookups clock m (i + 1) entries

def footprint (clock : Nat → Instant) (m : CacheManager E) (isIgnored : Bool) (c : Cmd) : Option Footprint :=
  if LookedUp m.cacheConfig.mode isIgnored c then
    match c.shape with
    | .ok shape =>
      shape.footprint m.cacheConfig.mode ((m.lookups clock 0 (shape.entries c.data)).countP (·.isNone))
    | .error _ => none
  else some ⟨0, 0⟩

end CacheManager

/-- What the cache holds for a command is what the server replies to it now. -/
def Accurate {E : CacheEnv} (m : CacheManager E) (c : Cmd) (reply : Value) : Prop :=
  ∀ shape, c.shape = .ok shape → ∀ (j : Nat) e x, (shape.entries c.data)[j]? = some e → m.lru.content e = some x →
    match shape with
    | .single _ => x.value = reply
    | _ => ∃ items, reply = .array items ∧ items[j]? = some x.value

/-- The reply to a command that is cached key by key is an array of one value for each key. -/
def KeyByKey (mode : CacheMode) (isIgnored : Bool) (c : Cmd) (reply : Value) : Prop :=
  LookedUp mode isIgnored c → ∀ commandName singleName keys path,
    c.shape = .ok (.multi commandName singleName keys path) →
      ∃ items, reply = .array items ∧ items.length = keys.length

namespace CacheableCommand

variable {E : CacheEnv}

variable (clock : Nat → Instant) (clientSideExpire : Instant)

theorem resolveParts_missing (singleName : Bytes) (path : Option Bytes) {keys : List RedisKey}
    {hits : List (Option Value)} {items : List Value} (hhits : hits.length = keys.length)
    (hitems : items.length = keys.length) (hagree : ∀ (k : Nat) v, hits[k]? = some (some v) → items[k]? = some v)
    (pre : List Value) (n : Nat) (pttls : List Value)
    (hpttls : pttls.length = (missingParts singleName path pre.length keys hits).length) (rest : List Value)
    (m : CacheManager E) :
    ∃ m', resolveParts clock clientSideExpire n
        ((missingParts singleName path pre.length keys hits).map fun command =>
          (pre ++ items).getD command.1 .nil)
        (pttls ++ rest) (missingParts singleName path pre.length keys hits)
        (pre ++ hits.map (·.getD .nil)) m = (pre ++ items, m', rest) := by
  induction keys generalizing hits items pre n pttls m with
  | nil =>
    obtain rfl := eq_nil_of_length_eq_zero hhits
    obtain rfl := eq_nil_of_length_eq_zero hitems
    obtain rfl := eq_nil_of_length_eq_zero hpttls
    exact ⟨m, rfl⟩
  | cons key keys ih =>
    obtain ⟨hit, hits, rfl⟩ := exists_cons_of_length_eq_add_one hhits
    obtain ⟨item, items, rfl⟩ := exists_cons_of_length_eq_add_one hitems
    have hagree' : ∀ (k : Nat) v, hits[k]? = some (some v) → items[k]? = some v :=
      fun k v hk => hagree (k + 1) v hk
    have ih := ih (Nat.succ.inj hhits) (Nat.succ.inj hitems) hagree' (pre ++ [item])
    simp only [append_assoc, cons_append, nil_append, length_append,
      length_singleton] at ih
    cases hit with
    | some v =>
      obtain rfl := Option.some.inj (hagree 0 v rfl)
      exact ih n pttls hpttls m
    | none =>
      obtain ⟨pttl, pttls, rfl⟩ := exists_cons_of_length_eq_add_one hpttls
      have hget : (pre ++ item :: items).getD pre.length .nil = item := by
        rw [getD_eq_getElem?_getD, getElem?_append_right (le_rfl), Nat.sub_self]
        rfl
      have hset : (pre ++ Value.nil :: hits.map (·.getD .nil)).set pre.length item =
          pre ++ item :: hits.map (·.getD .nil) := by
        rw [set_append_right _ _ (le_rfl), Nat.sub_self]
        rfl
      simp only [missingParts, map_cons, cons_append, resolveParts, hget, Option.getD_none,
        hset]
      exact ih (n + 1) pttls (Nat.succ.inj hpttls) _

theorem resolve_append (m : CacheManager E) (added : Nat → Value) (replies : List Value) (command : CacheableCommand) :
    command.resolve clock m ((range m.cacheConfig.mode.cachingCommands).map added ++ replies) =
      command.resolveInner clock m replies := by
  unfold resolve
  cases m.cacheConfig.mode <;> rfl

end CacheableCommand

section Command

variable {E : CacheEnv} {m m₁ : CacheManager E} {times : Set Instant} {clock : Nat → Instant} {isIgnored : Bool} {c : Cmd}
  {reply : Value} {result : CachingResult} {commandName : String} {singleName : Bytes} {keys : List RedisKey}
  {path : Option Bytes} {items : List Value}

theorem Accurate.keyHits (hshape : c.shape = .ok (.multi commandName singleName keys path))
    (hacc : Accurate m c (.array items)) (hf : Forgets m m₁) (clock : Nat → Instant) {k : Nat} {v : Value}
    (hk : (CacheManager.keyHits clock singleName path 0 keys m₁).1[k]? = some (some v)) : items[k]? = some v := by
  obtain ⟨key, hkey, hholds⟩ := holds_of_keyHits clock singleName path hk
  obtain ⟨x, hx, rfl, -⟩ := hf.holds hholds
  rw [entryKey_partArgs] at hx
  obtain ⟨items', heq, hitem⟩ := hacc _ hshape k _ x (by rw [Shape.entries, getElem?_map, hkey]; rfl) hx
  cases heq
  exact hitem

/-- Whatever is sent for the item resolves to the reply to the command. -/
def ResolvesTo (item : PrepCacheItem) (mode : CacheMode) (reply : Value) : Prop :=
  ∀ (E : CacheEnv) (m : CacheManager E), m.cacheConfig.mode = mode → ∀ (clock : Nat → Instant) (added : Nat → Value)
    (rest : List Value), ∃ m', (CachingResult.item item).resolve clock m
      (around added ((CachingResult.item item).partReply reply) ((CachingResult.item item).footprint mode) ++ rest) =
        (.ok reply, m', rest)

variable {m₂ : CacheManager E} (mode : CacheMode)

theorem resolvesTo_cached (reply : Value) : ResolvesTo (.cached reply) mode reply :=
  fun _ m _ _ _ _ => ⟨m, rfl⟩

theorem resolvesTo_single {key : RedisKey} (hshape : c.shape = .ok (.single key)) (hacc : Accurate m c reply)
    (hf : Forgets m m₁) (clock₁ : Nat → Instant) (mode : CacheMode) :
    ResolvesTo (m₁.answerShape clock₁ c (.single key)).1 mode reply := by
  dsimp only [answerShape]
  split
  · rename_i v hv
    obtain ⟨x, hx, rfl, -⟩ := hf.holds (get_eq_some.1 hv)
    obtain rfl : x.value = reply := hacc _ hshape 0 _ x rfl hx
    exact resolvesTo_cached mode _
  · rintro E m₂ rfl clock added rest
    simp only [CachingResult.resolve, CachingResult.footprint, CachingResult.partReply, around, range_succ, map_append,
      append_assoc, CacheableCommand.resolve_append]
    exact ⟨_, rfl⟩

theorem resolvesTo_multi (hshape : c.shape = .ok (.multi commandName singleName keys path))
    (hacc : Accurate m c (.array items)) (hlen : items.length = keys.length) (hf : Forgets m m₁)
    (clock₁ : Nat → Instant) (mode : CacheMode) :
    ResolvesTo (m₁.answerShape clock₁ c (.multi commandName singleName keys path)).1 mode (.array items) := by
  have hhits := length_keyHits clock₁ singleName path 0 keys m₁
  have hagree := fun k v => Accurate.keyHits (k := k) (v := v) hshape hacc hf clock₁
  simp only [answerShape, processKeys_eq]
  generalize (CacheManager.keyHits clock₁ singleName path 0 keys m₁).1 = hits at hhits hagree ⊢
  rintro E m₂ rfl clock added rest
  have hparts := fun clientSideExpire pttls hp => CacheableCommand.resolveParts_missing clock
    clientSideExpire singleName path hhits hlen hagree [] 0 pttls hp rest m₂
  split
  · rename_i hnone
    obtain ⟨_, hparts⟩ := hparts 0 [] (by rw [length_nil, hnone]; rfl)
    simp only [length_nil, hnone] at hparts
    obtain ⟨hitems, -⟩ := Prod.mk.inj hparts
    rw [nil_append, nil_append] at hitems
    rw [hitems]
    exact ⟨m₂, rfl⟩
  · have hresp : items.length = (hits.map (·.getD .nil)).length := by rw [length_map, hhits, hlen]
    obtain ⟨m₃, hparts⟩ := hparts (m₁.calculateExpirationTime (clock₁ 0) c)
      ((range (missingParts singleName path 0 keys hits).length).map fun j =>
        added (m₂.cacheConfig.mode.cachingCommands + j))
      (by rw [length_map, length_range]; rfl)
    simp only [CachingResult.resolve, CachingResult.footprint, CachingResult.partReply, around, append_assoc,
      CacheableCommand.resolve_append, if_pos hresp]
    simp only [length_nil, nil_append] at hparts
    simp only [CacheableCommand.resolveInner, cons_append, hparts]
    exact ⟨m₃, rfl⟩

theorem Prepared.resolve (h : Prepared times m clock isIgnored c result)
    (hacc : LookedUp m.cacheConfig.mode isIgnored c → Accurate m c reply)
    (hkeys : KeyByKey m.cacheConfig.mode isIgnored c reply) (hcfg : m₂.cacheConfig = m.cacheConfig)
    (clock₂ : Nat → Instant) (added : Nat → Value) (rest : List Value) : ∃ m₃, result.resolve clock₂ m₂
        (around added (result.partReply reply) (result.footprint m.cacheConfig.mode) ++ rest) =
          (.ok reply, m₃, rest) := by
  have hmode : m₂.cacheConfig.mode = m.cacheConfig.mode := congrArg _ hcfg
  cases h with
  | ignored hig => exact ⟨m₂, rfl⟩
  | notAdmitted hig hadm => exact ⟨m₂, rfl⟩
  | @item hig hadm shape hshape m₁ hf =>
    have hacc := hacc ⟨hig, hadm⟩
    rcases shape with key | ⟨commandName, singleName, keys, path⟩ | _
    · exact resolvesTo_single hshape hacc hf.toForgets clock _ E m₂ hmode clock₂ added rest
    · obtain ⟨items, rfl, hlen⟩ := hkeys ⟨hig, hadm⟩ _ _ _ _ hshape
      exact resolvesTo_multi hshape hacc hlen hf.toForgets clock _ E m₂ hmode clock₂ added rest
    · exact ⟨m₂, rfl⟩

theorem CachingResult.cacheConfig_resolve (clock : Nat → Instant) (m : CacheManager E) (replies : List Value)
    (result : CachingResult) : (result.resolve clock m replies).2.1.cacheConfig = m.cacheConfig := by
  unfold CachingResult.resolve
  split
  · rfl
  · exact (CacheableCommand.stored_resolve ..).cacheConfig
  · split <;> rfl
  · split <;> rfl

end Command

section Pipeline

variable {E : CacheEnv} {m : CacheManager E} {clocks : Nat → Nat → Instant} {ignoredCommands : Finset Nat} {i : Nat}
  {cs : List Cmd} {commands : List CachingResult} {replies results : List Value} {m₂ : CacheManager E}

theorem PreparedAll.length_eq (h : PreparedAll m clocks ignoredCommands i cs commands) : commands.length = cs.length := by
  induction cs generalizing i commands with
  | nil =>
    cases commands with
    | nil => rfl
    | cons result commands => exact h.elim
  | cons c cs ih =>
    cases commands with
    | nil => exact h.elim
    | cons result commands => rw [length_cons, length_cons, ih h.2]

theorem PreparedAll.resolve (h : PreparedAll m clocks ignoredCommands i cs commands) (hlen : results.length = cs.length)
    (hacc : ∀ (k : Nat) c r, cs[k]? = some c → results[k]? = some r →
      LookedUp m.cacheConfig.mode (i + k ∈ ignoredCommands) c → Accurate m c r)
    (hkeys : ∀ (k : Nat) c r, cs[k]? = some c → results[k]? = some r →
      KeyByKey m.cacheConfig.mode (i + k ∈ ignoredCommands) c r)
    (hcfg : m₂.cacheConfig = m.cacheConfig) (clocks' : Nat → Nat → Instant) (j : Nat) (added : Nat → Nat → Value) :
    (resolveCommands clocks' j commands (spread added i (commands.map (·.footprint m.cacheConfig.mode))
      (zipWith CachingResult.partReply results commands)) m₂).1 = .ok results := by
  induction cs generalizing i commands results m₂ j with
  | nil =>
    obtain rfl := eq_nil_of_length_eq_zero hlen
    cases commands with
    | nil => rfl
    | cons result commands => exact h.elim
  | cons c cs ih =>
    cases commands with
    | nil => exact h.elim
    | cons result commands =>
      obtain ⟨reply, results, rfl⟩ := exists_cons_of_length_eq_add_one hlen
      have hshift : ∀ k, i + 1 + k = i + (k + 1) := fun k => by omega
      obtain ⟨m₃, hhead⟩ := h.1.resolve (hacc 0 c reply rfl rfl) (hkeys 0 c reply rfl rfl) hcfg (clocks' j) (added i)
        (spread added (i + 1) (commands.map (·.footprint m.cacheConfig.mode))
          (zipWith CachingResult.partReply results commands))
      have hcfg₃ : m₃.cacheConfig = m.cacheConfig := by
        have hres := result.cacheConfig_resolve (clocks' j) m₂
          (around (added i) (result.partReply reply) (result.footprint m.cacheConfig.mode) ++
            spread added (i + 1) (commands.map (·.footprint m.cacheConfig.mode))
              (zipWith CachingResult.partReply results commands))
        rw [hhead] at hres
        exact hres.trans hcfg
      have htail := ih h.2 (Nat.succ.inj hlen)
        (fun k c r hc hr hl => hacc (k + 1) c r hc hr (by simpa only [hshift] using hl))
        (fun k c r hc hr => by simpa only [hshift] using hkeys (k + 1) c r hc hr) hcfg₃ (j + 1)
      simp only [map_cons, zipWith_cons_cons, spread, resolveCommands, hhead, htail]
      rfl

end Pipeline

end RedisRs
