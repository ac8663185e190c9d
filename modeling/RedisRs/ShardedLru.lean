import RedisRs.Cmd
import RedisRs.Lru
import Mathlib.Algebra.Ring.Nat

/-!
# The shared cache
-/

namespace RedisRs

open Lru

abbrev RedisCmd := Bytes

abbrev RedisKey := Bytes

structure CacheCmdEntry where
  cmd : RedisCmd
  value : Value

structure CacheItem where
  expireTime : Instant
  epoch : Nat
  valueList : List CacheCmdEntry

/-- The item is one that the connection of the epoch may still use. -/
def CacheItem.Usable (now : Instant) (epoch : Nat) (item : CacheItem) : Prop :=
  item.epoch = epoch ∧ now ≤ item.expireTime

instance (now : Instant) (epoch : Nat) (item : CacheItem) : Decidable (item.Usable now epoch) :=
  inferInstanceAs (Decidable (_ ∧ _))

structure Statistics where
  hit : Nat
  miss : Nat
  invalidate : Nat
deriving DecidableEq, Repr

namespace Statistics

def increaseHit (s : Statistics) (val : Nat) : Statistics := { s with hit := s.hit + val }

def increaseMiss (s : Statistics) (val : Nat) : Statistics := { s with miss := s.miss + val }

def increaseInvalidate (s : Statistics) (val : Nat) : Statistics := { s with invalidate := s.invalidate + val }

end Statistics

def findEntry (cmd : RedisCmd) : List CacheCmdEntry → Option Value
  | [] => none
  | entry :: entries => if entry.cmd = cmd then some entry.value else findEntry cmd entries

def setEntry (cmd : RedisCmd) (value : Value) : List CacheCmdEntry → List CacheCmdEntry
  | [] => [⟨cmd, value⟩]
  | entry :: entries =>
    if entry.cmd = cmd then { entry with value := value } :: entries
    else entry :: setEntry cmd value entries

theorem findEntry_setEntry_self (cmd : RedisCmd) (value : Value) (entries : List CacheCmdEntry) :
    findEntry cmd (setEntry cmd value entries) = some value := by
  induction entries with
  | nil => simp [setEntry, findEntry]
  | cons entry entries ih =>
    by_cases h : entry.cmd = cmd <;> simp [setEntry, findEntry, h, ih]

theorem findEntry_setEntry_of_ne {cmd cmd' : RedisCmd} (h : cmd' ≠ cmd) (value : Value)
    (entries : List CacheCmdEntry) :
    findEntry cmd' (setEntry cmd value entries) = findEntry cmd' entries := by
  induction entries with
  | nil => simp [setEntry, findEntry, h.symm]
  | cons entry entries ih =>
    by_cases he : entry.cmd = cmd
    · simp [setEntry, findEntry, he, h.symm]
    · rw [setEntry, if_neg he, findEntry, findEntry, ih]

structure CacheEnv where
  lru : LruMap RedisKey CacheItem
  hash : Bytes → UInt64

def listEnv : CacheEnv := ⟨listLru RedisKey CacheItem, fun _ => 0⟩

structure ShardedLru (E : CacheEnv) where
  shards : List E.lru.Map
  nonempty : 0 < shards.length
  statistics : Statistics
  lastEpoch : Nat

namespace ShardedLru

variable {E : CacheEnv}

def maxShardCount : Nat := 32

def new (E : CacheEnv) (totalKeySize : NonZero) : ShardedLru E :=
  if h : maxShardCount ≤ totalKeySize.1 then
    { shards := List.replicate maxShardCount
        (E.lru.new ⟨totalKeySize.1 / maxShardCount, Nat.div_pos h (by decide)⟩)
      nonempty := by rw [List.length_replicate]; decide
      statistics := ⟨0, 0, 0⟩
      lastEpoch := 0 }
  else
    { shards := [E.lru.new totalKeySize]
      nonempty := Nat.one_pos
      statistics := ⟨0, 0, 0⟩
      lastEpoch := 0 }

def index (s : ShardedLru E) (key : RedisKey) : Fin s.shards.length :=
  ⟨(E.hash key).toNat % s.shards.length, Nat.mod_lt _ s.nonempty⟩

def getShard (s : ShardedLru E) (key : RedisKey) : E.lru.Map := s.shards.get (s.index key)

def setShard (s : ShardedLru E) (key : RedisKey) (shard : E.lru.Map) : ShardedLru E :=
  { s with
    shards := s.shards.set (s.index key) shard
    nonempty := by rw [List.length_set]; exact s.nonempty }

def get (now : Instant) (redisKey : RedisKey) (redisCmd : RedisCmd) (epoch : Nat) (s : ShardedLru E) :
    Option Value × ShardedLru E :=
  match E.lru.getMut (s.getShard redisKey) redisKey with
  | (some item, shard) =>
    if item.epoch ≠ epoch ∨ item.expireTime < now then
      let s := s.setShard redisKey (E.lru.pop shard redisKey).2
      (none, { s with
        statistics := (s.statistics.increaseInvalidate item.valueList.length).increaseMiss 1 })
    else
      let s := s.setShard redisKey shard
      match findEntry redisCmd item.valueList with
      | some value => (some value, { s with statistics := s.statistics.increaseHit 1 })
      | none => (none, { s with statistics := s.statistics.increaseMiss 1 })
  | (none, shard) =>
    let s := s.setShard redisKey shard
    (none, { s with statistics := s.statistics.increaseMiss 1 })

def insert (redisKey : RedisKey) (cmdKey : RedisCmd) (value : Value) (expireTime : Instant) (epoch : Nat)
    (s : ShardedLru E) : ShardedLru E :=
  let lru := s.getShard redisKey
  let push := s.setShard redisKey (E.lru.push lru redisKey ⟨expireTime, epoch, [⟨cmdKey, value⟩]⟩)
  match E.lru.peek lru redisKey with
  | some item =>
    if item.epoch = epoch then
      s.setShard redisKey (E.lru.set lru redisKey
        { item with expireTime, valueList := setEntry cmdKey value item.valueList })
    else push
  | none => push

def invalidate (cacheKey : RedisKey) (s : ShardedLru E) : ShardedLru E :=
  match E.lru.pop (s.getShard cacheKey) cacheKey with
  | (some item, shard) =>
    let s := s.setShard cacheKey shard
    { s with statistics := s.statistics.increaseInvalidate item.valueList.length }
  | (none, shard) => s.setShard cacheKey shard

def increaseEpoch (s : ShardedLru E) : Nat × ShardedLru E :=
  (s.lastEpoch, { s with lastEpoch := (s.lastEpoch + 1) % 2 ^ 64 })

def lookup (s : ShardedLru E) (key : RedisKey) : Option CacheItem := E.lru.peek (s.getShard key) key

theorem exists_eq_new_of_mem {size : NonZero} {shard : E.lru.Map} (h : shard ∈ (new E size).shards) :
    ∃ capacity, shard = E.lru.new capacity := by
  unfold new at h
  split at h
  · exact ⟨_, List.eq_of_mem_replicate h⟩
  · exact ⟨_, List.mem_singleton.1 h⟩

theorem lookup_new (size : NonZero) (key : RedisKey) : (new E size).lookup key = none := by
  obtain ⟨capacity, h⟩ := exists_eq_new_of_mem (List.get_mem _ ((new E size).index key))
  rw [lookup, getShard, h]
  exact E.lru.peek_new _ _

@[simp] theorem lookup_statistics (s : ShardedLru E) (st : Statistics) (key : RedisKey) :
    ({ s with statistics := st } : ShardedLru E).lookup key = s.lookup key := rfl

theorem getElem?_index (s : ShardedLru E) (key : RedisKey) :
    s.shards[(s.index key).1]? = some (s.getShard key) :=
  List.getElem?_eq_getElem (s.index key).2

theorem lookup_setShard (s : ShardedLru E) (key key' : RedisKey) (shard : E.lru.Map) :
    (s.setShard key shard).lookup key' =
      if s.index key' = s.index key then E.lru.peek shard key' else s.lookup key' := by
  have hidx : ((s.setShard key shard).index key').1 = (s.index key').1 := by
    simp [index, setShard]
  have hset : (s.setShard key shard).shards = s.shards.set (s.index key) shard := rfl
  have hget := (s.setShard key shard).getElem?_index key'
  rw [hidx, hset, List.getElem?_set, if_pos (s.index key).2] at hget
  by_cases h : s.index key' = s.index key
  · rw [if_pos (congrArg Fin.val h.symm)] at hget
    rw [if_pos h, lookup, ← Option.some.inj hget]
  · rw [if_neg fun he => h (Fin.ext he.symm), s.getElem?_index key'] at hget
    rw [if_neg h, lookup, ← Option.some.inj hget, lookup]

variable {s : ShardedLru E} {key : RedisKey}

theorem lookup_setShard_cases {shard : E.lru.Map}
    (h : ∀ k ≠ key, E.lru.peek shard k = E.lru.peek (s.getShard key) k ∨ E.lru.peek shard k = none) {key' : RedisKey}
    (hne : key' ≠ key) :
    (s.setShard key shard).lookup key' = s.lookup key' ∨ (s.setShard key shard).lookup key' = none := by
  rw [lookup_setShard]
  split
  · rename_i hidx
    have hshard : s.getShard key = s.getShard key' := by rw [getShard, getShard, hidx]
    rcases h key' hne with he | he
    · refine .inl ?_
      rw [he, hshard, lookup]
    · exact .inr he
  · exact .inl rfl

theorem lookup_setShard_self (s : ShardedLru E) (key : RedisKey) (shard : E.lru.Map) :
    (s.setShard key shard).lookup key = E.lru.peek shard key := by
  rw [lookup_setShard, if_pos rfl]

theorem lookup_setShard_of_ne {shard : E.lru.Map} (h : ∀ k ≠ key, E.lru.peek shard k = E.lru.peek (s.getShard key) k)
    {key' : RedisKey} (hne : key' ≠ key) : (s.setShard key shard).lookup key' = s.lookup key' := by
  rw [lookup_setShard]
  split
  · rename_i hidx
    rw [h key' hne, lookup, getShard, getShard, hidx]
  · rfl

variable {redisKey : RedisKey} {redisCmd : RedisCmd}

variable {now : Instant} {epoch : Nat} {value : Value}

theorem get_fst_eq_some :
    (s.get now redisKey redisCmd epoch).1 = some value ↔
      ∃ item, s.lookup redisKey = some item ∧ CacheItem.Usable now epoch item ∧
        findEntry redisCmd item.valueList = some value := by
  have hfst := E.lru.getMut_fst (s.getShard redisKey) redisKey
  unfold get lookup
  rcases hg : E.lru.getMut (s.getShard redisKey) redisKey with ⟨_ | item, shard⟩
  · rw [hg] at hfst
    simp [← hfst]
  · rw [hg] at hfst
    simp only [← hfst, Option.some.injEq, exists_eq_left', CacheItem.Usable]
    split
    · rename_i h
      constructor
      · intro h'
        cases h'
      · rintro ⟨⟨he, ht⟩, -⟩
        rcases h with h | h
        · exact absurd he h
        · exact absurd ht (Nat.not_le_of_lt h)
    · rename_i h
      rw [not_or, not_not, Nat.not_lt] at h
      cases findEntry redisCmd item.valueList <;> simp [h]

theorem lookup_get_self (now : Instant) (redisKey : RedisKey) (redisCmd : RedisCmd) (epoch : Nat)
    (s : ShardedLru E) :
    (s.get now redisKey redisCmd epoch).2.lookup redisKey =
      (s.lookup redisKey).filter fun item => item.Usable now epoch := by
  have hfst := E.lru.getMut_fst (s.getShard redisKey) redisKey
  have hkept := E.lru.peek_getMut (s.getShard redisKey) redisKey redisKey
  unfold get
  rcases hg : E.lru.getMut (s.getShard redisKey) redisKey with ⟨_ | item, shard⟩ <;> rw [hg] at hfst hkept
  · have hitem : s.lookup redisKey = none := hfst.symm
    rw [lookup_statistics, lookup_setShard_self, hkept, hitem]
    exact hitem
  · have hitem : s.lookup redisKey = some item := hfst.symm
    rw [hitem, Option.filter_some]
    by_cases h : item.Usable now epoch
    · have h' : ¬ (item.epoch ≠ epoch ∨ item.expireTime < now) := by
        rintro (he | ht)
        · exact he h.1
        · exact Nat.not_le_of_lt ht h.2
      rw [if_pos (decide_eq_true h)]
      simp only [h', if_false]
      split <;>
      · rw [lookup_statistics, lookup_setShard_self, hkept]
        exact hitem
    · have h' : item.epoch ≠ epoch ∨ item.expireTime < now := by
        by_contra hc
        rw [not_or, not_not, Nat.not_lt] at hc
        exact h hc
      rw [if_neg fun hd => h (of_decide_eq_true hd)]
      simp only [h', if_true]
      rw [lookup_statistics, lookup_setShard_self, E.lru.peek_pop_self]

theorem lookup_get_of_ne (now : Instant) (hne : key ≠ redisKey) (redisCmd : RedisCmd) (epoch : Nat) (s : ShardedLru E) :
    (s.get now redisKey redisCmd epoch).2.lookup key = s.lookup key := by
  have hkept : ∀ k, E.lru.peek (E.lru.getMut (s.getShard redisKey) redisKey).2 k =
      E.lru.peek (s.getShard redisKey) k := E.lru.peek_getMut (s.getShard redisKey) redisKey
  unfold get
  rcases hg : E.lru.getMut (s.getShard redisKey) redisKey with ⟨_ | item, shard⟩ <;> rw [hg] at hkept
  · rw [lookup_statistics, lookup_setShard_of_ne (fun k _ => hkept k) hne]
  · simp only
    split
    · rw [lookup_statistics]
      exact lookup_setShard_of_ne (fun k hk => (E.lru.peek_pop_of_ne _ _ _ hk).trans (hkept k)) hne
    · split <;> rw [lookup_statistics, lookup_setShard_of_ne (fun k _ => hkept k) hne]

theorem lookup_invalidate_self (cacheKey : RedisKey) (s : ShardedLru E) :
    (s.invalidate cacheKey).lookup cacheKey = none := by
  have hpop := E.lru.peek_pop_self (s.getShard cacheKey) cacheKey
  unfold invalidate
  rcases hp : E.lru.pop (s.getShard cacheKey) cacheKey with ⟨_ | item, shard⟩ <;> rw [hp] at hpop
  · rw [lookup_setShard_self, hpop]
  · rw [lookup_statistics, lookup_setShard_self, hpop]

theorem lookup_invalidate_of_ne {cacheKey : RedisKey} (hne : key ≠ cacheKey) (s : ShardedLru E) :
    (s.invalidate cacheKey).lookup key = s.lookup key := by
  have hpop := E.lru.peek_pop_of_ne (s.getShard cacheKey) cacheKey
  unfold invalidate
  rcases hp : E.lru.pop (s.getShard cacheKey) cacheKey with ⟨_ | item, shard⟩ <;> rw [hp] at hpop
  · exact lookup_setShard_of_ne hpop hne
  · rw [lookup_statistics]
    exact lookup_setShard_of_ne hpop hne

def insertItem (cmdKey : RedisCmd) (value : Value) (expireTime : Instant) (epoch : Nat) :
    Option CacheItem → CacheItem
  | some item =>
    if item.epoch = epoch then { item with expireTime, valueList := setEntry cmdKey value item.valueList }
    else ⟨expireTime, epoch, [⟨cmdKey, value⟩]⟩
  | none => ⟨expireTime, epoch, [⟨cmdKey, value⟩]⟩

section Insert

variable (redisKey : RedisKey) (cmdKey : RedisCmd) (value : Value) (expireTime : Instant) (epoch : Nat)

theorem insert_spec (s : ShardedLru E) :
    ∃ shard, s.insert redisKey cmdKey value expireTime epoch = s.setShard redisKey shard ∧
      E.lru.peek shard redisKey = some (insertItem cmdKey value expireTime epoch (s.lookup redisKey)) ∧
      ∀ k ≠ redisKey, E.lru.peek shard k = E.lru.peek (s.getShard redisKey) k ∨ E.lru.peek shard k = none := by
  unfold insert lookup insertItem
  rcases hp : E.lru.peek (s.getShard redisKey) redisKey with _ | item
  · simp only [hp]
    exact ⟨_, rfl, E.lru.peek_push_self _ _ _, E.lru.peek_push_of_ne _ _ _⟩
  · simp only [hp]
    split
    · refine ⟨_, rfl, E.lru.peek_set_self _ _ _ ?_, fun k hk => .inl (E.lru.peek_set_of_ne _ _ _ _ hk)⟩
      rw [hp]
      rfl
    · exact ⟨_, rfl, E.lru.peek_push_self _ _ _, E.lru.peek_push_of_ne _ _ _⟩

theorem lookup_insert_self (s : ShardedLru E) :
    (s.insert redisKey cmdKey value expireTime epoch).lookup redisKey =
      some (insertItem cmdKey value expireTime epoch (s.lookup redisKey)) := by
  obtain ⟨shard, hs, hself, -⟩ := s.insert_spec redisKey cmdKey value expireTime epoch
  rw [hs, lookup_setShard_self, hself]

variable {redisKey} in
theorem lookup_insert_of_ne (hne : key ≠ redisKey) (s : ShardedLru E) :
    (s.insert redisKey cmdKey value expireTime epoch).lookup key = s.lookup key ∨
      (s.insert redisKey cmdKey value expireTime epoch).lookup key = none := by
  obtain ⟨shard, hs, -, hother⟩ := s.insert_spec redisKey cmdKey value expireTime epoch
  rw [hs]
  exact lookup_setShard_cases hother hne

variable (item : Option CacheItem)

theorem insertItem_epoch : (insertItem cmdKey value expireTime epoch item).epoch = epoch := by
  unfold insertItem
  split
  · split
    · assumption
    · rfl
  · rfl

theorem insertItem_expireTime : (insertItem cmdKey value expireTime epoch item).expireTime = expireTime := by
  unfold insertItem
  split
  · split <;> rfl
  · rfl

theorem findEntry_insertItem_self :
    findEntry cmdKey (insertItem cmdKey value expireTime epoch item).valueList = some value := by
  unfold insertItem
  split
  · split
    · exact findEntry_setEntry_self _ _ _
    · exact if_pos rfl
  · exact if_pos rfl

theorem findEntry_insertItem_of_ne {cmdKey' : RedisCmd} (hne : cmdKey' ≠ cmdKey) (item : Option CacheItem)
    {value' : Value} :
    findEntry cmdKey' (insertItem cmdKey value expireTime epoch item).valueList = some value' ↔
      ∃ old, item = some old ∧ old.epoch = epoch ∧ findEntry cmdKey' old.valueList = some value' := by
  have hnew : findEntry cmdKey' [⟨cmdKey, value⟩] = none := if_neg hne.symm
  rcases item with _ | old
  · simp [insertItem, hnew]
  · by_cases he : old.epoch = epoch
    · simp [insertItem, he, findEntry_setEntry_of_ne hne]
    · simp [insertItem, he, hnew]

end Insert

structure Cached where
  value : Value
  expireTime : Instant
  epoch : Nat

abbrev Content := RedisKey × RedisCmd → Option Cached

def Content.insert (redisKey : RedisKey) (cmdKey : RedisCmd) (value : Value) (expireTime : Instant)
    (epoch : Nat) (f : Content) : Content := fun p =>
  if p.1 = redisKey then
    if p.2 = cmdKey then some ⟨value, expireTime, epoch⟩
    else (f p).bind fun x => if x.epoch = epoch then some { x with expireTime } else none
  else f p

def Content.invalidate (cacheKey : RedisKey) (f : Content) : Content := fun p =>
  if p.1 = cacheKey then none else f p

def content (s : ShardedLru E) : Content := fun p =>
  (s.lookup p.1).bind fun item =>
    (findEntry p.2 item.valueList).map fun value => ⟨value, item.expireTime, item.epoch⟩

variable {p : RedisKey × RedisCmd}

theorem content_eq_some {x : Cached} :
    s.content p = some x ↔ ∃ item, s.lookup p.1 = some item ∧
      findEntry p.2 item.valueList = some x.value ∧ item.expireTime = x.expireTime ∧ item.epoch = x.epoch := by
  rw [content, Option.bind_eq_some_iff]
  refine exists_congr fun item => and_congr_right fun _ => ?_
  rw [Option.map_eq_some_iff]
  constructor
  · rintro ⟨value, hv, rfl⟩
    exact ⟨hv, rfl, rfl⟩
  · rintro ⟨hv, ht, he⟩
    refine ⟨x.value, hv, ?_⟩
    rw [ht, he]

theorem content_congr {s' : ShardedLru E} (h : s'.lookup p.1 = s.lookup p.1) : s'.content p = s.content p := by
  rw [content, content, h]

theorem content_eq_none (h : s.lookup p.1 = none) : s.content p = none := by
  rw [content, h]
  rfl

theorem content_new (size : NonZero) (p : RedisKey × RedisCmd) : (new E size).content p = none :=
  content_eq_none (lookup_new size p.1)

theorem get_eq_some :
    (s.get now redisKey redisCmd epoch).1 = some value ↔
      ∃ x, s.content (redisKey, redisCmd) = some x ∧ x.value = value ∧ x.epoch = epoch ∧ now ≤ x.expireTime := by
  rw [get_fst_eq_some]
  constructor
  · rintro ⟨item, hitem, ⟨he, ht⟩, hv⟩
    exact ⟨⟨value, item.expireTime, item.epoch⟩, content_eq_some.2 ⟨item, hitem, hv, rfl, rfl⟩, rfl, he, ht⟩
  · rintro ⟨x, hx, rfl, he, ht⟩
    obtain ⟨item, hitem, hv, ht', he'⟩ := content_eq_some.1 hx
    exact ⟨item, hitem, ⟨he'.trans he, by rw [ht']; exact ht⟩, hv⟩

theorem content_get (now : Instant) (redisKey : RedisKey) (redisCmd : RedisCmd) (epoch : Nat)
    (s : ShardedLru E) (p : RedisKey × RedisCmd) :
    (s.get now redisKey redisCmd epoch).2.content p = s.content p ∨
      p.1 = redisKey ∧ (s.get now redisKey redisCmd epoch).2.content p = none := by
  by_cases hk : p.1 = redisKey
  · have hget := lookup_get_self now redisKey redisCmd epoch s
    rw [← hk] at hget
    cases hl : s.lookup p.1 with
    | none =>
      rw [hl, Option.filter_none] at hget
      exact .inl (content_congr (by rw [← hk, hget, hl]))
    | some item =>
      rw [hl, Option.filter_some] at hget
      split at hget
      · exact .inl (content_congr (by rw [← hk, hget, hl]))
      · exact .inr ⟨hk, content_eq_none (by rw [← hk, hget])⟩
  · exact .inl (content_congr (lookup_get_of_ne now hk redisCmd epoch s))

theorem content_get_within (now : Instant) (redisKey : RedisKey) (redisCmd : RedisCmd) (epoch : Nat)
    (s : ShardedLru E) : Within (s.get now redisKey redisCmd epoch).2.content s.content :=
  Within.of_forget fun p => (content_get now redisKey redisCmd epoch s p).imp_right And.right

theorem lookup_get_of_usable {item : CacheItem} (hitem : s.lookup redisKey = some item) (husable : item.Usable now epoch)
    (redisCmd : RedisCmd) (key : RedisKey) : (s.get now redisKey redisCmd epoch).2.lookup key = s.lookup key := by
  by_cases hk : key = redisKey
  · rw [hk, lookup_get_self, hitem, Option.filter_some, if_pos (decide_eq_true husable)]
  · exact lookup_get_of_ne now hk redisCmd epoch s

theorem content_get_of_valid {x : Cached} (hx : s.content p = some x) (he : x.epoch = epoch) (ht : now ≤ x.expireTime)
    (redisKey : RedisKey) (redisCmd : RedisCmd) : (s.get now redisKey redisCmd epoch).2.content p = some x := by
  rw [← hx]
  by_cases hk : p.1 = redisKey
  · obtain ⟨item, hitem, -, ht', he'⟩ := content_eq_some.1 hx
    exact content_congr (lookup_get_of_usable (hk ▸ hitem) ⟨he'.trans he, by rw [ht']; exact ht⟩ redisCmd p.1)
  · exact content_congr (lookup_get_of_ne now hk redisCmd epoch s)

theorem content_get_of_hit (h : (s.get now redisKey redisCmd epoch).1 = some value) :
    (s.get now redisKey redisCmd epoch).2.content = s.content := by
  obtain ⟨item, hitem, husable, -⟩ := get_fst_eq_some.1 h
  funext p
  exact content_congr (lookup_get_of_usable hitem husable redisCmd p.1)

theorem content_invalidate (cacheKey : RedisKey) (s : ShardedLru E) :
    (s.invalidate cacheKey).content = s.content.invalidate cacheKey := by
  funext p
  by_cases hk : p.1 = cacheKey
  · rw [Content.invalidate, if_pos hk]
    exact content_eq_none (by rw [hk, lookup_invalidate_self])
  · rw [Content.invalidate, if_neg hk]
    exact content_congr (lookup_invalidate_of_ne hk s)

section Insert

variable (redisKey : RedisKey) (cmdKey : RedisCmd) (value : Value) (expireTime : Instant) (epoch : Nat)

theorem content_insert_self (s : ShardedLru E) (redisCmd : RedisCmd) :
    (s.insert redisKey cmdKey value expireTime epoch).content (redisKey, redisCmd) =
      s.content.insert redisKey cmdKey value expireTime epoch (redisKey, redisCmd) := by
  have hins := s.lookup_insert_self redisKey cmdKey value expireTime epoch
  rw [Content.insert, if_pos rfl]
  by_cases hc : redisCmd = cmdKey
  · subst hc
    rw [if_pos rfl]
    exact content_eq_some.2 ⟨_, hins, findEntry_insertItem_self .., insertItem_expireTime ..,
      insertItem_epoch ..⟩
  · rw [if_neg hc]
    refine Option.ext fun x => ?_
    rw [content_eq_some, Option.bind_eq_some_iff]
    simp only [hins, Option.some.injEq, exists_eq_left', insertItem_expireTime, insertItem_epoch,
      findEntry_insertItem_of_ne _ _ _ _ hc]
    constructor
    · rintro ⟨⟨old, hold, he, hv⟩, ht, hep⟩
      refine ⟨⟨x.value, old.expireTime, old.epoch⟩, content_eq_some.2 ⟨old, hold, hv, rfl, rfl⟩, ?_⟩
      rw [if_pos he, ht, he, hep]
    · rintro ⟨y, hy, hx⟩
      obtain ⟨old, hold, hv, -, he⟩ := content_eq_some.1 hy
      split at hx
      · rename_i hep
        cases hx
        exact ⟨⟨old, hold, he.trans hep, hv⟩, rfl, hep.symm⟩
      · cases hx

theorem content_insert_within (s : ShardedLru E) :
    Within (s.insert redisKey cmdKey value expireTime epoch).content
      (s.content.insert redisKey cmdKey value expireTime epoch) := by
  refine Within.of_forget ?_
  rintro ⟨key, redisCmd⟩
  by_cases hk : key = redisKey
  · subst hk
    exact .inl (content_insert_self ..)
  · rw [Content.insert, if_neg hk]
    rcases lookup_insert_of_ne cmdKey value expireTime epoch hk s with h | h
    · exact .inl (content_congr h)
    · exact .inr (content_eq_none h)

theorem Content.insert_mono {f g : Content} (h : Within f g) :
    Within (f.insert redisKey cmdKey value expireTime epoch) (g.insert redisKey cmdKey value expireTime epoch) := by
  intro p x hx
  unfold Content.insert at hx ⊢
  split
  · rename_i hk
    rw [if_pos hk] at hx
    split
    · rename_i hc
      rw [if_pos hc] at hx
      exact hx
    · rename_i hc
      rw [if_neg hc] at hx
      obtain ⟨y, hy, hx⟩ := Option.bind_eq_some_iff.1 hx
      exact Option.bind_eq_some_iff.2 ⟨y, h p y hy, hx⟩
  · rename_i hk
    rw [if_neg hk] at hx
    exact h p x hx

end Insert

theorem Content.invalidate_mono {f g : Content} (h : Within f g) (cacheKey : RedisKey) :
    Within (f.invalidate cacheKey) (g.invalidate cacheKey) := by
  intro p x hx
  unfold Content.invalidate at hx ⊢
  split
  · rename_i hk
    rw [if_pos hk] at hx
    cases hx
  · rename_i hk
    rw [if_neg hk] at hx
    exact h p x hx

end ShardedLru

end RedisRs
