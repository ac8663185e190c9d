import RedisRs.CacheManager
import RedisRs.Run

/-!
# Managers that share a cache
-/

namespace RedisRs

open List Lru

inductive CacheEvent
  | insert (epoch : Nat) (now : Instant) (redisKey : RedisKey) (cmdKey : RedisCmd) (value : Value)
      (clientSideExpireTime : Instant) (serverSideTtlValue : Value)
  | invalidate (cacheKey : RedisKey)

namespace CacheEvent

def apply : CacheEvent → ShardedLru.Content → ShardedLru.Content
  | insert epoch now redisKey cmdKey value clientSideExpireTime serverSideTtlValue =>
    .insert redisKey cmdKey value (CacheManager.expireTime now clientSideExpireTime serverSideTtlValue) epoch
  | invalidate cacheKey => .invalidate cacheKey

def ideal : List CacheEvent → ShardedLru.Content
  | [] => fun _ => none
  | event :: log => event.apply (ideal log)

/-- The event is not an insert under the key. -/
def Elsewhere (redisKey : RedisKey) : CacheEvent → Prop
  | insert _ _ key _ _ _ _ => key ≠ redisKey
  | invalidate _ => True

/-- The event does not invalidate the key, and under it only inserts other commands of the epoch. -/
def Spares (epoch : Nat) (redisKey : RedisKey) (cmdKey : RedisCmd) : CacheEvent → Prop
  | insert epoch' _ key cmd _ _ _ => key = redisKey → epoch' = epoch ∧ cmd ≠ cmdKey
  | invalidate key => key ≠ redisKey

/-- The value is that of the latest insert for the command in the epoch, and nothing has displaced it. -/
def Fresh (log : List CacheEvent) (epoch : Nat) (redisKey : RedisKey) (cmdKey : RedisCmd) (value : Value) :
    Prop :=
  ∃ later now clientSide serverSide earlier,
    log = later ++ insert epoch now redisKey cmdKey value clientSide serverSide :: earlier ∧
      ∀ event ∈ later, event.Spares epoch redisKey cmdKey

/-- The time at which the latest insert under the key expires. -/
def ExpiresAt (log : List CacheEvent) (redisKey : RedisKey) (expireTime : Instant) : Prop :=
  ∃ later epoch now cmdKey value clientSide serverSide earlier,
    log = later ++ insert epoch now redisKey cmdKey value clientSide serverSide :: earlier ∧
      (∀ event ∈ later, event.Elsewhere redisKey) ∧
      expireTime = CacheManager.expireTime now clientSide serverSide

variable {log : List CacheEvent} {event : CacheEvent} {redisKey : RedisKey} {cmdKey : RedisCmd}

theorem Fresh.cons {epoch : Nat} {value : Value} (h : Fresh log epoch redisKey cmdKey value)
    (hs : event.Spares epoch redisKey cmdKey) : Fresh (event :: log) epoch redisKey cmdKey value := by
  obtain ⟨later, now, clientSide, serverSide, earlier, rfl, hlater⟩ := h
  refine ⟨event :: later, now, clientSide, serverSide, earlier, rfl, ?_⟩
  intro e he
  rcases mem_cons.1 he with rfl | he
  · exact hs
  · exact hlater e he

theorem ExpiresAt.cons {expireTime : Instant} (h : ExpiresAt log redisKey expireTime)
    (hs : event.Elsewhere redisKey) : ExpiresAt (event :: log) redisKey expireTime := by
  obtain ⟨later, epoch, now, cmd, value, clientSide, serverSide, earlier, rfl, hlater, ht⟩ := h
  refine ⟨event :: later, epoch, now, cmd, value, clientSide, serverSide, earlier, rfl, ?_, ht⟩
  intro e he
  rcases mem_cons.1 he with rfl | he
  · exact hs
  · exact hlater e he

theorem ideal_eq_some {x : ShardedLru.Cached} (h : ideal log (redisKey, cmdKey) = some x) :
    Fresh log x.epoch redisKey cmdKey x.value ∧ ExpiresAt log redisKey x.expireTime := by
  induction log generalizing x with
  | nil => cases h
  | cons event log ih =>
    cases event with
    | insert epoch now key cmd value clientSide serverSide =>
      simp only [ideal, apply, ShardedLru.Content.insert] at h
      by_cases hk : redisKey = key
      · subst hk
        have hexp : ∀ t, t = CacheManager.expireTime now clientSide serverSide →
            ExpiresAt (insert epoch now redisKey cmd value clientSide serverSide :: log) redisKey t :=
          fun t ht => ⟨[], epoch, now, cmd, value, clientSide, serverSide, log, rfl, forall_mem_nil _, ht⟩
        rw [if_pos rfl] at h
        by_cases hc : cmdKey = cmd
        · subst hc
          rw [if_pos rfl] at h
          cases h
          exact ⟨⟨[], now, clientSide, serverSide, log, rfl, forall_mem_nil _⟩, hexp _ rfl⟩
        · rw [if_neg hc] at h
          obtain ⟨y, hy, hx⟩ := Option.bind_eq_some_iff.1 h
          by_cases he : y.epoch = epoch
          · rw [if_pos he] at hx
            cases hx
            exact ⟨(ih hy).1.cons fun _ => ⟨he.symm, fun hcc => hc hcc.symm⟩, hexp _ rfl⟩
          · rw [if_neg he] at hx
            cases hx
      · rw [if_neg hk] at h
        have hk' : key ≠ redisKey := fun hkk => hk hkk.symm
        exact ⟨(ih h).1.cons fun hkk => absurd hkk hk', (ih h).2.cons hk'⟩
    | invalidate key =>
      simp only [ideal, apply, ShardedLru.Content.invalidate] at h
      by_cases hk : redisKey = key
      · rw [if_pos hk] at h
        cases h
      · rw [if_neg hk] at h
        have hk' : key ≠ redisKey := fun hkk => hk hkk.symm
        exact ⟨(ih h).1.cons hk', (ih h).2.cons trivial⟩

end CacheEvent

structure Handle where
  cacheConfig : CacheConfig
  epoch : Nat

structure SharedCache (E : CacheEnv) where
  lru : ShardedLru E
  managers : List Handle
  log : List CacheEvent

inductive CacheCall
  | insert (i : Nat) (now : Instant) (redisKey : RedisKey) (cmdKey : RedisCmd) (value : Value)
      (clientSideExpireTime : Instant) (serverSideTtlValue : Value)
  | get (i : Nat) (now : Instant) (redisKey : RedisKey) (redisCmd : RedisCmd)
  | invalidate (cacheKey : RedisKey)
  | cloneAndIncreaseEpoch (i : Nat)

namespace SharedCache

variable {E : CacheEnv}

def start (E : CacheEnv) (cacheConfig : CacheConfig) : SharedCache E :=
  let m := CacheManager.new E cacheConfig
  ⟨m.lru, [⟨m.cacheConfig, m.epoch⟩], []⟩

def manager (s : SharedCache E) (i : Nat) : Option (CacheManager E) :=
  s.managers[i]?.map fun h => ⟨s.lru, h.cacheConfig, h.epoch⟩

def step (s : SharedCache E) : CacheCall → Option (Option Value × SharedCache E)
  | .insert i now redisKey cmdKey value clientSide serverSide =>
    (s.manager i).map fun m =>
      (none, { s with
        lru := (m.insert now redisKey cmdKey value clientSide serverSide).lru
        log := .insert m.epoch now redisKey cmdKey value clientSide serverSide :: s.log })
  | .get i now redisKey redisCmd =>
    (s.manager i).map fun m =>
      let r := m.get now redisKey redisCmd
      (r.1, { s with lru := r.2.lru })
  | .invalidate cacheKey =>
    some (none, { s with lru := s.lru.invalidate cacheKey, log := .invalidate cacheKey :: s.log })
  | .cloneAndIncreaseEpoch i =>
    (s.manager i).map fun m =>
      let r := m.cloneAndIncreaseEpoch
      (none, { s with lru := r.1.lru, managers := s.managers ++ [⟨r.2.cacheConfig, r.2.epoch⟩] })

/-- The log accounts for all that is in the cache, and the epochs are handed out one after the other. -/
structure Inv (s : SharedCache E) : Prop where
  within : Within s.lru.content (CacheEvent.ideal s.log)
  lastEpoch : s.lru.lastEpoch = s.managers.length % 2 ^ 64
  epochs : ∀ i h, s.managers[i]? = some h → h.epoch = i % 2 ^ 64

variable {s s' : SharedCache E}

theorem manager_eq_some {i : Nat} {m : CacheManager E} (h : s.manager i = some m) :
    m.lru = s.lru ∧ s.managers[i]? = some ⟨m.cacheConfig, m.epoch⟩ := by
  obtain ⟨handle, hh, rfl⟩ := Option.map_eq_some_iff.1 h
  exact ⟨rfl, hh⟩

theorem lastEpoch_get (now : Instant) (redisKey : RedisKey) (redisCmd : RedisCmd) (epoch : Nat)
    (lru : ShardedLru E) : (lru.get now redisKey redisCmd epoch).2.lastEpoch = lru.lastEpoch := by
  unfold ShardedLru.get
  repeat' split
  all_goals rfl

theorem lastEpoch_insert (redisKey : RedisKey) (cmdKey : RedisCmd) (value : Value) (expireTime : Instant)
    (epoch : Nat) (lru : ShardedLru E) :
    (lru.insert redisKey cmdKey value expireTime epoch).lastEpoch = lru.lastEpoch := by
  obtain ⟨shard, h, -⟩ := lru.insert_spec redisKey cmdKey value expireTime epoch
  rw [h]
  rfl

theorem lastEpoch_invalidate (cacheKey : RedisKey) (lru : ShardedLru E) :
    (lru.invalidate cacheKey).lastEpoch = lru.lastEpoch := by
  unfold ShardedLru.invalidate
  split <;> rfl

theorem lastEpoch_new (size : NonZero) : (ShardedLru.new E size).lastEpoch = 0 := by
  unfold ShardedLru.new
  split <;> rfl

theorem start_inv (E : CacheEnv) (cacheConfig : CacheConfig) : (start E cacheConfig).Inv := by
  refine ⟨?_, ?_, ?_⟩
  · intro p x hx
    have hnone : (start E cacheConfig).lru.content p = none := ShardedLru.content_new cacheConfig.size p
    rw [hnone] at hx
    cases hx
  · show ((ShardedLru.new E cacheConfig.size).lastEpoch + 1) % 2 ^ 64 = 1 % 2 ^ 64
    rw [lastEpoch_new]
  · intro i h hi
    cases i with
    | zero =>
      obtain rfl := Option.some.inj hi
      exact lastEpoch_new cacheConfig.size
    | succ i => cases hi

theorem step_inv (hi : s.Inv) {call : CacheCall} {out : Option Value} (h : s.step call = some (out, s')) :
    s'.Inv := by
  cases call with
  | insert i now redisKey cmdKey value clientSide serverSide =>
    obtain ⟨m, hm, heq⟩ := Option.map_eq_some_iff.1 h
    obtain ⟨hlru, -⟩ := manager_eq_some hm
    obtain ⟨-, rfl⟩ := Prod.mk.inj heq
    refine ⟨?_, ?_, hi.epochs⟩
    · refine Within.trans (ShardedLru.content_insert_within _ _ _ _ _ _) ?_
      exact ShardedLru.Content.insert_mono _ _ _ _ _ (by rw [hlru]; exact hi.within)
    · show (m.lru.insert ..).lastEpoch = _
      rw [lastEpoch_insert, hlru, hi.lastEpoch]
  | get i now redisKey redisCmd =>
    obtain ⟨m, hm, heq⟩ := Option.map_eq_some_iff.1 h
    obtain ⟨hlru, -⟩ := manager_eq_some hm
    obtain ⟨-, rfl⟩ := Prod.mk.inj heq
    refine ⟨?_, ?_, hi.epochs⟩
    · refine Within.trans (ShardedLru.content_get_within _ _ _ _ _) ?_
      rw [hlru]
      exact hi.within
    · show (m.lru.get ..).2.lastEpoch = _
      rw [lastEpoch_get, hlru, hi.lastEpoch]
  | invalidate cacheKey =>
    cases h
    refine ⟨?_, ?_, hi.epochs⟩
    · show Within (s.lru.invalidate cacheKey).content _
      rw [ShardedLru.content_invalidate]
      exact ShardedLru.Content.invalidate_mono hi.within cacheKey
    · exact (lastEpoch_invalidate cacheKey s.lru).trans hi.lastEpoch
  | cloneAndIncreaseEpoch i =>
    obtain ⟨m, hm, heq⟩ := Option.map_eq_some_iff.1 h
    obtain ⟨hlru, -⟩ := manager_eq_some hm
    obtain ⟨-, rfl⟩ := Prod.mk.inj heq
    refine ⟨?_, ?_, ?_⟩
    · show Within m.lru.content _
      rw [hlru]
      exact hi.within
    · show (m.lru.lastEpoch + 1) % 2 ^ 64 = _
      rw [hlru, hi.lastEpoch, length_append, length_singleton, Nat.mod_add_mod]
    · intro j handle hj
      rw [getElem?_append] at hj
      split at hj
      · exact hi.epochs j handle hj
      · obtain ⟨hj0, hj⟩ := List.getElem?_eq_some_iff.1 hj
        simp only [length_singleton] at hj0
        have hjl : j = s.managers.length := by omega
        simp only [getElem_singleton] at hj
        rw [← hj, hjl]
        show m.lru.lastEpoch = _
        rw [hlru, hi.lastEpoch]

theorem get_accounted (hi : s.Inv) {i : Nat} {now : Instant} {redisKey : RedisKey} {redisCmd : RedisCmd}
    {value : Value} (h : s.step (.get i now redisKey redisCmd) = some (some value, s')) :
    ∃ m expireTime, s.manager i = some m ∧ now ≤ expireTime ∧
      CacheEvent.Fresh s.log m.epoch redisKey redisCmd value ∧
      CacheEvent.ExpiresAt s.log redisKey expireTime := by
  obtain ⟨m, hm, heq⟩ := Option.map_eq_some_iff.1 h
  obtain ⟨hlru, -⟩ := manager_eq_some hm
  have hget : (m.lru.get now redisKey redisCmd m.epoch).1 = some value := (Prod.mk.inj heq).1
  obtain ⟨x, hx, rfl, he, ht⟩ := ShardedLru.get_eq_some.1 hget
  rw [hlru] at hx
  obtain ⟨hfresh, hexp⟩ := CacheEvent.ideal_eq_some (hi.within _ _ hx)
  rw [he] at hfresh
  exact ⟨m, x.expireTime, hm, ht, hfresh, hexp⟩

/-- Two managers have the same epoch only if a multiple of `2 ^ 64` managers lies between them. -/
def DistinctEpochs (s : SharedCache E) : Prop :=
  ∀ i j h h', s.managers[i]? = some h → s.managers[j]? = some h' → h.epoch = h'.epoch →
    i % 2 ^ 64 = j % 2 ^ 64

/-- In every run a manager gets the value of the latest insert of its own epoch, if since then there was
no invalidation of the key and no insert under it of another epoch; and no two of fewer than `2 ^ 64`
managers have the same epoch. -/
theorem shared_cache_fresh (E : CacheEnv) (cacheConfig : CacheConfig) (calls : List CacheCall) :
    Run.Along step (fun s call out s' =>
      (∀ i now redisKey redisCmd value, call = .get i now redisKey redisCmd → out = some value →
        ∃ m, s.manager i = some m ∧ CacheEvent.Fresh s.log m.epoch redisKey redisCmd value) ∧
      s'.DistinctEpochs) (start E cacheConfig) calls := by
  refine Run.along_of_inv (I := Inv) ?_ (start_inv E cacheConfig) calls
  intro s call out s' hi hstep
  have hi' := step_inv hi hstep
  refine ⟨⟨?_, ?_⟩, hi'⟩
  · rintro i now redisKey redisCmd value rfl rfl
    obtain ⟨m, -, hm, -, hfresh, -⟩ := get_accounted hi hstep
    exact ⟨m, hm, hfresh⟩
  · intro i j h h' hget hget' heq
    rw [← hi'.epochs i h hget, ← hi'.epochs j h' hget', heq]

theorem run_clones (n : Nat) (hi : s.Inv) (hne : s.managers ≠ []) :
    ∃ outs s', Run.run step s (List.replicate n (.cloneAndIncreaseEpoch 0)) = some (outs, s') ∧
      s'.managers.length = s.managers.length + n ∧ s'.Inv := by
  induction n generalizing s with
  | zero => exact ⟨[], s, rfl, rfl, hi⟩
  | succ n ih =>
    obtain ⟨h, hs, hms⟩ := exists_cons_of_ne_nil hne
    have hm : s.manager 0 = some ⟨s.lru, h.cacheConfig, h.epoch⟩ := by
      rw [manager, hms]
      rfl
    obtain ⟨s₁, hstep, hlen⟩ : ∃ s₁, s.step (.cloneAndIncreaseEpoch 0) = some (none, s₁) ∧
        s₁.managers.length = s.managers.length + 1 := by
      refine ⟨_, by rw [step, hm]; rfl, ?_⟩
      exact length_append
    have hne₁ : s₁.managers ≠ [] := ne_nil_of_length_pos (by omega)
    obtain ⟨outs, s', hrun, hlen', hi'⟩ := ih (step_inv hi hstep) hne₁
    refine ⟨none :: outs, s', ?_, by omega, hi'⟩
    rw [replicate_succ, Run.run, hstep]
    simp only [Option.bind_eq_bind, Option.bind_some, hrun]
    rfl

theorem epochs_wrap_around :
    ∃ outs s h h', Run.run step (start listEnv .new) (List.replicate (2 ^ 64) (.cloneAndIncreaseEpoch 0)) =
      some (outs, s) ∧ s.managers[0]? = some h ∧ s.managers[2 ^ 64]? = some h' ∧ h.epoch = h'.epoch := by
  obtain ⟨outs, s, hrun, hlen, hi⟩ := run_clones (2 ^ 64) (start_inv listEnv .new) (cons_ne_nil _ _)
  have hlen' : s.managers.length = 1 + 2 ^ 64 := hlen
  have h0 := getElem?_eq_getElem (l := s.managers) (i := 0) (by omega)
  have h1 := getElem?_eq_getElem (l := s.managers) (i := 2 ^ 64) (by omega)
  refine ⟨outs, s, _, _, hrun, h0, h1, ?_⟩
  rw [hi.epochs _ _ h0, hi.epochs _ _ h1, Nat.mod_self, Nat.zero_mod]

end SharedCache

namespace CacheManager

theorem expireTime_le_clientSide (now clientSide : Instant) (serverSide : Value) :
    expireTime now clientSide serverSide ≤ clientSide := by
  unfold expireTime
  split
  · split
    · exact Nat.min_le_right _ _
    · exact le_rfl
  · exact le_rfl

theorem expireTime_le_serverSide {now clientSide : Instant} {serverSide : Value} {pttl : Int64}
    (h : (FromRedisValue.fromRedisValueRef serverSide : ParseResult Int64) = .ok pttl) (hpos : 0 < pttl) :
    expireTime now clientSide serverSide ≤ now + Duration.fromMillis pttl.toInt.toNat := by
  unfold expireTime
  rw [h]
  simp only [if_pos hpos]
  exact Nat.min_le_left _ _

end CacheManager

namespace CacheEvent

/-- The value was inserted for the key and the command. -/
def Inserted (log : List CacheEvent) (redisKey : RedisKey) (cmdKey : RedisCmd) (value : Value) : Prop :=
  ∃ epoch now clientSide serverSide, insert epoch now redisKey cmdKey value clientSide serverSide ∈ log

/-- The latest insert under the key has not expired at this time, on the client or the server. -/
def WithinLatestTtl (log : List CacheEvent) (redisKey : RedisKey) (time : Instant) : Prop :=
  ∃ later epoch now cmdKey value clientSide serverSide earlier,
    log = later ++ insert epoch now redisKey cmdKey value clientSide serverSide :: earlier ∧
      (∀ event ∈ later, event.Elsewhere redisKey) ∧ time ≤ clientSide ∧
      ∀ pttl : Int64, (FromRedisValue.fromRedisValueRef serverSide : ParseResult Int64) = .ok pttl → 0 < pttl →
        time ≤ now + Duration.fromMillis pttl.toInt.toNat

variable {log : List CacheEvent} {redisKey : RedisKey}

theorem ExpiresAt.withinLatestTtl {expireTime time : Instant} (h : ExpiresAt log redisKey expireTime)
    (ht : time ≤ expireTime) : WithinLatestTtl log redisKey time := by
  obtain ⟨later, epoch, now, cmdKey, value, clientSide, serverSide, earlier, hlog, hlater, rfl⟩ := h
  refine ⟨later, epoch, now, cmdKey, value, clientSide, serverSide, earlier, hlog, hlater, ?_, ?_⟩
  · exact ht.trans (CacheManager.expireTime_le_clientSide _ _ _)
  · intro pttl hp hpos
    exact ht.trans (CacheManager.expireTime_le_serverSide hp hpos)

theorem Fresh.inserted {epoch : Nat} {cmdKey : RedisCmd} {value : Value}
    (h : Fresh log epoch redisKey cmdKey value) : Inserted log redisKey cmdKey value := by
  obtain ⟨later, now, clientSide, serverSide, earlier, rfl, -⟩ := h
  exact ⟨epoch, now, clientSide, serverSide, mem_append_right _ mem_cons_self⟩

end CacheEvent

namespace SharedCache

/-- In every run a value that a manager gets was inserted for the key and the command, and the latest
insert under the key, of whatever command, has not expired. -/
theorem shared_cache_ttl (E : CacheEnv) (cacheConfig : CacheConfig) (calls : List CacheCall) :
    Run.Along step (fun s call out _ =>
      ∀ i now redisKey redisCmd value, call = .get i now redisKey redisCmd → out = some value →
        CacheEvent.Inserted s.log redisKey redisCmd value ∧ CacheEvent.WithinLatestTtl s.log redisKey now)
      (start E cacheConfig) calls := by
  refine Run.along_of_inv (I := Inv) ?_ (start_inv E cacheConfig) calls
  intro s call out s' hi hstep
  refine ⟨?_, step_inv hi hstep⟩
  rintro i now redisKey redisCmd value rfl rfl
  obtain ⟨m, expireTime, -, ht, hfresh, hexp⟩ := get_accounted hi hstep
  exact ⟨hfresh.inserted, hexp.withinLatestTtl ht⟩

theorem later_insert_lengthens_life :
    ∃ s, Run.run step (start listEnv .new)
        [.insert 0 0 (bytesOf "key") (bytesOf "GETkey") (.int 1) 10 (.int (-1)),
          .insert 0 0 (bytesOf "key") (bytesOf "STRLENkey") (.int 2) 1000 (.int (-1)),
          .get 0 500 (bytesOf "key") (bytesOf "GETkey")] =
      some ([none, none, some (.int 1)], s) ∧ ¬ 500 ≤ 10 :=
  ⟨_, rfl, by decide⟩

end SharedCache

end RedisRs
