import RedisRs.CacheReads
import RedisRs.Run

/-!
# Whose reply a hit is
-/

namespace RedisRs

open List CacheManager

structure CacheHistory (E : CacheEnv) where
  manager : CacheManager E
  prepared : List (ByteCmd × CacheableCommand)
  stored : List (List Bytes × Value)

inductive CacheUse
  | get (clock : Nat → Instant) (q : ByteCmd)
  | resolve (clock : Nat → Instant) (i : Nat) (replies : List Value)

namespace CacheHistory

variable {E : CacheEnv}

def start (E : CacheEnv) (cacheConfig : CacheConfig) : CacheHistory E := ⟨.new E cacheConfig, [], []⟩

def answered (mode : CacheMode) (q : ByteCmd) (command : CacheableCommand) (replies : List Value) :
    List (List Bytes × Value) :=
  (reads q.args).flatMap fun args =>
    (command.stores mode replies).filterMap fun s => if s.1 = entryKey args then some (args, s.2) else none

def step (s : CacheHistory E) : CacheUse → Option (Option PrepCacheItem × CacheHistory E)
  | .get clock q =>
    match s.manager.getCachedCmd clock q.cmd with
    | .error _ => none
    | .ok (item, manager) =>
      let prepared := match item with
        | .notCached command => s.prepared ++ [(q, command)]
        | _ => s.prepared
      some (some item, { s with manager, prepared })
  | .resolve clock i replies =>
    match s.prepared[i]? with
    | none => none
    | some (q, command) =>
      some (none, {
        manager := (command.resolve clock s.manager replies).2.1
        prepared := s.prepared.eraseIdx i
        stored := s.stored ++ answered s.manager.cacheConfig.mode q command replies })

def Uses (S : Set ByteCmd) : CacheUse → Prop
  | .get _ q => q ∈ S
  | .resolve _ _ _ => True

/-- A hit of a command that is cached as a whole is a reply to a command with the same arguments. -/
def RightHit (s : CacheHistory E) (use : CacheUse) (out : Option PrepCacheItem) (_ : CacheHistory E) : Prop :=
  ∀ clock q key value, use = .get clock q → shapeOf q.args = .single key → out = some (.cached value) →
    (q.args, value) ∈ s.stored

/-- No two commands the mode admits share an entry, unless they are the same list of arguments. -/
def Separate (mode : CacheMode) (S : Set ByteCmd) : Prop :=
  ∀ q₁ ∈ S, mode.admits q₁.cmd = true → ∀ args ∈ reads q₁.args, ∀ q₂ ∈ S, mode.admits q₂.cmd = true →
    ∀ key, shapeOf q₂.args = .single key → entryKey args = entryKey q₂.args → args = q₂.args

/-- Every reply in the cache was stored for one of the prepared reads. -/
structure Inv (cacheConfig : CacheConfig) (S : Set ByteCmd) (s : CacheHistory E) : Prop where
  config : s.manager.cacheConfig = cacheConfig
  prepared : ∀ q command, (q, command) ∈ s.prepared → q ∈ S ∧ cacheConfig.mode.admits q.cmd = true ∧
    ∀ mode replies p value, (p, value) ∈ command.stores mode replies →
      ∃ args ∈ reads q.args, entryKey args = p
  content : ∀ p x, s.manager.lru.content p = some x → ∃ q ∈ S, cacheConfig.mode.admits q.cmd = true ∧
    ∃ args ∈ reads q.args, entryKey args = p ∧ (args, x.value) ∈ s.stored

variable {s s' : CacheHistory E} {cacheConfig : CacheConfig} {S : Set ByteCmd}

theorem start_inv (E : CacheEnv) (cacheConfig : CacheConfig) (S : Set ByteCmd) :
    (start E cacheConfig).Inv cacheConfig S := by
  refine ⟨rfl, fun _ _ h => absurd h not_mem_nil, ?_⟩
  intro p x hx
  have hnone : (start E cacheConfig).manager.lru.content p = none :=
    ShardedLru.content_new cacheConfig.size p
  rw [hnone] at hx
  cases hx

variable {q : ByteCmd} {command : CacheableCommand} {replies : List Value}

theorem mem_answered {mode : CacheMode} {args : List Bytes} {value : Value} :
    (args, value) ∈ answered mode q command replies ↔
      args ∈ reads q.args ∧ (entryKey args, value) ∈ command.stores mode replies := by
  unfold answered
  rw [mem_flatMap]
  constructor
  · rintro ⟨args', hargs', h⟩
    obtain ⟨⟨p, v⟩, hs, hp⟩ := mem_filterMap.1 h
    split at hp
    · rename_i he
      cases hp
      simp only at he
      rw [← he]
      exact ⟨hargs', hs⟩
    · cases hp
  · rintro ⟨hargs, hs⟩
    exact ⟨args, hargs, mem_filterMap.2 ⟨_, hs, if_pos rfl⟩⟩

variable {clock : Nat → Instant}

theorem prepared_reads {m m' : CacheManager E} (h : m.getCachedCmd clock q.cmd = .ok (.notCached command, m')) :
    m.cacheConfig.mode.admits q.cmd = true ∧ ∀ mode replies p value,
      (p, value) ∈ command.stores mode replies → ∃ args ∈ reads q.args, entryKey args = p := by
  rw [getCachedCmd_eq, Except.ok.injEq] at h
  split at h
  · refine ⟨‹_›, ?_⟩
    intro mode replies p value hp
    rcases hshape : shapeOf q.args with key | ⟨commandName, singleName, keys, path⟩ | _
    · simp only [hshape, answerShape] at h
      split at h
      · cases h
      · cases h
        refine ⟨q.args, by rw [reads, hshape]; exact mem_singleton_self _, ?_⟩
        rw [entryKey_single hshape, (CacheableCommand.mem_stores_single hp).1]
    · simp only [hshape, answerShape, processKeys_eq] at h
      split at h
      · cases h
      · cases h
        obtain ⟨⟨k, part, hmem, rfl⟩, -⟩ := CacheableCommand.mem_stores_multiple hp
        obtain ⟨hkey, hcmd⟩ := mem_missingParts hmem
        refine ⟨partArgs singleName path part.redisKey, ?_, ?_⟩
        · rw [reads, hshape]
          exact mem_map_of_mem hkey
        · rw [entryKey_partArgs, hcmd]
    · simp only [hshape, answerShape] at h
      cases h
  · cases h

variable {out : Option PrepCacheItem}

theorem get_inv (hi : s.Inv cacheConfig S) (hq : q ∈ S) (h : s.step (.get clock q) = some (out, s')) :
    s'.Inv cacheConfig S := by
  simp only [step] at h
  rcases hg : s.manager.getCachedCmd clock q.cmd with _ | ⟨item, manager⟩
  · rw [hg] at h
    cases h
  · rw [hg] at h
    cases h
    have hf := (getCachedCmd_fades hg).toForgets
    refine ⟨hf.cacheConfig.trans hi.config, ?_, ?_⟩
    · intro q' command hmem
      cases item with
      | notCached command' =>
        rcases mem_append.1 hmem with hmem | hmem
        · exact hi.prepared q' command hmem
        · cases mem_singleton.1 hmem
          have hp := prepared_reads hg
          rw [hi.config] at hp
          exact ⟨hq, hp⟩
      | cached value => exact hi.prepared q' command hmem
      | notCacheable => exact hi.prepared q' command hmem
    · intro p x hx
      exact hi.content p x (hf.within p x hx)

theorem resolve_inv (hi : s.Inv cacheConfig S) {i : Nat} (h : s.step (.resolve clock i replies) = some (out, s')) :
    s'.Inv cacheConfig S := by
  simp only [step] at h
  rcases hp : s.prepared[i]? with _ | ⟨q, command⟩
  · rw [hp] at h
    cases h
  · rw [hp] at h
    cases h
    have hs := command.stored_resolve clock s.manager replies
    obtain ⟨hq, hadm, hreads⟩ := hi.prepared q command (mem_of_getElem? hp)
    refine ⟨hs.cacheConfig.trans hi.config, ?_, ?_⟩
    · intro q' command' hmem
      exact hi.prepared q' command' (mem_of_mem_eraseIdx hmem)
    · intro p x hx
      rcases hs.content p x hx with hst | ⟨-, y, hy, hyv, -⟩
      · obtain ⟨args, hargs, hkey⟩ := hreads _ _ _ _ hst
        refine ⟨q, hq, hadm, args, hargs, hkey, mem_append_right _ (mem_answered.2 ⟨hargs, ?_⟩)⟩
        rw [hkey]
        exact hst
      · obtain ⟨q', hq', hadm', args, hargs, hkey, hmem⟩ := hi.content p y hy
        rw [hyv] at hmem
        exact ⟨q', hq', hadm', args, hargs, hkey, mem_append_left _ hmem⟩

theorem step_inv (hi : s.Inv cacheConfig S) {use : CacheUse} (hu : Uses S use) (h : s.step use = some (out, s')) :
    s'.Inv cacheConfig S := by
  cases use with
  | get clock q => exact get_inv hi hu h
  | resolve clock i replies => exact resolve_inv hi h

theorem rightHit_of_separate (hsep : Separate cacheConfig.mode S) (hi : s.Inv cacheConfig S) {use : CacheUse}
    (hu : Uses S use) (h : s.step use = some (out, s')) : s.RightHit use out s' := by
  rintro clock q key value rfl hshape rfl
  simp only [step] at h
  rcases hg : s.manager.getCachedCmd clock q.cmd with _ | ⟨item, manager⟩
  · rw [hg] at h
    cases h
  · rw [hg] at h
    cases h
    obtain ⟨hadm, x, hx, rfl, -, -⟩ := (getCachedCmd_cached_single hshape).1 ⟨_, hg⟩
    obtain ⟨q', hq', hadm', args, hargs, hkey, hmem⟩ := hi.content _ _ hx
    rw [hi.config] at hadm
    rw [← hsep q' hq' hadm' args hargs q hu hadm key hshape hkey]
    exact hmem

def noon : Nat → Instant := fun _ => 0

def onlyKey (key : RedisKey) (keys : List RedisKey) : List Value :=
  keys.map fun k => if k = key then .okay else .serverError (.known .responseError none)

section Collision

variable {m : CacheManager E} {singleName : Bytes} {path : Option Bytes}

theorem holds_insert (now : Instant) (redisKey : RedisKey) (cmdKey : RedisCmd) (value : Value)
    (clientSideExpire : Instant) (pttl : Value) (m : CacheManager E) :
    (m.insert now redisKey cmdKey value clientSideExpire pttl).Holds (redisKey, cmdKey) 0 value := by
  have h := m.lru.content_insert_self redisKey cmdKey value
    (expireTime now clientSideExpire pttl) m.epoch cmdKey
  rw [ShardedLru.Content.insert, if_pos rfl, if_pos rfl] at h
  exact ⟨_, h, rfl, rfl, Nat.zero_le _⟩

theorem keyHits_empty (h : ∀ p, m.lru.content p = none) (clock : Nat → Instant) (i : Nat)
    (keys : List RedisKey) :
    (keyHits clock singleName path i keys m).1 = keys.map fun _ => none := by
  refine ext_getElem? fun j => ?_
  rw [getElem?_map]
  cases hj : (keyHits clock singleName path i keys m).1[j]? with
  | none =>
    rw [List.getElem?_eq_none_iff, length_keyHits] at hj
    rw [getElem?_eq_none hj]
    rfl
  | some hit =>
    have hlt := (List.getElem?_eq_some_iff.1 hj).1
    rw [length_keyHits] at hlt
    rw [getElem?_eq_getElem hlt]
    cases hit with
    | none => rfl
    | some value =>
      obtain ⟨key, -, x, hx, -⟩ := holds_of_keyHits clock singleName path hj
      rw [h] at hx
      cases hx

theorem holds_onlyKey (key : RedisKey) (clientSideExpire : Instant) (i j : Nat) (keys : List RedisKey)
    (response : List Value) (m : CacheManager E)
    (h : key ∈ keys ∨ m.Holds (key, prepareKeyBuffer singleName key path) 0 .okay) :
    (CacheableCommand.resolveParts noon clientSideExpire j (onlyKey key keys) (keys.map fun _ => .nil)
      (missingParts singleName path i keys (keys.map fun _ => none)) response m).2.1.Holds
        (key, prepareKeyBuffer singleName key path) 0 .okay := by
  induction keys generalizing i j response m with
  | nil => exact h.resolve_left (not_mem_nil)
  | cons k keys ih =>
    simp only [onlyKey, map_cons, missingParts, CacheableCommand.resolveParts]
    by_cases hk : k = key
    · subst hk
      simp only [if_true]
      exact ih _ _ _ _ (.inr (holds_insert ..))
    · simp only [hk, if_false]
      refine ih _ _ _ _ (h.imp_left fun hmem => ?_)
      exact (mem_cons.1 hmem).resolve_left fun he => hk he.symm

theorem fetch_from_empty (h : ∀ p, m.lru.content p = none) {q : ByteCmd}
    (hadm : m.cacheConfig.mode.admits q.cmd = true) {args : List Bytes} (hargs : args ∈ reads q.args) :
    ∃ command m', m.getCachedCmd noon q.cmd = .ok (.notCached command, m') ∧
      ∃ replies, ∀ m₁ : CacheManager E, m₁.cacheConfig = m.cacheConfig →
        (command.resolve noon m₁ replies).2.1.Holds (entryKey args) 0 .okay := by
  -- the reply to `CLIENT CACHING` comes before the others, where there is one
  have hskip : ∀ replies : List Value, ∃ replies', ∀ (command : CacheableCommand) (m₁ : CacheManager E),
      m₁.cacheConfig = m.cacheConfig →
      command.resolve noon m₁ replies' = command.resolveInner noon m₁ replies := by
    intro replies
    cases hmode : m.cacheConfig.mode with
    | all =>
      refine ⟨replies, fun command m₁ hm₁ => ?_⟩
      simp only [CacheableCommand.resolve, hm₁, hmode]
    | optIn =>
      refine ⟨.okay :: replies, fun command m₁ hm₁ => ?_⟩
      simp only [CacheableCommand.resolve, hm₁, hmode, getNextReply]
  rw [getCachedCmd_eq, if_pos hadm]
  rcases hshape : shapeOf q.args with key | ⟨commandName, singleName, keys, path⟩ | _
  · rw [reads, hshape, mem_singleton] at hargs
    subst hargs
    have hmiss : (m.get (noon 1) key q.cmd.data).1 = none := by
      cases hg : (m.get (noon 1) key q.cmd.data).1 with
      | none => rfl
      | some value =>
        obtain ⟨x, hx, -⟩ := get_eq_some.1 hg
        rw [h] at hx
        cases hx
    simp only [answerShape, hmiss]
    obtain ⟨replies, hreps⟩ := hskip [.nil, .okay]
    refine ⟨_, _, rfl, replies, ?_⟩
    intro m₁ hm₁
    rw [hreps _ m₁ hm₁, entryKey_single hshape]
    exact holds_insert ..
  · rw [reads, hshape] at hargs
    obtain ⟨key, hkey, rfl⟩ := mem_map.1 hargs
    have hne : missingParts singleName path 0 keys (keys.map fun _ => none) ≠ [] := by
      cases keys with
      | nil => cases hkey
      | cons k keys => exact cons_ne_nil _ _
    simp only [answerShape, processKeys_eq, keyHits_empty h, hne, if_false]
    obtain ⟨replies, hreps⟩ := hskip (.array (onlyKey key keys) :: keys.map fun _ => .nil)
    refine ⟨_, _, rfl, replies, ?_⟩
    intro m₁ hm₁
    rw [hreps _ m₁ hm₁, entryKey_partArgs]
    exact holds_onlyKey key _ 0 0 keys _ m₁ (.inl hkey)
  · rw [reads, hshape] at hargs
    cases hargs

theorem reads_inj {l args args' : List Bytes} (h : args ∈ reads l) (h' : args' ∈ reads l)
    (hkey : entryKey args = entryKey args') : args = args' := by
  rcases hshape : shapeOf l with key | ⟨commandName, singleName, keys, path⟩ | _ <;>
    rw [reads, hshape] at h h'
  · rw [mem_singleton.1 h, mem_singleton.1 h']
  · obtain ⟨key, -, rfl⟩ := mem_map.1 h
    obtain ⟨key', -, rfl⟩ := mem_map.1 h'
    rw [entryKey_partArgs, entryKey_partArgs] at hkey
    rw [(Prod.mk.inj hkey).1]
  · cases h

end Collision

/-- All hits of all histories over a set of commands are right exactly when no two of the commands share
an entry. -/
theorem right_hits_iff (E : CacheEnv) (cacheConfig : CacheConfig) (S : Set ByteCmd) :
    (∀ uses : List CacheUse, (∀ use ∈ uses, Uses S use) →
      Run.Along step RightHit (start E cacheConfig) uses) ↔ Separate cacheConfig.mode S := by
  constructor
  · intro h q₁ hq₁ hadmits₁ args hargs q₂ hq₂ hadmits₂ key hshape hkey
    have hempty : ∀ p, (start E cacheConfig).manager.lru.content p = none :=
      ShardedLru.content_new cacheConfig.size
    obtain ⟨command, m', hget, replies, hfetch⟩ := fetch_from_empty hempty hadmits₁ hargs
    have hal := h [.get noon q₁, .resolve noon 0 replies, .get noon q₂] ?_
    · -- the three steps: `q₁` is prepared, its reply is stored, and `q₂` hits it
      have hstep₁ : (start E cacheConfig).step (.get noon q₁) =
          some (some (.notCached command), ⟨m', [(q₁, command)], []⟩) := by
        simp only [step, hget]
        rfl
      have hconfig : m'.cacheConfig = cacheConfig := (getCachedCmd_fades hget).cacheConfig
      have hstored := command.stored_resolve noon m' replies
      have hholds := hfetch m' hconfig
      rw [hkey] at hholds
      have hadmits : (command.resolve noon m' replies).2.1.cacheConfig.mode.admits q₂.cmd = true := by
        rw [hstored.cacheConfig, hconfig]
        exact hadmits₂
      obtain ⟨m'', hhit⟩ : ∃ m'', (command.resolve noon m' replies).2.1.getCachedCmd noon q₂.cmd =
          .ok (.cached .okay, m'') :=
        (getCachedCmd_cached_single hshape).2 ⟨hadmits, hholds⟩
      have hstep₃ : step ⟨(command.resolve noon m' replies).2.1, [],
            [] ++ answered m'.cacheConfig.mode q₁ command replies⟩ (.get noon q₂) =
          some (some (.cached .okay), ⟨m'', [], [] ++ answered m'.cacheConfig.mode q₁ command replies⟩) := by
        simp only [step, hhit]
      have hmem := (((hal _ _ hstep₁).2 _ _ rfl).2 _ _ hstep₃).1 noon q₂ key .okay rfl hshape rfl
      exact reads_inj hargs (mem_answered.1 hmem).1 hkey
    · intro use huse
      simp only [mem_cons, not_mem_nil, or_false] at huse
      rcases huse with rfl | rfl | rfl
      · exact hq₁
      · trivial
      · exact hq₂
  · intro hsep uses huses
    refine Run.along_mono (I := Inv cacheConfig S) ?_ (start_inv E cacheConfig S)
      (Run.along_of_forall huses _)
    intro s use out s' hi hstep hu
    exact ⟨rightHit_of_separate hsep hi hu hstep, step_inv hi hu hstep⟩

def hmgetFirst : ByteCmd := .ofArgs [bytesOf "HMGET", bytesOf "key", bytesOf "ab", bytesOf "c"]

def hmgetSecond : ByteCmd := .ofArgs [bytesOf "HMGET", bytesOf "key", bytesOf "a", bytesOf "bc"]

theorem hit_of_other_fields :
    ∃ item s, Run.run step (start listEnv .new)
        [.get noon hmgetFirst, .resolve noon 0 [.int (-1), .array [.int 1, .int 2]], .get noon hmgetSecond] =
      some ([some item, none, some (.cached (.array [.int 1, .int 2]))], s) ∧
    ∀ args value, (args, value) ∈ s.stored → args = hmgetFirst.args ∧ args ≠ hmgetSecond.args := by
  refine ⟨_, _, rfl, ?_⟩
  intro args value h
  obtain ⟨rfl, -⟩ := Prod.mk.inj (mem_singleton.1 h)
  exact ⟨rfl, by decide⟩

end CacheHistory

end RedisRs
