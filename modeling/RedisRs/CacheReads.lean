import RedisRs.CacheManager

/-!
# What a command reads through the cache
-/

namespace RedisRs

open List Lru

/-- The command holds exactly these arguments. -/
structure Cmd.HasArgs (c : Cmd) (args : List Bytes) : Prop where
  data : c.data = args.flatten
  args : c.args = Cmd.offsetsFrom 0 args

structure ByteCmd where
  cmd : Cmd
  args : List Bytes
  hasArgs : cmd.HasArgs args

namespace ByteCmd

def ofArgs (args : List Bytes) : ByteCmd := ⟨Cmd.ofArgs args, args, Cmd.ofArgs_data args, Cmd.ofArgs_args args⟩

theorem argIdx_eq (q : ByteCmd) (i : Nat) : q.cmd.argIdx i = (Cmd.ofArgs q.args).argIdx i := by
  simp only [Cmd.argIdx, q.hasArgs.args, q.hasArgs.data, Cmd.ofArgs_args, Cmd.ofArgs_data]

theorem argsIter_eq (q : ByteCmd) : q.cmd.argsIter = q.args.map .simple := by
  rw [← Cmd.argsIter_ofArgs]
  simp only [Cmd.argsIter, q.hasArgs.args, q.hasArgs.data, Cmd.ofArgs_args, Cmd.ofArgs_data]

theorem extractSimpleArguments_eq (q : ByteCmd) : extractSimpleArguments q.cmd = q.args.drop 1 := by
  rw [extractSimpleArguments, argsIter_eq, ← map_drop, filterMap_map]
  exact filterMap_some

end ByteCmd

inductive Shape
  | single (key : RedisKey)
  /-- Cached key by key, as the single variant of the command. -/
  | multi (commandName : String) (singleName : Bytes) (keys : List RedisKey) (path : Option Bytes)
  | uncached

def shapeOf : List Bytes → Shape
  | [] => .uncached
  | name :: arguments =>
    match isMultiKey name with
    | some (commandName, singleName) =>
      let (keys, path) := CacheManager.splitArguments commandName arguments
      .multi commandName singleName keys path
    | none =>
      if isCachableCmd name then
        match arguments with
        | [] => .uncached
        | key :: _ => .single key
      else .uncached

def Cmd.shape (c : Cmd) : Ends Shape := do
  match ← c.argIdx 0 with
  | none => return .uncached
  | some name =>
    match isMultiKey name with
    | some (commandName, singleName) =>
      let (keys, path) := CacheManager.splitArguments commandName (extractSimpleArguments c)
      return .multi commandName singleName keys path
    | none => if isCachableCmd name then return (← c.argIdx 1).elim .uncached .single else return .uncached

def partArgs (singleName : Bytes) (path : Option Bytes) (key : RedisKey) : List Bytes :=
  singleName :: key :: path.toList

def reads (args : List Bytes) : List (List Bytes) :=
  match shapeOf args with
  | .single _ => [args]
  | .multi _ singleName keys path => keys.map (partArgs singleName path)
  | .uncached => []

def entryKey (args : List Bytes) : RedisKey × RedisCmd := (args.getD 1 [], args.flatten)

theorem prepareKeyBuffer_eq (singleName key : Bytes) (path : Option Bytes) :
    prepareKeyBuffer singleName key path = (partArgs singleName path key).flatten := by
  cases path <;> simp [prepareKeyBuffer, partArgs]

theorem entryKey_partArgs (singleName key : Bytes) (path : Option Bytes) :
    entryKey (partArgs singleName path key) = (key, prepareKeyBuffer singleName key path) := by
  rw [entryKey, prepareKeyBuffer_eq]
  rfl

theorem shapeOf_single {args : List Bytes} {key : RedisKey} (h : shapeOf args = .single key) :
    ∃ name rest, args = name :: key :: rest ∧ isMultiKey name = none ∧ isCachableCmd name = true := by
  unfold shapeOf at h
  split at h
  · cases h
  · rename_i name arguments
    split at h
    · cases h
    · split at h
      · split at h
        · cases h
        · cases h
          exact ⟨name, _, rfl, ‹_›, ‹_›⟩
      · cases h

theorem entryKey_single {q : ByteCmd} {key : RedisKey} (h : shapeOf q.args = .single key) :
    entryKey q.args = (key, q.cmd.data) := by
  obtain ⟨name, rest, hargs, -, -⟩ := shapeOf_single h
  rw [q.hasArgs.data, hargs]
  rfl

theorem isMultiKey_nil : isMultiKey [] = none := by decide

theorem isCachableCmd_nil : isCachableCmd [] = false := by decide

theorem ByteCmd.shape_eq (q : ByteCmd) : q.cmd.shape = .ok (shapeOf q.args) := by
  have hidx := q.argIdx_eq
  have hsim := q.extractSimpleArguments_eq
  unfold Cmd.shape
  rw [hidx 0]
  rcases hargs : q.args with _ | ⟨name, arguments⟩
  · rfl
  rw [hargs] at hsim hidx
  by_cases hname : name = []
  · subst hname
    have h0 : (Cmd.ofArgs ([] :: arguments)).argIdx 0 = .ok none := by
      simp [Cmd.argIdx, Cmd.offsetsFrom, Cmd.endOffset]
    simp only [h0, shapeOf, isMultiKey_nil, isCachableCmd_nil]
    rfl
  · rw [Cmd.argIdx_ofArgs_zero hname]
    simp only [bind, Except.bind, pure, Except.pure, shapeOf]
    rcases isMultiKey name with _ | ⟨commandName, singleName⟩
    · by_cases hc : isCachableCmd name = true
      · simp only [if_pos hc, hidx 1]
        rcases arguments with _ | ⟨key, arguments⟩
        · rw [Cmd.argIdx_ofArgs_one_short]
          rfl
        · rw [Cmd.argIdx_ofArgs_one hname]
          rfl
      · simp only [if_neg hc]
    · simp only [hsim, drop_one, tail_cons]

namespace CacheManager

variable {E : CacheEnv}

def answerShape (clock : Nat → Instant) (m : CacheManager E) (c : Cmd) : Shape → PrepCacheItem × CacheManager E
  | .single key =>
    let r := m.get (clock 1) key c.data
    match r.1 with
    | some value => (.cached value, r.2)
    | none => (.notCached (.single ⟨key, c.data, c, m.calculateExpirationTime (clock 0) c⟩), r.2)
  | .multi commandName singleName keys path =>
    let r := processKeys clock singleName path 0 keys m
    if r.1.2 = [] then (.cached (.array r.1.1), r.2)
    else (.notCached (.multiple commandName r.1.2 r.1.1 (m.calculateExpirationTime (clock 0) c) path.toList), r.2)
  | .uncached => (.notCacheable, m)

variable (clock : Nat → Instant) {p : RedisKey × RedisCmd}

theorem getCachedCmdInner_eq (m : CacheManager E) (c : Cmd) :
    m.getCachedCmdInner clock c = c.shape.map (m.answerShape clock c) := by
  unfold getCachedCmdInner Cmd.shape
  rw [if_neg (Nat.not_lt.2 (two_le_cmdLen c))]
  rcases c.argIdx 0 with e | _ | name
  · rfl
  · rfl
  simp only [bind, Except.bind, pure, Except.pure]
  rcases isMultiKey name with _ | ⟨commandName, singleName⟩
  · by_cases hc : isCachableCmd name = true
    · simp only [if_pos hc, handleSingleKeyCommand, bind, Except.bind, pure, Except.pure]
      rcases c.argIdx 1 with e | _ | key
      · rfl
      · rfl
      · simp only [Option.elim, Except.map, answerShape]
        rcases m.get (clock 1) key c.data with ⟨_ | value, m'⟩ <;> rfl
    · simp only [if_neg hc]
      rfl
  · rfl

theorem getCachedCmd_of_shape (m : CacheManager E) (c : Cmd) :
    m.getCachedCmd clock c = if m.cacheConfig.mode.admits c then c.shape.map (m.answerShape clock c)
      else .ok (.notCacheable, m) := by
  rw [← getCachedCmdInner_eq]
  rfl

theorem getCachedCmd_eq (m : CacheManager E) (q : ByteCmd) : m.getCachedCmd clock q.cmd =
      .ok (if m.cacheConfig.mode.admits q.cmd then m.answerShape clock q.cmd (shapeOf q.args)
        else (.notCacheable, m)) := by
  rw [getCachedCmd_of_shape, q.shape_eq]
  split <;> rfl

def keyHits (clock : Nat → Instant) (singleName : Bytes) (path : Option Bytes) :
    Nat → List RedisKey → CacheManager E → List (Option Value) × CacheManager E
  | _, [], m => ([], m)
  | i, key :: keys, m =>
    let r := m.get (clock (i + 1)) key (prepareKeyBuffer singleName key path)
    let rest := keyHits clock singleName path (i + 1) keys r.2
    (r.1 :: rest.1, rest.2)

def missingParts (singleName : Bytes) (path : Option Bytes) :
    Nat → List RedisKey → List (Option Value) → List (Nat × MultipleCachedCommandPart)
  | i, key :: keys, none :: hits =>
    (i, ⟨key, prepareKeyBuffer singleName key path⟩) :: missingParts singleName path (i + 1) keys hits
  | i, _ :: keys, some _ :: hits => missingParts singleName path (i + 1) keys hits
  | _, _, _ => []

theorem processKeys_eq (singleName : Bytes) (path : Option Bytes) (i : Nat) (keys : List RedisKey)
    (m : CacheManager E) : processKeys clock singleName path i keys m =
      (((keyHits clock singleName path i keys m).1.map (·.getD .nil),
        missingParts singleName path i keys (keyHits clock singleName path i keys m).1),
        (keyHits clock singleName path i keys m).2) := by
  induction keys generalizing i m with
  | nil => rfl
  | cons key keys ih =>
    simp only [processKeys, keyHits]
    rcases m.get (clock (i + 1)) key (prepareKeyBuffer singleName key path) with ⟨_ | value, m'⟩ <;>
      simp [ih, missingParts]

theorem mem_missingParts {singleName : Bytes} {path : Option Bytes} {i k : Nat} {keys : List RedisKey}
    {hits : List (Option Value)} {part : MultipleCachedCommandPart}
    (h : (k, part) ∈ missingParts singleName path i keys hits) :
    part.redisKey ∈ keys ∧ part.cmdKey = prepareKeyBuffer singleName part.redisKey path := by
  fun_induction missingParts singleName path i keys hits with
  | case1 i key keys hits ih =>
    rcases mem_cons.1 h with h | h
    · cases h
      exact ⟨mem_cons_self, rfl⟩
    · exact ⟨mem_cons_of_mem _ (ih h).1, (ih h).2⟩
  | case2 i key keys value hits ih => exact ⟨mem_cons_of_mem _ (ih h).1, (ih h).2⟩
  | case3 => cases h

theorem length_keyHits (singleName : Bytes) (path : Option Bytes) (i : Nat) (keys : List RedisKey)
    (m : CacheManager E) : (keyHits clock singleName path i keys m).1.length = keys.length := by
  induction keys generalizing i m with
  | nil => rfl
  | cons key keys ih => rw [keyHits, length_cons, length_cons, ih]

variable {E : CacheEnv} {m m' : CacheManager E}

/-- The cache holds `x` for the pair, and a `get` of the manager at the time answers with it. -/
def Holds (m : CacheManager E) (p : RedisKey × RedisCmd) (now : Instant) (value : Value) : Prop :=
  ∃ x, m.lru.content p = some x ∧ x.value = value ∧ x.epoch = m.epoch ∧ now ≤ x.expireTime

variable {now : Instant} {redisKey : RedisKey} {redisCmd : RedisCmd} {value : Value}

theorem get_eq_some : (m.get now redisKey redisCmd).1 = some value ↔ m.Holds (redisKey, redisCmd) now value :=
  ShardedLru.get_eq_some

/-- The manager has at most forgotten something. -/
structure Forgets (m m' : CacheManager E) : Prop where
  cacheConfig : m'.cacheConfig = m.cacheConfig
  epoch : m'.epoch = m.epoch
  within : Within m'.lru.content m.lru.content

theorem Forgets.refl (m : CacheManager E) : Forgets m m := ⟨rfl, rfl, Within.refl _⟩

theorem Forgets.trans {m'' : CacheManager E} (h : Forgets m m') (h' : Forgets m' m'') : Forgets m m'' :=
  ⟨h'.cacheConfig.trans h.cacheConfig, h'.epoch.trans h.epoch, h'.within.trans h.within⟩

theorem Forgets.holds (h : Forgets m m') (hv : m'.Holds p now value) : m.Holds p now value := by
  obtain ⟨x, hx, hval, he, ht⟩ := hv
  exact ⟨x, h.within p x hx, hval, he.trans h.epoch, ht⟩

/-- The cache was read at some times: nothing is gone that was valid at each of them. -/
structure Fades (times : Set Instant) (m m' : CacheManager E) : Prop extends Forgets m m' where
  kept : ∀ p x, m.lru.content p = some x → x.epoch = m.epoch → (∀ t ∈ times, t ≤ x.expireTime) →
    m'.lru.content p = some x

variable {times times' : Set Instant}

theorem Fades.refl (times : Set Instant) (m : CacheManager E) : Fades times m m := ⟨Forgets.refl m, fun _ _ h _ _ => h⟩

theorem Fades.mono (h : Fades times m m') (hsub : times ⊆ times') : Fades times' m m' :=
  ⟨h.toForgets, fun p x hx he ht => h.kept p x hx he fun t hmem => ht t (hsub hmem)⟩

theorem Fades.trans {m'' : CacheManager E} (h : Fades times m m') (h' : Fades times m' m'') : Fades times m m'' :=
  ⟨h.toForgets.trans h'.toForgets, fun p x hx he ht => h'.kept p x (h.kept p x hx he ht) (he.trans h.epoch.symm) ht⟩

theorem get_fades (m : CacheManager E) (now : Instant) (redisKey : RedisKey) (redisCmd : RedisCmd) :
    Fades {now} m (m.get now redisKey redisCmd).2 :=
  ⟨⟨rfl, rfl, ShardedLru.content_get_within _ _ _ _ _⟩, fun _ _ hx he ht =>
    ShardedLru.content_get_of_valid hx he (ht now rfl) redisKey redisCmd⟩

theorem keyHits_fades (singleName : Bytes) (path : Option Bytes) (i : Nat) (keys : List RedisKey)
    (m : CacheManager E) : Fades (Set.range clock) m (keyHits clock singleName path i keys m).2 := by
  induction keys generalizing i m with
  | nil => exact Fades.refl _ m
  | cons key keys ih =>
    exact ((m.get_fades _ _ _).mono (Set.singleton_subset_iff.2 (Set.mem_range_self _))).trans (ih _ _)

variable {keys : List RedisKey}

theorem holds_of_keyHits (singleName : Bytes) (path : Option Bytes) {i j : Nat}
    (h : (keyHits clock singleName path i keys m).1[j]? = some (some value)) : ∃ key, keys[j]? = some key ∧
      m.Holds (entryKey (partArgs singleName path key)) (clock (i + j + 1)) value := by
  induction keys generalizing i j m with
  | nil => cases h
  | cons key keys ih =>
    rw [keyHits] at h
    cases j with
    | zero =>
      refine ⟨key, rfl, ?_⟩
      rw [entryKey_partArgs]
      exact get_eq_some.1 (Option.some.inj h)
    | succ j =>
      obtain ⟨key', hkey', hv⟩ := ih h
      refine ⟨key', hkey', ?_⟩
      rw [show i + (j + 1) + 1 = i + 1 + j + 1 by omega]
      exact (m.get_fades _ _ _).holds hv

theorem answerShape_fades (m : CacheManager E) (c : Cmd) (shape : Shape) :
    Fades (Set.range clock) m (m.answerShape clock c shape).2 := by
  cases shape with
  | single key =>
    have hget := (m.get_fades (clock 1) key c.data).mono (Set.singleton_subset_iff.2 (Set.mem_range_self (f := clock) 1))
    simp only [answerShape]
    split <;> exact hget
  | multi commandName singleName keys path =>
    simp only [answerShape, processKeys_eq]
    split <;> exact keyHits_fades clock singleName path 0 keys m
  | uncached => exact Fades.refl _ m

theorem getCachedCmd_fades {clock : Nat → Instant} {c : Cmd} {item : PrepCacheItem}
    (h : m.getCachedCmd clock c = .ok (item, m')) : Fades (Set.range clock) m m' := by
  rw [getCachedCmd_of_shape] at h
  split at h
  · obtain ⟨shape, -, hans⟩ := exists_of_map_eq_ok h
    have := m.answerShape_fades clock c shape
    rw [hans] at this
    exact this
  · cases h
    exact Fades.refl _ m

theorem holds_get_of_hit {hit : Value} (h : (m.get now redisKey redisCmd).1 = some hit) {now' : Instant}
    (hv : m.Holds p now' value) : (m.get now redisKey redisCmd).2.Holds p now' value := by
  obtain ⟨x, hx, hval, he, ht⟩ := hv
  refine ⟨x, ?_, hval, he, ht⟩
  rw [← hx]
  exact congrFun (ShardedLru.content_get_of_hit h) p

variable {singleName : Bytes} {path : Option Bytes}

theorem keyHits_eq_map_some {clock : Nat → Instant} {i : Nat} {values : List Value} :
    (keyHits clock singleName path i keys m).1 = values.map some ↔
      values.length = keys.length ∧ ∀ j key value, keys[j]? = some key → values[j]? = some value →
        m.Holds (entryKey (partArgs singleName path key)) (clock (i + j + 1)) value := by
  constructor
  · intro h
    refine ⟨?_, ?_⟩
    · rw [← length_keyHits clock singleName path i keys m, h, length_map]
    · intro j key value hkey hval
      have hhit : (keyHits clock singleName path i keys m).1[j]? = some (some value) := by
        rw [h, getElem?_map, hval]
        rfl
      obtain ⟨key', hkey', hv⟩ := holds_of_keyHits clock singleName path hhit
      rw [hkey, Option.some.injEq] at hkey'
      rw [hkey']
      exact hv
  · rintro ⟨hlen, h⟩
    induction keys generalizing i values m with
    | nil => rw [eq_nil_of_length_eq_zero hlen, keyHits, map_nil]
    | cons key keys ih =>
      obtain ⟨value, values, rfl⟩ := exists_cons_of_length_eq_add_one hlen
      have hget : (m.get (clock (i + 1)) key (prepareKeyBuffer singleName key path)).1 = some value := by
        have h0 := h 0 key value rfl rfl
        rw [entryKey_partArgs] at h0
        exact get_eq_some.2 h0
      rw [keyHits, map_cons, hget, ih (Nat.succ.inj hlen)]
      intro j key' value' hkey' hval'
      rw [show i + 1 + j + 1 = i + (j + 1) + 1 by omega]
      exact holds_get_of_hit hget (h (j + 1) key' value' hkey' hval')

theorem missingParts_eq_nil {i : Nat} {hits : List (Option Value)} (hlen : hits.length = keys.length) :
    missingParts singleName path i keys hits = [] ↔ hits = (hits.map (·.getD .nil)).map some := by
  fun_induction missingParts singleName path i keys hits with
  | case1 i key keys hits ih => simp
  | case2 i key keys value hits ih => simpa using ih (Nat.succ.inj hlen)
  | case3 keys i hits h₁ h₂ =>
    rcases keys with _ | ⟨key, keys⟩
    · rw [eq_nil_of_length_eq_zero hlen]
      simp
    · obtain ⟨hit, hits, rfl⟩ := exists_cons_of_length_eq_add_one hlen
      cases hit with
      | none => exact (h₁ _ _ _ rfl rfl).elim
      | some value => exact (h₂ _ _ _ _ rfl rfl).elim

end CacheManager

def replyOf (args : List Bytes) (values : List Value) : Value :=
  match shapeOf args with
  | .single _ => values.headD .nil
  | _ => .array values

namespace CacheManager

variable {E : CacheEnv} {m m' : CacheManager E}

/-- The cache holds replies to all that a command reads, for the times at which they are looked up. -/
def HoldsReads (m : CacheManager E) (clock : Nat → Instant) (args : List Bytes) (values : List Value) : Prop :=
  values.length = (reads args).length ∧ ∀ j l value, (reads args)[j]? = some l → values[j]? = some value →
    m.Holds (entryKey l) (clock (j + 1)) value

variable {clock : Nat → Instant} {q : ByteCmd} {value : Value}

theorem exists_holdsReads_single {key : RedisKey} (hshape : shapeOf q.args = .single key) :
    (∃ values, value = replyOf q.args values ∧ m.HoldsReads clock q.args values) ↔
      m.Holds (entryKey q.args) (clock 1) value := by
  have hreads : reads q.args = [q.args] := by rw [reads, hshape]
  unfold HoldsReads replyOf
  rw [hshape, hreads]
  constructor
  · rintro ⟨values, rfl, hlen, h⟩
    obtain ⟨v, rfl⟩ := length_eq_one_iff.1 hlen
    exact h 0 _ _ rfl rfl
  · intro h
    refine ⟨[value], rfl, rfl, fun j l v hl hv => ?_⟩
    cases j with
    | zero =>
      cases hl
      cases hv
      exact h
    | succ j => cases hl

theorem answerShape_single_cached_iff {key : RedisKey} (hshape : shapeOf q.args = .single key) :
    (∃ m', m.answerShape clock q.cmd (.single key) = (.cached value, m')) ↔
      ∃ values, value = replyOf q.args values ∧ m.HoldsReads clock q.args values := by
  rw [exists_holdsReads_single hshape, entryKey_single hshape, ← get_eq_some, answerShape]
  rcases m.get (clock 1) key q.cmd.data with ⟨_ | v, m'⟩ <;> simp

variable {commandName : String} {singleName : Bytes} {keys : List RedisKey} {path : Option Bytes}

theorem keyHits_eq_map_some_iff {args : List Bytes} {values : List Value}
    (hshape : shapeOf args = .multi commandName singleName keys path) :
    (keyHits clock singleName path 0 keys m).1 = values.map some ↔ m.HoldsReads clock args values := by
  unfold HoldsReads
  simp only [reads, hshape, length_map, getElem?_map, Option.map_eq_some_iff]
  rw [keyHits_eq_map_some]
  refine and_congr_right fun _ => ⟨?_, ?_⟩
  · rintro h j l value ⟨key, hkey, rfl⟩ hval
    have := h j key value hkey hval
    rwa [Nat.zero_add] at this
  · intro h j key value hkey hval
    rw [Nat.zero_add]
    exact h j _ value ⟨key, hkey, rfl⟩ hval

theorem answerShape_multi_cached_iff (hshape : shapeOf q.args = .multi commandName singleName keys path) :
    (∃ m', m.answerShape clock q.cmd (.multi commandName singleName keys path) = (.cached value, m')) ↔
      ∃ values, value = replyOf q.args values ∧ m.HoldsReads clock q.args values := by
  have hlen := length_keyHits clock singleName path 0 keys m
  simp only [answerShape, replyOf, hshape, processKeys_eq]
  constructor
  · rintro ⟨m', h⟩
    split at h
    · rename_i hnone
      obtain ⟨hval, -⟩ := Prod.mk.inj h
      refine ⟨_, (PrepCacheItem.cached.inj hval).symm, (keyHits_eq_map_some_iff hshape).1 ?_⟩
      exact (missingParts_eq_nil hlen).1 hnone
    · cases h
  · rintro ⟨values, rfl, h⟩
    have hhits := (keyHits_eq_map_some_iff hshape).2 h
    have hgetD : (values.map some).map (fun hit : Option Value => hit.getD .nil) = values := by
      rw [map_map]
      exact map_id values
    rw [if_pos ((missingParts_eq_nil hlen).2 (by rw [hhits, hgetD])), hhits, hgetD]
    exact ⟨_, rfl⟩

theorem getCachedCmd_cached_iff :
    (∃ m', m.getCachedCmd clock q.cmd = .ok (.cached value, m')) ↔
      m.cacheConfig.mode.admits q.cmd = true ∧ shapeOf q.args ≠ .uncached ∧
        ∃ values, value = replyOf q.args values ∧ m.HoldsReads clock q.args values := by
  rw [getCachedCmd_eq]
  by_cases hadm : m.cacheConfig.mode.admits q.cmd = true
  · rw [if_pos hadm]
    simp only [hadm, true_and, Except.ok.injEq]
    rcases hshape : shapeOf q.args with key | ⟨commandName, singleName, keys, path⟩ | _
    · rw [answerShape_single_cached_iff hshape]
      exact ⟨fun h => ⟨Shape.noConfusion, h⟩, And.right⟩
    · rw [answerShape_multi_cached_iff hshape]
      exact ⟨fun h => ⟨Shape.noConfusion, h⟩, And.right⟩
    · simp [answerShape]
  · simp [hadm]

theorem getCachedCmd_cached_single {key : RedisKey} (hq : shapeOf q.args = .single key) :
    (∃ m', m.getCachedCmd clock q.cmd = .ok (.cached value, m')) ↔
      m.cacheConfig.mode.admits q.cmd = true ∧ m.Holds (entryKey q.args) (clock 1) value := by
  rw [getCachedCmd_cached_iff, exists_holdsReads_single hq, hq]
  simp

end CacheManager

namespace CacheableCommand

variable {E : CacheEnv} {m : CacheManager E}

def storedParts : List Value → List Value → List (Nat × MultipleCachedCommandPart) →
    List ((RedisKey × RedisCmd) × Value)
  | v :: values, _ :: replies, (_, part) :: commands =>
    if v.isServerError then storedParts values replies commands
    else ((part.redisKey, part.cmdKey), v) :: storedParts values replies commands
  | _, _, _ => []

def storesInner (replies : List Value) : CacheableCommand → List ((RedisKey × RedisCmd) × Value)
  | single command =>
    match replies with
    | _ :: reply :: _ => if reply.isServerError then [] else [((command.redisKey, command.cmdKey), reply)]
    | _ => []
  | multiple _ commands _ _ _ =>
    match replies with
    | .array values :: replies => storedParts values replies commands
    | _ => []

def repliesFor (mode : CacheMode) (replies : List Value) : List Value :=
  match mode with
  | .optIn => replies.drop 1
  | .all => replies

def stores (mode : CacheMode) (replies : List Value) (command : CacheableCommand) :
    List ((RedisKey × RedisCmd) × Value) :=
  command.storesInner (repliesFor mode replies)

variable {replies : List Value} {commands : List (Nat × MultipleCachedCommandPart)} {p : RedisKey × RedisCmd}
  {value : Value}

theorem mem_storedParts {values : List Value} (h : (p, value) ∈ storedParts values replies commands) :
    value ∈ values ∧ ∃ k part, (k, part) ∈ commands ∧ p = (part.redisKey, part.cmdKey) := by
  fun_induction storedParts values replies commands with
  | case1 v values pttl replies k part commands herr ih =>
    obtain ⟨hv, k', part', hmem, hp⟩ := ih h
    exact ⟨mem_cons_of_mem _ hv, k', part', mem_cons_of_mem _ hmem, hp⟩
  | case2 v values pttl replies k part commands herr ih =>
    rcases mem_cons.1 h with h | h
    · cases h
      exact ⟨mem_cons_self, k, part, mem_cons_self, rfl⟩
    · obtain ⟨hv, k', part', hmem, hp⟩ := ih h
      exact ⟨mem_cons_of_mem _ hv, k', part', mem_cons_of_mem _ hmem, hp⟩
  | case3 => cases h

variable (clock : Nat → Instant) {mode : CacheMode} (now : Instant) (redisKey : RedisKey) (cmdKey : RedisCmd)

theorem mem_stores_single {command : SingleCachedCommand} (h : (p, value) ∈ (single command).stores mode replies) :
    p = (command.redisKey, command.cmdKey) ∧ (repliesFor mode replies)[1]? = some value := by
  simp only [stores, storesInner] at h
  split at h
  · rename_i hreps
    split at h
    · cases h
    · cases mem_singleton.1 h
      exact ⟨rfl, by rw [hreps]; rfl⟩
  · cases h

theorem mem_stores_multiple {commandName : String} {response : List Value} {clientSideExpire : Instant}
    {tailArgs : List Bytes}
    (h : (p, value) ∈ (multiple commandName commands response clientSideExpire tailArgs).stores mode replies) :
    (∃ k part, (k, part) ∈ commands ∧ p = (part.redisKey, part.cmdKey)) ∧
      ∃ values, (repliesFor mode replies)[0]? = some (.array values) ∧ value ∈ values := by
  simp only [stores, storesInner] at h
  split at h
  · rename_i values rest hreps
    obtain ⟨hv, hp⟩ := mem_storedParts h
    exact ⟨hp, values, by rw [hreps]; rfl, hv⟩
  · cases h

/-- What the cache holds was stored, or it was there and no reply to the same command was stored. -/
structure Stored (m m' : CacheManager E) (stores : List ((RedisKey × RedisCmd) × Value)) : Prop where
  cacheConfig : m'.cacheConfig = m.cacheConfig
  epoch : m'.epoch = m.epoch
  content : ∀ p x, m'.lru.content p = some x →
    (p, x.value) ∈ stores ∨
      (∀ v, (p, v) ∉ stores) ∧ ∃ y, m.lru.content p = some y ∧ y.value = x.value ∧ y.epoch = x.epoch

theorem Stored.nil (m : CacheManager E) : Stored m m [] :=
  ⟨rfl, rfl, fun _ x hx => .inr ⟨fun _ hv => (nomatch hv), x, hx, rfl, rfl⟩⟩

theorem stored_insert (value : Value) (clientSideExpire : Instant) (pttl : Value) (m : CacheManager E) :
    Stored m (m.insert now redisKey cmdKey value clientSideExpire pttl) [((redisKey, cmdKey), value)] := by
  refine ⟨rfl, rfl, ?_⟩
  intro p x hx
  have h := ShardedLru.content_insert_within _ _ _ _ _ _ p x hx
  unfold ShardedLru.Content.insert at h
  by_cases hp : p = (redisKey, cmdKey)
  · subst hp
    rw [if_pos rfl, if_pos rfl] at h
    cases h
    exact .inl mem_cons_self
  · refine .inr ⟨fun v hv => ?_, ?_⟩
    · rw [mem_singleton, Prod.mk.injEq] at hv
      exact hp hv.1
    · split at h
      · rename_i hk
        rw [if_neg fun hc => hp (Prod.ext hk hc)] at h
        obtain ⟨y, hy, h⟩ := Option.bind_eq_some_iff.1 h
        split at h
        · cases h
          exact ⟨y, hy, rfl, rfl⟩
        · cases h
      · exact ⟨x, h, rfl, rfl⟩

theorem Stored.append {m' m'' : CacheManager E} {stores stores' : List ((RedisKey × RedisCmd) × Value)}
    (h : Stored m m' stores) (h' : Stored m' m'' stores') : Stored m m'' (stores ++ stores') := by
  refine ⟨h'.cacheConfig.trans h.cacheConfig, h'.epoch.trans h.epoch, ?_⟩
  intro p x hx
  rcases h'.content p x hx with hs | ⟨hno', y, hy, hyv, hye⟩
  · exact .inl (mem_append_right _ hs)
  · rcases h.content p y hy with hs | ⟨hno, z, hz, hzv, hze⟩
    · rw [hyv] at hs
      exact .inl (mem_append_left _ hs)
    · refine .inr ⟨fun v hv => ?_, z, hz, hzv.trans hyv, hze.trans hye⟩
      rcases mem_append.1 hv with hv | hv
      · exact hno v hv
      · exact hno' v hv

theorem stored_store (reply : Value) (clientSideExpire : Instant) (pttl : Value) (m : CacheManager E) :
    Stored m (store now redisKey cmdKey reply clientSideExpire pttl m)
      (if reply.isServerError then [] else [((redisKey, cmdKey), reply)]) := by
  unfold store
  split
  · exact Stored.nil m
  · exact stored_insert ..

theorem stored_resolveParts (clientSideExpire : Instant) (i : Nat) (values replies : List Value)
    (commands : List (Nat × MultipleCachedCommandPart)) (response : List Value) (m : CacheManager E) :
    Stored m (resolveParts clock clientSideExpire i values replies commands response m).2.1
      (storedParts values replies commands) := by
  fun_induction storedParts values replies commands generalizing i response m with
  | case1 v values pttl replies k part commands herr ih =>
    rw [resolveParts, store, if_pos herr]
    exact ih _ _ _
  | case2 v values pttl replies k part commands herr ih =>
    rw [resolveParts, store, if_neg herr]
    exact (stored_insert ..).append (ih _ _ _)
  | case3 values replies commands hne =>
    rcases values with _ | ⟨v, values⟩
    · exact Stored.nil m
    · rcases replies with _ | ⟨pttl, replies⟩
      · exact Stored.nil m
      · rcases commands with _ | ⟨⟨k, part⟩, commands⟩
        · exact Stored.nil m
        · exact (hne _ _ _ _ _ _ _ rfl rfl rfl).elim

theorem stored_resolveInner (m : CacheManager E) (replies : List Value) (command : CacheableCommand) :
    Stored m (command.resolveInner clock m replies).2.1 (command.storesInner replies) := by
  cases command with
  | single command =>
    rcases replies with _ | ⟨pttl, _ | ⟨reply, replies⟩⟩
    · exact Stored.nil m
    · exact Stored.nil m
    · exact stored_store ..
  | multiple commandName commands response clientSideExpire tailArgs =>
    rcases replies with _ | ⟨v, replies⟩
    · exact Stored.nil m
    · cases v with
      | array values => exact stored_resolveParts ..
      | _ => exact Stored.nil m

theorem stored_resolve (m : CacheManager E) (replies : List Value) (command : CacheableCommand) :
    Stored m (command.resolve clock m replies).2.1 (command.stores m.cacheConfig.mode replies) := by
  unfold resolve stores repliesFor
  cases m.cacheConfig.mode with
  | all => exact stored_resolveInner ..
  | optIn =>
    cases replies with
    | nil => cases command <;> exact Stored.nil m
    | cons reply replies => exact stored_resolveInner ..

end CacheableCommand

end RedisRs
