import RedisRs.CacheReads

/-!
# What an invalidation drops
-/

namespace RedisRs

def numkeys (arg : Bytes) : Nat :=
  if arg.all fun b => 48 ≤ b ∧ b ≤ 57 then arg.foldl (fun n b => 10 * n + (b.toNat - 48)) 0 else 0

def allKeysCmds : List Bytes :=
  ["EXISTS", "SDIFF", "SINTER", "SUNION", "MGET"].map bytesOf

def numkeysCmds : List Bytes :=
  ["SINTERCARD", "ZDIFF", "ZINTER", "ZINTERCARD", "ZUNION"].map bytesOf

def readKeys : List Bytes → List RedisKey
  | [] => []
  | name :: arguments =>
    if allKeysCmds.contains name then arguments
    else if numkeysCmds.contains name then
      match arguments with
      | [] => []
      | n :: arguments => arguments.take (numkeys n)
    else if name = bytesOf "LCS" then arguments.take 2
    else if name = bytesOf "JSON.MGET" then arguments.dropLast
    else arguments.take 1

/-- The push names the key. -/
def Names (data : List Value) (key : RedisKey) : Prop :=
  ∃ names, data.head? = some (.array names) ∧ .bulkString key ∈ names

/-- The push says that a key of the command changed, or that everything was flushed. -/
def Covers (args : List Bytes) (data : List Value) : Prop :=
  data.head? = some .nil ∨ ∃ key ∈ readKeys args, Names data key

def droppedKey (data : List Value) : Option RedisKey :=
  match data with
  | .array (redisKey :: _) :: _ => (FromRedisValue.fromRedisValueRef redisKey : ParseResult Bytes).toOption
  | _ => none

def filedUnder (args : List Bytes) : List RedisKey := (reads args).map fun l => (entryKey l).1

/-- The push starts with a key that the reply is filed under. -/
def Filed (args : List Bytes) (data : List Value) : Prop := ∃ key ∈ filedUnder args, droppedKey data = some key

inductive CacheOp
  | get (epoch : Nat) (now : Instant) (redisKey : RedisKey) (redisCmd : RedisCmd)
  | insert (epoch : Nat) (now : Instant) (redisKey : RedisKey) (cmdKey : RedisCmd) (value : Value)
      (clientSideExpireTime : Instant) (serverSideTtlValue : Value)
  | push (kind : PushKind) (data : List Value)

def CacheOp.InsertsFor (args : List Bytes) : CacheOp → Prop
  | insert _ _ redisKey cmdKey _ _ _ => ∃ l ∈ reads args, entryKey l = (redisKey, cmdKey)
  | _ => False

namespace CacheManager

variable {E : CacheEnv} {m : CacheManager E}

def apply (m : CacheManager E) : CacheOp → CacheManager E
  | .get epoch now redisKey redisCmd =>
    { m with lru := (({ m with epoch } : CacheManager E).get now redisKey redisCmd).2.lru }
  | .insert epoch now redisKey cmdKey value clientSide serverSide =>
    { m with lru := (({ m with epoch } : CacheManager E).insert now redisKey cmdKey value clientSide serverSide).lru }
  | .push kind data => m.handlePushValue kind data

/-- After the push, and until something it reads is inserted, the command is not answered with the reply. -/
def Drops (m : CacheManager E) (q : ByteCmd) (data : List Value) (reply : Value) : Prop :=
  ∀ ops : List CacheOp, (∀ op ∈ ops, ¬ op.InsertsFor q.args) → ∀ clock m',
    (ops.foldl apply (m.handlePushValue .invalidate data)).getCachedCmd clock q.cmd ≠ .ok (.cached reply, m')

theorem handlePushValue_invalidate (m : CacheManager E) (data : List Value) :
    m.handlePushValue .invalidate data =
      match droppedKey data with
      | some redisKey => { m with lru := m.lru.invalidate redisKey }
      | none => m := by
  rcases data with _ | ⟨v, rest⟩
  · rfl
  · cases v with
    | array names =>
      rcases names with _ | ⟨redisKey, names⟩
      · rfl
      · simp only [handlePushValue, droppedKey]
        cases (FromRedisValue.fromRedisValueRef redisKey : ParseResult Bytes) <;> rfl
    | _ => rfl

theorem handlePushValue_of_ne (m : CacheManager E) {kind : PushKind} (hkind : kind ≠ .invalidate)
    (data : List Value) : m.handlePushValue kind data = m := by
  unfold handlePushValue
  split
  · exact (hkind rfl).elim
  · rfl

theorem handlePushValue_spec (m : CacheManager E) (data : List Value) :
    (m.handlePushValue .invalidate data).cacheConfig = m.cacheConfig ∧
      (m.handlePushValue .invalidate data).epoch = m.epoch ∧
      ∀ p, (m.handlePushValue .invalidate data).lru.content p =
        if droppedKey data = some p.1 then none else m.lru.content p := by
  rw [handlePushValue_invalidate]
  cases droppedKey data with
  | none => exact ⟨rfl, rfl, fun p => (if_neg nofun).symm⟩
  | some key =>
    refine ⟨rfl, rfl, fun p => ?_⟩
    show (m.lru.invalidate key).content p = _
    rw [ShardedLru.content_invalidate, ShardedLru.Content.invalidate]
    exact if_congr ⟨fun hp => congrArg some hp.symm, fun hp => (Option.some.inj hp).symm⟩ rfl rfl

theorem cacheConfig_handlePushValue (m : CacheManager E) (kind : PushKind) (data : List Value) :
    (m.handlePushValue kind data).cacheConfig = m.cacheConfig := by
  by_cases hkind : kind = .invalidate
  · rw [hkind]
    exact (m.handlePushValue_spec data).1
  · rw [m.handlePushValue_of_ne hkind]

theorem content_apply {op : CacheOp} {args l : List Bytes} (hl : l ∈ reads args) (hop : ¬ op.InsertsFor args)
    (h : m.lru.content (entryKey l) = none) : (m.apply op).lru.content (entryKey l) = none := by
  cases op with
  | get epoch now redisKey redisCmd =>
    exact (ShardedLru.content_get_within now redisKey redisCmd epoch m.lru).eq_none h
  | insert epoch now redisKey cmdKey value clientSide serverSide =>
    refine (ShardedLru.content_insert_within redisKey cmdKey value (expireTime now clientSide serverSide) epoch
      m.lru).eq_none ?_
    have hne : ¬ ((entryKey l).1 = redisKey ∧ (entryKey l).2 = cmdKey) :=
      fun he => hop ⟨l, hl, Prod.ext he.1 he.2⟩
    unfold ShardedLru.Content.insert
    split
    · rename_i hk
      rw [if_neg fun hc => hne ⟨hk, hc⟩, h]
      rfl
    · exact h
  | push kind data =>
    by_cases hkind : kind = .invalidate
    · subst hkind
      show (m.handlePushValue .invalidate data).lru.content _ = none
      rw [(m.handlePushValue_spec data).2.2, h, ite_self]
    · show (m.handlePushValue kind data).lru.content _ = none
      rw [m.handlePushValue_of_ne hkind, h]

theorem content_foldl_apply {ops : List CacheOp} {args l : List Bytes} (hl : l ∈ reads args)
    (hops : ∀ op ∈ ops, ¬ op.InsertsFor args) (h : m.lru.content (entryKey l) = none) :
    (ops.foldl apply m).lru.content (entryKey l) = none := by
  induction ops generalizing m with
  | nil => exact h
  | cons op ops ih =>
    exact ih (fun op' hop' => hops op' (List.mem_cons_of_mem _ hop'))
      (content_apply hl (hops op List.mem_cons_self) h)

theorem not_cached_of_missing {q : ByteCmd} {l : List Bytes} (hl : l ∈ reads q.args)
    (h : m.lru.content (entryKey l) = none) (clock : Nat → Instant) (reply : Value) (m' : CacheManager E) :
    m.getCachedCmd clock q.cmd ≠ .ok (.cached reply, m') := by
  intro hc
  obtain ⟨-, -, values, -, hlen, hv⟩ := getCachedCmd_cached_iff.1 ⟨m', hc⟩
  obtain ⟨j, hj⟩ := List.getElem?_of_mem hl
  have hlt : j < values.length := by
    rw [hlen]
    exact (List.getElem?_eq_some_iff.1 hj).1
  obtain ⟨x, hx, -⟩ := hv j l _ hj (List.getElem?_eq_getElem hlt)
  rw [h] at hx
  cases hx

theorem cached_of_not_filed {q : ByteCmd} {data : List Value} (hfiled : ¬ Filed q.args data)
    {clock : Nat → Instant} {reply : Value} {m' : CacheManager E}
    (h : m.getCachedCmd clock q.cmd = .ok (.cached reply, m')) :
    ∃ m'', (m.handlePushValue .invalidate data).getCachedCmd clock q.cmd = .ok (.cached reply, m'') := by
  obtain ⟨hcfg, hepoch, hcont⟩ := m.handlePushValue_spec data
  obtain ⟨hadm, hshape, values, rfl, hlen, hv⟩ := getCachedCmd_cached_iff.1 ⟨m', h⟩
  refine getCachedCmd_cached_iff.2 ⟨by rw [hcfg]; exact hadm, hshape, values, rfl, hlen, ?_⟩
  intro j l value hl hvalue
  obtain ⟨x, hx, hval, he, ht⟩ := hv j l value hl hvalue
  refine ⟨x, ?_, hval, he.trans hepoch.symm, ht⟩
  rw [hcont, if_neg fun hd => hfiled ⟨_, ?_, hd⟩, hx]
  exact List.mem_map_of_mem (List.mem_of_getElem? hl)

end CacheManager

/-- In every state of the cache and for every command whose reply it holds: a push that covers the command
drops the reply exactly when it starts with a key the reply is filed under. -/
theorem invalidation_complete_iff {E : CacheEnv} {m m₀ : CacheManager E} {q : ByteCmd} {clock : Nat → Instant}
    {reply : Value} (hreply : m.getCachedCmd clock q.cmd = .ok (.cached reply, m₀)) (data : List Value) :
    (Covers q.args data → m.Drops q data reply) ↔ (Covers q.args data → Filed q.args data) := by
  refine forall_congr' fun _ => ⟨?_, ?_⟩
  · intro h
    by_contra hfiled
    obtain ⟨m', hc⟩ := CacheManager.cached_of_not_filed hfiled hreply
    exact h [] nofun clock m' hc
  · rintro ⟨key, hkey, hdrop⟩ ops hops clock' m'
    obtain ⟨l, hl, rfl⟩ := List.mem_map.1 hkey
    refine CacheManager.not_cached_of_missing hl (CacheManager.content_foldl_apply hl hops ?_) clock' reply m'
    rw [(m.handlePushValue_spec data).2.2, if_pos hdrop]

def sinterCmd : ByteCmd := .ofArgs [bytesOf "SINTER", bytesOf "a", bytesOf "b"]

def sinterStored : CacheManager listEnv :=
  (CacheManager.new listEnv .new).insert 0 (bytesOf "a") (bytesOf "SINTERab") (.array [.int 7]) 1 (.int (-1))

theorem first_key_drops :
    Covers sinterCmd.args [.array [.bulkString (bytesOf "a")]] ∧
      sinterStored.Drops sinterCmd [.array [.bulkString (bytesOf "a")]] (.array [.int 7]) := by
  have hcovers : Covers sinterCmd.args [.array [.bulkString (bytesOf "a")]] :=
    .inr ⟨bytesOf "a", by decide, _, rfl, List.mem_singleton_self _⟩
  have hreply : sinterStored.getCachedCmd (fun _ => 0) sinterCmd.cmd = .ok (.cached (.array [.int 7]), _) := rfl
  exact ⟨hcovers, (invalidation_complete_iff hreply _).2 (fun _ => ⟨bytesOf "a", by decide, rfl⟩) hcovers⟩

/-- The push covers `SINTER a b`, and the cache still answers it. -/
def LeavesSinter (data : List Value) : Prop :=
  Covers sinterCmd.args data ∧
    ∃ m', (sinterStored.handlePushValue .invalidate data).getCachedCmd (fun _ => 0) sinterCmd.cmd =
      .ok (.cached (.array [.int 7]), m')

theorem covered_reply_served :
    LeavesSinter [.array [.bulkString (bytesOf "b")]] ∧
      LeavesSinter [.array [.bulkString (bytesOf "c"), .bulkString (bytesOf "a")]] ∧
        LeavesSinter [.nil] := by
  refine ⟨⟨.inr ?_, _, rfl⟩, ⟨.inr ?_, _, rfl⟩, ⟨.inl rfl, _, rfl⟩⟩
  · exact ⟨bytesOf "b", by decide, _, rfl, List.mem_singleton_self _⟩
  · exact ⟨bytesOf "a", by decide, _, rfl, by simp⟩

end RedisRs
