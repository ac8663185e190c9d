import RedisRs.ClusterPipeline

/-!
# The commands of each node
-/

namespace RedisRs

open List

namespace Cluster

open ConnectionLike Connect

variable {C : Type} {α β : Type}

namespace ClusterConnection

def AtTick (s₀ s : ClusterConnection C) : Prop := ∃ t, s = { s₀ with tick := t }

/-- The computation only lets the random source go on. -/
abbrev Ticks (m : ClusterM C α) : Prop := ∀ s₀, Prog.Keeps (AtTick s₀) (fun _ => True) (fun _ => True) m

theorem Ticks.bind {m : ClusterM C α} {f : α → ClusterM C β} (hm : Ticks m) (hf : ∀ a, Ticks (f a)) :
    Ticks (m >>= f) :=
  fun s₀ => .bind (hm s₀) fun a _ => hf a s₀

theorem Ticks.pure (a : α) : Ticks (pure a : ClusterM C α) := fun _ => .pure trivial

theorem choice_ticks : Ticks (choice : ClusterM C Nat) := fun s₀ => .of_run fun s ⟨t, hs⟩ => by
  subst hs
  exact ⟨⟨t + 1, rfl⟩, trivial⟩

theorem ends_ticks (r : Ends α) : Ticks (ends r : ClusterM C α) := fun _ => .ofExcept (by rcases r <;> trivial)

theorem shareSlots_ticks {body : SlotMap → ClusterM C α} (h : ∀ slots, Ticks (body slots)) :
    Ticks (shareSlots body) := by
  refine fun s₀ => ⟨?_, fun _ _ _ _ => trivial, fun _ _ _ _ => trivial⟩
  rintro s ⟨t, rfl⟩
  have hbody : ∀ k, AtTick { s₀ with slots.borrow := .shared k }
      (body s₀.slots.value { { s₀ with tick := t } with slots.borrow := .shared k }).2 :=
    fun k => (h s₀.slots.value _).inv _ ⟨t, rfl⟩
  unfold shareSlots
  rcases hb : s₀.slots.borrow with _ | k | _
  · obtain ⟨t', ht'⟩ := hbody 1
    refine ⟨t', ?_⟩
    simp only [ht']
    rw [← hb]
  · obtain ⟨t', ht'⟩ := hbody (k + 1)
    refine ⟨t', ?_⟩
    simp only [ht']
    rw [← hb]
  · exact ⟨t, rfl⟩

theorem Ticks.run {m : ClusterM C α} (h : Ticks m) (s : ClusterConnection C) : ∃ t, (m s).2 = { s with tick := t } :=
  (h s).inv s ⟨s.tick, rfl⟩

variable (env : ClusterEnv C)

theorem readPick_ticks : Ticks (readPick env) := .bind choice_ticks fun _ => .pure _

theorem addrForSlot_ticks (slots : SlotMap) (route : Route) : Ticks (addrForSlot env slots route) := by
  refine .bind (readPick_ticks env) fun pick => ?_
  rcases slots.slotAddrForRoute route pick with _ | addr
  · exact .pure _
  · exact .pure _

theorem getAddrForCmd_ticks [Crc16] (cmd : Cmd) : Ticks (getAddrForCmd env cmd) := by
  refine shareSlots_ticks fun slots => .bind choice_ticks fun n => .bind (ends_ticks _) fun routing => ?_
  rcases routing with _ | (_ | _ | route | _) | _
  · exact .pure _
  · exact addrForSlot_ticks env slots _
  · exact .pure _
  · exact addrForSlot_ticks env slots route
  · exact .pure _
  · exact .pure _

theorem mapCmdsFrom_ticks [Crc16] (idx : Nat) (cmdMap : AList fun _ : NodeAddress => NodeCmd) (cmds : List Cmd) :
    Ticks (mapCmdsFrom env idx cmdMap cmds) := by
  induction cmds generalizing idx cmdMap with
  | nil => exact .pure _
  | cons cmd cmds ih =>
    refine .bind (getAddrForCmd_ticks env cmd) fun r => ?_
    rcases r with e | addr
    · exact .pure _
    · exact ih _ _

theorem mapCmdsToNodes_ticks [Crc16] (cmds : List Cmd) : Ticks (mapCmdsToNodes env cmds) := by
  refine .bind (mapCmdsFrom_ticks env 0 ∅ cmds) fun r => ?_
  rcases r with e | cmdMap
  · exact .pure _
  · exact .bind choice_ticks fun _ => .pure _

/-- The pipeline of a node holds its commands in order. -/
structure Fits (cmds : List Cmd) (idx : Nat) (a : NodeAddress) (nc : NodeCmd) : Prop where
  addr : nc.addr = a
  lt : ∀ i ∈ nc.indexes, i < idx
  sorted : nc.indexes.Pairwise (· < ·)
  pipe : nc.pipe = (nc.indexes.filterMap (cmds[·]?)).flatMap Cmd.writePackedCommand

namespace Fits

variable {cmds : List Cmd} {idx : Nat} {a : NodeAddress} {nc : NodeCmd}

theorem new (cmds : List Cmd) (idx : Nat) (a : NodeAddress) : Fits cmds idx a (.new a) :=
  ⟨rfl, fun _ hi => absurd hi not_mem_nil, .nil, rfl⟩

theorem succ (h : Fits cmds idx a nc) : Fits cmds (idx + 1) a nc :=
  ⟨h.addr, fun i hi => Nat.lt_succ_of_lt (h.lt i hi), h.sorted, h.pipe⟩

theorem push (h : Fits cmds idx a nc) {cmd : Cmd} (hcmd : cmds[idx]? = some cmd) :
    Fits cmds (idx + 1) a (nc.push idx cmd) where
  addr := h.addr
  lt i hi := by
    rcases mem_append.1 hi with hi | hi
    · exact Nat.lt_succ_of_lt (h.lt i hi)
    · rw [mem_singleton.1 hi]
      exact Nat.lt_succ_self idx
  sorted := by
    refine pairwise_append.2 ⟨h.sorted, pairwise_singleton _ _, fun i hi j hj => ?_⟩
    rw [mem_singleton.1 hj]
    exact h.lt i hi
  pipe := by
    show nc.pipe ++ cmd.writePackedCommand = _
    simp only [NodeCmd.push, filterMap_append, flatMap_append, h.pipe]
    simp [hcmd]

end Fits

/-- The first `idx` commands are split between the nodes of the map. -/
structure Plan (cmds : List Cmd) (idx : Nat) (cmdMap : AList fun _ : NodeAddress => NodeCmd) : Prop where
  fits : ∀ a nc, cmdMap.lookup a = some nc → Fits cmds idx a nc
  nonempty : ∀ a nc, cmdMap.lookup a = some nc → nc.indexes ≠ []
  disjoint : ∀ a nc b nd, cmdMap.lookup a = some nc → cmdMap.lookup b = some nd → a ≠ b →
    ∀ i ∈ nc.indexes, i ∉ nd.indexes
  covers : ∀ i, i < idx → ∃ a nc, cmdMap.lookup a = some nc ∧ i ∈ nc.indexes

namespace Plan

variable {cmds : List Cmd} {idx : Nat} {cmdMap : AList fun _ : NodeAddress => NodeCmd}

theorem empty (cmds : List Cmd) : Plan cmds 0 ∅ where
  fits _ _ h := by cases h
  nonempty _ _ h := by cases h
  disjoint _ _ _ _ h := by cases h
  covers _ h := absurd h (Nat.not_lt_zero _)

theorem entry (h : Plan cmds idx cmdMap) (a : NodeAddress) : Fits cmds idx a ((cmdMap.lookup a).getD (.new a)) := by
  rcases hlook : cmdMap.lookup a with _ | nc
  · exact .new cmds idx a
  · exact h.fits a nc hlook

theorem push_apart (h : Plan cmds idx cmdMap) (cmd : Cmd) {a b : NodeAddress} {nd : NodeCmd} (hb : b ≠ a)
    (hnd : cmdMap.lookup b = some nd) {i : Nat} (hi : i ∈ nd.indexes) :
    i ∉ (((cmdMap.lookup a).getD (.new a)).push idx cmd).indexes := by
  intro hmem
  rcases mem_append.1 hmem with hmem | hmem
  · rcases hlook : cmdMap.lookup a with _ | nc
    · rw [hlook] at hmem
      exact absurd hmem not_mem_nil
    · rw [hlook] at hmem
      exact h.disjoint b nd a nc hnd hlook hb i hi hmem
  · have hlt := (h.fits b nd hnd).lt i hi
    rw [mem_singleton.1 hmem] at hlt
    exact absurd hlt (Nat.lt_irrefl _)

theorem push (h : Plan cmds idx cmdMap) {cmd : Cmd} (hcmd : cmds[idx]? = some cmd) (a : NodeAddress) :
    Plan cmds (idx + 1) (cmdMap.insert a (((cmdMap.lookup a).getD (.new a)).push idx cmd)) where
  fits b nd hnd := by
    rcases lookup_insert_cases hnd with ⟨rfl, rfl⟩ | ⟨-, hnd⟩
    · exact (h.entry b).push hcmd
    · exact (h.fits b nd hnd).succ
  nonempty b nd hnd := by
    rcases lookup_insert_cases hnd with ⟨-, rfl⟩ | ⟨-, hnd⟩
    · exact append_ne_nil_of_right_ne_nil _ (cons_ne_nil _ _)
    · exact h.nonempty b nd hnd
  disjoint b nb d nd hb hd hne i hi := by
    rcases lookup_insert_cases hb with ⟨rfl, rfl⟩ | ⟨hba, hnb⟩
    · rcases lookup_insert_cases hd with ⟨rfl, -⟩ | ⟨hdb, hnd⟩
      · exact absurd rfl hne
      · exact fun hmem => h.push_apart cmd hdb hnd hmem hi
    · rcases lookup_insert_cases hd with ⟨rfl, rfl⟩ | ⟨-, hnd⟩
      · exact h.push_apart cmd hba hnb hi
      · exact h.disjoint b nb d nd hnb hnd hne i hi
  covers i hi := by
    rcases Nat.lt_succ_iff_lt_or_eq.1 hi with hi | rfl
    · obtain ⟨b, nb, hb, hmem⟩ := h.covers i hi
      rcases eq_or_ne b a with rfl | hba
      · refine ⟨b, _, AList.lookup_insert _, mem_append_left _ ?_⟩
        rw [hb]
        exact hmem
      · exact ⟨b, nb, (AList.lookup_insert_ne hba).trans hb, hmem⟩
    · exact ⟨a, _, AList.lookup_insert _, mem_append_right _ mem_cons_self⟩

end Plan

theorem mapCmdsFrom_plan [Crc16] (before cmds : List Cmd) {cmdMap cmdMap' : AList fun _ : NodeAddress => NodeCmd}
    (h : Plan (before ++ cmds) before.length cmdMap) {s s' : ClusterConnection C}
    (hrun : mapCmdsFrom env before.length cmdMap cmds s = (.ok (.ok cmdMap'), s')) :
    Plan (before ++ cmds) (before ++ cmds).length cmdMap' := by
  induction cmds generalizing before cmdMap s with
  | nil =>
    have hmap : cmdMap = cmdMap' := by
      have := congrArg Prod.fst hrun
      exact Except.ok.inj (Except.ok.inj this)
    rw [append_nil] at h ⊢
    exact hmap ▸ h
  | cons cmd cmds ih =>
    unfold mapCmdsFrom at hrun
    rcases hget : getAddrForCmd env cmd s with ⟨e | (e | addr), s₁⟩
    · rw [Prog.bind_of_error hget] at hrun
      cases hrun
    · rw [Prog.bind_of_ok hget] at hrun
      cases hrun
    · rw [Prog.bind_of_ok hget] at hrun
      have hcmd : (before ++ cmd :: cmds)[before.length]? = some cmd := by simp
      have hnext := h.push hcmd addr
      have hlist : before ++ cmd :: cmds = (before ++ [cmd]) ++ cmds := by simp
      rw [hlist] at hnext ⊢
      have hlen : before.length + 1 = (before ++ [cmd]).length := by simp
      rw [hlen] at hnext
      refine ih (before ++ [cmd]) hnext (s := s₁) ?_
      rw [← hlen]
      exact hrun

/-- The commands are split between nodes, each with its commands in increasing order. -/
structure Partitioned (cmds : List Cmd) (ncs : List NodeCmd) : Prop where
  addrs : (ncs.map NodeCmd.addr).Nodup
  indexes : (ncs.flatMap NodeCmd.indexes).Perm (List.range cmds.length)
  nonempty : ∀ nc ∈ ncs, nc.indexes ≠ []
  sorted : ∀ nc ∈ ncs, nc.indexes.Pairwise (· < ·)
  pipe : ∀ nc ∈ ncs, nc.pipe = (nc.indexes.filterMap (cmds[·]?)).flatMap Cmd.writePackedCommand

theorem mem_entries {cmdMap : AList fun _ : NodeAddress => NodeCmd} {order : List NodeAddress}
    (hord : order.Perm cmdMap.keys) {nc : NodeCmd} :
    nc ∈ order.filterMap cmdMap.lookup ↔ ∃ a, cmdMap.lookup a = some nc := by
  refine ⟨fun hnc => ?_, fun ⟨a, ha⟩ => ?_⟩
  · obtain ⟨a, -, ha⟩ := mem_filterMap.1 hnc
    exact ⟨a, ha⟩
  · have hkey : a ∈ cmdMap.keys := AList.lookup_isSome.1 (by rw [ha]; rfl)
    exact mem_filterMap.2 ⟨a, hord.mem_iff.2 hkey, ha⟩

namespace Plan

variable {cmds : List Cmd} {idx : Nat} {cmdMap : AList fun _ : NodeAddress => NodeCmd} {order : List NodeAddress}

theorem map_addr (h : Plan cmds idx cmdMap) (hkeys : ∀ a ∈ order, ∃ nc, cmdMap.lookup a = some nc) :
    (order.filterMap cmdMap.lookup).map NodeCmd.addr = order := by
  induction order with
  | nil => rfl
  | cons a order ih =>
    obtain ⟨nc, hnc⟩ := hkeys a mem_cons_self
    rw [filterMap_cons_some (f := fun a => cmdMap.lookup a) hnc, map_cons,
      (h.fits a nc hnc).addr, ih fun b hb => hkeys b (mem_cons_of_mem _ hb)]

theorem nodup_addrs (h : Plan cmds idx cmdMap) (hord : order.Perm cmdMap.keys) :
    ((order.filterMap cmdMap.lookup).map NodeCmd.addr).Nodup := by
  have hkeys : ∀ a ∈ order, ∃ nc, cmdMap.lookup a = some nc :=
    fun a ha => Option.isSome_iff_exists.1 (AList.lookup_isSome.2 (hord.mem_iff.1 ha))
  rw [h.map_addr hkeys]
  exact hord.nodup_iff.2 cmdMap.nodupKeys

theorem nodup_indexes (h : Plan cmds idx cmdMap) (hord : order.Perm cmdMap.keys) :
    ((order.filterMap cmdMap.lookup).flatMap NodeCmd.indexes).Nodup := by
  refine nodup_flatMap.2 ⟨fun nc hnc => ?_, ?_⟩
  · obtain ⟨a, ha⟩ := (mem_entries hord).1 hnc
    exact (h.fits a nc ha).sorted.imp Nat.ne_of_lt
  · refine (pairwise_map.1 (h.nodup_addrs hord)).imp_of_mem fun {nc nd} hnc hnd hne => ?_
    obtain ⟨a, ha⟩ := (mem_entries hord).1 hnc
    obtain ⟨b, hb⟩ := (mem_entries hord).1 hnd
    rw [(h.fits a nc ha).addr, (h.fits b nd hb).addr] at hne
    exact fun i hi => h.disjoint a nc b nd ha hb hne i hi

theorem mem_indexes (h : Plan cmds idx cmdMap) (hord : order.Perm cmdMap.keys) {i : Nat} :
    i ∈ (order.filterMap cmdMap.lookup).flatMap NodeCmd.indexes ↔ i < idx := by
  rw [mem_flatMap]
  constructor
  · rintro ⟨nc, hnc, hi⟩
    obtain ⟨a, ha⟩ := (mem_entries hord).1 hnc
    exact (h.fits a nc ha).lt i hi
  · intro hi
    obtain ⟨a, nc, ha, hmem⟩ := h.covers i hi
    exact ⟨nc, (mem_entries hord).2 ⟨a, ha⟩, hmem⟩

theorem partitioned (h : Plan cmds cmds.length cmdMap) (hord : order.Perm cmdMap.keys) :
    Partitioned cmds (order.filterMap cmdMap.lookup) where
  addrs := h.nodup_addrs hord
  -- both lists are without duplicates and have the same elements
  indexes := (perm_ext_iff_of_nodup (h.nodup_indexes hord) nodup_range).2 fun _ =>
    (h.mem_indexes hord).trans mem_range.symm
  nonempty nc hnc := by
    obtain ⟨a, ha⟩ := (mem_entries hord).1 hnc
    exact h.nonempty a nc ha
  sorted nc hnc := by
    obtain ⟨a, ha⟩ := (mem_entries hord).1 hnc
    exact (h.fits a nc ha).sorted
  pipe nc hnc := by
    obtain ⟨a, ha⟩ := (mem_entries hord).1 hnc
    exact (h.fits a nc ha).pipe

end Plan

variable {s : ClusterConnection C} {cmds : List Cmd}

theorem mapCmdsToNodes_partitioned [Crc16] {ncs : List NodeCmd}
    (hrun : (mapCmdsToNodes env cmds s).1 = .ok (.ok ncs)) : Partitioned cmds ncs := by
  unfold mapCmdsToNodes at hrun
  rcases hmap : mapCmdsFrom env 0 ∅ cmds s with ⟨e | (e | cmdMap), s₁⟩
  · rw [Prog.bind_of_error hmap] at hrun
    cases hrun
  · rw [Prog.bind_of_ok hmap] at hrun
    cases hrun
  · rw [Prog.bind_of_ok hmap] at hrun
    have hplan : Plan cmds cmds.length cmdMap := mapCmdsFrom_plan env [] cmds (Plan.empty cmds) hmap
    have hncs : (env.order s₁.tick cmdMap.keys).filterMap cmdMap.lookup = ncs := Except.ok.inj (Except.ok.inj hrun)
    exact hncs ▸ hplan.partitioned (env.order_perm _ _)

theorem mapCmdsToNodes_of_routed [Crc16]
    (h : ∀ cmd ∈ cmds, ∀ t, ∃ addr, (getAddrForCmd env cmd { s with tick := t }).1 = .ok (.ok addr)) :
    ∃ ncs, (mapCmdsToNodes env cmds s).1 = .ok (.ok ncs) := by
  have hfrom : ∀ (cmds : List Cmd) (idx : Nat) (cmdMap : AList fun _ : NodeAddress => NodeCmd) (t : Nat),
      (∀ cmd ∈ cmds, ∀ t, ∃ addr, (getAddrForCmd env cmd { s with tick := t }).1 = .ok (.ok addr)) →
      ∃ cmdMap', (mapCmdsFrom env idx cmdMap cmds { s with tick := t }).1 = .ok (.ok cmdMap') := by
    intro cmds
    induction cmds with
    | nil => exact fun idx cmdMap t _ => ⟨cmdMap, rfl⟩
    | cons cmd cmds ih =>
      intro idx cmdMap t hcmds
      obtain ⟨addr, haddr⟩ := hcmds cmd mem_cons_self t
      obtain ⟨t', ht'⟩ := (getAddrForCmd_ticks env cmd).run { s with tick := t }
      have hget : getAddrForCmd env cmd { s with tick := t } = (.ok (.ok addr), { s with tick := t' }) :=
        Prod.ext haddr ht'
      unfold mapCmdsFrom
      rw [Prog.bind_of_ok hget]
      exact ih _ _ t' fun c hc => hcmds c (mem_cons_of_mem _ hc)
  obtain ⟨cmdMap, hmap⟩ := hfrom cmds 0 ∅ s.tick h
  unfold mapCmdsToNodes
  have hrun : mapCmdsFrom env 0 ∅ cmds s = (.ok (.ok cmdMap), (mapCmdsFrom env 0 ∅ cmds s).2) := Prod.ext hmap rfl
  rw [Prog.bind_of_ok hrun]
  exact ⟨_, rfl⟩

end ClusterConnection

end Cluster

end RedisRs
