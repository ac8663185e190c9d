import Mathlib.Data.List.Rotate
import RedisRs.Run
import RedisRs.Topology

/-!
# Reads that go round the replicas
-/

namespace RedisRs

open Function List Run ClusterTopology

namespace ReadCandidates

def slot : ReadCandidates → UInt16
  | anyNode slot _ _ => slot
  | replicasOnly slot _ => slot

def replicas : ReadCandidates → List NodeAddress
  | anyNode _ _ replicas => replicas
  | replicasOnly _ replicas => replicas

end ReadCandidates

structure ReadCall where
  candidates : ReadCandidates
  nonempty : candidates.replicas ≠ []

namespace ReadCall

def slot (c : ReadCall) : UInt16 := c.candidates.slot

def replicas (c : ReadCall) : List NodeAddress := c.candidates.replicas

theorem length_pos (c : ReadCall) : 0 < c.replicas.length := length_pos_of_ne_nil c.nonempty

def replica (c : ReadCall) (idx : UInt64) : NodeAddress :=
  c.replicas.get ⟨idx.toNat % c.replicas.length, Nat.mod_lt _ c.length_pos⟩

end ReadCall

structure RoundRobinReplicaStrategy where
  slots : SlotRangeMap Nat
  counters : Nat → UInt64

namespace RoundRobinReplicaStrategy

def new : RoundRobinReplicaStrategy := ⟨.new, fun _ => 0⟩

def onTopologyChanged (_ : RoundRobinReplicaStrategy) (t : ClusterTopology) : RoundRobinReplicaStrategy where
  slots := SlotRangeMap.new.insertAll (rangesOf t.shards.zipIdx)
  counters _ := 0

end RoundRobinReplicaStrategy

section Counters

variable {shards : List Shard}

open SlotRangeMap in
theorem mem_iter_onTopologyChanged (h : DistinctEnds shards) (strategy : RoundRobinReplicaStrategy)
    {range : UInt16 × UInt16 × Nat} : range ∈ (strategy.onTopologyChanged (.fromShards shards)).slots.iter ↔
      ∃ arc, (fromShards shards).shardArcs[range.2.2]? = some arc ∧
        LastEnd Prod.snd (range.1, range.2.1) arc.val.slotRanges := by
  have hends : DistinctEnds ((fromShards shards).shards.zipIdx.map Prod.fst) := by
    rw [zipIdx_map_fst, ClusterTopology.shards]
    have hused : DistinctEnds ((usedArcs shards).map Arc.val) := by
      have harcs : ((arcsOf shards).map Prod.snd).map Arc.val = shards := by
        rw [arcsOf, map_map, map_map]
        exact zipIdx_map_fst 0 shards
      exact Pairwise.sublist (filter_sublist.map _) (harcs.symm ▸ h)
    exact (((perm_shardArcs h).map Arc.val).pairwise_iff fun hab r hr r' hr' => (hab r' hr' r hr).symm).2 hused
  rw [RoundRobinReplicaStrategy.onTopologyChanged, mem_iter_insertAll_new, lastEnd_rangesOf hends]
  constructor
  · rintro ⟨entry, hent, hlast, hidx⟩
    have hshard := mem_zipIdx_iff_getElem?.1 hent
    rw [ClusterTopology.shards, getElem?_map, ← hidx] at hshard
    obtain ⟨arc, harc, hval⟩ := Option.map_eq_some_iff.1 hshard
    exact ⟨arc, harc, hval ▸ hlast⟩
  · rintro ⟨arc, harc, hlast⟩
    refine ⟨(arc.val, range.2.2), mem_zipIdx_iff_getElem?.2 ?_, hlast, rfl⟩
    rw [ClusterTopology.shards, getElem?_map, harc]
    rfl

theorem get_onTopologyChanged (h : DistinctEnds shards) (strategy : RoundRobinReplicaStrategy) (slot : UInt16) :
    (strategy.onTopologyChanged (.fromShards shards)).slots.get slot =
      ((fromShards shards).slots.get slot).map (fromShards shards).shardArcs.idxOf := by
  have hnd : (fromShards shards).shardArcs.Nodup := .of_map _ (nodup_firstPtrs [] _)
  refine SlotRangeMap.get_of_perm_map ?_ slot
  have hmapped : (((fromShards shards).slots.iter.map fun range =>
      (range.1, range.2.1, (fromShards shards).shardArcs.idxOf range.2.2)).map fun range => range.2.1).Nodup := by
    rw [map_map]
    exact (fromShards shards).slots.nodup_ends
  refine (perm_ext_iff_of_nodup (.of_map _ (SlotRangeMap.nodup_ends _)) (.of_map _ hmapped)).2 fun range => ?_
  rw [mem_iter_onTopologyChanged h, mem_map]
  constructor
  · rintro ⟨arc, harc, hlast⟩
    obtain ⟨hshard, -⟩ := mem_usedArcs.1 ((perm_shardArcs h).mem_iff.1 (mem_of_getElem? harc))
    obtain ⟨hlt, heq⟩ := List.getElem?_eq_some_iff.1 harc
    refine ⟨(range.1, range.2.1, arc), (mem_iter_fromShards h).2 ⟨hshard, hlast⟩, ?_⟩
    rw [← heq, hnd.idxOf_getElem _ hlt]
  · rintro ⟨range, hrange, rfl⟩
    obtain ⟨hshard, hlast⟩ := (mem_iter_fromShards h).1 hrange
    have harc := (perm_shardArcs h).mem_iff.2 (mem_usedArcs.2 ⟨hshard, ne_nil_of_mem hlast.mem⟩)
    exact ⟨range.2.2, getElem?_idxOf harc, hlast⟩

variable {slot : UInt16} {arc : Arc Shard}

theorem SlotRangeMap.mem_values_of_get {V : Type} {m : SlotRangeMap V} {v : V} (h : m.get slot = some v) :
    v ∈ m.values := by
  obtain ⟨range, hfind, hv⟩ := Option.bind_eq_some_iff.1 h
  by_cases hstart : range.2.1 ≤ slot
  · rw [if_pos hstart] at hv
    cases hv
    exact mem_map_of_mem (mem_of_find?_eq_some hfind)
  · rw [if_neg hstart] at hv
    cases hv

theorem mem_shardArcs_of_get (h : DistinctEnds shards) (hget : (fromShards shards).slots.get slot = some arc) :
    arc ∈ (fromShards shards).shardArcs :=
  (perm_shardArcs h).mem_iff.2
    ((mem_values_fromShards h).1 (SlotRangeMap.mem_values_of_get hget))

theorem counter_eq_iff (h : DistinctEnds shards) (strategy : RoundRobinReplicaStrategy) {counter : Nat}
    (hget : (fromShards shards).slots.get slot = some arc)
    (hctr : (strategy.onTopologyChanged (.fromShards shards)).slots.get slot = some counter) {slot' : UInt16}
    {counter' : Nat} (hctr' : (strategy.onTopologyChanged (.fromShards shards)).slots.get slot' = some counter') :
    counter' = counter ↔ (fromShards shards).slots.get slot' = some arc := by
  rw [get_onTopologyChanged h] at hctr hctr'
  obtain ⟨arc', harc', rfl⟩ := Option.map_eq_some_iff.1 hctr'
  rw [hget] at hctr
  cases hctr
  rw [harc', Option.some.injEq]
  exact idxOf_inj (mem_shardArcs_of_get h harc')

end Counters

inductive ReadPhase
  | uncalled
  | called (c : ReadCall)
  | looked (c : ReadCall) (counter : Option Nat)
  | counted (c : ReadCall) (idx : UInt64)
  | returned (c : ReadCall) (addr : NodeAddress)

structure Added where
  id : Nat
  call : ReadCall
  counter : Nat

structure Reads where
  strategy : RoundRobinReplicaStrategy
  calls : Nat → ReadPhase
  made : Nat
  order : List Added

inductive ReadStep
  | call (c : ReadCall)
  | look (i : Nat)
  | add (i : Nat)
  | pick (i : Nat)

namespace Reads

def start (strategy : RoundRobinReplicaStrategy) (t : ClusterTopology) : Reads :=
  ⟨strategy.onTopologyChanged t, fun _ => .uncalled, 0, []⟩

def step (s : Reads) : ReadStep → Option (Unit × Reads)
  | .call c => some ((), { s with calls := update s.calls s.made (.called c), made := s.made + 1 })
  | .look i =>
    match s.calls i with
    | .called c => some ((), { s with calls := update s.calls i (.looked c (s.strategy.slots.get c.slot)) })
    | _ => none
  | .add i =>
    match s.calls i with
    | .looked c none => some ((), { s with calls := update s.calls i (.counted c 0) })
    | .looked c (some counter) =>
      let idx := s.strategy.counters counter
      some ((), { s with
        strategy := { s.strategy with counters := update s.strategy.counters counter (idx + 1) }
        calls := update s.calls i (.counted c idx)
        order := s.order ++ [⟨i, c, counter⟩] })
    | _ => none
  | .pick i =>
    match s.calls i with
    | .counted c idx => some ((), { s with calls := update s.calls i (.returned c (c.replica idx)) })
    | _ => none

def countOn (counter : Nat) (order : List Added) : Nat := order.countP (·.counter = counter)

/-- The call has got the number of the earlier additions to the counter of its slot. -/
def Placed (slots : SlotRangeMap Nat) (order : List Added) (i : Nat) (c : ReadCall) (idx : UInt64) : Prop :=
  ∃ n e, order[n]? = some e ∧ e.id = i ∧ e.call = c ∧ slots.get c.slot = some e.counter ∧
    idx = UInt64.ofNat (countOn e.counter (order.take n))

/-- A call that is past the addition; without a counter there was none. -/
def Counted (slots : SlotRangeMap Nat) (order : List Added) (i : Nat) (c : ReadCall) (idx : UInt64) : Prop :=
  (slots.get c.slot = none ∧ i ∉ order.map Added.id) ∨ Placed slots order i c idx

/-- What is known of a call in each phase. -/
def Known (slots : SlotRangeMap Nat) (order : List Added) (i : Nat) : ReadPhase → Prop
  | .uncalled => i ∉ order.map Added.id
  | .called _ => i ∉ order.map Added.id
  | .looked c counter => slots.get c.slot = counter ∧ i ∉ order.map Added.id
  | .counted c idx => Counted slots order i c idx
  | .returned c addr => ∃ idx, Counted slots order i c idx ∧ addr = c.replica idx

/-- The counters count the additions made, and each call is where `Known` says. -/
structure Inv (slots : SlotRangeMap Nat) (s : Reads) : Prop where
  slots_eq : s.strategy.slots = slots
  fresh : ∀ i, s.made ≤ i → s.calls i = .uncalled
  counters : ∀ counter, s.strategy.counters counter = UInt64.ofNat (countOn counter s.order)
  nodup : (s.order.map Added.id).Nodup
  known : ∀ i, Known slots s.order i (s.calls i)

section Known

variable {slots : SlotRangeMap Nat} {order : List Added} {i : Nat} {e : Added}

theorem Counted.concat {c : ReadCall} {idx : UInt64} (h : Counted slots order i c idx) (hne : i ≠ e.id) :
    Counted slots (order ++ [e]) i c idx := by
  rcases h with ⟨hnone, hnew⟩ | ⟨n, e', he', hrest⟩
  · exact .inl ⟨hnone, by simpa [hne] using hnew⟩
  · have hlt := (List.getElem?_eq_some_iff.1 he').1
    refine .inr ⟨n, e', by rw [getElem?_append_left hlt, he'], ?_⟩
    rwa [take_append_of_le_length hlt.le]

theorem Known.concat {phase : ReadPhase} (h : Known slots order i phase) (hne : i ≠ e.id) :
    Known slots (order ++ [e]) i phase := by
  have hnotin : i ∉ order.map Added.id → i ∉ (order ++ [e]).map Added.id := by
    intro hnew
    simpa [hne] using hnew
  cases phase with
  | uncalled => exact hnotin h
  | called c => exact hnotin h
  | looked c counter => exact ⟨h.1, hnotin h.2⟩
  | counted c idx => exact Counted.concat h hne
  | returned c addr =>
    obtain ⟨idx, hidx, haddr⟩ := h
    exact ⟨idx, hidx.concat hne, haddr⟩

theorem known_added {c : ReadCall} {counter : Nat} (hslot : slots.get c.slot = some counter) :
    Known slots (order ++ [⟨i, c, counter⟩]) i (.counted c (UInt64.ofNat (countOn counter order))) :=
  .inr ⟨order.length, ⟨i, c, counter⟩, by simp, rfl, rfl, hslot, by simp⟩

end Known

namespace Inv

variable {slots : SlotRangeMap Nat} {s : Reads}

theorem start (strategy : RoundRobinReplicaStrategy) (t : ClusterTopology) :
    Inv (strategy.onTopologyChanged t).slots (start strategy t) where
  slots_eq := rfl
  fresh _ _ := rfl
  counters _ := rfl
  nodup := .nil
  known _ := not_mem_nil

theorem lt_made (h : Inv slots s) {i : Nat} (hi : s.calls i ≠ .uncalled) : i < s.made :=
  Nat.lt_of_not_le fun hle => hi (h.fresh i hle)

theorem known_of (h : Inv slots s) {i : Nat} {phase : ReadPhase} (hi : s.calls i = phase) :
    Known slots s.order i phase := hi ▸ h.known i

theorem update (h : Inv slots s) {i made : Nat} {phase : ReadPhase} (hmade : s.made ≤ made) (hi : i < made)
    (hknown : Known slots s.order i phase) :
    Inv slots { s with calls := update s.calls i phase, made := made } where
  slots_eq := h.slots_eq
  fresh j hj := by
    have hj' : made ≤ j := hj
    have hne : j ≠ i := by omega
    exact (update_of_ne hne _ _).trans (h.fresh j (by omega))
  counters := h.counters
  nodup := h.nodup
  known j := by
    show Known slots s.order j (Function.update s.calls i phase j)
    by_cases heq : j = i
    · subst heq
      rw [update_self]
      exact hknown
    · rw [update_of_ne heq]
      exact h.known j

theorem add (h : Inv slots s) {i counter : Nat} {c : ReadCall} (hi : s.calls i = .looked c (some counter)) :
    Inv slots { s with
      strategy := { s.strategy with
        counters := Function.update s.strategy.counters counter (s.strategy.counters counter + 1) }
      calls := Function.update s.calls i (.counted c (s.strategy.counters counter))
      order := s.order ++ [⟨i, c, counter⟩] } where
  slots_eq := h.slots_eq
  fresh j hj := by
    have hlt : i < s.made := h.lt_made fun hun => by rw [hi] at hun; cases hun
    have hj' : s.made ≤ j := hj
    have hne : j ≠ i := by omega
    exact (update_of_ne hne _ _).trans (h.fresh j hj')
  counters n := by
    show Function.update s.strategy.counters counter _ n = UInt64.ofNat (countOn n (s.order ++ [⟨i, c, counter⟩]))
    rw [countOn, countP_append, countP_singleton]
    by_cases heq : n = counter
    · subst heq
      rw [update_self, h.counters n, if_pos (decide_eq_true rfl), UInt64.ofNat_add]
      rfl
    · have hne : ¬ counter = n := fun h => heq h.symm
      rw [update_of_ne heq, h.counters n, if_neg (by simpa using hne), Nat.add_zero]
      rfl
  nodup := by
    rw [map_append, map_singleton]
    refine nodup_append.2 ⟨h.nodup, nodup_singleton _, fun j hj k hk heq => (h.known_of hi).2 ?_⟩
    have hji : j = i := heq.trans (mem_singleton.1 hk)
    exact hji ▸ hj
  known j := by
    show Known slots _ j (Function.update s.calls i _ j)
    by_cases heq : j = i
    · subst heq
      rw [update_self, h.counters counter]
      exact known_added (h.known_of hi).1
    · rw [update_of_ne heq]
      exact (h.known j).concat heq

theorem step (h : Inv slots s) {a : ReadStep} {u : Unit} {s' : Reads} (hstep : s.step a = some (u, s')) :
    Inv slots s' := by
  have hlt : ∀ {i phase}, s.calls i = phase → phase ≠ .uncalled → i < s.made := fun hi hne => h.lt_made (hi ▸ hne)
  cases a with
  | call c =>
    cases hstep
    have hknown := h.known_of (h.fresh s.made le_rfl)
    exact h.update (Nat.le_succ _) (Nat.lt_succ_self _) hknown
  | look i =>
    rw [Reads.step] at hstep
    split at hstep
    · next c hi =>
      cases hstep
      exact h.update le_rfl (hlt hi nofun) ⟨congrArg (SlotRangeMap.get · c.slot) h.slots_eq.symm, h.known_of hi⟩
    · cases hstep
  | add i =>
    rw [Reads.step] at hstep
    split at hstep
    · next c hi =>
      cases hstep
      exact h.update le_rfl (hlt hi nofun) (.inl (h.known_of hi))
    · next c counter hi =>
      cases hstep
      exact h.add hi
    · cases hstep
  | pick i =>
    rw [Reads.step] at hstep
    split at hstep
    · next c idx hi =>
      cases hstep
      exact h.update le_rfl (hlt hi nofun) ⟨idx, h.known_of hi, rfl⟩
    · cases hstep

theorem run (h : Inv slots s) {steps : List ReadStep} {us : List Unit} {s' : Reads}
    (hrun : run Reads.step s steps = some (us, s')) : Inv slots s' :=
  run_inv (C := fun _ => True) (fun _ _ _ _ hs _ hstep => hs.step hstep) h (fun _ _ => trivial) hrun

end Inv

def readsOf (t : ClusterTopology) (arc : Arc Shard) (order : List Added) : List Added :=
  order.filter fun e => t.slots.get e.call.slot = some arc

theorem exists_index_of_filter {α : Type} {p : α → Bool} {l : List α} {k : Nat} {x : α} (h : (l.filter p)[k]? = some x) :
    ∃ n, l[n]? = some x ∧ (l.take n).countP p = k ∧ p x = true := by
  induction l generalizing k with
  | nil => simp at h
  | cons y l ih =>
    by_cases hy : p y = true
    · rw [filter_cons_of_pos hy] at h
      cases k with
      | zero =>
        cases h
        exact ⟨0, rfl, rfl, hy⟩
      | succ k =>
        obtain ⟨n, hn, hcnt, hx⟩ := ih h
        exact ⟨n + 1, hn, by rw [take_succ_cons, countP_cons_of_pos hy, hcnt], hx⟩
    · rw [filter_cons_of_neg hy] at h
      obtain ⟨n, hn, hcnt, hx⟩ := ih h
      exact ⟨n + 1, hn, by rw [take_succ_cons, countP_cons_of_neg hy, hcnt], hx⟩

theorem Inv.index_eq {slots : SlotRangeMap Nat} {s : Reads} (h : Inv slots s) {n n' : Nat} {e e' : Added}
    (he : s.order[n]? = some e) (he' : s.order[n']? = some e') (hid : e'.id = e.id) : n' = n ∧ e' = e := by
  cases inj_on_of_nodup_map h.nodup (mem_of_getElem? he') (mem_of_getElem? he) hid
  obtain ⟨hlt, -⟩ := List.getElem?_eq_some_iff.1 he'
  exact ⟨(getElem?_inj hlt (.of_map _ h.nodup)).1 (he'.trans he.symm), rfl⟩

theorem Inv.counter_of_mem {slots : SlotRangeMap Nat} {s : Reads} (h : Inv slots s) {e : Added} (he : e ∈ s.order) :
    slots.get e.call.slot = some e.counter := by
  have hin : e.id ∈ s.order.map Added.id := mem_map_of_mem he
  obtain ⟨n, hn⟩ := mem_iff_getElem?.1 he
  have hplaced : ∀ {c idx}, Counted slots s.order e.id c idx → slots.get e.call.slot = some e.counter := by
    rintro c idx (⟨-, hnew⟩ | ⟨n', e', he', hid, rfl, hctr, -⟩)
    · exact absurd hin hnew
    · obtain ⟨-, rfl⟩ := h.index_eq hn he' hid
      exact hctr
  have hknown := h.known e.id
  cases hphase : s.calls e.id with
  | uncalled => rw [hphase] at hknown; exact absurd hin hknown
  | called c => rw [hphase] at hknown; exact absurd hin hknown
  | looked c counter => rw [hphase] at hknown; exact absurd hin hknown.2
  | counted c idx => rw [hphase] at hknown; exact hplaced hknown
  | returned c addr =>
    rw [hphase] at hknown
    obtain ⟨idx, hidx, -⟩ := hknown
    exact hplaced hidx

section Shard

variable {shards : List Shard} {strategy : RoundRobinReplicaStrategy} {s : Reads}

variable {arc : Arc Shard} {c : ReadCall} {addr : NodeAddress}

theorem Inv.index_of_readsOf (h : Inv (strategy.onTopologyChanged (.fromShards shards)).slots s)
    (hends : DistinctEnds shards) {k : Nat} {e : Added} (he : (readsOf (.fromShards shards) arc s.order)[k]? = some e)
    (hret : s.calls e.id = .returned c addr) : e.call = c ∧ addr = c.replica (UInt64.ofNat k) := by
  obtain ⟨n, hn, hcnt, hslot⟩ := exists_index_of_filter he
  have hget := of_decide_eq_true hslot
  obtain ⟨idx, ⟨-, hnew⟩ | ⟨n', e', hn', hid, rfl, hctr, rfl⟩, haddr⟩ := h.known_of hret
  · exact absurd (mem_map_of_mem (mem_of_getElem? hn)) hnew
  · obtain ⟨rfl, rfl⟩ := h.index_eq hn hn' hid
    have hsame : countOn e'.counter (s.order.take n') = k := by
      rw [← hcnt]
      refine countP_congr fun x hx => ?_
      rw [decide_eq_true_iff, decide_eq_true_iff]
      exact counter_eq_iff hends strategy hget hctr (h.counter_of_mem (mem_of_mem_take hx))
    rw [hsame] at haddr
    exact ⟨rfl, haddr⟩

theorem Inv.length_order_le {slots : SlotRangeMap Nat} (h : Inv slots s) : s.order.length ≤ s.made := by
  have hsub : s.order.map Added.id ⊆ List.range s.made := fun i hi =>
    mem_range.2 (h.lt_made fun huncalled => h.known_of huncalled hi)
  have hle := (subperm_of_subset h.nodup hsub).length_le
  rwa [length_map, length_range] at hle

theorem replica_ofNat {k : Nat} (hk : k < 2 ^ 64) :
    c.replicas[k % c.replicas.length]? = some (c.replica (UInt64.ofNat k)) := by
  have htoNat : (UInt64.ofNat k).toNat = k := UInt64.toNat_ofNat_of_lt' hk
  rw [ReadCall.replica, get_eq_getElem, ← getElem?_eq_getElem]
  simp only [htoNat]

theorem Inv.replica_of_readsOf (h : Inv (strategy.onTopologyChanged (.fromShards shards)).slots s)
    (hends : DistinctEnds shards) (hmade : s.made < 2 ^ 64) {k : Nat} {e : Added}
    (he : (readsOf (.fromShards shards) arc s.order)[k]? = some e) (hret : s.calls e.id = .returned c addr)
    (hrepls : c.replicas = arc.val.replicas) : arc.val.replicas[k % arc.val.replicas.length]? = some addr := by
  have hk : k < s.order.length :=
    Nat.lt_of_lt_of_le (List.getElem?_eq_some_iff.1 he).1 (length_filter_le _ _)
  have hle := h.length_order_le
  rw [(h.index_of_readsOf hends he hret).2, ← hrepls]
  exact replica_ofNat (by omega)

theorem Inv.mem_readsOf (h : Inv (strategy.onTopologyChanged (.fromShards shards)).slots s)
    (hends : DistinctEnds shards) {i : Nat} (hret : s.calls i = .returned c addr)
    (hget : (fromShards shards).slots.get c.slot = some arc) :
    ∃ e ∈ readsOf (.fromShards shards) arc s.order, e.id = i ∧ e.call = c := by
  obtain ⟨idx, ⟨hnone, -⟩ | ⟨n, e, hn, rfl, rfl, -, -⟩, -⟩ := h.known_of hret
  · rw [get_onTopologyChanged hends, hget] at hnone
    cases hnone
  · exact ⟨e, mem_filter.2 ⟨mem_of_getElem? hn, decide_eq_true hget⟩, rfl, rfl⟩

theorem Inv.rotate_of_readsOf (h : Inv (strategy.onTopologyChanged (.fromShards shards)).slots s)
    (hends : DistinctEnds shards) (hmade : s.made < 2 ^ 64) {k : Nat} {addrs : List NodeAddress}
    (hlen : k + arc.val.replicas.length ≤ (readsOf (.fromShards shards) arc s.order).length)
    (haddrs : Forall₂ (fun e addr => e.call.replicas = arc.val.replicas ∧ s.calls e.id = .returned e.call addr)
      (((readsOf (.fromShards shards) arc s.order).drop k).take arc.val.replicas.length) addrs) :
    addrs = arc.val.replicas.rotate k := by
  have hwindow : (((readsOf (.fromShards shards) arc s.order).drop k).take arc.val.replicas.length).length =
      arc.val.replicas.length := by
    rw [length_take, length_drop]
    omega
  have haddrsLen : addrs.length = arc.val.replicas.length := haddrs.length_eq.symm.trans hwindow
  refine ext_getElem (haddrsLen.trans (length_rotate _ _).symm) fun j hj hj' => ?_
  have hjr : j < arc.val.replicas.length := haddrsLen ▸ hj
  have hread := haddrs.get (hjr.trans_eq hwindow.symm) hj
  rw [get_eq_getElem, get_eq_getElem] at hread
  have hplace : (readsOf (.fromShards shards) arc s.order)[k + j]? =
      some (((readsOf (.fromShards shards) arc s.order).drop k).take arc.val.replicas.length)[j] := by
    rw [getElem_take, getElem_drop]
    exact getElem?_eq_getElem _
  have hrepl := h.replica_of_readsOf hends hmade hplace hread.2 hread.1
  rw [Nat.add_comm, ← getElem?_rotate hjr, getElem?_eq_getElem hj'] at hrepl
  exact (Option.some.inj hrepl).symm

end Shard

/-- Whatever the interleaving, the `k`-th read of a shard gets the replica with the number `k` modulo the number of the
replicas, so as many reads in a row as there are replicas get each of them once. A topology that comes from a slot map has
ranges with different ends. -/
theorem reads_go_round (shards : List Shard) (hends : DistinctEnds shards) (strategy : RoundRobinReplicaStrategy)
    (steps : List ReadStep) (us : List Unit) (s : Reads)
    (hrun : run step (start strategy (.fromShards shards)) steps = some (us, s)) (hmade : s.made < 2 ^ 64) :
    (∀ (i : Nat) (c : ReadCall) (addr : NodeAddress) (arc : Arc Shard), s.calls i = .returned c addr →
      (fromShards shards).slots.get c.slot = some arc →
      ∃ (k : Nat) (e : Added), (readsOf (.fromShards shards) arc s.order)[k]? = some e ∧ e.id = i ∧ e.call = c) ∧
    (∀ (arc : Arc Shard) (k : Nat) (e : Added) (c : ReadCall) (addr : NodeAddress),
      (readsOf (.fromShards shards) arc s.order)[k]? = some e → s.calls e.id = .returned c addr →
      c.replicas = arc.val.replicas → arc.val.replicas[k % arc.val.replicas.length]? = some addr) ∧
    (∀ (arc : Arc Shard) (k : Nat) (addrs : List NodeAddress),
      k + arc.val.replicas.length ≤ (readsOf (.fromShards shards) arc s.order).length →
      Forall₂ (fun e addr => e.call.replicas = arc.val.replicas ∧ s.calls e.id = .returned e.call addr)
        (((readsOf (.fromShards shards) arc s.order).drop k).take arc.val.replicas.length) addrs →
      addrs.Perm arc.val.replicas) ∧
    ∀ map : SlotMap, map.topology = .fromShards map.builders ∧ DistinctEnds map.builders := by
  have hinv := (Inv.start strategy (.fromShards shards)).run hrun
  refine ⟨fun i c addr arc hreturned hget => ?_, fun arc k e c addr he hreturned hreplicas =>
    hinv.replica_of_readsOf hends hmade he hreturned hreplicas, fun arc k addrs hlen haddrs => ?_,
    fun map => ⟨rfl, map.distinctEnds_builders⟩⟩
  · obtain ⟨e, he, hid, hcall⟩ := hinv.mem_readsOf hends hreturned hget
    obtain ⟨k, hk⟩ := mem_iff_getElem?.1 he
    exact ⟨k, e, hk, hid, hcall⟩
  · rw [hinv.rotate_of_readsOf hends hmade hlen haddrs]
    exact rotate_perm _ _

theorem reads_go_round_two :
    ∃ us s, run step (start .new (.fromShards [⟨[(0, 100)], ⟨"p", 1⟩, [⟨"a", 1⟩, ⟨"b", 1⟩]⟩]))
      [.call ⟨.replicasOnly 7 [⟨"a", 1⟩, ⟨"b", 1⟩], by decide⟩, .call ⟨.replicasOnly 9 [⟨"a", 1⟩, ⟨"b", 1⟩], by decide⟩,
        .look 0, .look 1, .add 1, .add 0, .pick 0, .pick 1] = some (us, s) ∧
    s.calls 0 = .returned ⟨.replicasOnly 7 [⟨"a", 1⟩, ⟨"b", 1⟩], by decide⟩ ⟨"b", 1⟩ ∧
    ([⟨"a", 1⟩, ⟨"b", 1⟩] : List NodeAddress)[1 % 2]? = some ⟨"b", 1⟩ := by
  refine ⟨_, _, rfl, rfl, ?_⟩
  refine (reads_go_round [⟨[(0, 100)], ⟨"p", 1⟩, [⟨"a", 1⟩, ⟨"b", 1⟩]⟩] (pairwise_singleton _ _) .new
    [.call ⟨.replicasOnly 7 [⟨"a", 1⟩, ⟨"b", 1⟩], by decide⟩, .call ⟨.replicasOnly 9 [⟨"a", 1⟩, ⟨"b", 1⟩], by decide⟩,
      .look 0, .look 1, .add 1, .add 0, .pick 0, .pick 1] _ _ rfl (show 2 < 2 ^ 64 by decide)).2.1
    ⟨0, ⟨[(0, 100)], ⟨"p", 1⟩, [⟨"a", 1⟩, ⟨"b", 1⟩]⟩⟩ 1 ⟨0, ⟨.replicasOnly 7 [⟨"a", 1⟩, ⟨"b", 1⟩], by decide⟩, 0⟩
    ⟨.replicasOnly 7 [⟨"a", 1⟩, ⟨"b", 1⟩], by decide⟩ ⟨"b", 1⟩ ?_ ?_ rfl
  · rfl
  · rfl

theorem reads_share_counter :
    (fromShards
      [⟨[(0, 10), (20, 30)], ⟨"p", 1⟩, [⟨"a", 1⟩, ⟨"b", 1⟩]⟩,
        ⟨[(5, 10)], ⟨"q", 1⟩, [⟨"c", 1⟩, ⟨"d", 1⟩]⟩]).shardForSlot 7 =
      some ⟨[(5, 10)], ⟨"q", 1⟩, [⟨"c", 1⟩, ⟨"d", 1⟩]⟩ ∧
    (run step (start .new (.fromShards
        [⟨[(0, 10), (20, 30)], ⟨"p", 1⟩, [⟨"a", 1⟩, ⟨"b", 1⟩]⟩, ⟨[(5, 10)], ⟨"q", 1⟩, [⟨"c", 1⟩, ⟨"d", 1⟩]⟩]))
      [.call ⟨.replicasOnly 25 [⟨"a", 1⟩, ⟨"b", 1⟩], by decide⟩, .look 0, .add 0, .pick 0,
        .call ⟨.replicasOnly 7 [⟨"c", 1⟩, ⟨"d", 1⟩], by decide⟩, .look 1, .add 1, .pick 1]).map (fun r => r.2.calls 1) =
      some (.returned ⟨.replicasOnly 7 [⟨"c", 1⟩, ⟨"d", 1⟩], by decide⟩ ⟨"d", 1⟩) :=
  ⟨rfl, rfl⟩

end Reads

end RedisRs
