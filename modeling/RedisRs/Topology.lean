import RedisRs.Grouping
import RedisRs.SlotMap

/-!
# The topology of a cluster
-/

namespace RedisRs

open List

namespace SlotRangeMap

variable {V W : Type}

def iter (m : SlotRangeMap V) : List (UInt16 × UInt16 × V) := m.inner.map fun range => (range.2.1, range.1, range.2.2)

def insertAll (m : SlotRangeMap V) (ranges : List (UInt16 × UInt16 × V)) : SlotRangeMap V :=
  ranges.foldl (fun m range => m.insert range.1 range.2.1 range.2.2) m

variable {m : SlotRangeMap V} {ranges : List (UInt16 × UInt16 × V)}

theorem mem_iter_insert {start stop : UInt16} {value : V} {range : UInt16 × UInt16 × V} :
    range ∈ (m.insert start stop value).iter ↔ range = (start, stop, value) ∨ range ∈ m.iter ∧ range.2.1 ≠ stop := by
  have hiter : ∀ m : SlotRangeMap V, range ∈ m.iter ↔ (range.2.1, range.1, range.2.2) ∈ m.inner := by
    intro m
    rw [iter, mem_map]
    exact ⟨fun ⟨entry, hent, heq⟩ => heq ▸ hent, fun h => ⟨_, h, rfl⟩⟩
  rw [hiter, hiter, insert, mem_insertEnd m.sorted]
  refine or_congr_left ⟨fun h => ?_, fun h => h ▸ rfl⟩
  obtain ⟨hstop, hrest⟩ := Prod.mk.inj h
  obtain ⟨hstart, hval⟩ := Prod.mk.inj hrest
  rw [← hstart, ← hstop, ← hval]

theorem nodup_ends (m : SlotRangeMap V) : (m.iter.map fun range => range.2.1).Nodup := by
  rw [iter, map_map]
  refine pairwise_map.2 (m.sorted.imp fun {a b} hlt heq => ?_)
  have hends : a.1 = b.1 := heq
  exact UInt16.lt_irrefl _ (hends ▸ hlt)

/-- `x` is in the list, and nothing behind it has the same end. -/
def LastEnd {α : Type} (stop : α → UInt16) (x : α) : List α → Prop
  | [] => False
  | y :: l => (x = y ∧ ∀ z ∈ l, stop z ≠ stop x) ∨ LastEnd stop x l

section LastEnd

variable {α : Type} {stop : α → UInt16} {x : α} {l l' : List α}

theorem LastEnd.mem (h : LastEnd stop x l) : x ∈ l := by
  induction l with
  | nil => exact h.elim
  | cons y l ih =>
    rcases h with ⟨rfl, -⟩ | h
    · exact mem_cons_self
    · exact mem_cons_of_mem _ (ih h)

theorem lastEnd_append : LastEnd stop x (l ++ l') ↔ (LastEnd stop x l ∧ ∀ z ∈ l', stop z ≠ stop x) ∨
    LastEnd stop x l' := by
  induction l with
  | nil => simp [LastEnd]
  | cons y l ih =>
    rw [cons_append, LastEnd, ih, LastEnd, forall_mem_append, ← or_assoc, or_and_right, and_assoc]

theorem exists_lastEnd (hl : l ≠ []) : ∃ x, LastEnd stop x l := by
  obtain rfl | ⟨before, x, rfl⟩ := eq_nil_or_concat l
  · exact absurd rfl hl
  · have hlast : LastEnd stop x [x] := .inl ⟨rfl, forall_mem_nil _⟩
    exact ⟨x, concat_eq_append ▸ lastEnd_append.2 (.inr hlast)⟩

theorem lastEnd_of_nodup (h : (l.map stop).Nodup) : LastEnd stop x l ↔ x ∈ l := by
  refine ⟨LastEnd.mem, fun hx => ?_⟩
  induction l with
  | nil => cases hx
  | cons y l ih =>
    obtain ⟨hy, hl⟩ := nodup_cons.1 h
    rcases mem_cons.1 hx with rfl | hx
    · exact .inl ⟨rfl, fun z hz heq => hy (heq ▸ mem_map_of_mem hz)⟩
    · exact .inr (ih hl hx)

end LastEnd

variable {range : UInt16 × UInt16 × V} {slot : UInt16}

theorem mem_iter_insertAll : range ∈ (m.insertAll ranges).iter ↔
    LastEnd (·.2.1) range ranges ∨ range ∈ m.iter ∧ ∀ r ∈ ranges, r.2.1 ≠ range.2.1 := by
  induction ranges generalizing m with
  | nil => simp [insertAll, LastEnd]
  | cons r ranges ih =>
    rw [show m.insertAll (r :: ranges) = (m.insert r.1 r.2.1 r.2.2).insertAll ranges from rfl, ih, mem_iter_insert,
      LastEnd, forall_mem_cons, or_and_right, and_assoc, ← or_assoc, or_comm (a := LastEnd _ _ _), ne_comm]

theorem mem_iter_insertAll_new : range ∈ (new.insertAll ranges).iter ↔ LastEnd (·.2.1) range ranges :=
  mem_iter_insertAll.trans (or_iff_left fun h => not_mem_nil h.1)

theorem perm_insertAll_new (hends : (ranges.map fun range => range.2.1).Nodup) :
    (new.insertAll ranges).iter.Perm ranges := by
  refine (perm_ext_iff_of_nodup (.of_map _ (nodup_ends _)) (.of_map _ hends)).2 fun range => ?_
  rw [mem_iter_insertAll_new, lastEnd_of_nodup hends]

theorem inner_eq_of_perm {l l' : List (UInt16 × UInt16 × V)} (h : l.Perm l')
    (hl : l.Pairwise fun a b => a.1 < b.1) (hl' : l'.Pairwise fun a b => a.1 < b.1) : l = l' :=
  h.eq_of_pairwise (fun _ _ _ _ hab hba => absurd (UInt16.lt_trans hab hba) (UInt16.lt_irrefl _)) hl hl'

theorem get_of_perm_map {m' : SlotRangeMap W} {f : V → W}
    (h : m'.iter.Perm (m.iter.map fun range => (range.1, range.2.1, f range.2.2))) (slot : UInt16) :
    m'.get slot = (m.get slot).map f := by
  have hinner : m'.inner = m.inner.map fun range => (range.1, range.2.1, f range.2.2) := by
    refine inner_eq_of_perm ?_ m'.sorted (pairwise_map.2 m.sorted)
    have hswap := h.map fun range => (range.2.1, range.1, range.2.2)
    rw [iter, iter, map_map, map_map, map_map] at hswap
    simpa [Function.comp_def] using hswap
  rw [get, get, hinner, find?_map]
  cases hfind : m.inner.find? ((fun range => decide (slot ≤ range.1)) ∘ fun range => (range.1, range.2.1, f range.2.2)) with
  | none =>
    have hnone : m.inner.find? (fun range => decide (slot ≤ range.1)) = none := hfind
    rw [hnone]
    rfl
  | some range =>
    have hsome : m.inner.find? (fun range => decide (slot ≤ range.1)) = some range := hfind
    rw [hsome]
    by_cases hstart : range.2.1 ≤ slot <;> simp [hstart]

/-- The slot is in the range. -/
def Contains (range : UInt16 × UInt16 × V) (slot : UInt16) : Prop := range.1 ≤ slot ∧ slot ≤ range.2.1

/-- One range ends before the other begins. -/
def Apart (a b : UInt16 × UInt16 × V) : Prop := a.2.1 < b.1 ∨ b.2.1 < a.1

theorem get_eq_none (h : ∀ range ∈ m.iter, ¬ Contains range slot) : m.get slot = none := by
  rw [get]
  cases hfind : m.inner.find? fun range => decide (slot ≤ range.1) with
  | none => rfl
  | some range =>
    have hdec := find?_some hfind
    have hstop : slot ≤ range.1 := of_decide_eq_true hdec
    have hstart : ¬ range.2.1 ≤ slot := fun hstart =>
      h _ (mem_map_of_mem (mem_of_find?_eq_some hfind)) ⟨hstart, hstop⟩
    exact if_neg hstart

theorem get_eq_some (hmem : range ∈ m.iter) (hslot : Contains range slot)
    (hfirst : ∀ other ∈ m.iter, slot ≤ other.2.1 → range.2.1 ≤ other.2.1) : m.get slot = some range.2.2 := by
  obtain ⟨entry, hent, rfl⟩ := mem_map.1 hmem
  rw [get]
  cases hfind : m.inner.find? fun range => decide (slot ≤ range.1) with
  | none => exact absurd (decide_eq_true hslot.2) (find?_eq_none.1 hfind entry hent)
  | some found =>
    have hfound := mem_of_find?_eq_some hfind
    have hdec := find?_some hfind
    have hstop : slot ≤ found.1 := of_decide_eq_true hdec
    have hle : entry.1 ≤ found.1 := hfirst _ (mem_map_of_mem hfound) hstop
    -- everything in front of what was found ends before the slot
    have heq : found = entry := by
      obtain ⟨-, before, after, hinner, hbef⟩ := find?_eq_some_iff_append.1 hfind
      have hsort := m.sorted
      rw [hinner] at hsort hent
      rcases mem_append.1 hent with hin | hin
      · exact absurd (decide_eq_true hslot.2) (by simpa using hbef entry hin)
      · rcases mem_cons.1 hin with rfl | hin
        · rfl
        · have hlt := (pairwise_cons.1 (pairwise_append.1 hsort).2.1).1 entry hin
          exact absurd hle (UInt16.not_le.2 hlt)
    rw [heq]
    exact if_pos hslot.1

theorem get_of_apart (hmem : range ∈ m.iter) (hslot : Contains range slot)
    (hapart : ∀ other ∈ m.iter, other = range ∨ Apart range other) (hle : ∀ other ∈ m.iter, other.1 ≤ other.2.1) :
    m.get slot = some range.2.2 := by
  refine get_eq_some hmem hslot fun other hother hstop => ?_
  rcases hapart other hother with rfl | hlt | hlt
  · exact UInt16.le_refl _
  · exact UInt16.le_trans (UInt16.le_of_lt hlt) (hle other hother)
  · exact absurd (UInt16.lt_of_lt_of_le hlt hslot.1) (UInt16.not_lt.2 hstop)

end SlotRangeMap

structure Shard where
  slotRanges : List (UInt16 × UInt16)
  primary : NodeAddress
  replicas : List NodeAddress
deriving DecidableEq, Repr

@[ext] structure Arc (α : Type) where
  ptr : Nat
  val : α
deriving DecidableEq, Repr

structure ClusterTopology where
  slots : SlotRangeMap (Arc Shard)

def rangesOf {V : Type} (shards : List (Shard × V)) : List (UInt16 × UInt16 × V) :=
  shards.flatMap fun shard => shard.1.slotRanges.map fun range => (range.1, range.2, shard.2)

def arcsOf (shards : List Shard) : List (Shard × Arc Shard) :=
  shards.zipIdx.map fun entry => (entry.1, ⟨entry.2, entry.1⟩)

def firstPtrs : List Nat → List (Arc Shard) → List (Arc Shard)
  | _, [] => []
  | seen, arc :: arcs => if arc.ptr ∈ seen then firstPtrs seen arcs else arc :: firstPtrs (arc.ptr :: seen) arcs

namespace ClusterTopology

def fromShards (shards : List Shard) : ClusterTopology := ⟨SlotRangeMap.new.insertAll (rangesOf (arcsOf shards))⟩

def shardForSlot (t : ClusterTopology) (slot : UInt16) : Option Shard := (t.slots.get slot).map Arc.val

def shardArcs (t : ClusterTopology) : List (Arc Shard) := firstPtrs [] t.slots.values

def shards (t : ClusterTopology) : List Shard := t.shardArcs.map Arc.val

end ClusterTopology

namespace SlotMap

def addRange : List Shard → UInt16 × UInt16 × SlotAddrs → List Shard
  | [], (start, stop, addrs) => [⟨[(start, stop)], addrs.primary, addrs.replicas⟩]
  | b :: builders, (start, stop, addrs) =>
    if b.primary = addrs.primary then { b with slotRanges := b.slotRanges ++ [(start, stop)] } :: builders
    else b :: addRange builders (start, stop, addrs)

def builders (map : SlotMap) : List Shard := map.slots.iter.foldl addRange []

def topology (map : SlotMap) : ClusterTopology := .fromShards map.builders

end SlotMap

section Arcs

variable {seen : List Nat} {arcs : List (Arc Shard)}

theorem mem_firstPtrs {arc : Arc Shard} (h : arc ∈ firstPtrs seen arcs) : arc ∈ arcs ∧ arc.ptr ∉ seen := by
  induction arcs generalizing seen with
  | nil => exact absurd h not_mem_nil
  | cons first arcs ih =>
    rw [firstPtrs] at h
    by_cases hseen : first.ptr ∈ seen
    · rw [if_pos hseen] at h
      exact ⟨mem_cons_of_mem _ (ih h).1, (ih h).2⟩
    · rw [if_neg hseen] at h
      rcases mem_cons.1 h with rfl | h
      · exact ⟨mem_cons_self, hseen⟩
      · exact ⟨mem_cons_of_mem _ (ih h).1, fun hin => (ih h).2 (mem_cons_of_mem _ hin)⟩

theorem nodup_firstPtrs (seen : List Nat) (arcs : List (Arc Shard)) : ((firstPtrs seen arcs).map Arc.ptr).Nodup := by
  induction arcs generalizing seen with
  | nil => exact .nil
  | cons first arcs ih =>
    rw [firstPtrs]
    by_cases hseen : first.ptr ∈ seen
    · rw [if_pos hseen]
      exact ih seen
    · rw [if_neg hseen, map_cons]
      refine nodup_cons.2 ⟨fun hin => ?_, ih _⟩
      obtain ⟨arc, harc, hptr⟩ := mem_map.1 hin
      exact (mem_firstPtrs harc).2 (hptr ▸ mem_cons_self)

theorem exists_firstPtrs {arc : Arc Shard} (harc : arc ∈ arcs) (hseen : arc.ptr ∉ seen) :
    ∃ first ∈ firstPtrs seen arcs, first.ptr = arc.ptr := by
  induction arcs generalizing seen with
  | nil => exact absurd harc not_mem_nil
  | cons first arcs ih =>
    rw [firstPtrs]
    by_cases hfirst : first.ptr ∈ seen
    · rw [if_pos hfirst]
      refine ih ((mem_cons.1 harc).resolve_left fun heq => hseen ?_) hseen
      exact heq ▸ hfirst
    · rw [if_neg hfirst]
      by_cases hptr : arc.ptr = first.ptr
      · exact ⟨first, mem_cons_self, hptr.symm⟩
      · have hin : arc ∈ arcs := (mem_cons.1 harc).resolve_left fun heq => hptr (congrArg Arc.ptr heq)
        have hseen' : arc.ptr ∉ first.ptr :: seen := fun hin => (mem_cons.1 hin).elim hptr hseen
        obtain ⟨found, hfound, heq⟩ := ih hin hseen'
        exact ⟨found, mem_cons_of_mem _ hfound, heq⟩

end Arcs

/-- No range of a shard has the same end as one of another shard. -/
def DistinctEnds (shards : List Shard) : Prop :=
  shards.Pairwise fun a b => ∀ r ∈ a.slotRanges, ∀ r' ∈ b.slotRanges, r'.2 ≠ r.2

section FromShards

variable {V : Type} {shards : List Shard}

open SlotRangeMap

theorem lastEnd_rangesOf {l : List (Shard × V)} (h : DistinctEnds (l.map Prod.fst)) {range : UInt16 × UInt16 × V} :
    LastEnd (·.2.1) range (rangesOf l) ↔
      ∃ entry ∈ l, LastEnd Prod.snd (range.1, range.2.1) entry.1.slotRanges ∧ range.2.2 = entry.2 := by
  have hmap : ∀ (v : V) (ranges : List (UInt16 × UInt16)),
      LastEnd (·.2.1) range (ranges.map fun r => (r.1, r.2, v)) ↔
        LastEnd Prod.snd (range.1, range.2.1) ranges ∧ range.2.2 = v := by
    intro v ranges
    induction ranges with
    | nil => simp [LastEnd]
    | cons r ranges ih =>
      rw [map_cons, LastEnd, ih, LastEnd, forall_mem_map, or_and_right]
      refine or_congr_left ⟨?_, ?_⟩
      · rintro ⟨rfl, h⟩
        exact ⟨⟨rfl, h⟩, rfl⟩
      · rintro ⟨⟨heq, h⟩, hv⟩
        exact ⟨by rw [← heq, ← hv], h⟩
  induction l with
  | nil => simp [rangesOf, LastEnd]
  | cons entry l ih =>
    obtain ⟨hent, hl⟩ := pairwise_cons.1 h
    have hapart : LastEnd Prod.snd (range.1, range.2.1) entry.1.slotRanges → ∀ r ∈ rangesOf l, r.2.1 ≠ range.2.1 := by
      intro hlast r hr
      obtain ⟨entry', hent', hr⟩ := mem_flatMap.1 hr
      obtain ⟨r', hr', rfl⟩ := mem_map.1 hr
      exact hent _ (mem_map_of_mem hent') _ hlast.mem _ hr'
    rw [rangesOf, flatMap_cons, lastEnd_append, hmap]
    simp only [mem_cons, exists_eq_or_imp, ← ih hl]
    exact or_congr_left ⟨And.left, fun h => ⟨h, hapart h.1⟩⟩

theorem fst_arcsOf (shards : List Shard) : (arcsOf shards).map Prod.fst = shards := by
  rw [arcsOf, map_map]
  exact zipIdx_map_fst 0 shards

theorem mem_arcsOf {entry : Shard × Arc Shard} :
    entry ∈ arcsOf shards ↔ shards[entry.2.ptr]? = some entry.1 ∧ entry.2.val = entry.1 := by
  rw [arcsOf, mem_map]
  constructor
  · rintro ⟨⟨shard, i⟩, hmem, rfl⟩
    exact ⟨mem_zipIdx_iff_getElem?.1 hmem, rfl⟩
  · rintro ⟨hshard, hval⟩
    obtain ⟨shard, ptr, val⟩ := entry
    cases hval
    exact ⟨(shard, ptr), mem_zipIdx_iff_getElem?.2 hshard, rfl⟩

theorem nodup_ptrs_arcsOf (shards : List Shard) : ((arcsOf shards).map fun entry => entry.2.ptr).Nodup := by
  rw [arcsOf, map_map]
  have hptrs : (shards.zipIdx.map Prod.snd).Nodup := by
    rw [zipIdx_map_snd]
    exact nodup_range'
  exact hptrs

namespace ClusterTopology

theorem mem_iter_fromShards (h : DistinctEnds shards) {range : UInt16 × UInt16 × Arc Shard} :
    range ∈ (fromShards shards).slots.iter ↔ shards[range.2.2.ptr]? = some range.2.2.val ∧
      LastEnd Prod.snd (range.1, range.2.1) range.2.2.val.slotRanges := by
  rw [fromShards, mem_iter_insertAll_new, lastEnd_rangesOf (by rwa [fst_arcsOf])]
  constructor
  · rintro ⟨entry, hent, hlast, heq⟩
    obtain ⟨hshard, hval⟩ := mem_arcsOf.1 hent
    rw [heq, hval]
    exact ⟨hshard, hlast⟩
  · rintro ⟨hshard, hlast⟩
    exact ⟨(range.2.2.val, range.2.2), mem_arcsOf.2 ⟨hshard, rfl⟩, hlast, rfl⟩

theorem values_eq (t : ClusterTopology) : t.slots.values = t.slots.iter.map fun range => range.2.2 := by
  rw [SlotRangeMap.values, SlotRangeMap.iter, map_map]
  rfl

def usedArcs (shards : List Shard) : List (Arc Shard) :=
  ((arcsOf shards).map Prod.snd).filter fun arc => arc.val.slotRanges ≠ []

theorem mem_usedArcs {arc : Arc Shard} :
    arc ∈ usedArcs shards ↔ shards[arc.ptr]? = some arc.val ∧ arc.val.slotRanges ≠ [] := by
  rw [usedArcs, mem_filter, mem_map, decide_eq_true_iff]
  refine and_congr_left fun _ => ⟨?_, fun h => ⟨(arc.val, arc), mem_arcsOf.2 ⟨h, rfl⟩, rfl⟩⟩
  rintro ⟨entry, hent, rfl⟩
  obtain ⟨hshard, hval⟩ := mem_arcsOf.1 hent
  rw [hval]
  exact hshard

theorem nodup_usedArcs (shards : List Shard) : (usedArcs shards).Nodup := by
  have hptrs := nodup_ptrs_arcsOf shards
  have hmap : (((arcsOf shards).map Prod.snd).map Arc.ptr).Nodup := by
    rw [map_map]
    exact hptrs
  exact (List.Nodup.of_map _ hmap).filter _

theorem mem_values_fromShards (h : DistinctEnds shards) {arc : Arc Shard} :
    arc ∈ (fromShards shards).slots.values ↔ arc ∈ usedArcs shards := by
  rw [values_eq, mem_usedArcs, mem_map]
  constructor
  · rintro ⟨range, hrange, rfl⟩
    obtain ⟨hshard, hlast⟩ := (mem_iter_fromShards h).1 hrange
    exact ⟨hshard, ne_nil_of_mem hlast.mem⟩
  · rintro ⟨hshard, hrngs⟩
    obtain ⟨range, hlast⟩ := exists_lastEnd hrngs
    exact ⟨(range.1, range.2, arc), (mem_iter_fromShards h).2 ⟨hshard, hlast⟩, rfl⟩

theorem perm_shardArcs (h : DistinctEnds shards) : (fromShards shards).shardArcs.Perm (usedArcs shards) := by
  refine (perm_ext_iff_of_nodup (List.Nodup.of_map _ (nodup_firstPtrs _ _)) (nodup_usedArcs shards)).2 fun arc => ?_
  constructor
  · intro harc
    exact (mem_values_fromShards h).1 (mem_firstPtrs harc).1
  · intro harc
    obtain ⟨first, hfirst, hptr⟩ := exists_firstPtrs ((mem_values_fromShards h).2 harc) not_mem_nil
    obtain ⟨hshard, -⟩ := mem_usedArcs.1 ((mem_values_fromShards h).1 (mem_firstPtrs hfirst).1)
    obtain ⟨hshard', -⟩ := mem_usedArcs.1 harc
    rw [hptr, hshard'] at hshard
    have heq : first = arc := Arc.ext hptr (Option.some.inj hshard).symm
    exact heq ▸ hfirst

end ClusterTopology

end FromShards

namespace SlotMap

def rangesFor (builders : List Shard) (primary : NodeAddress) : List (UInt16 × UInt16) :=
  (builders.filter fun b => b.primary = primary).flatMap Shard.slotRanges

/-- There is one builder for each primary, with its ranges in their order. -/
structure Grouped (ranges : List (UInt16 × UInt16 × SlotAddrs)) (builders : List Shard) : Prop where
  nodup : (builders.map Shard.primary).Nodup
  rangesFor_eq : ∀ primary, rangesFor builders primary =
    (ranges.filter fun range => range.2.2.primary = primary).map fun range => (range.1, range.2.1)
  mem_primaries : ∀ primary, primary ∈ builders.map Shard.primary ↔ primary ∈ ranges.map fun range => range.2.2.primary

section Builders

variable {builders : List Shard} (hnodup : (builders.map Shard.primary).Nodup)

theorem primaries_addRange (builders : List Shard) (range : UInt16 × UInt16 × SlotAddrs) :
    (addRange builders range).map Shard.primary = builders.map Shard.primary ++
      if range.2.2.primary ∈ builders.map Shard.primary then [] else [range.2.2.primary] := by
  induction builders with
  | nil => rfl
  | cons b builders ih =>
    rw [addRange]
    by_cases hprim : b.primary = range.2.2.primary
    · simp [hprim]
    · simp [hprim, Ne.symm hprim, ih]

include hnodup in
theorem rangesFor_of_mem {b : Shard} (hb : b ∈ builders) : rangesFor builders b.primary = b.slotRanges := by
  have hfilter : (builders.filter fun b' => b'.primary = b.primary) = [b] := by
    refine perm_singleton.1 ((perm_ext_iff_of_nodup (.filter _ (.of_map _ hnodup)) (nodup_singleton b)).2 fun b' => ?_)
    rw [mem_filter, mem_singleton, decide_eq_true_iff]
    refine ⟨fun h => inj_on_of_nodup_map hnodup h.1 hb h.2, ?_⟩
    rintro rfl
    exact ⟨hb, rfl⟩
  rw [rangesFor, hfilter, flatMap_singleton]

include hnodup in
theorem rangesFor_addRange (range : UInt16 × UInt16 × SlotAddrs) (primary : NodeAddress) :
    rangesFor (addRange builders range) primary =
      rangesFor builders primary ++ if range.2.2.primary = primary then [(range.1, range.2.1)] else [] := by
  induction builders with
  | nil => by_cases h : range.2.2.primary = primary <;> simp [rangesFor, addRange, h]
  | cons b builders ih =>
    obtain ⟨hb, hbuilders⟩ := nodup_cons.1 hnodup
    have hnone : (builders.filter fun b' => b'.primary = b.primary) = [] :=
      filter_eq_nil_iff.2 fun b' hb' heq => hb (mem_map.2 ⟨b', hb', of_decide_eq_true heq⟩)
    have ih := ih hbuilders
    rw [addRange]
    rw [rangesFor, rangesFor] at ih ⊢
    by_cases hprim : b.primary = range.2.2.primary
    · by_cases h : b.primary = primary
      · subst h
        simp [hprim, hprim ▸ hnone]
      · simp [h, ← hprim]
    · rw [if_neg hprim]
      by_cases h : b.primary = primary <;> simp [h, ih]

end Builders

theorem Grouped.addRange {ranges : List (UInt16 × UInt16 × SlotAddrs)} {builders : List Shard}
    (h : Grouped ranges builders) (range : UInt16 × UInt16 × SlotAddrs) :
    Grouped (ranges ++ [range]) (addRange builders range) where
  nodup := by
    rw [primaries_addRange]
    split
    · rw [append_nil]
      exact h.nodup
    · next hnew => exact nodup_append.2 ⟨h.nodup, nodup_singleton _, fun p hp q hq heq =>
        hnew (mem_singleton.1 hq ▸ heq ▸ hp)⟩
  rangesFor_eq primary := by
    rw [rangesFor_addRange h.nodup, h.rangesFor_eq, filter_append, map_append]
    by_cases hprim : range.2.2.primary = primary <;> simp [hprim]
  mem_primaries primary := by
    rw [primaries_addRange, map_append, mem_append, mem_append, ← h.mem_primaries, map_singleton, mem_singleton]
    by_cases hold : range.2.2.primary ∈ builders.map Shard.primary
    · rw [if_pos hold, or_iff_left not_mem_nil]
      exact (or_iff_left_of_imp fun heq => heq ▸ hold).symm
    · rw [if_neg hold, mem_singleton]

theorem Grouped.slotRanges {ranges : List (UInt16 × UInt16 × SlotAddrs)} {builders : List Shard}
    (h : Grouped ranges builders) {b : Shard} (hb : b ∈ builders) :
    b.slotRanges = (ranges.filter fun range => range.2.2.primary = b.primary).map fun range => (range.1, range.2.1) :=
  (rangesFor_of_mem h.nodup hb).symm.trans (h.rangesFor_eq b.primary)

theorem grouped_builders (map : SlotMap) : Grouped map.slots.iter map.builders := by
  have hfold : ∀ (ranges done : List (UInt16 × UInt16 × SlotAddrs)) (builders : List Shard), Grouped done builders →
      Grouped (done ++ ranges) (ranges.foldl SlotMap.addRange builders) := by
    intro ranges
    induction ranges with
    | nil => intro done builders h; rw [append_nil]; exact h
    | cons range ranges ih =>
      intro done builders h
      have hrest := ih (done ++ [range]) _ (h.addRange range)
      rw [append_assoc] at hrest
      exact hrest
  exact hfold map.slots.iter [] [] ⟨.nil, fun _ => rfl, fun _ => Iff.rfl⟩

def arcFor (map : SlotMap) (addrs : SlotAddrs) : Arc Shard :=
  (((arcsOf map.builders).find? fun entry => entry.1.primary = addrs.primary).map Prod.snd).getD
    ⟨0, ⟨[], addrs.primary, addrs.replicas⟩⟩

theorem primary_arcFor (map : SlotMap) (addrs : SlotAddrs) : (map.arcFor addrs).val.primary = addrs.primary := by
  rw [arcFor]
  cases hfind : (arcsOf map.builders).find? fun entry => entry.1.primary = addrs.primary with
  | none => rfl
  | some entry =>
    have hprim := find?_some hfind
    have hval := (mem_arcsOf.1 (mem_of_find?_eq_some hfind)).2
    rw [Option.map_some, Option.getD_some, hval]
    exact of_decide_eq_true hprim

theorem arcFor_eq {map : SlotMap} {entry : Shard × Arc Shard} (hent : entry ∈ arcsOf map.builders) {addrs : SlotAddrs}
    (hprim : addrs.primary = entry.1.primary) : map.arcFor addrs = entry.2 := by
  have hnodup : ((arcsOf map.builders).map fun entry => entry.1.primary).Nodup := by
    have hprims := map.grouped_builders.nodup
    rw [← fst_arcsOf map.builders, map_map] at hprims
    exact hprims
  rw [arcFor]
  cases hfind : (arcsOf map.builders).find? fun entry => entry.1.primary = addrs.primary with
  | none => exact absurd (decide_eq_true hprim.symm) (find?_eq_none.1 hfind entry hent)
  | some found =>
    have hfound := find?_some hfind
    have heq : found = entry := inj_on_of_nodup_map hnodup (mem_of_find?_eq_some hfind) hent
      ((of_decide_eq_true hfound).trans hprim)
    rw [heq]
    rfl

theorem perm_rangesOf_builders (map : SlotMap) : (rangesOf (arcsOf map.builders)).Perm
    (map.slots.iter.map fun range => (range.1, range.2.1, map.arcFor range.2.2)) := by
  have hgrouped := map.grouped_builders
  have hprims : map.builders.map Shard.primary = (arcsOf map.builders).map fun entry => entry.1.primary := by
    conv_lhs => rw [← fst_arcsOf map.builders, map_map]
    rfl
  have hrngs : rangesOf (arcsOf map.builders) =
      ((map.builders.map Shard.primary).flatMap fun primary =>
        map.slots.iter.filter fun range => range.2.2.primary = primary).map
          fun range => (range.1, range.2.1, map.arcFor range.2.2) := by
    rw [rangesOf, hprims, flatMap_map, map_flatMap]
    refine flatMap_congr fun entry hent => ?_
    rw [hgrouped.slotRanges (mem_of_getElem? (mem_arcsOf.1 hent).1), map_map]
    refine map_congr_left fun range hrange => ?_
    have hprim := of_decide_eq_true (mem_filter.1 hrange).2
    simp [arcFor_eq hent hprim]
  rw [hrngs]
  exact (Grouping.perm_flatMap_filter (fun range : UInt16 × UInt16 × SlotAddrs => range.2.2.primary) hgrouped.nodup
    fun range hrange => (hgrouped.mem_primaries _).2 (mem_map_of_mem hrange)).map _

theorem perm_slotRanges_builders (map : SlotMap) :
    (map.builders.flatMap Shard.slotRanges).Perm (map.slots.iter.map fun range => (range.1, range.2.1)) := by
  have hrngs : map.builders.flatMap Shard.slotRanges =
      (rangesOf (arcsOf map.builders)).map fun range => (range.1, range.2.1) := by
    conv_lhs => rw [← fst_arcsOf map.builders]
    simp [rangesOf, map_flatMap, flatMap_map, Function.comp_def]
  have hperm := map.perm_rangesOf_builders.map fun range => (range.1, range.2.1)
  rw [map_map] at hperm
  rw [hrngs]
  exact hperm

theorem nodup_ends_builders (map : SlotMap) : ((map.builders.flatMap Shard.slotRanges).map Prod.snd).Nodup := by
  rw [(map.perm_slotRanges_builders.map Prod.snd).nodup_iff, map_map]
  exact map.slots.nodup_ends

theorem distinctEnds_builders (map : SlotMap) : DistinctEnds map.builders := by
  have hnodup := map.nodup_ends_builders
  rw [map_flatMap] at hnodup
  exact (nodup_flatMap.1 hnodup).2.imp fun hdisj r hr r' hr' heq =>
    hdisj (mem_map_of_mem hr) (heq ▸ mem_map_of_mem hr')

variable {map : SlotMap}

theorem slotRanges_ne_nil {b : Shard} (hb : b ∈ map.builders) : b.slotRanges ≠ [] := by
  obtain ⟨range, hrange, hprim⟩ :=
    mem_map.1 ((map.grouped_builders.mem_primaries b.primary).1 (mem_map_of_mem hb))
  rw [map.grouped_builders.slotRanges hb]
  refine ne_nil_of_mem (mem_map_of_mem (mem_filter.2 ⟨hrange, ?_⟩))
  exact decide_eq_true hprim

theorem perm_shards_topology (map : SlotMap) : map.topology.shards.Perm map.builders := by
  have hperm := (ClusterTopology.perm_shardArcs map.distinctEnds_builders).map Arc.val
  refine hperm.trans ?_
  have hall : ClusterTopology.usedArcs map.builders = (arcsOf map.builders).map Prod.snd := by
    refine filter_eq_self.2 fun arc harc => ?_
    obtain ⟨entry, hent, rfl⟩ := mem_map.1 harc
    obtain ⟨hshard, hval⟩ := mem_arcsOf.1 hent
    rw [hval]
    exact decide_eq_true (slotRanges_ne_nil (mem_of_getElem? hshard))
  have hval : ((arcsOf map.builders).map Prod.snd).map Arc.val = map.builders := by
    rw [arcsOf, map_map, map_map]
    exact zipIdx_map_fst 0 map.builders
  rw [hall, hval]

theorem perm_iter_topology (map : SlotMap) :
    map.topology.slots.iter.Perm (map.slots.iter.map fun range => (range.1, range.2.1, map.arcFor range.2.2)) := by
  refine (SlotRangeMap.perm_insertAll_new ?_).trans map.perm_rangesOf_builders
  rw [(map.perm_rangesOf_builders.map _).nodup_iff, map_map]
  exact map.slots.nodup_ends

theorem shardForSlot_topology (map : SlotMap) (slot : UInt16) (pick : ReadPick) :
    (map.topology.shardForSlot slot).map Shard.primary = map.slotAddrForRoute ⟨slot, .master⟩ pick := by
  rw [slotAddrForRoute_master, ClusterTopology.shardForSlot,
    SlotRangeMap.get_of_perm_map map.perm_iter_topology slot, Option.map_map, Option.map_map]
  exact congrArg (Option.map · (map.slots.get slot)) (funext fun addrs => map.primary_arcFor addrs)

theorem nodup_primaries_topology (map : SlotMap) : (map.topology.shards.map Shard.primary).Nodup :=
  (map.perm_shards_topology.map _).nodup_iff.2 map.grouped_builders.nodup

variable {range : UInt16 × UInt16 × SlotAddrs}

theorem mem_slotRanges_iff {shard : Shard} (hshard : shard ∈ map.topology.shards) (hrange : range ∈ map.slots.iter) :
    (range.1, range.2.1) ∈ shard.slotRanges ↔ shard.primary = range.2.2.primary := by
  rw [map.grouped_builders.slotRanges (map.perm_shards_topology.mem_iff.1 hshard)]
  constructor
  · intro hin
    obtain ⟨other, hother, heq⟩ := mem_map.1 hin
    obtain ⟨hmem, hprim⟩ := mem_filter.1 hother
    have hsame : other = range := inj_on_of_nodup_map map.slots.nodup_ends hmem hrange (Prod.mk.inj heq).2
    rw [← hsame]
    exact (of_decide_eq_true hprim).symm
  · intro hprim
    exact mem_map_of_mem (mem_filter.2 ⟨hrange, decide_eq_true hprim.symm⟩)

theorem exists_shard_of_range (hrange : range ∈ map.slots.iter) :
    ∃ shard ∈ map.topology.shards, (range.1, range.2.1) ∈ shard.slotRanges ∧
      ∀ other ∈ map.topology.shards, (range.1, range.2.1) ∈ other.slotRanges → other = shard := by
  obtain ⟨shard, hshard, hprim⟩ :=
    mem_map.1 ((map.grouped_builders.mem_primaries _).2 (mem_map_of_mem hrange))
  have hmem := map.perm_shards_topology.mem_iff.2 hshard
  refine ⟨shard, hmem, (mem_slotRanges_iff hmem hrange).2 hprim, fun other hother hin => ?_⟩
  have hother' := (mem_slotRanges_iff hother hrange).1 hin
  exact inj_on_of_nodup_map map.nodup_primaries_topology hother hmem (hother'.trans hprim.symm)

def stored (range : SlotRange) : UInt16 × UInt16 × SlotAddrs := (range.start, range.stop, .fromSlot range)

/-- One range ends before the other begins. -/
def DisjointRanges (a b : SlotRange) : Prop := a.stop < b.start ∨ b.stop < a.start

instance : Std.Symm DisjointRanges := ⟨fun _ _ h => h.symm⟩

theorem slots_fillSlots (map : SlotMap) (ranges : List SlotRange) :
    (map.fillSlots ranges).slots = map.slots.insertAll (ranges.map stored) := by
  rw [fillSlots, SlotRangeMap.insertAll, foldl_map]
  rfl

theorem slots_foldl_fillSlots (map : SlotMap) (more : List (List SlotRange)) :
    (more.foldl fillSlots map).slots = map.slots.insertAll (more.flatten.map stored) := by
  induction more generalizing map with
  | nil => rfl
  | cons ranges more ih =>
    rw [foldl_cons, ih, slots_fillSlots, flatten_cons, map_append, SlotRangeMap.insertAll,
      SlotRangeMap.insertAll, SlotRangeMap.insertAll, foldl_append]

section Disjoint

variable {ranges : List SlotRange}

theorem ends_nodup_of_disjoint (hle : ∀ range ∈ ranges, range.start ≤ range.stop)
    (hdisj : ranges.Pairwise DisjointRanges) : ((ranges.map stored).map fun range => range.2.1).Nodup := by
  rw [map_map]
  refine pairwise_map.2 (hdisj.imp_of_mem fun {a b} ha hb hab heq => ?_)
  have hends : a.stop = b.stop := heq
  rcases hab with hlt | hlt
  · exact UInt16.lt_irrefl _ (UInt16.lt_of_lt_of_le (hends ▸ hlt) (hle b hb))
  · exact UInt16.lt_irrefl _ (UInt16.lt_of_lt_of_le (hends.symm ▸ hlt) (hle a ha))

theorem get_insertAll_disjoint (hle : ∀ range ∈ ranges, range.start ≤ range.stop)
    (hdisj : ranges.Pairwise DisjointRanges) (slot : UInt16) :
    (∀ range ∈ ranges, range.start ≤ slot → slot ≤ range.stop →
      (SlotRangeMap.new.insertAll (ranges.map stored)).get slot = some (.fromSlot range)) ∧
    ((∀ range ∈ ranges, ¬ (range.start ≤ slot ∧ slot ≤ range.stop)) →
      (SlotRangeMap.new.insertAll (ranges.map stored)).get slot = none) := by
  have hmem : ∀ entry, entry ∈ (SlotRangeMap.new.insertAll (ranges.map stored)).iter ↔ entry ∈ ranges.map stored :=
    fun entry => (SlotRangeMap.perm_insertAll_new (ends_nodup_of_disjoint hle hdisj)).mem_iff
  refine ⟨fun range hrange hstart hstop => ?_, fun hnone => ?_⟩
  · have hin : stored range ∈ (SlotRangeMap.new.insertAll (ranges.map stored)).iter :=
      (hmem _).2 (mem_map_of_mem hrange)
    refine SlotRangeMap.get_of_apart hin ⟨hstart, hstop⟩ ?_ ?_
    · intro entry hent
      obtain ⟨other, hother, rfl⟩ := mem_map.1 ((hmem entry).1 hent)
      by_cases heq : range = other
      · exact .inl (congrArg stored heq.symm)
      · exact .inr (hdisj.forall hrange hother heq)
    · intro entry hent
      obtain ⟨other, hother, rfl⟩ := mem_map.1 ((hmem entry).1 hent)
      exact hle other hother
  · refine SlotRangeMap.get_eq_none fun entry hent => ?_
    obtain ⟨other, hother, rfl⟩ := mem_map.1 ((hmem entry).1 hent)
    exact hnone other hother

end Disjoint

/-- Disjoint ranges that are filled in in any order are looked up as they are; and the topology of any slot map has its
ranges and its primaries, each shard once. -/
theorem topology_agrees :
    (∀ (first : List SlotRange) (more : List (List SlotRange)),
      (∀ range ∈ first ++ more.flatten, range.start ≤ range.stop) → (first ++ more.flatten).Pairwise DisjointRanges →
      ∀ (slot : UInt16) (pick : ReadPick),
        (∀ range ∈ first ++ more.flatten, range.start ≤ slot → slot ≤ range.stop →
          (more.foldl fillSlots (fromSlots first)).slotAddrForRoute ⟨slot, .master⟩ pick = some range.master) ∧
        ((∀ range ∈ first ++ more.flatten, ¬ (range.start ≤ slot ∧ slot ≤ range.stop)) →
          (more.foldl fillSlots (fromSlots first)).slotAddrForRoute ⟨slot, .master⟩ pick = none)) ∧
    ∀ map : SlotMap,
      (∀ slot pick, (map.topology.shardForSlot slot).map Shard.primary = map.slotAddrForRoute ⟨slot, .master⟩ pick) ∧
      (map.topology.shards.flatMap Shard.slotRanges).Perm (map.slots.iter.map fun range => (range.1, range.2.1)) ∧
      (∀ range ∈ map.slots.iter, ∃ shard ∈ map.topology.shards, (range.1, range.2.1) ∈ shard.slotRanges ∧
        ∀ other ∈ map.topology.shards, (range.1, range.2.1) ∈ other.slotRanges → other = shard) ∧
      map.topology.shards.Perm map.builders ∧
      (map.topology.shards.map Shard.primary).Nodup := by
  refine ⟨fun first more hle hdisjoint slot pick => ?_, fun map => ⟨map.shardForSlot_topology, ?_,
    fun range hrange => exists_shard_of_range hrange, map.perm_shards_topology, map.nodup_primaries_topology⟩⟩
  · have hslots : (more.foldl fillSlots (fromSlots first)).slots =
        SlotRangeMap.new.insertAll ((first ++ more.flatten).map stored) := by
      rw [slots_foldl_fillSlots, fromSlots, slots_fillSlots, map_append, SlotRangeMap.insertAll, SlotRangeMap.insertAll,
        SlotRangeMap.insertAll, foldl_append]
      rfl
    obtain ⟨hsome, hnone⟩ := get_insertAll_disjoint hle hdisjoint slot
    rw [slotAddrForRoute_master, hslots]
    refine ⟨fun range hrange hstart hstop => ?_, fun h => ?_⟩
    · rw [hsome range hrange hstart hstop]
      rfl
    · rw [hnone h]
      rfl
  · exact (map.perm_shards_topology.flatMap_right _).trans map.perm_slotRanges_builders

theorem topology_agrees_two :
    ([[⟨0, 100, ⟨"a", 1⟩, []⟩]].foldl fillSlots (fromSlots [⟨101, 200, ⟨"b", 2⟩, []⟩])).slotAddrForRoute ⟨50, .master⟩
        ⟨none, 0⟩ =
      some ⟨"a", 1⟩ := by
  refine (topology_agrees.1 [⟨101, 200, ⟨"b", 2⟩, []⟩] [[⟨0, 100, ⟨"a", 1⟩, []⟩]] (by decide) ?_ 50 ⟨none, 0⟩).1
    ⟨0, 100, ⟨"a", 1⟩, []⟩ (by decide) (by decide) (by decide)
  exact pairwise_pair.2 (.inr (by decide))

end SlotMap

end RedisRs
