import Mathlib.Data.List.Flatten
import RedisRs.ClusterAggregate
import RedisRs.MultiShard

/-!
# Splitting a command and combining its replies
-/

namespace RedisRs

open List Grouping MultiSlotArgPattern

/-- The items of `f` are at their places, and nothing else has changed. -/
structure Placed (f : Nat → Value) (indices : List Nat) (results results' : List Value) : Prop where
  length : results'.length = results.length
  placed : ∀ i ∈ indices, results'[i]? = some (f i)
  other : ∀ i ∉ indices, results'[i]? = results[i]?

theorem Placed.append {f : Nat → Value} {l l' : List Nat} {results results' results'' : List Value}
    (h : Placed f l results results') (h' : Placed f l' results' results'') : Placed f (l ++ l') results results'' where
  length := h'.length.trans h.length
  placed i hi := by
    by_cases hl' : i ∈ l'
    · exact h'.placed i hl'
    · rw [h'.other i hl']
      exact h.placed i ((mem_append.1 hi).resolve_right hl')
  other i hi := by
    rw [mem_append, not_or] at hi
    rw [h'.other i hi.2, h.other i hi.1]

variable (f : Nat → Value) {results : List Value}

theorem Placed.set {i : Nat} {results : List Value} (hi : i < results.length) :
    Placed f [i] results (results.set i (f i)) where
  length := length_set
  placed j hj := by
    rw [mem_singleton.1 hj, getElem?_set_self hi]
  other j hj := getElem?_set_ne fun heq => hj (mem_singleton.2 heq.symm)

theorem placeItems_placed {indices : List Nat} (h : ∀ i ∈ indices, i < results.length) :
    ∃ results', placeItems results indices (indices.map f) = .ok results' ∧ Placed f indices results results' := by
  induction indices generalizing results with
  | nil => exact ⟨results, rfl, rfl, fun i hi => absurd hi not_mem_nil, fun _ _ => rfl⟩
  | cons index indices ih =>
    have hlt := h index mem_cons_self
    have hset := Placed.set f hlt
    obtain ⟨results', hplace, hplaced⟩ := ih fun i hi => by
      rw [hset.length]
      exact h i (mem_cons_of_mem index hi)
    refine ⟨results', ?_, hset.append hplaced⟩
    rw [map_cons, placeItems, indexSet, if_pos hlt]
    exact hplace

theorem placeResults_placed {indices : List (List Nat)} (h : ∀ i ∈ indices.flatten, i < results.length) :
    ∃ results', placeResults results (indices.map .ok) (indices.map fun l => .array (l.map f)) =
        .ok (.ok (.array results')) ∧
      Placed f indices.flatten results results' := by
  induction indices generalizing results with
  | nil => exact ⟨results, rfl, rfl, fun i hi => absurd hi not_mem_nil, fun _ _ => rfl⟩
  | cons l indices ih =>
    have hl : ∀ i ∈ l, i < results.length := fun i hi => h i (by simp [hi])
    obtain ⟨results₁, hitems, hplaced₁⟩ := placeItems_placed f hl
    obtain ⟨results', hrest, hplaced⟩ := ih fun i hi => by
      rw [hplaced₁.length]
      exact h i (mem_append_right l hi)
    refine ⟨results', ?_, hplaced₁.append hplaced⟩
    show (if _ = l.length then placeItems results l (l.map f) >>= _ else _) = _
    rw [if_pos (length_map _), hitems]
    exact hrest

theorem combinedLength_arrays (l : List (List Value)) : combinedLength (l.map .array) = l.flatten.length := by
  have hfold : ∀ g : Nat → Value → Nat, (∀ acc items, g acc (.array items) = items.length + acc) →
      ∀ acc, (l.map Value.array).foldl g acc = l.flatten.length + acc := by
    intro g hg
    induction l with
    | nil => intro acc; simp
    | cons items l ih =>
      intro acc
      rw [map_cons, foldl_cons, ih, hg, flatten_cons, length_append]
      omega
  exact hfold _ (fun _ _ => rfl) 0

theorem placeResults_range {n : Nat} {indices : List (List Nat)} (h : indices.flatten.Perm (List.range n)) :
    placeResults (List.replicate (combinedLength (indices.map fun l => .array (l.map f))) .nil)
        (indices.map .ok) (indices.map fun l => .array (l.map f)) = .ok (.ok (.array ((List.range n).map f))) := by
  have hlen : combinedLength (indices.map fun l => .array (l.map f)) = n := by
    have harrs := combinedLength_arrays (indices.map (List.map f))
    rw [map_map, ← map_flatten, length_map, h.length_eq, length_range] at harrs
    exact harrs
  have hmem : ∀ i, i ∈ indices.flatten ↔ i < n := fun i => by rw [h.mem_iff, mem_range]
  rw [hlen]
  have hlt : ∀ i ∈ indices.flatten, i < (List.replicate n Value.nil).length := fun i hi => by
    rw [length_replicate]
    exact (hmem i).1 hi
  obtain ⟨results', hplace, hplaced⟩ := placeResults_placed f hlt
  have hress : results' = (List.range n).map f := by
    refine ext_getElem? fun i => ?_
    by_cases hi : i < n
    · rw [hplaced.placed i ((hmem i).2 hi)]
      simp [hi]
    · rw [hplaced.other i fun hin => hi ((hmem i).1 hin)]
      simp [hi]
  rw [hplace, hress]

namespace MultiSlotArgPattern

variable {pattern : MultiSlotArgPattern} {ks : List Nat} {n : Nat}

/-- The arguments that are as many as the pattern has them. -/
def WellFormed : MultiSlotArgPattern → Nat → Prop
  | keysOnly, _ => True
  | keyValuePairs, n => n % 2 = 0
  | keysAndLastArg, n => 2 ≤ n
  | keyWithTwoArgTriples, n => n % 3 = 0

def own : MultiSlotArgPattern → List Nat → List Nat
  | keysAndLastArg, indices => indices.dropLast
  | _, indices => indices

def keyNumbers (pattern : MultiSlotArgPattern) (indices : List Nat) : List Nat :=
  ((pattern.own indices).filter (· % pattern.width = 0)).map (· / pattern.width)

theorem own_append_shared (pattern : MultiSlotArgPattern) (indices : List Nat) (n : Nat) :
    pattern.own (indices ++ pattern.shared n) = indices := by
  cases pattern with
  | keysAndLastArg => exact dropLast_concat
  | _ => exact append_nil indices

theorem width_pos (pattern : MultiSlotArgPattern) : 0 < pattern.width := by
  cases pattern <;> decide

theorem filter_range_mod {w : Nat} (hw : 0 < w) : (List.range w).filter (· % w = 0) = [0] := by
  obtain ⟨v, rfl⟩ := Nat.exists_eq_add_of_le' hw
  rw [range_succ_eq_map, filter_cons_of_pos (by simp), filter_eq_nil_iff.2]
  intro i hi
  obtain ⟨j, hj, rfl⟩ := mem_map.1 hi
  simp [Nat.mod_eq_of_lt (Nat.succ_lt_succ (mem_range.1 hj))]

theorem filter_block (pattern : MultiSlotArgPattern) (k : Nat) :
    (pattern.block k).filter (· % pattern.width = 0) = [pattern.width * k] := by
  rw [block, range'_eq_map_range, filter_map]
  simp [Function.comp_def, filter_range_mod pattern.width_pos]

theorem keyNumbers_eq (pattern : MultiSlotArgPattern) (ks : List Nat) (n : Nat) :
    pattern.keyNumbers (ks.flatMap pattern.block ++ pattern.shared n) = ks := by
  rw [keyNumbers, own_append_shared]
  induction ks with
  | nil => rfl
  | cons k ks ih =>
    rw [flatMap_cons, filter_append, map_append, ih, filter_block, map_singleton,
      Nat.mul_div_cancel_left k pattern.width_pos, singleton_append]

theorem flatMap_block_range (pattern : MultiSlotArgPattern) (k : Nat) :
    (List.range k).flatMap pattern.block = List.range (pattern.width * k) := by
  induction k with
  | zero => rfl
  | succ k ih =>
    rw [range_succ, flatMap_append, ih, flatMap_singleton, block, Nat.mul_succ, range_eq_range',
      range_eq_range', ← range'_append, Nat.one_mul, Nat.zero_add]

theorem WellFormed.range_eq (h : pattern.WellFormed n) :
    List.range (pattern.width * pattern.keyCount n) ++ pattern.shared n = List.range n := by
  have hn : pattern.width * pattern.keyCount n + (pattern.shared n).length = n := by
    cases pattern <;> simp only [WellFormed, width, keyCount, shared, length_nil, length_singleton] at h ⊢ <;> omega
  cases pattern with
  | keysAndLastArg =>
    obtain ⟨m, rfl⟩ : ∃ m, n = m + 1 := ⟨n - 1, by simp only [shared, length_singleton] at hn; omega⟩
    rw [range_succ]
    simp [width, keyCount, shared]
  | _ =>
    simp only [shared, length_nil, Nat.add_zero, append_nil] at hn ⊢
    rw [hn]

theorem stepIndices_blocks {w : Nat} (hw : 0 < w) (ks : List Nat) :
    stepIndices w (ks.flatMap fun k => List.range' (w * k) w) = ks := by
  have hblock : ∀ k j, (((List.range' (w * k) w).zipIdx (w * j)).filter fun p => p.2 % w = 0).map
      (fun p => p.1 / w) = [k] := by
    intro k j
    rw [zipIdx_eq_zip_range', length_range', range'_eq_map_range, range'_eq_map_range, zip_map', filter_map]
    simp [Function.comp_def, filter_range_mod hw, Nat.mul_div_cancel_left k hw]
  have hfrom : ∀ j, (((ks.flatMap fun k => List.range' (w * k) w).zipIdx (w * j)).filter fun p => p.2 % w = 0).map
      (fun p => p.1 / w) = ks := by
    induction ks with
    | nil => intro j; rfl
    | cons k ks ih =>
      intro j
      have hnext := ih (j + 1)
      rw [Nat.mul_succ] at hnext
      rw [flatMap_cons, zipIdx_append, filter_append, map_append, hblock, length_range', hnext, singleton_append]
  exact hfrom 0

theorem checkIndicesInput_ok {w : Nat} {routes : List (Route × List Nat)} (h : ∀ entry ∈ routes, entry.2.length % w = 0) :
    checkIndicesInput w routes = .ok () := by
  have hnone : routes.find? (fun route => route.2.length % w ≠ 0) = none := by
    refine find?_eq_none.2 fun entry hent => ?_
    simp [h entry hent]
  rw [checkIndicesInput, hnone]

theorem length_flatMap_block (pattern : MultiSlotArgPattern) (ks : List Nat) :
    (ks.flatMap pattern.block).length % pattern.width = 0 := by
  induction ks with
  | nil => exact Nat.zero_mod _
  | cons k ks ih =>
    rw [flatMap_cons, length_append, block, length_range', Nat.add_mod_left, ih]

theorem flatMap_block_of_width (h : pattern.width = 1) (ks : List Nat) : ks.flatMap pattern.block = ks := by
  have hblock : ∀ k ∈ ks, pattern.block k = [k] := fun k _ => by rw [block, h, Nat.one_mul, range'_one]
  rw [flatMap_congr hblock, flatMap_singleton']

theorem calculateMultiSlotResultIndices_eq {routes : List (Route × List Nat)}
    (h : ∀ entry ∈ routes, ∃ ks : List Nat, entry.2 = ks.flatMap pattern.block ++ pattern.shared n) :
    calculateMultiSlotResultIndices routes pattern = .ok (routes.map fun entry => .ok (pattern.keyNumbers entry.2)) := by
  have hnums : ∀ f : List Nat → Ends (List Nat),
      (∀ ks : List Nat, f (ks.flatMap pattern.block ++ pattern.shared n) = .ok ks) →
        (routes.map fun entry => f entry.2) = routes.map fun entry => .ok (pattern.keyNumbers entry.2) := by
    intro f hf
    refine map_congr_left fun entry hent => ?_
    obtain ⟨ks, hks⟩ := h entry hent
    rw [hks, hf, keyNumbers_eq]
  have hstep : pattern ≠ .keysAndLastArg → checkIndicesInput pattern.width routes = .ok () ∧
      (routes.map fun entry => .ok (stepIndices pattern.width entry.2)) =
        (routes.map fun entry => .ok (pattern.keyNumbers entry.2) : List (Ends (List Nat))) := by
    intro hpat
    refine ⟨checkIndicesInput_ok fun entry hent => ?_, hnums (fun l => .ok (stepIndices _ l)) fun ks => ?_⟩
    · obtain ⟨ks, hks⟩ := h entry hent
      rw [hks, shared_of_ne hpat, append_nil, length_flatMap_block]
    · rw [shared_of_ne hpat, append_nil]
      exact congrArg Except.ok (stepIndices_blocks pattern.width_pos ks)
  cases pattern with
  | keysOnly =>
    have hself : ∀ ks : List Nat, ks.flatMap (block .keysOnly) ++ shared .keysOnly n = ks := fun ks => by
      rw [shared_of_ne (by decide), append_nil, flatMap_block_of_width rfl]
    exact congrArg Except.ok (hnums .ok fun ks => congrArg Except.ok (hself ks))
  | keysAndLastArg =>
    refine congrArg Except.ok (hnums (fun l => (checkedSub l.length 1).map l.take) fun ks => ?_)
    rw [shared, flatMap_block_of_width rfl]
    simp [checkedSub, Except.map]
  | keyValuePairs =>
    obtain ⟨hcheck, hmap⟩ := hstep (by decide)
    rw [width] at hcheck
    rw [calculateMultiSlotResultIndices, hcheck, ← hmap]
    rfl
  | keyWithTwoArgTriples =>
    obtain ⟨hcheck, hmap⟩ := hstep (by decide)
    rw [width] at hcheck
    rw [calculateMultiSlotResultIndices, hcheck, ← hmap]
    rfl

end MultiSlotArgPattern

/-- Two of the keys are in different slots. -/
def SeveralSlots [Crc16] (keys : List Bytes) : Prop := ∃ a ∈ keys, ∃ b ∈ keys, Slot.forKey a ≠ Slot.forKey b

/-- The routes split the command `name args` as they should. -/
structure IsSplit [Crc16] (c : Cmd) (name : Bytes) (args : List Bytes) (pattern : MultiSlotArgPattern)
    (routes : List (Route × List Nat)) : Prop where
  /-- There is one part for each slot of a key. -/
  nodup_slots : (routes.map fun entry => entry.1.slot).Nodup
  mem_slots : ∀ slot, slot ∈ routes.map (fun entry => entry.1.slot) ↔
    ∃ key ∈ pattern.keys args, (Slot.forKey key).val = slot
  /-- The shared argument is in every part and every other one in exactly one. -/
  partition : (routes.flatMap fun entry => pattern.own entry.2).Perm
    (List.range (args.length - (pattern.shared args.length).length))
  shared : ∀ entry ∈ routes, entry.2 = pattern.own entry.2 ++ pattern.shared args.length
  /-- The arguments of a part are in the order of the command. -/
  sublist : ∀ entry ∈ routes, entry.2.Sublist (List.range args.length)
  /-- A part has the keys of its slot, each with its values. -/
  blocks : ∀ entry ∈ routes, pattern.own entry.2 = (pattern.keyNumbers entry.2).flatMap pattern.block
  slot_of_key : ∀ entry ∈ routes, ∀ k ∈ pattern.keyNumbers entry.2,
    (Slot.forKey (pattern.keyAt args k)).val = entry.1.slot
  command : ∀ entry ∈ routes,
    commandForMultiSlotIndices c entry.2 = .ok (Cmd.ofArgs (name :: entry.2.map fun i => args.getD i []))
  /-- The results of the keys come back in the order of the keys. -/
  combined : ∀ result : Nat → Value,
    combineAndSortArrayResults (routes.map fun entry => .array ((pattern.keyNumbers entry.2).map result)) routes pattern =
      .ok (.ok (.array ((List.range (pattern.keyCount args.length)).map result)))

section Parts

variable {R : Type} [Routable R] {r : R} {name : Bytes} {args : List Bytes} {pattern : MultiSlotArgPattern}
  {isReadonly : Bool}

theorem commandForMultiSlotIndices_eq (hr : HasWords r (name :: args)) {indices : List Nat}
    (h : ∀ i ∈ indices, i < args.length) :
    commandForMultiSlotIndices r indices = .ok (Cmd.ofArgs (name :: indices.map fun i => args.getD i [])) := by
  have hfold : ∀ acc : Cmd, indices.foldlM (fun newCmd index => return newCmd.argOption (← Routable.argIdx r (index + 1)))
      acc = (.ok ((indices.map fun i => args.getD i []).foldl Cmd.writeArg acc) : Ends Cmd) := by
    induction indices with
    | nil => intro acc; rfl
    | cons i indices ih =>
      intro acc
      have hi := h i mem_cons_self
      have harg : Routable.argIdx r (i + 1) = .ok (some (args.getD i [])) := by
        rw [hr, getElem?_cons_succ, getD_eq_getElem?_getD, getElem?_eq_getElem hi]
        rfl
      rw [foldlM_cons, harg]
      exact ih (fun j hj => h j (mem_cons_of_mem i hj)) _
  have hname : Routable.argIdx r 0 = .ok (some name) := hr 0
  rw [commandForMultiSlotIndices, hname]
  exact hfold _

def keysOf [Crc16] (pattern : MultiSlotArgPattern) (isReadonly : Bool) (args : List Bytes) (route : Route) : List Nat :=
  (List.range (pattern.keyCount args.length)).filter (pattern.routeAt isReadonly args · = route)

def planFor (route : Nat → Route) (pattern : MultiSlotArgPattern) (count n : Nat) : List (Route × List Nat) :=
  (groups route pattern.block (List.range count)).map fun entry => (entry.1, entry.2 ++ pattern.shared n)

section PlanFor

variable {route : Nat → Route} {count n : Nat}

theorem mem_planFor {entry : Route × List Nat} :
    entry ∈ planFor route pattern count n ↔ entry.1 ∈ (List.range count).map route ∧
      entry.2 = ((List.range count).filter (route · = entry.1)).flatMap pattern.block ++ pattern.shared n := by
  rw [planFor, mem_map]
  constructor
  · rintro ⟨group, hgroup, rfl⟩
    obtain ⟨hroute, hidx⟩ := mem_groups.1 hgroup
    exact ⟨hroute, congrArg (· ++ pattern.shared n) hidx⟩
  · rintro ⟨hroute, hidx⟩
    refine ⟨(entry.1, ((List.range count).filter (route · = entry.1)).flatMap pattern.block),
      mem_groups.2 ⟨hroute, rfl⟩, ?_⟩
    rw [← hidx]

theorem fst_planFor : (planFor route pattern count n).map Prod.fst =
    (groups route pattern.block (List.range count)).map Prod.fst := by
  rw [planFor, map_map]
  rfl

theorem nodup_routes_planFor : ((planFor route pattern count n).map Prod.fst).Nodup := by
  rw [fst_planFor]
  exact nodup_keys_groups _ _ _

theorem perm_keyNumbers_planFor :
    ((planFor route pattern count n).flatMap fun entry => pattern.keyNumbers entry.2).Perm (List.range count) := by
  have hnums : ((planFor route pattern count n).flatMap fun entry => pattern.keyNumbers entry.2) =
      ((planFor route pattern count n).map Prod.fst).flatMap fun r => (List.range count).filter (route · = r) := by
    rw [flatMap_map]
    refine flatMap_congr fun entry hent => ?_
    rw [(mem_planFor.1 hent).2, keyNumbers_eq]
  have hmem : ∀ k ∈ List.range count, route k ∈ (planFor route pattern count n).map Prod.fst := fun k hk => by
    rw [fst_planFor, mem_keys_groups]
    exact mem_map.2 ⟨k, hk, rfl⟩
  rw [hnums]
  exact perm_flatMap_filter _ nodup_routes_planFor hmem

theorem calculateMultiSlotResultIndices_planFor {routes : List (Route × List Nat)}
    (h : routes.Perm (planFor route pattern count n)) :
    calculateMultiSlotResultIndices routes pattern = .ok (routes.map fun entry => .ok (pattern.keyNumbers entry.2)) :=
  calculateMultiSlotResultIndices_eq fun _ hent => ⟨_, (mem_planFor.1 (h.mem_iff.1 hent)).2⟩

end PlanFor

theorem mem_routes_plan [Crc16] {route : Route} :
    route ∈ (pattern.plan isReadonly args).map Prod.fst ↔ ∃ key ∈ pattern.keys args, getRoute isReadonly key = route := by
  show route ∈ (planFor _ _ _ _).map Prod.fst ↔ _
  rw [fst_planFor, mem_keys_groups, MultiSlotArgPattern.keys]
  simp only [mem_map]
  constructor
  · rintro ⟨k, hk, rfl⟩
    exact ⟨pattern.keyAt args k, ⟨k, hk, rfl⟩, rfl⟩
  · rintro ⟨key, ⟨k, hk, rfl⟩, rfl⟩
    exact ⟨k, hk, rfl⟩

theorem nodup_routes_plan [Crc16] : ((pattern.plan isReadonly args).map Prod.fst).Nodup := nodup_routes_planFor

theorem nodup_slots_plan [Crc16] : ((pattern.plan isReadonly args).map fun entry => entry.1.slot).Nodup := by
  have hslots : ((pattern.plan isReadonly args).map fun entry => entry.1.slot) =
      ((pattern.plan isReadonly args).map Prod.fst).map Route.slot := by
    rw [map_map]
    rfl
  rw [hslots]
  refine nodup_routes_plan.map_on fun x hx y hy hxy => ?_
  obtain ⟨a, -, rfl⟩ := mem_routes_plan.1 hx
  obtain ⟨b, -, rfl⟩ := mem_routes_plan.1 hy
  exact getRoute_eq_of_slot hxy

theorem two_le_length_plan_iff [Crc16] : 2 ≤ (pattern.plan isReadonly args).length ↔
    SeveralSlots (pattern.keys args) := by
  rw [← length_map (f := Prod.fst), two_le_length_iff nodup_routes_plan]
  constructor
  · rintro ⟨x, hx, y, hy, hne⟩
    obtain ⟨a, ha, rfl⟩ := mem_routes_plan.1 hx
    obtain ⟨b, hb, rfl⟩ := mem_routes_plan.1 hy
    exact ⟨a, ha, b, hb, fun heq => hne (getRoute_eq_iff.2 heq)⟩
  · rintro ⟨a, ha, b, hb, hne⟩
    exact ⟨_, mem_routes_plan.2 ⟨a, ha, rfl⟩, _, mem_routes_plan.2 ⟨b, hb, rfl⟩,
      fun heq => hne (getRoute_eq_iff.1 heq)⟩

theorem perm_own_plan [Crc16] :
    ((pattern.plan isReadonly args).flatMap fun entry => pattern.own entry.2).Perm
      (List.range (pattern.width * pattern.keyCount args.length)) := by
  have hown : ((pattern.plan isReadonly args).flatMap fun entry => pattern.own entry.2) =
      (groups (pattern.routeAt isReadonly args) pattern.block
        (List.range (pattern.keyCount args.length))).flatMap Prod.snd := by
    rw [plan, flatMap_map]
    exact flatMap_congr fun entry _ => own_append_shared pattern entry.2 args.length
  rw [hown, ← flatMap_block_range]
  exact perm_flatMap_groups _ _ _

theorem isSplit_of_perm [Crc16] {c : Cmd} (hc : HasWords c (name :: args)) (hwf : pattern.WellFormed args.length)
    {routes : List (Route × List Nat)} (hperm : routes.Perm (pattern.plan isReadonly args)) :
    IsSplit c name args pattern routes := by
  have hent : ∀ entry ∈ routes, entry.2 =
      (keysOf pattern isReadonly args entry.1).flatMap pattern.block ++ pattern.shared args.length := fun entry h =>
    (mem_planFor.1 (hperm.mem_iff.1 h)).2
  have hown : ∀ entry ∈ routes, pattern.own entry.2 = (keysOf pattern isReadonly args entry.1).flatMap pattern.block :=
    fun entry h => by rw [hent entry h, own_append_shared]
  have hnums : ∀ entry ∈ routes, pattern.keyNumbers entry.2 = keysOf pattern isReadonly args entry.1 :=
    fun entry h => by rw [hent entry h, keyNumbers_eq]
  have hsub : ∀ entry ∈ routes, entry.2.Sublist (List.range args.length) := fun entry h => by
    rw [hent entry h, ← hwf.range_eq, ← flatMap_block_range]
    exact (filter_sublist.flatMap _).append_right _
  have hlen : args.length - (pattern.shared args.length).length = pattern.width * pattern.keyCount args.length := by
    have hrange := congrArg List.length hwf.range_eq
    rw [length_append, length_range, length_range] at hrange
    omega
  exact {
    nodup_slots := (hperm.map _).nodup_iff.2 nodup_slots_plan
    mem_slots := fun slot => by
      rw [(hperm.map _).mem_iff]
      constructor
      · intro hslot
        obtain ⟨entry, hent, rfl⟩ := mem_map.1 hslot
        obtain ⟨key, hkey, hroute⟩ := mem_routes_plan.1 (mem_map_of_mem hent)
        exact ⟨key, hkey, by rw [← hroute, getRoute_slot]⟩
      · rintro ⟨key, hkey, rfl⟩
        obtain ⟨entry, hent, hroute⟩ := mem_map.1 (mem_routes_plan.2 ⟨key, hkey, rfl⟩)
        exact mem_map.2 ⟨entry, hent, by rw [hroute, getRoute_slot]⟩
    partition := by
      rw [hlen]
      exact (hperm.flatMap_right _).trans perm_own_plan
    shared := fun entry h => by rw [hown entry h]; exact hent entry h
    sublist := hsub
    blocks := fun entry h => by rw [hown entry h, hnums entry h]
    slot_of_key := fun entry h k hk => by
      rw [hnums entry h] at hk
      have hroute : pattern.routeAt isReadonly args k = entry.1 := of_decide_eq_true (mem_filter.1 hk).2
      rw [← hroute, routeAt, getRoute_slot]
    command := fun entry h =>
      commandForMultiSlotIndices_eq hc fun i hi => mem_range.1 ((hsub entry h).subset hi)
    combined := fun result => by
      have hidx := calculateMultiSlotResultIndices_planFor hperm
      have hkeys : (routes.map fun entry => pattern.keyNumbers entry.2).flatten.Perm
          (List.range (pattern.keyCount args.length)) := (hperm.flatMap_right _).trans perm_keyNumbers_planFor
      have hplace := placeResults_range result hkeys
      rw [map_map, map_map] at hplace
      rw [combineAndSortArrayResults, hidx]
      simp only [length_map, ne_eq, not_true_eq_false, if_false]
      exact hplace }

end Parts

section Commands

variable {order : RouteOrder} {c : Cmd} {name : Bytes} {args : List Bytes}
  {pattern : MultiSlotArgPattern}

theorem hasWords_of_argsIter (hc : c.argsIter = (name :: args).map .simple)
    (hname : baseRouting (asciiUppercase name) = .multiShard pattern) : HasWords c (name :: args) := by
  refine Cmd.argIdx_of_argsIter hc fun hnil => ?_
  have hnone : baseRouting (asciiUppercase []) = .firstKey := by decide +kernel
  rw [hnil, hnone] at hname
  exact RouteBy.noConfusion hname

theorem SeveralSlots.two_le_length [Crc16] (h : SeveralSlots (keys .keysAndLastArg args)) : 2 ≤ args.length := by
  obtain ⟨a, ha, -⟩ := h
  obtain ⟨k, hk, -⟩ := mem_map.1 ha
  have hlt : k < args.length - 1 := mem_range.1 hk
  omega

theorem SeveralSlots.wellFormed [Crc16] (h : SeveralSlots (pattern.keys args))
    (heven : pattern = .keyValuePairs → args.length % 2 = 0)
    (hthree : pattern = .keyWithTwoArgTriples → args.length % 3 = 0) : pattern.WellFormed args.length := by
  cases pattern with
  | keysOnly => trivial
  | keyValuePairs => exact heven rfl
  | keyWithTwoArgTriples => exact hthree rfl
  | keysAndLastArg => exact h.two_le_length

theorem multiSlot_iff [Crc16] (hord : ∀ routes, (order routes).Perm routes) (hr : HasWords c (name :: args))
    {cmd : Bytes} {routes : List (Route × List Nat)} {pattern' : MultiSlotArgPattern} {policy : Option ResponsePolicy} :
    multiShard order c cmd 1 pattern = .ok (some (.multiNode (.multiSlot routes pattern') policy)) ↔
      ¬ (pattern = .keyWithTwoArgTriples ∧ args.length % 3 = 1) ∧ SeveralSlots (pattern.keys args) ∧
        routes = order (pattern.plan (isReadonlyCmd cmd) args) ∧ pattern' = pattern ∧
        policy = ResponsePolicy.forCommand cmd := by
  by_cases hshort : pattern = .keysAndLastArg ∧ args.length < 2
  · obtain ⟨rfl, hlen⟩ := hshort
    obtain ⟨rs, hloop, hrs⟩ := multiShardLoop_short (isReadonlyCmd cmd) hr hlen
    constructor
    · intro h
      have htwo := ((multiShard_eq_multiSlot_iff hord hloop).1 h).1
      omega
    · rintro ⟨-, hslots, -⟩
      exact absurd hslots.two_le_length (Nat.not_le_of_lt hlen)
  · have hloop : multiShardLoop c (isReadonlyCmd cmd) 1 pattern (Routable.argCount c) ∅ 0 =
        .ok (loopResult pattern (isReadonlyCmd cmd) args) :=
      multiShardLoop_all _ hr fun h => Nat.le_of_not_lt fun hlt => hshort ⟨h, hlt⟩
    by_cases href : pattern = .keyWithTwoArgTriples ∧ args.length % 3 = 1
    · rw [loopResult, if_pos href] at hloop
      constructor
      · intro h
        rw [multiShard, hloop] at h
        cases h
      · exact fun h => absurd href h.1
    · rw [loopResult, if_neg href] at hloop
      rw [multiShard_eq_multiSlot_iff hord hloop, two_le_length_plan_iff]
      simp [href]

/-- A command with several keys is split into one command for each route, and the keys of the parts are the keys of
the command, each once and in its order. -/
theorem multiShard_splits [Crc16] (order : RouteOrder)
    (horder : ∀ routes, (order routes).Perm routes) (c : Cmd) (name : Bytes) (args : List Bytes)
    (hc : c.argsIter = (name :: args).map .simple) (pattern : MultiSlotArgPattern)
    (hname : baseRouting (asciiUppercase name) = .multiShard pattern) (hwf : pattern.WellFormed args.length)
    (hslots : SeveralSlots (pattern.keys args)) :
    ∃ routes, multiShard order c (asciiUppercase name) 1 pattern =
        .ok (some (.multiNode (.multiSlot routes pattern) (ResponsePolicy.forCommand (asciiUppercase name)))) ∧
      IsSplit c name args pattern routes := by
  have hr := hasWords_of_argsIter hc hname
  have hok : ¬ (pattern = .keyWithTwoArgTriples ∧ args.length % 3 = 1) := by
    rintro ⟨rfl, hmod⟩
    have hzero : args.length % 3 = 0 := hwf
    omega
  exact ⟨_, (multiSlot_iff horder hr).2 ⟨hok, hslots, rfl, rfl, rfl⟩, isSplit_of_perm hr hwf (horder _)⟩

theorem mset_splits :
    ∃ routes, multiShard id (Cmd.ofArgs (["mset", "a", "1", "b", "2"].map bytesOf)) (bytesOf "MSET") 1 .keyValuePairs =
        .ok (some (.multiNode (.multiSlot routes .keyValuePairs) (some .allSucceeded))) ∧
      IsSplit (Cmd.ofArgs (["mset", "a", "1", "b", "2"].map bytesOf)) (bytesOf "mset") (["a", "1", "b", "2"].map bytesOf)
        .keyValuePairs routes :=
  multiShard_splits id (fun _ => .refl _) _ (bytesOf "mset") (["a", "1", "b", "2"].map bytesOf) (Cmd.argsIter_ofArgs _)
    .keyValuePairs (by decide +kernel) rfl ⟨bytesOf "a", by decide, bytesOf "b", by decide, by decide +kernel⟩

/-- A last key without all of its values that passes the check. -/
def LacksValue (pattern : MultiSlotArgPattern) (n : Nat) : Prop :=
  (pattern = .keyValuePairs ∧ n % 2 = 1) ∨ (pattern = .keyWithTwoArgTriples ∧ n % 3 = 2)

/-- Every plan of a command has only arguments that are there, and whole pairs and triples of them, exactly if it is
not split while the last key lacks a value. -/
theorem multiShard_rejects_iff [Crc16] (order : RouteOrder)
    (horder : ∀ routes, (order routes).Perm routes) (c : Cmd) (name : Bytes) (args : List Bytes)
    (hc : c.argsIter = (name :: args).map .simple) (pattern : MultiSlotArgPattern)
    (hname : baseRouting (asciiUppercase name) = .multiShard pattern) :
    (∀ routes pattern' policy, multiShard order c (asciiUppercase name) 1 pattern =
        .ok (some (.multiNode (.multiSlot routes pattern') policy)) →
      (∀ entry ∈ routes, ∀ i ∈ entry.2, ∃ arg, c.argIdx (i + 1) = .ok (some arg)) ∧
        (pattern = .keyValuePairs → args.length % 2 = 0) ∧ (pattern = .keyWithTwoArgTriples → args.length % 3 = 0)) ↔
      ¬ (LacksValue pattern args.length ∧ SeveralSlots (pattern.keys args)) := by
  have hr := hasWords_of_argsIter hc hname
  constructor
  · rintro hprop ⟨hlacks, hslots⟩
    have hok : ¬ (pattern = .keyWithTwoArgTriples ∧ args.length % 3 = 1) := by
      rintro ⟨rfl, hmod⟩
      rcases hlacks with ⟨hne, -⟩ | ⟨-, hmod'⟩
      · exact absurd hne (by decide)
      · omega
    obtain ⟨-, heven, hthree⟩ :=
      hprop _ _ _ ((multiSlot_iff horder hr).2 ⟨hok, hslots, rfl, rfl, rfl⟩)
    rcases hlacks with ⟨hp, hmod⟩ | ⟨hp, hmod⟩
    · have := heven hp
      omega
    · have := hthree hp
      omega
  · intro hnot routes pattern' policy hplan
    obtain ⟨hok, hslots, rfl, -, -⟩ := (multiSlot_iff horder hr).1 hplan
    have heven : pattern = .keyValuePairs → args.length % 2 = 0 := fun h => by
      have : ¬ args.length % 2 = 1 := fun hmod => hnot ⟨.inl ⟨h, hmod⟩, hslots⟩
      omega
    have hthree : pattern = .keyWithTwoArgTriples → args.length % 3 = 0 := fun h => by
      have : ¬ args.length % 3 = 1 := fun hmod => hok ⟨h, hmod⟩
      have : ¬ args.length % 3 = 2 := fun hmod => hnot ⟨.inr ⟨h, hmod⟩, hslots⟩
      omega
    have hwf := hslots.wellFormed heven hthree
    have hsplit := isSplit_of_perm hr hwf (horder (pattern.plan (isReadonlyCmd (asciiUppercase name)) args))
    refine ⟨fun entry hentry i hi => ?_, heven, hthree⟩
    have hlt := mem_range.1 ((hsplit.sublist entry hentry).subset hi)
    exact hr.some_of_lt hlt

theorem mset_lacks_value :
    multiShard id (Cmd.ofArgs (["MSET", "a", "1", "b"].map bytesOf)) (bytesOf "MSET") 1 .keyValuePairs =
        .ok (some (.multiNode (.multiSlot [(⟨3300, .master⟩, [2, 3]), (⟨15495, .master⟩, [0, 1])] .keyValuePairs)
          (some .allSucceeded))) ∧
      (Cmd.ofArgs (["MSET", "a", "1", "b"].map bytesOf)).argIdx (3 + 1) = .ok none ∧
      commandForMultiSlotIndices (Cmd.ofArgs (["MSET", "a", "1", "b"].map bytesOf)) [2, 3] =
        .ok (Cmd.ofArgs (["MSET", "b"].map bytesOf)) := by
  exact ⟨by decide +kernel, by decide +kernel, rfl⟩

theorem mset_complete :
    ¬ LacksValue .keyValuePairs 4 ∧ ∀ routes pattern policy,
      multiShard id (Cmd.ofArgs (["MSET", "a", "1", "b", "2"].map bytesOf)) (bytesOf "MSET") 1 .keyValuePairs =
          .ok (some (.multiNode (.multiSlot routes pattern) policy)) →
        (∀ entry ∈ routes, ∀ i ∈ entry.2,
          ∃ arg, (Cmd.ofArgs (["MSET", "a", "1", "b", "2"].map bytesOf)).argIdx (i + 1) = .ok (some arg)) ∧
          (MultiSlotArgPattern.keyValuePairs = .keyValuePairs → 4 % 2 = 0) ∧
          (MultiSlotArgPattern.keyValuePairs = .keyWithTwoArgTriples → 4 % 3 = 0) := by
  have hlacks : ¬ LacksValue .keyValuePairs 4 := by simp [LacksValue]
  exact ⟨hlacks, (multiShard_rejects_iff id (fun _ => .refl _) _ (bytesOf "MSET") (["a", "1", "b", "2"].map bytesOf)
    (Cmd.argsIter_ofArgs _) .keyValuePairs (by decide +kernel)).2 fun h => hlacks h.1⟩

end Commands

end RedisRs
