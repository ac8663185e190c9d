import RedisRs.ClusterRouting
import RedisRs.Grouping

/-!
# How a command over several keys is split
-/

namespace RedisRs

open List Grouping

namespace Cmd

theorem offsets_of_argsFrom {data : Bytes} {prev : Nat} {args : List (Arg Nat)} {l : List Bytes}
    (h : Offsets prev args data.length) (hargs : argsFrom data prev args = l.map .simple) :
    args = offsetsFrom prev l ∧ data.drop prev = l.flatten := by
  induction args generalizing prev l with
  | nil =>
    have hprev : prev = data.length := h
    have hl : l = [] := map_eq_nil_iff.1 hargs.symm
    subst hprev hl
    exact ⟨rfl, drop_length⟩
  | cons a args ih =>
    obtain ⟨val, l, rfl⟩ : ∃ val l', l = val :: l' := by
      refine exists_cons_of_ne_nil fun hnil => ?_
      rw [hnil] at hargs
      cases a <;> exact cons_ne_nil _ _ hargs
    cases a with
    | cursor => exact absurd (List.cons.inj hargs).1 (by simp)
    | simple i =>
      obtain ⟨hval, hrest⟩ := List.cons.inj hargs
      obtain ⟨hle, h⟩ := h
      obtain ⟨hoffsets, hdata⟩ := ih h hrest
      have hi := h.le
      have hval : (data.drop prev).take (i - prev) = val := Arg.simple.inj hval
      have hlen : i = prev + val.length := by
        rw [← hval, length_take, length_drop]
        omega
      have hdrop : data.drop prev = val ++ data.drop i := by
        have hsplit := take_append_drop (i - prev) (data.drop prev)
        rw [hval, drop_drop, Nat.add_sub_cancel' hle] at hsplit
        exact hsplit.symm
      exact ⟨by rw [offsetsFrom, ← hlen, ← hoffsets], by rw [hdrop, hdata, flatten_cons]⟩

theorem endOffset_offsetsFrom (l : List Bytes) (prev : Nat) {i : Nat} (hi : i < l.length) :
    endOffset (offsetsFrom prev l)[i]? = prev + (l.take (i + 1)).flatten.length := by
  induction l generalizing prev i with
  | nil => exact absurd hi (Nat.not_lt_zero i)
  | cons a l ih =>
    cases i with
    | zero => simp [offsetsFrom, endOffset]
    | succ i =>
      have hi' : i < l.length := Nat.lt_of_succ_lt_succ hi
      rw [offsetsFrom, getElem?_cons_succ, ih _ hi', take_succ_cons, flatten_cons, length_append]
      omega

theorem length_offsetsFrom (l : List Bytes) (prev : Nat) : (offsetsFrom prev l).length = l.length := by
  induction l generalizing prev with
  | nil => rfl
  | cons a l ih => rw [offsetsFrom, length_cons, ih, length_cons]

theorem argIdx_of_argsIter {c : Cmd} {name : Bytes} {args : List Bytes} (hc : c.argsIter = (name :: args).map .simple)
    (hname : name ≠ []) (i : Nat) : c.argIdx i = .ok ((name :: args)[i]?) := by
  obtain ⟨hargs, hdata⟩ := offsets_of_argsFrom c.wf hc
  rw [drop_zero] at hdata
  generalize hl : name :: args = l at hargs hdata
  rw [argIdx, hargs, length_offsetsFrom]
  by_cases hi : l.length ≤ i
  · rw [if_pos hi, getElem?_eq_none hi]
  have hlt : i < l.length := Nat.lt_of_not_le hi
  have hstart : (if i = 0 then 0 else endOffset (offsetsFrom 0 l)[i - 1]?) = (l.take i).flatten.length := by
    cases i with
    | zero => rfl
    | succ i => rw [if_neg (Nat.succ_ne_zero i), Nat.add_sub_cancel, endOffset_offsetsFrom l 0 (by omega), Nat.zero_add]
  have hstop : endOffset (offsetsFrom 0 l)[i]? = (l.take i).flatten.length + l[i].length := by
    rw [endOffset_offsetsFrom l 0 hlt, take_add_one, getElem?_eq_getElem hlt]
    simp only [Option.toList_some, flatten_append, flatten_singleton, length_append, Nat.zero_add]
  have hpos : ¬ ((l.take i).flatten.length = 0 ∧ (l.take i).flatten.length + l[i].length = 0) := by
    -- the name is in front of all arguments but itself
    subst hl
    have hlen := length_pos_of_ne_nil hname
    cases i with
    | zero => simp only [getElem_cons_zero]; omega
    | succ i => simp only [take_succ_cons, flatten_cons, length_append]; omega
  have hsplit : l.flatten = (l.take i).flatten ++ (l[i] ++ (l.drop (i + 1)).flatten) := by
    rw [← flatten_cons, ← drop_eq_getElem_cons hlt, ← flatten_append, take_append_drop]
  have hslice : slice c.data (l.take i).flatten.length ((l.take i).flatten.length + l[i].length) = .ok l[i] := by
    rw [slice, hdata, hsplit, if_pos ⟨by omega, by simp only [length_append]; omega⟩, drop_left,
      Nat.add_sub_cancel_left, take_left]
  rw [if_neg hi, hstart, hstop]
  simp only [if_neg hpos, hslice, getElem?_eq_getElem hlt]
  rfl

end Cmd

namespace MultiSlotArgPattern

def width : MultiSlotArgPattern → Nat
  | keysOnly => 1
  | keyValuePairs => 2
  | keysAndLastArg => 1
  | keyWithTwoArgTriples => 3

def keyCount : MultiSlotArgPattern → Nat → Nat
  | keysOnly, n => n
  | keyValuePairs, n => (n + 1) / 2
  | keysAndLastArg, n => n - 1
  | keyWithTwoArgTriples, n => (n + 2) / 3

def block (pattern : MultiSlotArgPattern) (k : Nat) : List Nat := List.range' (pattern.width * k) pattern.width

def shared : MultiSlotArgPattern → Nat → List Nat
  | keysAndLastArg, n => [n - 1]
  | _, _ => []

def keyAt (pattern : MultiSlotArgPattern) (args : List Bytes) (k : Nat) : Bytes := args.getD (pattern.width * k) []

def keys (pattern : MultiSlotArgPattern) (args : List Bytes) : List Bytes :=
  (List.range (pattern.keyCount args.length)).map (pattern.keyAt args)

def routeAt [Crc16] (pattern : MultiSlotArgPattern) (isReadonly : Bool) (args : List Bytes) (k : Nat) : Route :=
  getRoute isReadonly (pattern.keyAt args k)

def plan [Crc16] (pattern : MultiSlotArgPattern) (isReadonly : Bool) (args : List Bytes) : List (Route × List Nat) :=
  (groups (pattern.routeAt isReadonly args) pattern.block (List.range (pattern.keyCount args.length))).map fun entry =>
    (entry.1, entry.2 ++ pattern.shared args.length)

variable {pattern : MultiSlotArgPattern}

theorem lt_keyCount_iff (h : pattern ≠ .keysAndLastArg) {k n : Nat} :
    k < pattern.keyCount n ↔ pattern.width * k < n := by
  cases pattern with
  | keysAndLastArg => exact absurd rfl h
  | _ => simp only [keyCount, width]; omega

theorem shared_of_ne (h : pattern ≠ .keysAndLastArg) (n : Nat) : pattern.shared n = [] := by
  cases pattern with
  | keysAndLastArg => exact absurd rfl h
  | _ => rfl

theorem plan_of_ne [Crc16] (h : pattern ≠ .keysAndLastArg) (isReadonly : Bool) (args : List Bytes) :
    pattern.plan isReadonly args =
      groups (pattern.routeAt isReadonly args) pattern.block (List.range (pattern.keyCount args.length)) := by
  simp [plan, shared_of_ne h]

end MultiSlotArgPattern

open MultiSlotArgPattern Routable

section Loop

variable {R : Type} [Routable R] {r : R} {name : Bytes} {args : List Bytes}
  {isReadonly : Bool} {pattern : MultiSlotArgPattern}

/-- The arguments of the command are these words. -/
def HasWords (r : R) (words : List Bytes) : Prop := ∀ i, argIdx r i = .ok words[i]?

variable {k : Nat}

theorem HasWords.key (hr : HasWords r (name :: args)) (hk : pattern.width * k < args.length) :
    argIdx r (1 + pattern.width * k) = .ok (some (pattern.keyAt args k)) := by
  rw [hr, Nat.add_comm, getElem?_cons_succ, keyAt, getD_eq_getElem?_getD, getElem?_eq_getElem hk]
  rfl

variable {i fuel : Nat} {cmd : Bytes}

theorem HasWords.some_of_lt (hr : HasWords r (name :: args)) (hi : i ≤ args.length) :
    ∃ arg, argIdx r i = .ok (some arg) := by
  have hlt : i < (name :: args).length := Nat.lt_succ_of_le hi
  exact ⟨_, by rw [hr, getElem?_eq_getElem hlt]⟩

theorem HasWords.none_of_le (hr : HasWords r (name :: args)) (hi : args.length < i) : argIdx r i = .ok none := by
  rw [hr, getElem?_eq_none (by rw [length_cons]; omega)]

theorem HasWords.incrAddNextArg (hr : HasWords r (name :: args)) {i : Nat} (hi : i < args.length) (indices : List Nat) :
    incrAddNextArg r indices i = .ok (some (indices ++ [i + 1], i + 1)) := by
  obtain ⟨arg, harg⟩ := hr.some_of_lt hi
  rw [RedisRs.incrAddNextArg, harg]
  rfl

theorem HasWords.incrAddNextArg_none (hr : HasWords r (name :: args)) (hi : args.length ≤ i) (indices : List Nat) :
    RedisRs.incrAddNextArg r indices i = .ok none := by
  rw [RedisRs.incrAddNextArg, hr.none_of_le (Nat.lt_succ_of_le hi)]
  rfl

theorem multiShardLoop_step [Crc16] (hr : HasWords r (name :: args)) (hpat : pattern ≠ .keysAndLastArg)
    (hk : pattern.width * k < args.length) (hvals : ¬ (pattern = .keyWithTwoArgTriples ∧ args.length = 3 * k + 1))
    (fuel : Nat) (m : AList fun _ : Route => List Nat) :
    multiShardLoop r isReadonly 1 pattern (fuel + 1) m (pattern.width * k) =
      multiShardLoop r isReadonly 1 pattern fuel (addTo (pattern.routeAt isReadonly args) pattern.block m k)
        (pattern.width * (k + 1)) := by
  have hkey := hr.key hk
  cases pattern with
  | keysAndLastArg => exact absurd rfl hpat
  | keysOnly =>
    rw [multiShardLoop, hkey]
    rfl
  | keyValuePairs =>
    have hblock : block .keyValuePairs k = [2 * k] ++ [2 * k + 1] := rfl
    have hval := hr.incrAddNextArg hk
    rw [multiShardLoop, hkey, addTo, hblock, ← append_assoc]
    simp only [bind, Except.bind, hval]
    rfl
  | keyWithTwoArgTriples =>
    have hblock : block .keyWithTwoArgTriples k = [3 * k] ++ [3 * k + 1] ++ [3 * k + 2] := rfl
    have hlt : 3 * k < args.length := hk
    have hne : args.length ≠ 3 * k + 1 := fun h => hvals ⟨rfl, h⟩
    have hpath := hr.incrAddNextArg hk
    have hval := hr.incrAddNextArg (i := 3 * k + 1) (by omega)
    rw [multiShardLoop, hkey, addTo, hblock, ← append_assoc, ← append_assoc]
    simp only [bind, Except.bind, hpath]
    simp only [width, hval]
    rfl

theorem multiShardLoop_refused [Crc16] (hr : HasWords r (name :: args)) (hk : args.length = 3 * k + 1) (fuel : Nat)
    (m : AList fun _ : Route => List Nat) :
    multiShardLoop r isReadonly 1 .keyWithTwoArgTriples (fuel + 1) m (3 * k) = .ok none := by
  have hlt : width .keyWithTwoArgTriples * k < args.length := by
    show 3 * k < args.length
    omega
  have hkey := hr.key hlt
  have hpath := hr.incrAddNextArg hlt
  have hval := hr.incrAddNextArg_none (i := 3 * k + 1) (Nat.le_of_eq hk)
  rw [multiShardLoop]
  simp only [width] at hkey hpath
  simp only [bind, Except.bind, hkey, hpath, hval]
  rfl

theorem multiShardLoop_done [Crc16] (hr : HasWords r (name :: args)) (hi : args.length ≤ i) (fuel : Nat)
    (m : AList fun _ : Route => List Nat) :
    multiShardLoop r isReadonly 1 pattern fuel m i = .ok (some (m.entries.map fun entry => (entry.1, entry.2))) := by
  cases fuel with
  | zero => rfl
  | succ fuel =>
    rw [multiShardLoop, hr.none_of_le (by omega)]
    rfl

theorem range_succ_groupInto [Crc16] (k : Nat) :
    addTo (pattern.routeAt isReadonly args) pattern.block
      (groupInto (pattern.routeAt isReadonly args) pattern.block (List.range k)) k =
      groupInto (pattern.routeAt isReadonly args) pattern.block (List.range (k + 1)) := by
  rw [range_succ, groupInto_concat]

def loopResult [Crc16] (pattern : MultiSlotArgPattern) (isReadonly : Bool) (args : List Bytes) :
    Option (List (Route × List Nat)) :=
  if pattern = .keyWithTwoArgTriples ∧ args.length % 3 = 1 then none else some (pattern.plan isReadonly args)

theorem multiShardLoop_end [Crc16] (hr : HasWords r (name :: args)) (hpat : pattern ≠ .keysAndLastArg)
    (hk : k ≤ pattern.keyCount args.length) (hend : ¬ pattern.width * k < args.length)
    (hlast : pattern = .keyWithTwoArgTriples → args.length % 3 = 1 → k < pattern.keyCount args.length) :
    multiShardLoop r isReadonly 1 pattern fuel
        (groupInto (pattern.routeAt isReadonly args) pattern.block (List.range k)) (pattern.width * k) =
      .ok (loopResult pattern isReadonly args) := by
  have hnot : ¬ k < pattern.keyCount args.length := fun h => hend ((lt_keyCount_iff hpat).1 h)
  have hkeq : k = pattern.keyCount args.length := by omega
  have hok : ¬ (pattern = .keyWithTwoArgTriples ∧ args.length % 3 = 1) := fun h => hnot (hlast h.1 h.2)
  rw [multiShardLoop_done hr (Nat.le_of_not_lt hend), loopResult, if_neg hok, plan_of_ne hpat, ← hkeq]
  rfl

theorem multiShardLoop_eq [Crc16] (hr : HasWords r (name :: args)) (hpat : pattern ≠ .keysAndLastArg)
    (hk : k ≤ pattern.keyCount args.length) (hfuel : pattern.keyCount args.length ≤ k + fuel)
    (hlast : pattern = .keyWithTwoArgTriples → args.length % 3 = 1 → k < pattern.keyCount args.length) :
    multiShardLoop r isReadonly 1 pattern fuel
        (groupInto (pattern.routeAt isReadonly args) pattern.block (List.range k)) (pattern.width * k) =
      .ok (loopResult pattern isReadonly args) := by
  induction fuel generalizing k with
  | zero =>
    refine multiShardLoop_end hr hpat hk (fun h => ?_) hlast
    have hlt := (lt_keyCount_iff hpat).2 h
    omega
  | succ fuel ih =>
    by_cases hend : pattern.width * k < args.length
    · have hlt := (lt_keyCount_iff hpat).2 hend
      by_cases href : pattern = .keyWithTwoArgTriples ∧ args.length = 3 * k + 1
      · obtain ⟨rfl, hlen⟩ := href
        rw [loopResult, if_pos ⟨rfl, by omega⟩]
        exact multiShardLoop_refused hr hlen fuel _
      · have hnext : pattern = .keyWithTwoArgTriples → args.length % 3 = 1 → k + 1 < pattern.keyCount args.length := by
          rintro rfl hmod
          have hne : args.length ≠ 3 * k + 1 := fun h => href ⟨rfl, h⟩
          simp only [keyCount, width] at hend ⊢
          omega
        rw [multiShardLoop_step hr hpat hend href, range_succ_groupInto]
        exact ih hlt (by omega) hnext
    · exact multiShardLoop_end hr hpat hk hend hlast

theorem multiShardLoop_last [Crc16] (hr : HasWords r (name :: args)) (hlen : 2 ≤ args.length)
    (hk : k + 2 ≤ args.length) (hfuel : args.length ≤ k + 1 + fuel) :
    multiShardLoop r isReadonly 1 .keysAndLastArg fuel
        (groupInto (routeAt .keysAndLastArg isReadonly args) (block .keysAndLastArg) (List.range k)) k =
      .ok (some (plan .keysAndLastArg isReadonly args)) := by
  induction fuel generalizing k with
  | zero => omega
  | succ fuel ih =>
    have hone : width .keysAndLastArg * k = k := Nat.one_mul k
    have hkey : argIdx r (1 + width .keysAndLastArg * k) = .ok (some (keyAt .keysAndLastArg args k)) :=
      hr.key (by rw [hone]; omega)
    rw [hone] at hkey
    have hfiled : (groupInto (routeAt .keysAndLastArg isReadonly args) (block .keysAndLastArg) (List.range k)).insert
        (getRoute isReadonly (keyAt .keysAndLastArg args k))
        (((groupInto (routeAt .keysAndLastArg isReadonly args) (block .keysAndLastArg) (List.range k)).lookup
          (getRoute isReadonly (keyAt .keysAndLastArg args k))).getD [] ++ [k]) =
        groupInto (routeAt .keysAndLastArg isReadonly args) (block .keysAndLastArg) (List.range (k + 1)) := by
      rw [← range_succ_groupInto, addTo, block, hone]
      rfl
    rw [multiShardLoop, hkey]
    simp only [bind, Except.bind, hfiled]
    by_cases hlast : args.length = k + 2
    · rw [hr.none_of_le (by omega)]
      have hcnt : keyCount .keysAndLastArg args.length = k + 1 := by
        rw [keyCount, hlast]
        omega
      have hshared : shared .keysAndLastArg args.length = [k + 1] := by
        rw [shared, hlast]
        rfl
      rw [plan, hcnt, hshared, groups, map_map]
      rfl
    · obtain ⟨arg, harg⟩ := hr.some_of_lt (i := 1 + k + 2) (by omega)
      rw [harg]
      exact ih (by omega) (by omega)

theorem HasWords.lt_argCount (hr : HasWords r (name :: args)) : args.length < argCount r := by
  refine Nat.lt_of_not_le fun hle => ?_
  obtain ⟨arg, harg⟩ := hr.some_of_lt (Nat.le_refl args.length)
  have hnone := argIdx_argCount r args.length hle
  rw [harg] at hnone
  exact absurd (Except.ok.inj hnone) (by simp)

theorem multiShardLoop_all [Crc16] (isReadonly : Bool) (hr : HasWords r (name :: args))
    (hlen : pattern = .keysAndLastArg → 2 ≤ args.length) :
    multiShardLoop r isReadonly 1 pattern (argCount r) ∅ 0 = .ok (loopResult pattern isReadonly args) := by
  have hcnt := hr.lt_argCount
  by_cases hpat : pattern = .keysAndLastArg
  · subst hpat
    have hlen := hlen rfl
    rw [loopResult, if_neg (by simp)]
    exact multiShardLoop_last (k := 0) hr hlen (by omega) (by omega)
  · refine multiShardLoop_eq hr hpat (Nat.zero_le _) ?_ ?_
    · have hle : pattern.keyCount args.length ≤ args.length := by
        cases pattern <;> simp only [keyCount] <;> omega
      omega
    · rintro rfl hmod
      simp only [keyCount]
      omega

theorem multiShardLoop_short [Crc16] (isReadonly : Bool) (hr : HasWords r (name :: args)) (hlen : args.length < 2) :
    ∃ routes, multiShardLoop r isReadonly 1 .keysAndLastArg (argCount r) ∅ 0 = .ok (some routes) ∧ routes.length < 2 := by
  have hcnt := hr.lt_argCount
  obtain ⟨fuel, hfuel⟩ : ∃ fuel, argCount r = fuel + 1 := ⟨argCount r - 1, by omega⟩
  rw [hfuel, multiShardLoop]
  by_cases hnone : args.length = 0
  · rw [hr.none_of_le (i := 1 + 0) (by omega)]
    exact ⟨[], rfl, by decide⟩
  · obtain ⟨arg, harg⟩ := hr.some_of_lt (i := 1 + 0) (by omega)
    rw [harg]
    simp only [bind, Except.bind, hr.none_of_le (i := 1 + 0 + 2) (by omega)]
    exact ⟨_, rfl, by simp⟩

variable {order : RouteOrder}

theorem multiShard_eq_multiSlot_iff [Crc16] (hord : ∀ routes, (order routes).Perm routes)
    {routes : List (Route × List Nat)}
    (hloop : multiShardLoop r (isReadonlyCmd cmd) 1 pattern (argCount r) ∅ 0 = .ok (some routes))
    {rs : List (Route × List Nat)} {pattern' : MultiSlotArgPattern} {policy : Option ResponsePolicy} :
    multiShard order r cmd 1 pattern = .ok (some (.multiNode (.multiSlot rs pattern') policy)) ↔
      2 ≤ routes.length ∧ rs = order routes ∧ pattern' = pattern ∧ policy = ResponsePolicy.forCommand cmd := by
  have hlen := (hord routes).length_eq
  rw [multiShard, hloop]
  simp only [bind, Except.bind, pure, Except.pure]
  rcases horderd : order routes with _ | ⟨entry, _ | ⟨entry', rest⟩⟩ <;> rw [horderd] at hlen
  · simp [← hlen]
  · simp [← hlen]
  · simp only [Except.ok.injEq, Option.some.injEq, RoutingInfo.multiNode.injEq, MultipleNodeRoutingInfo.multiSlot.injEq,
      ← hlen, length_cons]
    constructor
    · rintro ⟨⟨rfl, rfl⟩, rfl⟩
      exact ⟨by omega, rfl, rfl, rfl⟩
    · rintro ⟨-, rfl, rfl, rfl⟩
      exact ⟨⟨rfl, rfl⟩, rfl⟩

end Loop

end RedisRs
