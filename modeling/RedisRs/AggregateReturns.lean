import RedisRs.MultiSlotSplit

/-!
# When the answers of several nodes can be combined
-/

namespace RedisRs

open List Grouping MultiSlotArgPattern Routable

/-- The function returns and does not panic. -/
def Returns {α : Type} (x : Ends α) : Prop := ∃ a, x = .ok a

section Returns

variable {α β : Type}

@[simp] theorem returns_ok (a : α) : Returns (.ok a : Ends α) := ⟨a, rfl⟩

@[simp] theorem not_returns_error (e : Panic) : ¬ Returns (.error e : Ends α) := by
  rintro ⟨a, h⟩
  cases h

theorem returns_bind_iff {x : Ends α} {f : α → Ends β} : Returns (x >>= f) ↔ ∃ a, x = .ok a ∧ Returns (f a) := by
  constructor
  · rintro ⟨b, h⟩
    obtain ⟨a, hx, hf⟩ := exists_of_bind_eq_ok h
    exact ⟨a, hx, b, hf⟩
  · rintro ⟨a, rfl, h⟩
    exact h

theorem Returns.bind {x : Ends α} {f : α → Ends β} (hx : Returns x) (hf : ∀ a, Returns (f a)) : Returns (x >>= f) := by
  obtain ⟨a, ha⟩ := hx
  exact returns_bind_iff.2 ⟨a, ha, hf a⟩

/-- `P` says that `x` returns, `Q` that it gives a value, and `W` that what is bound to it returns as well. -/
theorem returns_bind_result_iff {x : Ends (RedisResult α)} {f : RedisResult α → Ends β} {P Q R W : Prop}
    (herr : ∀ e, Returns (f (.error e))) (hx : Returns x ↔ P) (hW : W ↔ P ∧ (Q → R))
    (hres : ∀ res, x = .ok res →
      (Q ∧ ∃ a, res = .ok a ∧ (W ↔ P ∧ (Q → Returns (f (.ok a))))) ∨ ¬ Q ∧ ∃ e, res = .error e) :
    Returns (x >>= f) ↔ W := by
  rw [returns_bind_iff]
  constructor
  · rintro ⟨res, hok, hf⟩
    rcases hres res hok with ⟨-, a, rfl, hiff⟩ | ⟨hq, -⟩
    · exact hiff.2 ⟨hx.1 ⟨_, hok⟩, fun _ => hf⟩
    · exact hW.2 ⟨hx.1 ⟨res, hok⟩, fun h => absurd h hq⟩
  · intro hw
    obtain ⟨res, hok⟩ := hx.2 (hW.1 hw).1
    refine ⟨res, hok, ?_⟩
    rcases hres res hok with ⟨hq, a, rfl, hiff⟩ | ⟨-, e, rfl⟩
    · exact (hiff.1 hw).2 hq
    · exact herr e

end Returns

/-- The number is an `i64`. -/
def IsI64 (n : Int) : Prop := Int64.minValue.toInt ≤ n ∧ n ≤ Int64.maxValue.toInt

theorem isI64_toInt (a : Int64) : IsI64 a.toInt := ⟨a.minValue_le_toInt, a.toInt_le⟩

theorem checkedAdd_of_isI64 {a b : Int64} (h : IsI64 (a.toInt + b.toInt)) :
    checkedAdd a b = .ok (a + b) ∧ (a + b).toInt = a.toInt + b.toInt := by
  have hsum : (a + b).toInt = a.toInt + b.toInt := by
    rw [Int64.toInt_add]
    obtain ⟨hmin, hmax⟩ := h
    rw [Int64.toInt_minValue] at hmin
    rw [Int64.toInt_maxValue] at hmax
    exact Int.bmod_eq_of_le (by omega) (by omega)
  exact ⟨if_pos hsum, hsum⟩

theorem checkedAdd_of_not_isI64 {a b : Int64} (h : ¬ IsI64 (a.toInt + b.toInt)) :
    checkedAdd a b = .error .addWithOverflow :=
  if_neg fun heq : (a + b).toInt = a.toInt + b.toInt => h (heq ▸ isI64_toInt (a + b))

def leadingInts : List Value → List Int64
  | .int int :: values => int :: leadingInts values
  | _ => []

/-- Every sum of the first of the integers is an `i64`. -/
def SumsFit (values : List Value) : Prop := ∀ ints, ints <+: leadingInts values → IsI64 (ints.map Int64.toInt).sum

theorem returns_aggregateFrom_min (acc : Int64) (values : List Value) : Returns (aggregateFrom .min acc values) := by
  induction values generalizing acc with
  | nil => exact returns_ok _
  | cons value values ih =>
    cases value with
    | int int => exact ih (min acc int)
    | _ => exact returns_ok _

variable {values : List Value}

theorem forall_prefix_cons_iff {α : Type} {a : α} {b : List α} {P : List α → Prop} :
    (∀ l, l <+: a :: b → P l) ↔ P [] ∧ ∀ l, l <+: b → P (a :: l) := by
  constructor
  · exact fun h => ⟨h [] nil_prefix, fun l hl => h _ (cons_prefix_cons.2 ⟨rfl, hl⟩)⟩
  · rintro ⟨hnil, hcons⟩ (_ | ⟨a', l⟩) hl
    · exact hnil
    · obtain ⟨rfl, htail⟩ := cons_prefix_cons.1 hl
      exact hcons l htail

theorem returns_aggregateFrom_sum_iff (acc : Int64) (values : List Value) :
    Returns (aggregateFrom .sum acc values) ↔
      ∀ ints, ints <+: leadingInts values → IsI64 (acc.toInt + (ints.map Int64.toInt).sum) := by
  induction values generalizing acc with
  | nil => simp [aggregateFrom, leadingInts, isI64_toInt]
  | cons value values ih =>
    cases value with
    | int int =>
      rw [leadingInts, forall_prefix_cons_iff]
      show Returns (checkedAdd acc int >>= fun acc => aggregateFrom .sum acc values) ↔ _
      by_cases hfits : IsI64 (acc.toInt + int.toInt)
      · obtain ⟨hadd, hsum⟩ := checkedAdd_of_isI64 hfits
        simp [returns_bind_iff, hadd, ih, hsum, isI64_toInt, Int.add_assoc]
      · rw [checkedAdd_of_not_isI64 hfits]
        refine iff_of_false (not_returns_error _) fun h => hfits ?_
        simpa using h.2 [] nil_prefix
    | _ => simp [aggregateFrom, leadingInts, isI64_toInt]

theorem returns_aggregate_sum_iff (values : List Value) : Returns (aggregate values .sum) ↔ SumsFit values := by
  have h := returns_aggregateFrom_sum_iff AggregateOp.sum.initial values
  have hzero : AggregateOp.sum.initial.toInt = 0 := by decide
  simp only [hzero, Int.zero_add] at h
  exact h

def firstLength : List Value → Option Nat
  | [] => none
  | .array (_ :: items) :: _ => some (items.length + 1)
  | _ :: values => firstLength values

/-- After arrays of integers, no array has more leading integers than the first one that is not empty is long. -/
def LengthsFit (values : List Value) : Prop :=
  ∀ before items after, values = before ++ .array items :: after →
    (∀ value ∈ before, ∃ ints : List Int64, value = .array (ints.map .int)) →
    ∀ n, firstLength before = some n → (leadingInts items).length ≤ n

variable {acc : List Bool}

variable {indices : List (List Nat)} {acc' : List Bool} {index : Nat} (key : Bytes)

theorem returns_logicalAggregateItems_iff (hindex : index ≤ acc.length) (items : List Value) :
    Returns (logicalAggregateItems acc index items) ↔ index + (leadingInts items).length ≤ acc.length := by
  induction items generalizing acc index with
  | nil => exact ⟨fun _ => hindex, fun _ => returns_ok _⟩
  | cons item items ih =>
    cases item with
    | int int =>
      simp only [logicalAggregateItems, leadingInts, length_cons]
      by_cases hlt : index < acc.length
      · rw [getElem?_eq_getElem hlt]
        have hset : (acc.set index (acc[index] && decide (0 < int))).length = acc.length := length_set
        refine (ih (by rw [hset]; exact hlt)).trans ?_
        rw [hset]
        omega
      · rw [getElem?_eq_none (Nat.le_of_not_lt hlt)]
        refine iff_of_false (not_returns_error _) ?_
        omega
    | _ => exact ⟨fun _ => hindex, fun _ => returns_ok _⟩

variable {items : List Value}

theorem logicalAggregateItems_eq_ok {res : RedisResult (List Bool)}
    (h : logicalAggregateItems acc index items = .ok res) :
    ((∃ ints : List Int64, items = ints.map .int) ∧ ∃ acc', res = .ok acc' ∧ acc'.length = acc.length) ∨
      (¬ ∃ ints : List Int64, items = ints.map .int) ∧ ∃ e, res = .error e := by
  induction items generalizing acc index with
  | nil =>
    cases h
    exact .inl ⟨⟨[], rfl⟩, acc, rfl, rfl⟩
  | cons item items ih =>
    cases item with
    | int int =>
      simp only [logicalAggregateItems] at h
      by_cases hlt : index < acc.length
      · rw [getElem?_eq_getElem hlt] at h
        rcases ih h with ⟨⟨ints, rfl⟩, acc', hres, hlen⟩ | ⟨hother, herr⟩
        · exact .inl ⟨⟨int :: ints, rfl⟩, acc', hres, by rw [hlen, length_set]⟩
        · refine .inr ⟨?_, herr⟩
          rintro ⟨ints, hints⟩
          rcases ints with _ | ⟨int', ints⟩
          · cases hints
          · exact hother ⟨ints, (List.cons.inj hints).2⟩
      · rw [getElem?_eq_none (Nat.le_of_not_lt hlt)] at h
        cases h
    | _ =>
      cases h
      refine .inr ⟨?_, _, rfl⟩
      rintro ⟨ints, hints⟩
      rcases ints with _ | ⟨int', ints⟩ <;> cases hints

theorem length_leadingInts_le (items : List Value) : (leadingInts items).length ≤ items.length := by
  induction items with
  | nil => exact Nat.le_refl 0
  | cons item items ih =>
    cases item with
    | int int => exact Nat.succ_le_succ ih
    | _ => exact Nat.zero_le _

def lengthAfter (acc : List Bool) (before : List Value) : Option Nat :=
  if acc.isEmpty then firstLength before else some acc.length

def accFor (acc : List Bool) (items : List Value) : List Bool :=
  if acc.isEmpty then List.replicate items.length true else acc

theorem lengthAfter_cons (h : acc'.length = (accFor acc items).length) (before : List Value) :
    lengthAfter acc (.array items :: before) = lengthAfter acc' before := by
  rcases acc with _ | ⟨b, acc⟩
  · have hlen : acc'.length = items.length := by simpa [accFor] using h
    rcases items with _ | ⟨item, items⟩
    · rw [eq_nil_of_length_eq_zero hlen]
      rfl
    · rcases acc' with _ | ⟨b', acc'⟩
      · cases hlen
      · exact (congrArg some hlen).symm
  · rcases acc' with _ | ⟨b', acc'⟩
    · cases h
    · exact (congrArg some h).symm

/-- `LengthsFit` for the rest of the values, with the accumulator so far. -/
def LengthsFitFrom (acc : List Bool) (values : List Value) : Prop :=
  ∀ before items after, values = before ++ .array items :: after →
    (∀ value ∈ before, ∃ ints : List Int64, value = .array (ints.map .int)) →
    ∀ n, lengthAfter acc before = some n → (leadingInts items).length ≤ n

theorem LengthsFitFrom.cons_iff (hlen : acc'.length = (accFor acc items).length) :
    LengthsFitFrom acc (.array items :: values) ↔
      (∀ n, lengthAfter acc [] = some n → (leadingInts items).length ≤ n) ∧
        ((∃ ints : List Int64, items = ints.map .int) → LengthsFitFrom acc' values) := by
  constructor
  · intro h
    refine ⟨h [] items values rfl fun _ hval => absurd hval not_mem_nil, ?_⟩
    rintro hints before items' after rfl hbef n hn
    rw [← lengthAfter_cons hlen] at hn
    refine h (.array items :: before) items' after rfl (fun value hval => ?_) n hn
    rcases mem_cons.1 hval with rfl | hval
    · exact hints.imp fun ints hints => congrArg Value.array hints
    · exact hbef value hval
  · rintro ⟨hfirst, hrest⟩ before items' after hvals hbef n hn
    rcases before with _ | ⟨value', before⟩
    · obtain ⟨hitems, -⟩ := List.cons.inj hvals
      cases hitems
      exact hfirst n hn
    · obtain ⟨rfl, htail⟩ := List.cons.inj hvals
      obtain ⟨ints, hints⟩ := hbef _ mem_cons_self
      rw [lengthAfter_cons hlen] at hn
      exact hrest ⟨ints, Value.array.inj hints⟩ before items' after htail
        (fun value hval => hbef value (mem_cons_of_mem _ hval)) n hn

theorem LengthsFitFrom.of_other {value : Value} (h : ¬ ∃ items, value = .array items) (values : List Value) :
    LengthsFitFrom acc (value :: values) := by
  intro before items after hvals hbef
  rcases before with _ | ⟨value', before⟩
  · exact absurd ⟨items, (List.cons.inj hvals).1⟩ h
  · obtain ⟨ints, hints⟩ := hbef _ mem_cons_self
    exact absurd ⟨_, (List.cons.inj hvals).1.trans hints⟩ h

theorem returns_logicalAggregateItems_accFor_iff (acc : List Bool) (items : List Value) :
    Returns (logicalAggregateItems (accFor acc items) 0 items) ↔
      ∀ n, lengthAfter acc [] = some n → (leadingInts items).length ≤ n := by
  rw [returns_logicalAggregateItems_iff (Nat.zero_le _), Nat.zero_add]
  rcases acc with _ | ⟨b, acc⟩
  · simpa [accFor, lengthAfter, firstLength] using length_leadingInts_le items
  · simp [accFor, lengthAfter]

theorem returns_logicalAggregateFrom_iff (acc : List Bool) (values : List Value) :
    Returns (logicalAggregateFrom acc values) ↔ LengthsFitFrom acc values := by
  induction values generalizing acc with
  | nil => exact ⟨fun _ before items after h => by simp at h, fun _ => returns_ok _⟩
  | cons value values ih =>
    by_cases harray : ∃ items, value = .array items
    · obtain ⟨items, rfl⟩ := harray
      rw [logicalAggregateFrom]
      refine returns_bind_result_iff (fun e => returns_ok _) (returns_logicalAggregateItems_accFor_iff acc items)
        (LengthsFitFrom.cons_iff rfl) fun res hres => (logicalAggregateItems_eq_ok hres).imp_left ?_
      rintro ⟨hints, acc', rfl, hlen⟩
      refine ⟨hints, acc', rfl, ?_⟩
      rw [LengthsFitFrom.cons_iff hlen, ← ih]
    · refine iff_of_true ?_ (.of_other harray values)
      cases value with
      | array items => exact absurd ⟨items, rfl⟩ harray
      | _ => exact returns_ok _

def leadingPairs : List Value → List (Bytes × Int64)
  | .bulkString key :: .int value :: items => (key, value) :: leadingPairs items
  | _ => []

/-- The items are keys and counts in turn. -/
def IsPairs (items : List Value) : Prop := items.length = 2 * (leadingPairs items).length

instance (items : List Value) : Decidable (IsPairs items) := inferInstanceAs (Decidable (_ = _))

def countedPairs : List Value → List (Bytes × Int64)
  | .array items :: values => leadingPairs items ++ if IsPairs items then countedPairs values else []
  | _ => []

def countOf (key : Bytes) (pairs : List (Bytes × Int64)) : Int := ((pairs.filter (·.1 = key)).map (·.2.toInt)).sum

/-- At every moment the count of every key is an `i64`. -/
def CountsFit (values : List Value) : Prop := ∀ pairs, pairs <+: countedPairs values → ∀ key, IsI64 (countOf key pairs)

def countIn (map : AList fun _ : Bytes => Int64) (key : Bytes) : Int := ((map.lookup key).getD 0).toInt

theorem countOf_cons (pair : Bytes × Int64) (pairs : List (Bytes × Int64)) :
    countOf key (pair :: pairs) = (if pair.1 = key then pair.2.toInt else 0) + countOf key pairs := by
  by_cases hkey : pair.1 = key <;> simp [countOf, hkey]

variable {map : AList fun _ : Bytes => Int64}

theorem countIn_insert {key : Bytes} {value sum : Int64} (h : sum.toInt = countIn map key + value.toInt)
    (key' : Bytes) :
    countIn (map.insert key sum) key' = countIn map key' + if key = key' then value.toInt else 0 := by
  by_cases hkey : key = key'
  · subst hkey
    rw [if_pos rfl, ← h, countIn, AList.lookup_insert]
    rfl
  · rw [if_neg hkey, Int.add_zero, countIn, countIn, AList.lookup_insert_ne (Ne.symm hkey)]

theorem isI64_of_prefix_nil (map : AList fun _ : Bytes => Int64) {pairs : List (Bytes × Int64)} (h : pairs <+: [])
    (key : Bytes) : IsI64 (countIn map key + countOf key pairs) := by
  rw [prefix_nil.1 h]
  simpa [countOf, countIn] using isI64_toInt _

theorem combineMapItems_of_leadingPairs_nil (h : leadingPairs items = []) (map : AList fun _ : Bytes => Int64) :
    (items = [] ∧ combineMapItems map items = .ok (.ok map)) ∨
      items ≠ [] ∧ ∃ e, combineMapItems map items = .ok (.error e) := by
  rcases items with _ | ⟨item, items⟩
  · exact .inl ⟨rfl, rfl⟩
  · refine .inr ⟨cons_ne_nil _ _, ?_⟩
    cases item with
    | bulkString key =>
      rcases items with _ | ⟨item', items⟩
      · exact ⟨_, rfl⟩
      · cases item' with
        | int value => cases h
        | _ => exact ⟨_, rfl⟩
    | _ => exact ⟨_, rfl⟩

theorem returns_combineMapItems_cons_iff (map : AList fun _ : Bytes => Int64) (key : Bytes) (value : Int64)
    (items : List Value) :
    Returns (combineMapItems map (.bulkString key :: .int value :: items)) ↔
      IsI64 (countIn map key + value.toInt) ∧
        Returns (combineMapItems (map.insert key ((map.lookup key).getD 0 + value)) items) := by
  rw [combineMapItems, returns_bind_iff]
  by_cases hfits : IsI64 (countIn map key + value.toInt)
  · simp [(checkedAdd_of_isI64 hfits).1, hfits]
  · simp [checkedAdd_of_not_isI64 hfits, hfits]

theorem returns_combineMapItems_iff (map : AList fun _ : Bytes => Int64) (items : List Value) :
    Returns (combineMapItems map items) ↔
      ∀ pairs, pairs <+: leadingPairs items → ∀ key, IsI64 (countIn map key + countOf key pairs) := by
  fun_induction leadingPairs items generalizing map with
  | case1 key value items ih =>
    rw [returns_combineMapItems_cons_iff, forall_prefix_cons_iff]
    by_cases hfits : IsI64 (countIn map key + value.toInt)
    · rw [and_iff_right hfits, and_iff_right fun key' => isI64_of_prefix_nil map nil_prefix key', ih]
      simp only [countIn_insert (checkedAdd_of_isI64 hfits).2, countOf_cons, Int.add_assoc]
    · refine iff_of_false (fun h => hfits h.1) fun h => hfits ?_
      simpa [countOf] using h.2 [] nil_prefix key
  | case2 items hother =>
    have hnil : leadingPairs items = [] := leadingPairs.eq_2 items hother
    refine iff_of_true ?_ fun pairs hpairs => isI64_of_prefix_nil map hpairs
    rcases combineMapItems_of_leadingPairs_nil hnil map with ⟨-, heq⟩ | ⟨-, e, heq⟩ <;> rw [heq] <;> exact returns_ok _

theorem combineMapItems_eq_ok {res : RedisResult (AList fun _ : Bytes => Int64)}
    (h : combineMapItems map items = .ok res) :
    (IsPairs items ∧ ∃ map', res = .ok map' ∧
        ∀ key, countIn map' key = countIn map key + countOf key (leadingPairs items)) ∨
      ¬ IsPairs items ∧ ∃ e, res = .error e := by
  fun_induction leadingPairs items generalizing map with
  | case1 key value items ih =>
    obtain ⟨hfits, -⟩ := (returns_combineMapItems_cons_iff map key value items).1 ⟨res, h⟩
    have hadd := checkedAdd_of_isI64 hfits
    rw [combineMapItems, hadd.1] at h
    have hpairs : IsPairs (.bulkString key :: .int value :: items) ↔ IsPairs items := by
      simp only [IsPairs, leadingPairs, length_cons]
      omega
    rw [hpairs]
    rcases ih h with ⟨hitems, map', hres, hcnt⟩ | hother
    · refine .inl ⟨hitems, map', hres, fun key' => ?_⟩
      rw [hcnt, countIn_insert hadd.2, countOf_cons, Int.add_assoc]
    · exact .inr hother
  | case2 items hother =>
    have hnil : leadingPairs items = [] := leadingPairs.eq_2 items hother
    rcases combineMapItems_of_leadingPairs_nil hnil map with ⟨rfl, heq⟩ | ⟨hne, e, heq⟩ <;> rw [heq] at h <;> cases h
    · exact .inl ⟨rfl, map, rfl, fun key => by simp [countOf]⟩
    · refine .inr ⟨fun hpairs => hne ?_, e, rfl⟩
      rw [IsPairs, hnil] at hpairs
      exact eq_nil_of_length_eq_zero hpairs

theorem forall_prefix_append_iff {α : Type} {a b : List α} {P : List α → Prop} :
    (∀ l, l <+: a ++ b → P l) ↔ (∀ l, l <+: a → P l) ∧ ∀ l, l <+: b → P (a ++ l) := by
  constructor
  · intro h
    exact ⟨fun l hl => h l (hl.trans (prefix_append a b)), fun l hl => h _ ((prefix_append_right_inj a).2 hl)⟩
  · rintro ⟨hfirst, hlater⟩ l hl
    rcases prefix_or_prefix_of_prefix hl (prefix_append a b) with hl' | ⟨l', rfl⟩
    · exact hfirst l hl'
    · exact hlater l' ((prefix_append_right_inj a).1 hl)

theorem countsFit_array_iff :
    (∀ pairs, pairs <+: countedPairs (.array items :: values) → ∀ key, IsI64 (countIn map key + countOf key pairs)) ↔
      (∀ pairs, pairs <+: leadingPairs items → ∀ key, IsI64 (countIn map key + countOf key pairs)) ∧
        (IsPairs items → ∀ pairs, pairs <+: countedPairs values → ∀ key,
          IsI64 (countIn map key + (countOf key (leadingPairs items) + countOf key pairs))) := by
  rw [countedPairs, forall_prefix_append_iff]
  refine and_congr_right fun hfirst => ?_
  by_cases hpairs : IsPairs items
  · simp only [hpairs, if_true, true_imp_iff, countOf, filter_append, map_append, sum_append]
  · refine iff_of_true (fun pairs hnil key => ?_) fun h => absurd h hpairs
    rw [if_neg hpairs, prefix_nil] at hnil
    rw [hnil, append_nil]
    exact hfirst _ (prefix_refl _) key

theorem returns_combineMapFrom_iff (map : AList fun _ : Bytes => Int64) (values : List Value) :
    Returns (combineMapFrom map values) ↔
      ∀ pairs, pairs <+: countedPairs values → ∀ key, IsI64 (countIn map key + countOf key pairs) := by
  induction values generalizing map with
  | nil => exact iff_of_true (returns_ok _) fun pairs hpairs => isI64_of_prefix_nil map hpairs
  | cons value values ih =>
    by_cases harray : ∃ items, value = .array items
    · obtain ⟨items, rfl⟩ := harray
      rw [combineMapFrom]
      refine returns_bind_result_iff (fun e => returns_ok _) (returns_combineMapItems_iff map items)
        countsFit_array_iff fun res hres => (combineMapItems_eq_ok hres).imp_left ?_
      rintro ⟨hpairs, map', rfl, hcnt⟩
      refine ⟨hpairs, map', rfl, ?_⟩
      simp only [countsFit_array_iff, ih, hcnt, Int.add_assoc]
    · cases value with
      | array items => exact absurd ⟨items, rfl⟩ harray
      | _ => exact iff_of_true (returns_ok _) fun pairs hpairs => isI64_of_prefix_nil map hpairs

theorem returns_combineMapResults_iff (order : List Bytes → List Bytes) (values : List Value) :
    Returns (combineMapResults order values) ↔ CountsFit values := by
  have h := returns_combineMapFrom_iff ∅ values
  have hzero : ∀ key, countIn ∅ key = 0 := fun _ => rfl
  simp only [hzero, Int.zero_add] at h
  rw [CountsFit, ← h, combineMapResults, returns_bind_iff]
  constructor
  · rintro ⟨res, hres, -⟩
    exact ⟨res, hres⟩
  · rintro ⟨res, hres⟩
    refine ⟨res, hres, ?_⟩
    cases res <;> exact returns_ok _

/-- Each array before a value of another kind has a result for each of its places, all below `length`. -/
def PlacesFit (length : Nat) (indices : List (List Nat)) (values : List Value) : Prop :=
  ∀ j places items, indices[j]? = some places → values[j]? = some (.array items) →
    (∀ value ∈ values.take j, ∃ items, value = .array items) → items.length = places.length ∧ ∀ i ∈ places, i < length

variable {results : List Value}

theorem returns_placeItems_iff {indices : List Nat} (h : items.length = indices.length) :
    Returns (placeItems results indices items) ↔ ∀ i ∈ indices, i < results.length := by
  induction indices generalizing results items with
  | nil => simp [placeItems]
  | cons index indices ih =>
    rcases items with _ | ⟨item, items⟩
    · cases h
    · rw [placeItems, returns_bind_iff, forall_mem_cons]
      by_cases hlt : index < results.length
      · have hset : indexSet results index item = .ok (results.set index item) := if_pos hlt
        have hrest : Returns (placeItems (results.set index item) indices items) ↔ ∀ i ∈ indices, i < results.length := by
          rw [ih (Nat.succ.inj h), length_set]
        simp [hset, hlt, hrest]
      · have hset : indexSet results index item = .error .sliceIndex := if_neg hlt
        simp [hset, hlt]

theorem length_placeItems {results' : List Value} {indices : List Nat}
    (h : placeItems results indices items = .ok results') : results'.length = results.length := by
  induction indices generalizing results items with
  | nil => rcases items with _ | ⟨item, items⟩ <;> cases h <;> rfl
  | cons index indices ih =>
    rcases items with _ | ⟨item, items⟩
    · cases h
      rfl
    · obtain ⟨results₁, hset, hrest⟩ := exists_of_bind_eq_ok h
      rw [ih hrest]
      by_cases hlt : index < results.length
      · rw [indexSet, if_pos hlt] at hset
        cases hset
        exact length_set
      · rw [indexSet, if_neg hlt] at hset
        cases hset

theorem PlacesFit.cons_iff {length : Nat} {places : List Nat} :
    PlacesFit length (places :: indices) (.array items :: values) ↔
      (items.length = places.length ∧ ∀ i ∈ places, i < length) ∧ PlacesFit length indices values := by
  constructor
  · intro h
    refine ⟨h 0 places items rfl rfl (fun _ hval => absurd hval not_mem_nil), fun j places' items' hj hv hall => ?_⟩
    refine h (j + 1) places' items' hj hv fun value hval => ?_
    rcases mem_cons.1 hval with rfl | hval
    · exact ⟨items, rfl⟩
    · exact hall value hval
  · rintro ⟨hfirst, hrest⟩ j places' items' hj hv hall
    cases j with
    | zero =>
      cases hj
      cases hv
      exact hfirst
    | succ j => exact hrest j places' items' hj hv fun value hval => hall value (mem_cons_of_mem _ hval)

theorem returns_placeResults_iff (h : values.length = indices.length) :
    Returns (placeResults results (indices.map .ok) values) ↔ PlacesFit results.length indices values := by
  induction indices generalizing results values with
  | nil =>
    rw [eq_nil_of_length_eq_zero h]
    exact ⟨nofun, fun _ => returns_ok _⟩
  | cons places indices ih =>
    rcases values with _ | ⟨value, values⟩
    · cases h
    by_cases harray : ∃ items, value = .array items
    · obtain ⟨items, rfl⟩ := harray
      rw [PlacesFit.cons_iff]
      show Returns (if items.length = places.length then placeItems results places items >>= _ else _) ↔ _
      by_cases hlen : items.length = places.length
      · rw [if_pos hlen, returns_bind_iff, ← returns_placeItems_iff hlen]
        constructor
        · rintro ⟨results', hplace, hrest⟩
          rw [ih (Nat.succ.inj h), length_placeItems hplace] at hrest
          exact ⟨⟨hlen, results', hplace⟩, hrest⟩
        · rintro ⟨⟨-, results', hplace⟩, hrest⟩
          rw [← length_placeItems hplace] at hrest
          exact ⟨results', hplace, (ih (Nat.succ.inj h)).2 hrest⟩
      · rw [if_neg hlen]
        exact iff_of_false (not_returns_error _) fun hfit => hlen hfit.1.1
    · have hret : Returns (placeResults results ((places :: indices).map .ok) (value :: values)) := by
        cases value with
        | array items => exact absurd ⟨items, rfl⟩ harray
        | _ => exact returns_ok _
      refine ⟨fun _ j places' items' _ hv hall => ?_, fun _ => hret⟩
      -- the first value is no array, and every later one comes after it
      cases j with
      | zero => exact absurd ⟨items', Option.some.inj hv⟩ harray
      | succ j => exact absurd (hall value mem_cons_self) harray

section Plans

variable {R : Type} [Routable R] {r : R} {isReadonly : Bool} {first : Nat} {pattern : MultiSlotArgPattern}
  {m : AList fun _ : Route => List Nat} {routes : List (Route × List Nat)}

def readRoute [Crc16] (r : R) (isReadonly : Bool) (first : Nat) (pattern : MultiSlotArgPattern) (k : Nat) : Route :=
  getRoute isReadonly (match argIdx r (first + pattern.width * k) with
    | .ok (some arg) => arg
    | _ => [])

variable {k : Nat}

theorem readRoute_eq [Crc16] {arg : Bytes} (h : argIdx r (first + pattern.width * k) = .ok (some arg)) :
    readRoute r isReadonly first pattern k = getRoute isReadonly arg := by
  rw [readRoute, h]

theorem incrAddNextArg_eq_some {indices : List Nat} {i : Nat} {next : List Nat × Nat}
    (h : incrAddNextArg r indices i = .ok (some next)) : next = (indices ++ [i + 1], i + 1) := by
  obtain ⟨arg, -, h⟩ := exists_of_bind_eq_ok h
  rcases arg with _ | arg
  · cases h
  · cases h
    rfl

variable {fuel : Nat} (route : Nat → Route)

theorem multiShardLoop_succ [Crc16] (hpat : pattern ≠ .keysAndLastArg)
    (h : multiShardLoop r isReadonly first pattern (fuel + 1) m (pattern.width * k) = .ok (some routes)) :
    routes = m.entries.map (fun entry => (entry.1, entry.2)) ∨
      multiShardLoop r isReadonly first pattern fuel (addTo (readRoute r isReadonly first pattern) pattern.block m k)
        (pattern.width * (k + 1)) = .ok (some routes) := by
  rw [multiShardLoop] at h
  obtain ⟨arg, harg, h⟩ := exists_of_bind_eq_ok h
  rcases arg with _ | arg
  · cases h
    exact .inl rfl
  refine .inr ?_
  have hroute : readRoute r isReadonly first pattern k = getRoute isReadonly arg := readRoute_eq harg
  cases pattern with
  | keysAndLastArg => exact absurd rfl hpat
  | keysOnly =>
    rw [addTo, hroute]
    exact h
  | keyValuePairs =>
    obtain ⟨next, hnext, h⟩ := exists_of_bind_eq_ok h
    rcases next with _ | next
    · cases h
    · rw [incrAddNextArg_eq_some hnext] at h
      have hblock : block .keyValuePairs k = [2 * k] ++ [2 * k + 1] := rfl
      rw [addTo, hroute, hblock, ← append_assoc]
      exact h
  | keyWithTwoArgTriples =>
    obtain ⟨next, hnext, h⟩ := exists_of_bind_eq_ok h
    rcases next with _ | next
    · cases h
    · rw [incrAddNextArg_eq_some hnext] at h
      obtain ⟨next', hnext', h⟩ := exists_of_bind_eq_ok h
      rcases next' with _ | next'
      · cases h
      · rw [incrAddNextArg_eq_some hnext'] at h
        have hblock : block .keyWithTwoArgTriples k = [3 * k] ++ [3 * k + 1] ++ [3 * k + 2] := rfl
        rw [addTo, hroute, hblock, ← append_assoc, ← append_assoc]
        exact h

theorem multiShardLoop_succ_last [Crc16]
    (h : multiShardLoop r isReadonly first .keysAndLastArg (fuel + 1) m k = .ok (some routes)) :
    (argIdx r (first + k) = .ok none ∧ routes = m.entries.map (fun entry => (entry.1, entry.2))) ∨
      routes = (addTo (readRoute r isReadonly first .keysAndLastArg) (block .keysAndLastArg) m k).entries.map
        (fun entry => (entry.1, entry.2 ++ [k + 1])) ∨
      (∃ arg, argIdx r (first + k + 2) = .ok (some arg)) ∧
        multiShardLoop r isReadonly first .keysAndLastArg fuel
          (addTo (readRoute r isReadonly first .keysAndLastArg) (block .keysAndLastArg) m k) (k + 1) =
            .ok (some routes) := by
  have hone : width .keysAndLastArg * k = k := Nat.one_mul k
  rw [multiShardLoop] at h
  obtain ⟨arg, harg, h⟩ := exists_of_bind_eq_ok h
  rcases arg with _ | arg
  · cases h
    exact .inl ⟨harg, rfl⟩
  have hroute : readRoute r isReadonly first .keysAndLastArg k = getRoute isReadonly arg :=
    readRoute_eq (by rw [hone]; exact harg)
  have hblock : block .keysAndLastArg k = [k] := by
    rw [block, hone]
    rfl
  rw [addTo, hroute, hblock]
  obtain ⟨arg', harg', h⟩ := exists_of_bind_eq_ok h
  rcases arg' with _ | arg'
  · cases h
    exact .inr (.inl rfl)
  · exact .inr (.inr ⟨⟨arg', harg'⟩, h⟩)

theorem planFor_of_ne (h : pattern ≠ .keysAndLastArg) (count n : Nat) :
    planFor route pattern count n = groups route pattern.block (List.range count) := by
  simp [planFor, shared_of_ne h]

theorem length_groups_le (ks : List Nat) : (groups route pattern.block ks).length ≤ ks.length := by
  have hsub : ((groups route pattern.block ks).map Prod.fst) ⊆ ks.map route := fun _ h => mem_keys_groups.1 h
  have hle := (subperm_of_subset (nodup_keys_groups route pattern.block ks) hsub).length_le
  simpa using hle

theorem multiShardLoop_plan [Crc16] (hpat : pattern ≠ .keysAndLastArg)
    (h : multiShardLoop r isReadonly first pattern fuel
      (groupInto (readRoute r isReadonly first pattern) pattern.block (List.range k)) (pattern.width * k) = .ok (some routes)) :
    ∃ count, routes = groups (readRoute r isReadonly first pattern) pattern.block (List.range count) := by
  induction fuel generalizing k with
  | zero =>
    cases h
    exact ⟨k, rfl⟩
  | succ fuel ih =>
    rcases multiShardLoop_succ hpat h with hend | hnext
    · exact ⟨k, hend⟩
    · rw [← groupInto_concat, ← range_succ] at hnext
      exact ih hnext

theorem length_groups_lt_two (hthis : 2 ≤ k → ∃ arg, argIdx r (first + k) = .ok (some arg))
    (hnone : argIdx r (first + k) = .ok none) (route : Nat → Route) :
    (groups route pattern.block (List.range k)).length < 2 := by
  refine Nat.lt_of_le_of_lt (length_groups_le _ _) ?_
  rw [length_range]
  refine Nat.lt_of_not_le fun hk => ?_
  obtain ⟨arg, harg⟩ := hthis hk
  rw [hnone] at harg
  cases harg

theorem multiShardLoop_plan_last [Crc16] (hfuel : argCount r ≤ k + fuel)
    (hnext : 1 ≤ k → ∃ arg, argIdx r (first + k + 1) = .ok (some arg))
    (hthis : 2 ≤ k → ∃ arg, argIdx r (first + k) = .ok (some arg))
    (h : multiShardLoop r isReadonly first .keysAndLastArg fuel
      (groupInto (readRoute r isReadonly first .keysAndLastArg) (block .keysAndLastArg) (List.range k)) k = .ok (some routes)) :
    (routes.length < 2 ∧ ∃ count, routes = groups (readRoute r isReadonly first .keysAndLastArg) (block .keysAndLastArg)
        (List.range count)) ∨
      ∃ count n, routes = planFor (readRoute r isReadonly first .keysAndLastArg) .keysAndLastArg count n := by
  induction fuel generalizing k with
  | zero =>
    cases h
    exact .inl ⟨length_groups_lt_two hthis (argIdx_argCount r _ (by omega)) _, k, rfl⟩
  | succ fuel ih =>
    rcases multiShardLoop_succ_last h with ⟨hnone, hrts⟩ | hrts | ⟨⟨arg, harg⟩, hrest⟩
    · rw [hrts]
      exact .inl ⟨length_groups_lt_two hthis hnone _, k, rfl⟩
    · rw [← groupInto_concat, ← range_succ] at hrts
      refine .inr ⟨k + 1, k + 2, ?_⟩
      rw [hrts, planFor, groups, map_map]
      rfl
    · rw [← groupInto_concat, ← range_succ] at hrest
      have hthis' : 2 ≤ k + 1 → ∃ arg, argIdx r (first + (k + 1)) = .ok (some arg) := fun hk => hnext (by omega)
      exact ih (by omega) (fun _ => ⟨arg, harg⟩) hthis' hrest

theorem multiShardLoop_routes [Crc16] (h : multiShardLoop r isReadonly first pattern (argCount r) ∅ 0 =
    .ok (some routes)) :
    ∀ entry ∈ routes, ∃ key, entry.1 = getRoute isReadonly key := by
  have hgroups : ∀ {count : Nat} {route : Route},
      route ∈ (groups (readRoute r isReadonly first pattern) pattern.block (List.range count)).map Prod.fst →
      ∃ key, route = getRoute isReadonly key := by
    intro count route hroute
    obtain ⟨k, -, rfl⟩ := mem_map.1 (mem_keys_groups.1 hroute)
    exact ⟨_, rfl⟩
  intro entry hent
  have hfst : entry.1 ∈ routes.map Prod.fst := mem_map_of_mem hent
  by_cases hpat : pattern = .keysAndLastArg
  · subst hpat
    rcases multiShardLoop_plan_last (k := 0) (by omega) (fun h => absurd h (by omega)) (fun h => absurd h (by omega)) h with
      ⟨-, count, rfl⟩ | ⟨count, n, rfl⟩
    · exact hgroups hfst
    · rw [fst_planFor] at hfst
      exact hgroups hfst
  · obtain ⟨count, rfl⟩ := multiShardLoop_plan (k := 0) hpat h
    exact hgroups hfst

theorem multiShard_plan [Crc16] {order : RouteOrder}
    (horder : ∀ routes, (order routes).Perm routes) {cmd : Bytes} {pattern' : MultiSlotArgPattern}
    {policy : Option ResponsePolicy}
    (h : multiShard order r cmd first pattern = .ok (some (.multiNode (.multiSlot routes pattern') policy))) :
    pattern' = pattern ∧ ∃ route count n, routes.Perm (planFor route pattern count n) := by
  rw [multiShard] at h
  obtain ⟨found, hloop, h⟩ := exists_of_bind_eq_ok h
  rcases found with _ | found
  · cases h
  have hperm := horder found
  have hrts : pattern' = pattern ∧ routes = order found ∧ 2 ≤ (order found).length := by
    rcases hord : order found with _ | ⟨entry, _ | ⟨entry', rest⟩⟩ <;> simp only [hord] at h
    · cases h
    · cases h
    · cases h
      exact ⟨rfl, rfl, by simp⟩
  obtain ⟨hpat', rfl, htwo⟩ := hrts
  rw [hperm.length_eq] at htwo
  refine ⟨hpat', readRoute r (isReadonlyCmd cmd) first pattern, ?_⟩
  by_cases hpat : pattern = .keysAndLastArg
  · subst hpat
    rcases multiShardLoop_plan_last (k := 0) (by omega) (fun h => absurd h (by omega)) (fun h => absurd h (by omega))
      hloop with ⟨hlt, -⟩ | ⟨count, n, hfound⟩
    · omega
    · exact ⟨count, n, hfound ▸ hperm⟩
  · obtain ⟨count, hfound⟩ := multiShardLoop_plan (k := 0) hpat hloop
    exact ⟨count, 0, by rw [planFor_of_ne _ hpat, ← hfound]; exact hperm⟩

def placesOf (pattern : MultiSlotArgPattern) (routes : List (Route × List Nat)) : List (List Nat) :=
  routes.map fun entry => pattern.keyNumbers entry.2

theorem returns_combineAndSort_iff {route : Nat → Route} {count n : Nat}
    (hplan : routes.Perm (planFor route pattern count n)) {values : List Value} (hlen : values.length = routes.length) :
    Returns (combineAndSortArrayResults values routes pattern) ↔
      PlacesFit (combinedLength values) (placesOf pattern routes) values := by
  have hlen' : values.length = (placesOf pattern routes).length := hlen.trans (length_map _).symm
  have hplaces : Returns (placeResults (List.replicate (combinedLength values) .nil)
      ((placesOf pattern routes).map .ok) values) ↔ _ := returns_placeResults_iff hlen'
  rw [length_replicate] at hplaces
  rw [combineAndSortArrayResults, calculateMultiSlotResultIndices_planFor hplan, ← hplaces, placesOf, map_map]
  dsimp only
  rw [if_neg fun hne => hne (hlen.trans (length_map _).symm)]
  rfl

theorem placesFit_arrays_iff {route : Nat → Route} {count n : Nat}
    (hplan : routes.Perm (planFor route pattern count n)) {arrays : List (List Value)}
    (hlen : arrays.length = routes.length) :
    PlacesFit (combinedLength (arrays.map .array)) (placesOf pattern routes) (arrays.map .array) ↔
      arrays.map List.length = (placesOf pattern routes).map List.length := by
  have hlen' : arrays.length = (placesOf pattern routes).length := hlen.trans (length_map _).symm
  constructor
  · intro h
    refine ext_getElem (by simpa using hlen') fun j hj hj' => ?_
    rw [length_map] at hj hj'
    have hfit := h j (placesOf pattern routes)[j] arrays[j] (getElem?_eq_getElem hj')
      (by rw [getElem?_map, getElem?_eq_getElem hj]; rfl) fun value hval => by
        obtain ⟨items, -, rfl⟩ := mem_map.1 (mem_of_mem_take hval)
        exact ⟨items, rfl⟩
    simpa using hfit.1
  · intro h j places items hplaces hitems _
    have hperm : (placesOf pattern routes).flatten.Perm (List.range count) :=
      (hplan.flatMap_right _).trans perm_keyNumbers_planFor
    have htotal : combinedLength (arrays.map .array) = count := by
      rw [combinedLength_arrays, length_flatten, h, ← length_flatten, hperm.length_eq, length_range]
    refine ⟨?_, fun i hi => ?_⟩
    · have hj := congrArg (fun l => l[j]?) h
      rw [getElem?_map] at hitems
      obtain ⟨items', hitems', heq⟩ := Option.map_eq_some_iff.1 hitems
      cases heq
      simpa [hitems', hplaces] using hj
    · rw [htotal]
      exact mem_range.1 (hperm.mem_iff.1 (mem_flatten.2 ⟨places, mem_of_getElem? hplaces, hi⟩))

end Plans

theorem combineArrayResults_cases (values : List Value) :
    (∃ arrays : List (List Value), values = arrays.map .array ∧
      combineArrayResults values = .ok (.array arrays.flatten)) ∨
      combineArrayResults values = .error notArray := by
  have hfrom : ∀ results, (∃ arrays : List (List Value), values = arrays.map .array ∧
      combineArrayFrom results values = .ok (.array (results ++ arrays.flatten))) ∨
        combineArrayFrom results values = .error notArray := by
    induction values with
    | nil => exact fun results => .inl ⟨[], rfl, by simp [combineArrayFrom]⟩
    | cons value values ih =>
      intro results
      cases value with
      | array items =>
        rcases ih (results ++ items) with ⟨arrays, harrs, hfrom⟩ | hfrom
        · exact .inl ⟨items :: arrays, by rw [harrs]; rfl, by simpa [combineArrayFrom] using hfrom⟩
        · exact .inr hfrom
      | _ => exact .inr rfl
  exact hfrom []

/-- Whatever the nodes answer, each of the functions returns exactly when what it reads fits: `aggregate` when the sums are
`i64`s, `logical_aggregate` when no array is longer than the first one, `combine_map_results` when the counts are `i64`s,
and `combine_and_sort_array_results` when the arrays have as many results as the parts of the plan have keys, and, after
a value of another kind, enough results to have a place for these. -/
theorem aggregation_returns_iff [Crc16] (values : List Value) :
    Returns (aggregate values .min) ∧
    (Returns (aggregate values .sum) ↔ SumsFit values) ∧
    (∀ op, Returns (logicalAggregate values op) ↔ LengthsFit values) ∧
    (∀ order, Returns (combineMapResults order values) ↔ CountsFit values) ∧
    ((∃ arrays : List (List Value), values = arrays.map .array ∧ combineArrayResults values = .ok (.array arrays.flatten)) ∨
      combineArrayResults values = .error notArray) ∧
    ∀ {R : Type} [Routable R] (order : RouteOrder) (r : R) (cmd : Bytes)
      (first : Nat) (pattern pattern' : MultiSlotArgPattern) (routes : List (Route × List Nat))
      (policy : Option ResponsePolicy), (∀ routes, (order routes).Perm routes) →
      multiShard order r cmd first pattern = .ok (some (.multiNode (.multiSlot routes pattern') policy)) →
      values.length = routes.length →
      (Returns (combineAndSortArrayResults values routes pattern') ↔
        PlacesFit (combinedLength values) (placesOf pattern' routes) values) ∧
      ∀ arrays : List (List Value), values = arrays.map .array →
        (Returns (combineAndSortArrayResults values routes pattern') ↔
          arrays.map List.length = (placesOf pattern' routes).map List.length) := by
  refine ⟨returns_aggregateFrom_min _ values, returns_aggregate_sum_iff values,
    fun _ => returns_logicalAggregateFrom_iff [] values,
    fun order => returns_combineMapResults_iff order values, combineArrayResults_cases values, ?_⟩
  intro R _ order r cmd first pattern pattern' routes policy horder hplan hlen
  obtain ⟨rfl, route, count, n, hperm⟩ := multiShard_plan horder hplan
  have hsort := returns_combineAndSort_iff hperm hlen
  refine ⟨hsort, fun arrays harrays => ?_⟩
  subst harrays
  rw [hsort, placesFit_arrays_iff hperm (by simpa using hlen)]

theorem aggregation_panics :
    aggregate [.int Int64.maxValue, .int 1] .sum = .error .addWithOverflow ∧
    logicalAggregate [.array [.int 1], .array [.int 1, .int 1]] .and = .error .sliceIndex ∧
    combineMapResults id [.array [.bulkString (bytesOf "ch"), .int Int64.maxValue],
      .array [.bulkString (bytesOf "ch"), .int 1]] =
      .error .addWithOverflow ∧
    multiShard id (Cmd.ofArgs (["MGET", "a", "b"].map bytesOf)) (bytesOf "MGET") 1 .keysOnly =
      .ok (some (.multiNode (.multiSlot [(⟨3300, .replicaOptional⟩, [1]), (⟨15495, .replicaOptional⟩, [0])] .keysOnly)
        (some .combineArrays))) ∧
    combineAndSortArrayResults [.array [], .array [.nil]]
      [(⟨3300, .replicaOptional⟩, [1]), (⟨15495, .replicaOptional⟩, [0])] .keysOnly = .error .assertion ∧
    combineAndSortArrayResults [.array [.nil], .nil]
      [(⟨3300, .replicaOptional⟩, [1]), (⟨15495, .replicaOptional⟩, [0])] .keysOnly = .error .sliceIndex := by
  exact ⟨rfl, rfl, rfl, by decide +kernel, rfl, rfl⟩

theorem aggregation_returns_mget :
    Returns (combineAndSortArrayResults [.array [.int 2], .array [.int 1]]
      [(⟨3300, .replicaOptional⟩, [1]), (⟨15495, .replicaOptional⟩, [0])] .keysOnly) := by
  have hplan : multiShard id (Cmd.ofArgs (["MGET", "a", "b"].map bytesOf)) (bytesOf "MGET") 1 .keysOnly =
      .ok (some (.multiNode (.multiSlot [(⟨3300, .replicaOptional⟩, [1]), (⟨15495, .replicaOptional⟩, [0])] .keysOnly)
        (some .combineArrays))) := by decide +kernel
  exact (((aggregation_returns_iff [.array [.int 2], .array [.int 1]]).2.2.2.2.2 id _ _ _ _ _ _ _ (fun _ => .refl _) hplan
    rfl).2 [[.int 2], [.int 1]] rfl).2 rfl

end RedisRs
