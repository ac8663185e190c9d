import RedisRs.ToRedisArgs

/-!
# How many arguments a value says it has
-/

namespace RedisRs

open List ToRedisArgs ToRedisTuple

def argsWritten {α : Type} [ToRedisArgs α] (x : α) : Nat := (toRedisArgs x).length

/-- Every value is written as `n` arguments. -/
def Always (α : Type) [ToRedisArgs α] (n : Nat) : Prop := ∀ x : α, argsWritten x = n

def NeverEmpty (α : Type) [ToRedisArgs α] : Prop := ∀ x : α, 0 < argsWritten x

/-- `num_of_args` is the number of arguments written. -/
def CountsRight (α : Type) [ToRedisArgs α] : Prop := ∀ x : α, numOfArgs x = argsWritten x

/-- A value that says it has no argument has none. -/
def ZeroIsEmpty (α : Type) [ToRedisArgs α] : Prop := ∀ x : α, numOfArgs x = 0 → argsWritten x = 0

def itemsWritten {α : Type} [ToRedisTuple α] (x : α) : Nat := (writeItems x).length

/-- The type leaves it to the trait how a slice of it is written. -/
structure PlainSlices (α : Type) [ToRedisArgs α] : Prop where
  write : ∀ items : List α, writeArgsFromSlice items = items.flatMap writeRedisArgs
  single : ∀ item : α, isSingleVecArg [item] = decide (numOfArgs item ≤ 1)
  not_single : ∀ items : List α, items.length ≠ 1 → isSingleVecArg items = false

section Slices

variable {α : Type} [ToRedisArgs α]

theorem length_flatMap_writeRedisArgs (items : List α) :
    (items.flatMap writeRedisArgs).length = (items.map argsWritten).sum := by
  rw [length_flatMap]
  rfl

theorem Always.sum {n : Nat} (h : Always α n) (items : List α) : (items.map argsWritten).sum = items.length * n := by
  rw [map_congr_left fun x _ => h x, map_const', sum_replicate_nat]

namespace PlainSlices

variable (h : PlainSlices α)
include h

theorem argsWritten_list (items : List α) : argsWritten items = (items.map argsWritten).sum := by
  rw [← length_flatMap_writeRedisArgs, ← h.write]
  rfl

theorem argsWritten_vector {n : Nat} (items : List.Vector α n) : argsWritten items = (items.toList.map argsWritten).sum :=
  h.argsWritten_list items.toList

theorem sliceNumOfArgs_singleton (item : α) : sliceNumOfArgs [item] = max 1 (numOfArgs item) := by
  rw [sliceNumOfArgs, h.single]
  by_cases hle : numOfArgs item ≤ 1
  · rw [if_pos (decide_eq_true hle), Nat.max_eq_left hle]
  · rw [if_neg (by simpa using hle), Nat.max_eq_right (by omega)]

theorem sliceNumOfArgs_of_ne {items : List α} (hlen : items.length ≠ 1) : sliceNumOfArgs items = items.length := by
  unfold sliceNumOfArgs
  rw [h.not_single items hlen, if_neg Bool.false_ne_true]
  split
  · exact absurd rfl hlen
  · rfl

end PlainSlices

end Slices

section Wrappers

variable {α : Type} [ToRedisArgs α] {n : Nat}

theorem always_ref : Always (Ref α) n ↔ Always α n := ⟨fun h x => h ⟨x⟩, fun h x => h x.val⟩
theorem always_box : Always (Boxed α) n ↔ Always α n := ⟨fun h x => h ⟨x⟩, fun h x => h x.val⟩
theorem always_cow : Always (Cow α) n ↔ Always α n := by
  refine ⟨fun h x => h (.owned x), fun h x => ?_⟩
  cases x with
  | borrowed inner => exact h inner
  | owned inner => exact h inner

theorem always_of_empty {β : Type} [ToRedisArgs β] (empty : β) (one : α → β) (hempty : argsWritten empty = 0)
    (hone : ∀ x, argsWritten (one x) = argsWritten x) (hzero : Always α 0 → Always β 0) :
    Always β n ↔ Always α 0 ∧ n = 0 := by
  constructor
  · intro h
    obtain rfl : n = 0 := (h empty).symm.trans hempty
    exact ⟨fun x => (hone x).symm.trans (h (one x)), rfl⟩
  · rintro ⟨h, rfl⟩
    exact hzero h

theorem always_option : Always (Option α) n ↔ Always α 0 ∧ n = 0 := by
  refine always_of_empty none some rfl (fun _ => rfl) fun h x => ?_
  cases x with
  | none => rfl
  | some x => exact h x

theorem always_vec (hp : PlainSlices α) : Always (List α) n ↔ Always α 0 ∧ n = 0 := by
  refine always_of_empty [] (fun x => [x]) (hp.argsWritten_list []) (fun x => ?_) fun h items => ?_
  · exact hp.argsWritten_list [x]
  · rw [hp.argsWritten_list, h.sum, Nat.mul_zero]

theorem always_array_zero (hp : PlainSlices α) : Always (List.Vector α 0) 0 := fun items => by
  rw [hp.argsWritten_vector, List.Vector.eq_nil items]
  rfl

theorem always_array [Nonempty α] (hp : PlainSlices α) (hn : n ≠ 0) {m : Nat} :
    Always (List.Vector α n) m ↔ ∃ k, Always α k ∧ n * k = m := by
  constructor
  · intro h
    obtain ⟨x₀⟩ := ‹Nonempty α›
    have hrep : ∀ x : α, n * argsWritten x = m := fun x => by
      have hx := (hp.argsWritten_vector _).symm.trans (h ⟨List.replicate n x, length_replicate⟩)
      rw [List.Vector.toList_mk, map_replicate, sum_replicate_nat] at hx
      exact hx
    refine ⟨argsWritten x₀, fun x => ?_, hrep x₀⟩
    exact Nat.eq_of_mul_eq_mul_left (Nat.pos_of_ne_zero hn) ((hrep x).trans (hrep x₀).symm)
  · rintro ⟨k, hk, rfl⟩ items
    rw [hp.argsWritten_vector, hk.sum, List.Vector.toList_length]

theorem always_set : Always (SetInOrder α) n ↔ Always α 0 ∧ n = 0 := by
  refine always_of_empty ⟨[], .nil⟩ (fun x => ⟨[x], nodup_singleton x⟩) rfl (fun x => ?_) fun h s => ?_
  · exact length_flatMap_writeRedisArgs [x]
  · exact (length_flatMap_writeRedisArgs s.items).trans (h.sum s.items)

end Wrappers

section Tuples

variable {α β : Type} [ToRedisArgs α] [ToRedisTuple β] {n : Nat}

def AlwaysItems (α : Type) [ToRedisTuple α] (n : Nat) : Prop := ∀ x : α, itemsWritten x = n

theorem itemsWritten_cons (x : α × β) : itemsWritten x = argsWritten x.1 + itemsWritten x.2 :=
  length_append

theorem alwaysItems_cons [Nonempty α] [Nonempty β] {m : Nat} :
    AlwaysItems (α × β) m ↔ ∃ a b, Always α a ∧ AlwaysItems β b ∧ a + b = m := by
  constructor
  · intro h
    obtain ⟨x₀⟩ := ‹Nonempty α›
    obtain ⟨y₀⟩ := ‹Nonempty β›
    have hsum : ∀ x y, argsWritten x + itemsWritten y = m := fun x y => (itemsWritten_cons (x, y)).symm.trans (h (x, y))
    refine ⟨argsWritten x₀, itemsWritten y₀, fun x => ?_, fun y => ?_, hsum x₀ y₀⟩
    · have := hsum x y₀
      have := hsum x₀ y₀
      omega
    · have := hsum x₀ y
      have := hsum x₀ y₀
      omega
  · rintro ⟨a, b, ha, hb, rfl⟩ x
    rw [itemsWritten_cons, ha, hb]

theorem always_tuple {m : Nat} : Always (Tuple (α × β)) m ↔ AlwaysItems (α × β) m :=
  ⟨fun h x => h ⟨x⟩, fun h x => h x.items⟩

end Tuples

namespace ArgType

def isU8 : ArgType → Bool
  | int .u8 => true
  | _ => false

mutual

def written : ArgType → Option Nat
  | int _ | bool | string => some 1
  | ref t | box t | cow t => t.written
  | option t | set t => if t.written = some 0 then some 0 else none
  | vec t =>
    if t.isU8 then some 1
    else if t.written = some 0 then some 0
    else none
  | array t n =>
    if t.isU8 then some 1
    else if n = 0 then some 0
    else t.written.map (n * ·)
  | tuple t ts => do return (← t.written) + (← writtenItems ts)

def writtenItems : List ArgType → Option Nat
  | [] => some 0
  | t :: ts => do return (← t.written) + (← writtenItems ts)

end

theorem plainSlices (t : ArgType) (h : t.isU8 = false) : PlainSlices t.Carrier := by
  have hdefault : ∀ {α : Type} [ToRedisArgs α], (writeArgsFromSlice : List α → _) = List.flatMap writeRedisArgs →
      (∀ item : α, isSingleVecArg [item] = decide (numOfArgs item ≤ 1)) → isSingleVecArg ([] : List α) = false →
      (∀ (a b : α) (items : List α), isSingleVecArg (a :: b :: items) = false) → PlainSlices α := by
    intro α _ hwrite hone hnil hmany
    refine ⟨fun items => by rw [hwrite], hone, fun items hlen => ?_⟩
    rcases items with _ | ⟨a, _ | ⟨b, items⟩⟩
    · exact hnil
    · exact absurd rfl hlen
    · exact hmany a b items
  cases t with
  | int k => cases k <;> first | exact hdefault rfl (fun _ => rfl) rfl fun _ _ _ => rfl | cases h
  | _ => exact hdefault rfl (fun _ => rfl) rfl fun _ _ _ => rfl

theorem eq_u8_or_plain (t : ArgType) : t = int .u8 ∨ t.isU8 = false ∧ PlainSlices t.Carrier := by
  cases h : t.isU8 with
  | false => exact .inr ⟨rfl, t.plainSlices h⟩
  | true =>
    unfold isU8 at h
    split at h
    · exact .inl rfl
    · cases h

mutual

theorem nonempty : (t : ArgType) → Nonempty t.Carrier
  | int k => ⟨(MachineInt.ofInt 0 : k.Carrier)⟩
  | bool => ⟨false⟩
  | string => ⟨""⟩
  | ref t => t.nonempty.map Ref.mk
  | box t => t.nonempty.map Boxed.mk
  | cow t => t.nonempty.map Cow.owned
  | option _ => ⟨none⟩
  | vec _ => ⟨[]⟩
  | array t n => t.nonempty.map fun x => ⟨List.replicate n x, length_replicate⟩
  | tuple t ts => t.nonempty.elim fun x => (nonemptyItems ts).map fun y => ⟨(x, y)⟩
  | set _ => ⟨⟨[], .nil⟩⟩

theorem nonemptyItems : (ts : List ArgType) → Nonempty (components ts).Carrier
  | [] => ⟨()⟩
  | t :: ts => t.nonempty.elim fun x => (nonemptyItems ts).map fun y => (x, y)

end

theorem bind_add_eq_some {a b : Option Nat} {n : Nat} :
    (do return (← a) + (← b) : Option Nat) = some n ↔ ∃ i j, a = some i ∧ b = some j ∧ i + j = n := by
  cases a <;> cases b <;> simp

theorem ite_zero_eq_some {p : Prop} [Decidable p] {n : Nat} : (if p then some 0 else none) = some n ↔ p ∧ n = 0 := by
  split <;> simp_all [eq_comm]

theorem always_int (k : IntType) : Always k.Carrier 1 := fun _ => by cases k <;> rfl

theorem some_iff_of_always {t : ArgType} {m n : Nat} (h : Always t.Carrier m) : some m = some n ↔ Always t.Carrier n := by
  constructor
  · rintro ⟨⟩
    exact h
  · intro hn
    obtain ⟨x⟩ := t.nonempty
    rw [← h x, hn x]

mutual

theorem written_iff : (t : ArgType) → (n : Nat) → (t.written = some n ↔ Always t.Carrier n)
  | int k, _ => some_iff_of_always (t := int k) (always_int k)
  | bool, _ => some_iff_of_always (t := bool) fun _ => rfl
  | string, _ => some_iff_of_always (t := string) fun _ => rfl
  | ref t, n => (t.written_iff n).trans always_ref.symm
  | box t, n => (t.written_iff n).trans always_box.symm
  | cow t, n => (t.written_iff n).trans always_cow.symm
  | option t, n => ite_zero_eq_some.trans ((and_congr_left' (t.written_iff 0)).trans always_option.symm)
  | set t, n => ite_zero_eq_some.trans ((and_congr_left' (t.written_iff 0)).trans always_set.symm)
  | vec t, n => by
    rw [written]
    rcases t.eq_u8_or_plain with rfl | ⟨h, hp⟩
    · exact some_iff_of_always (t := vec (int .u8)) fun _ => rfl
    · rw [h, if_neg Bool.false_ne_true]
      exact ite_zero_eq_some.trans ((and_congr_left' (t.written_iff 0)).trans (always_vec hp).symm)
  | array t n, m => by
    rw [written]
    rcases t.eq_u8_or_plain with rfl | ⟨h, hp⟩
    · exact some_iff_of_always (t := array (int .u8) n) fun _ => rfl
    · rw [h, if_neg Bool.false_ne_true]
      split
      · next hn =>
        subst hn
        exact some_iff_of_always (t := array t 0) (always_array_zero hp)
      · next hn =>
        have := t.nonempty
        refine Iff.trans ?_ (always_array hp hn).symm
        rw [Option.map_eq_some_iff]
        exact exists_congr fun k => and_congr_left' (t.written_iff k)
  | tuple t ts, n => by
    have := t.nonempty
    have := nonemptyItems ts
    rw [written, bind_add_eq_some]
    refine Iff.trans ?_ (always_tuple.trans alwaysItems_cons).symm
    exact exists₂_congr fun a b => and_congr (t.written_iff a) (and_congr_left' (writtenItems_iff ts b))

theorem writtenItems_iff : (ts : List ArgType) → (n : Nat) →
    (writtenItems ts = some n ↔ AlwaysItems (components ts).Carrier n)
  | [], n => ⟨fun h _ => Option.some.inj h, fun h => congrArg some (h ())⟩
  | t :: ts, n => by
    have := t.nonempty
    have := nonemptyItems ts
    rw [writtenItems, bind_add_eq_some]
    refine Iff.trans ?_ alwaysItems_cons.symm
    exact exists₂_congr fun a b => and_congr (t.written_iff a) (and_congr_left' (writtenItems_iff ts b))

end

end ArgType

section Empty

variable {α β : Type} [ToRedisArgs α] [ToRedisTuple β] {n : Nat}

theorem neverEmpty_ref : NeverEmpty (Ref α) ↔ NeverEmpty α := ⟨fun h x => h ⟨x⟩, fun h x => h x.val⟩
theorem neverEmpty_box : NeverEmpty (Boxed α) ↔ NeverEmpty α := ⟨fun h x => h ⟨x⟩, fun h x => h x.val⟩
theorem neverEmpty_cow : NeverEmpty (Cow α) ↔ NeverEmpty α := by
  refine ⟨fun h x => h (.owned x), fun h x => ?_⟩
  cases x with
  | borrowed inner => exact h inner
  | owned inner => exact h inner

theorem not_neverEmpty {x : α} (h : argsWritten x = 0) : ¬NeverEmpty α := fun hne => (hne x).ne' h

theorem neverEmpty_array (hp : PlainSlices α) (hn : n ≠ 0) : NeverEmpty (List.Vector α n) ↔ NeverEmpty α := by
  constructor
  · intro h x
    have hx := h ⟨List.replicate n x, length_replicate⟩
    have hlen := hp.argsWritten_vector (⟨List.replicate n x, length_replicate⟩ : List.Vector α n)
    rw [List.Vector.toList_mk, map_replicate, sum_replicate_nat] at hlen
    exact Nat.pos_of_mul_pos_left (hlen ▸ hx)
  · intro h items
    rw [hp.argsWritten_vector]
    have hlen := items.toList_length
    generalize items.toList = l at hlen
    cases l with
    | nil => exact absurd hlen.symm hn
    | cons x l =>
      rw [map_cons, sum_cons]
      exact Nat.add_pos_left (h x) _

theorem neverEmptyItems_cons :
    (∀ x : α × β, 0 < itemsWritten x) ↔ NeverEmpty α ∨ ∀ y : β, 0 < itemsWritten y := by
  constructor
  · intro h
    by_contra hnot
    obtain ⟨hx, hy⟩ := not_or.1 hnot
    obtain ⟨x, hx⟩ := not_forall.1 hx
    obtain ⟨y, hy⟩ := not_forall.1 hy
    have hxy : 0 < argsWritten x + itemsWritten y := by
      rw [← itemsWritten_cons (x, y)]
      exact h (x, y)
    omega
  · intro h x
    rw [itemsWritten_cons]
    rcases h with h | h
    · exact Nat.add_pos_left (h x.1) _
    · exact Nat.add_pos_right _ (h x.2)

theorem zeroIsEmpty_vec (hp : PlainSlices α) : ZeroIsEmpty (List α) := by
  intro items h
  by_cases hlen : items.length = 1
  · obtain ⟨x, rfl⟩ := length_eq_one_iff.1 hlen
    have hmax := (hp.sliceNumOfArgs_singleton x).symm.trans h
    omega
  · have hzero := (hp.sliceNumOfArgs_of_ne hlen).symm.trans h
    obtain rfl := length_eq_zero_iff.1 hzero
    exact hp.argsWritten_list []

theorem zeroIsEmpty_array (hp : PlainSlices α) : ZeroIsEmpty (List.Vector α n) := fun items h =>
  zeroIsEmpty_vec hp items.toList h

theorem zeroIsEmpty_set : ZeroIsEmpty (SetInOrder α) := by
  rintro ⟨items, hnd⟩ h
  obtain rfl := length_eq_zero_iff.1 h
  rfl

end Empty

namespace ArgType

mutual

def neverEmpty : ArgType → Bool
  | int _ | bool | string => true
  | ref t | box t | cow t => t.neverEmpty
  | option _ | set _ => false
  | vec t => t.isU8
  | array t n => t.isU8 || (n != 0 && t.neverEmpty)
  | tuple t ts => t.neverEmpty || anyNeverEmpty ts

def anyNeverEmpty : List ArgType → Bool
  | [] => false
  | t :: ts => t.neverEmpty || anyNeverEmpty ts

end

mutual

theorem neverEmpty_iff : (t : ArgType) → (t.neverEmpty = true ↔ NeverEmpty t.Carrier)
  | int k => iff_of_true rfl fun x => (always_int k x).symm ▸ Nat.one_pos
  | bool => iff_of_true rfl fun _ => Nat.one_pos
  | string => iff_of_true rfl fun _ => Nat.one_pos
  | ref t => t.neverEmpty_iff.trans neverEmpty_ref.symm
  | box t => t.neverEmpty_iff.trans neverEmpty_box.symm
  | cow t => t.neverEmpty_iff.trans neverEmpty_cow.symm
  | option t => iff_of_false Bool.false_ne_true (not_neverEmpty (x := (none : Option t.Carrier)) rfl)
  | set t => iff_of_false Bool.false_ne_true (not_neverEmpty (x := (⟨[], .nil⟩ : SetInOrder t.Carrier)) rfl)
  | vec t => by
    rw [neverEmpty]
    rcases t.eq_u8_or_plain with rfl | ⟨h, hp⟩
    · exact iff_of_true rfl fun _ => Nat.one_pos
    · exact iff_of_false (Bool.eq_false_iff.1 h) (not_neverEmpty (x := ([] : List t.Carrier)) (hp.argsWritten_list []))
  | array t n => by
    rw [neverEmpty]
    rcases t.eq_u8_or_plain with rfl | ⟨h, hp⟩
    · exact iff_of_true rfl fun _ => Nat.one_pos
    · rw [h, Bool.false_or, Bool.and_eq_true, bne_iff_ne]
      by_cases hn : n = 0
      · subst hn
        refine iff_of_false (fun h => h.1 rfl) (not_neverEmpty (x := (List.Vector.nil : List.Vector t.Carrier 0)) ?_)
        exact always_array_zero hp _
      · exact (and_iff_right hn).trans (t.neverEmpty_iff.trans (neverEmpty_array hp hn).symm)
  | tuple t ts => by
    rw [neverEmpty, Bool.or_eq_true]
    refine (or_congr t.neverEmpty_iff (anyNeverEmpty_iff ts)).trans (neverEmptyItems_cons.symm.trans ?_)
    exact ⟨fun h x => h x.items, fun h x => h ⟨x⟩⟩

theorem anyNeverEmpty_iff : (ts : List ArgType) →
    (anyNeverEmpty ts = true ↔ ∀ x : (components ts).Carrier, 0 < itemsWritten x)
  | [] => iff_of_false Bool.false_ne_true fun h => Nat.lt_irrefl 0 (h ())
  | t :: ts => by
    rw [anyNeverEmpty, Bool.or_eq_true]
    exact (or_congr t.neverEmpty_iff (anyNeverEmpty_iff ts)).trans neverEmptyItems_cons.symm

end

theorem zeroIsEmpty : (t : ArgType) → ZeroIsEmpty t.Carrier
  | int k => fun _ h => by cases k <;> cases h
  | bool | string | cow _ | tuple _ _ => fun _ h => nomatch h
  | ref t | box t => fun x => t.zeroIsEmpty x.val
  | option t => fun x => match x with
    | some x => t.zeroIsEmpty x
    | none => fun _ => rfl
  | vec t => by
    rcases t.eq_u8_or_plain with rfl | ⟨h, hp⟩
    · exact fun _ h => nomatch h
    · exact zeroIsEmpty_vec hp
  | array t n => by
    rcases t.eq_u8_or_plain with rfl | ⟨h, hp⟩
    · exact fun _ h => nomatch h
    · exact zeroIsEmpty_array hp
  | set _ => zeroIsEmpty_set

end ArgType

section Counts

variable {α β : Type} [ToRedisArgs α] [ToRedisTuple β] {n : Nat}

theorem countsRight_ref : CountsRight (Ref α) ↔ CountsRight α := ⟨fun h x => h ⟨x⟩, fun h x => h x.val⟩
theorem countsRight_box : CountsRight (Boxed α) ↔ CountsRight α := ⟨fun h x => h ⟨x⟩, fun h x => h x.val⟩
theorem countsRight_option : CountsRight (Option α) ↔ CountsRight α := by
  refine ⟨fun h x => h (some x), fun h x => ?_⟩
  cases x with
  | none => rfl
  | some x => exact h x

theorem countsRight_cow : CountsRight (Cow α) ↔ Always α 1 :=
  ⟨fun h x => (h (.owned x)).symm, fun h x => (always_cow.2 h x).symm⟩

theorem countsRight_tuple : CountsRight (Tuple (α × β)) ↔ Always (Tuple (α × β)) (size (α × β)) :=
  ⟨fun h x => (h x).symm, fun h x => (h x).symm⟩

theorem countsRight_set : CountsRight (SetInOrder α) ↔ Always α 1 := by
  constructor
  · intro h x
    have hx := h ⟨[x], nodup_singleton x⟩
    exact (hx.trans (length_flatMap_writeRedisArgs [x])).symm
  · intro h s
    exact ((length_flatMap_writeRedisArgs s.items).trans ((h.sum s.items).trans (Nat.mul_one _))).symm

theorem slice_counts_iff (hp : PlainSlices α) {items : List α} (hlen : items.length ≠ 1) :
    numOfArgs items = argsWritten items ↔ items.length = (items.map argsWritten).sum := by
  have hnum : numOfArgs items = items.length := hp.sliceNumOfArgs_of_ne hlen
  rw [hnum, hp.argsWritten_list]

theorem singleton_counts_iff (hp : PlainSlices α) (hz : ZeroIsEmpty α) (x : α) :
    numOfArgs [x] = argsWritten [x] ↔ numOfArgs x = argsWritten x ∧ 0 < argsWritten x := by
  have hnum : numOfArgs [x] = max 1 (numOfArgs x) := hp.sliceNumOfArgs_singleton x
  have hlen : argsWritten [x] = argsWritten x := hp.argsWritten_list [x]
  have hzero := hz x
  omega

theorem countsRight_vec (hp : PlainSlices α) (hz : ZeroIsEmpty α) :
    CountsRight (List α) ↔ Always α 1 ∧ CountsRight α := by
  constructor
  · intro h
    refine ⟨fun x => ?_, fun x => ((singleton_counts_iff hp hz x).1 (h [x])).1⟩
    have htwo := (slice_counts_iff hp (show [x, x].length ≠ 1 by simp)).1 (h [x, x])
    simp only [length_cons, length_nil, map_cons, map_nil, sum_cons, sum_nil] at htwo
    omega
  · rintro ⟨hone, h⟩ items
    by_cases hlen : items.length = 1
    · obtain ⟨x, rfl⟩ := length_eq_one_iff.1 hlen
      exact (singleton_counts_iff hp hz x).2 ⟨h x, (hone x).symm ▸ Nat.one_pos⟩
    · rw [slice_counts_iff hp hlen, hone.sum, Nat.mul_one]

theorem countsRight_array_zero (hp : PlainSlices α) : CountsRight (List.Vector α 0) := by
  intro items
  have hnil : items.toList = [] := length_eq_zero_iff.1 items.toList_length
  have hlen : items.toList.length ≠ 1 := by simp
  refine (slice_counts_iff hp hlen).2 ?_
  rw [hnil]
  rfl

theorem countsRight_array_one (hp : PlainSlices α) (hz : ZeroIsEmpty α) :
    CountsRight (List.Vector α 1) ↔ CountsRight α ∧ NeverEmpty α := by
  constructor
  · intro h
    have hone : ∀ x, numOfArgs x = argsWritten x ∧ 0 < argsWritten x := fun x =>
      (singleton_counts_iff hp hz x).1 (h ⟨[x], rfl⟩)
    exact ⟨fun x => (hone x).1, fun x => (hone x).2⟩
  · rintro ⟨h, hne⟩ ⟨items, hlen⟩
    obtain ⟨x, rfl⟩ := length_eq_one_iff.1 hlen
    exact (singleton_counts_iff hp hz x).2 ⟨h x, hne x⟩

theorem countsRight_array (hp : PlainSlices α) : CountsRight (List.Vector α (n + 2)) ↔ Always α 1 := by
  have hne : ∀ items : List.Vector α (n + 2), items.toList.length ≠ 1 := fun items => by
    rw [items.toList_length]
    omega
  constructor
  · intro h x
    have hx := (slice_counts_iff hp (hne _)).1 (h ⟨List.replicate (n + 2) x, length_replicate⟩)
    rw [List.Vector.toList_mk, length_replicate, map_replicate, sum_replicate_nat] at hx
    exact (Nat.eq_of_mul_eq_mul_left (Nat.succ_pos _) ((Nat.mul_one _).trans hx)).symm
  · intro h items
    refine (slice_counts_iff hp (hne items)).2 ?_
    rw [h.sum, Nat.mul_one]

end Counts

namespace ArgType

def counted : ArgType → Bool
  | int _ | bool | string => true
  | ref t | box t | option t => t.counted
  | cow t | set t => t.written == some 1
  | vec t => t.isU8 || (t.written == some 1 && t.counted)
  | array t n => t.isU8 || match n with
    | 0 => true
    | 1 => t.counted && t.neverEmpty
    | _ + 2 => t.written == some 1
  | tuple t ts => (tuple t ts).written == some (ts.length + 1)

theorem size_components : ∀ ts : List ArgType, size (components ts).Carrier = ts.length
  | [] => rfl
  | _ :: ts => congrArg (· + 1) (size_components ts)

theorem counted_iff : (t : ArgType) → (t.counted = true ↔ CountsRight t.Carrier)
  | int k => iff_of_true rfl fun x => by cases k <;> rfl
  | bool => iff_of_true rfl fun _ => rfl
  | string => iff_of_true rfl fun _ => rfl
  | ref t => t.counted_iff.trans countsRight_ref.symm
  | box t => t.counted_iff.trans countsRight_box.symm
  | option t => t.counted_iff.trans countsRight_option.symm
  | cow t => beq_iff_eq.trans ((t.written_iff 1).trans countsRight_cow.symm)
  | set t => beq_iff_eq.trans ((t.written_iff 1).trans countsRight_set.symm)
  | vec t => by
    rw [counted]
    rcases t.eq_u8_or_plain with rfl | ⟨h, hp⟩
    · exact iff_of_true rfl fun _ => rfl
    · rw [h, Bool.false_or, Bool.and_eq_true, beq_iff_eq]
      exact (and_congr (t.written_iff 1) t.counted_iff).trans (countsRight_vec hp t.zeroIsEmpty).symm
  | array t n => by
    rcases t.eq_u8_or_plain with rfl | ⟨h, hp⟩
    · exact iff_of_true rfl fun _ => rfl
    · match n with
      | 0 => exact iff_of_true (Bool.or_true _) (countsRight_array_zero hp)
      | 1 =>
        rw [counted, h, Bool.false_or, Bool.and_eq_true]
        exact (and_congr t.counted_iff t.neverEmpty_iff).trans (countsRight_array_one hp t.zeroIsEmpty).symm
      | n + 2 =>
        rw [counted, h, Bool.false_or, beq_iff_eq]
        exact (t.written_iff 1).trans (countsRight_array hp).symm
  | tuple t ts => by
    have hsize : size (t.Carrier × (components ts).Carrier) = ts.length + 1 := size_components (t :: ts)
    refine beq_iff_eq.trans (((tuple t ts).written_iff _).trans ?_)
    rw [← hsize]
    exact countsRight_tuple.symm

end ArgType

end RedisRs
