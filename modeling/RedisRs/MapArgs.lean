import RedisRs.ArgCounts

/-!
# The arguments of a map
-/

namespace RedisRs

open ToRedisArgs ToRedisTuple

def Passes (α : Type) [ToRedisArgs α] : Prop := ∃ x : α, numOfArgs x ≤ 1

def Single (α : Type) [ToRedisArgs α] : Prop := ∀ x : α, numOfArgs x ≤ 1 → argsWritten x = 1

section Wrappers

variable {α β : Type} [ToRedisArgs α] [ToRedisTuple β] {n : Nat}

theorem passes_ref : Passes (Ref α) ↔ Passes α := ⟨fun ⟨x, h⟩ => ⟨x.val, h⟩, fun ⟨x, h⟩ => ⟨⟨x⟩, h⟩⟩
theorem passes_box : Passes (Boxed α) ↔ Passes α := ⟨fun ⟨x, h⟩ => ⟨x.val, h⟩, fun ⟨x, h⟩ => ⟨⟨x⟩, h⟩⟩

theorem single_ref : Single (Ref α) ↔ Single α := ⟨fun h x => h ⟨x⟩, fun h x => h x.val⟩
theorem single_box : Single (Boxed α) ↔ Single α := ⟨fun h x => h ⟨x⟩, fun h x => h x.val⟩

theorem single_of_one (h : ∀ x : α, numOfArgs x = 1) : Single α ↔ Always α 1 :=
  ⟨fun hs x => hs x (h x).le, fun ha x _ => ha x⟩

theorem single_of_many (h : ∀ x : α, 1 < numOfArgs x) : Single α := fun x hx => absurd hx (h x).not_ge

theorem not_single {x : α} (hnum : numOfArgs x = 0) (hlen : argsWritten x = 0) : ¬Single α := fun h => by
  have := h x (hnum ▸ Nat.zero_le 1)
  omega

theorem numOfArgs_vector_one (hp : PlainSlices α) (x : α) :
    numOfArgs (List.Vector.cons x .nil) = max 1 (numOfArgs x) :=
  hp.sliceNumOfArgs_singleton x

theorem argsWritten_vector_one (hp : PlainSlices α) (x : α) : argsWritten (List.Vector.cons x .nil) = argsWritten x :=
  hp.argsWritten_list [x]

theorem numOfArgs_vector (hp : PlainSlices α) (hn : n ≠ 1) (items : List.Vector α n) : numOfArgs items = n := by
  have hlen : items.toList.length ≠ 1 := by rwa [items.toList_length]
  exact (hp.sliceNumOfArgs_of_ne hlen).trans items.toList_length

omit [ToRedisArgs α] in
theorem exists_vector_one (items : List.Vector α 1) : ∃ x, items = List.Vector.cons x .nil := by
  obtain ⟨l, hl⟩ := items
  obtain ⟨x, rfl⟩ := List.length_eq_one_iff.1 hl
  exact ⟨x, rfl⟩

theorem passes_array_one (hp : PlainSlices α) : Passes (List.Vector α 1) ↔ Passes α := by
  constructor
  · rintro ⟨items, h⟩
    obtain ⟨x, rfl⟩ := exists_vector_one items
    rw [numOfArgs_vector_one hp] at h
    exact ⟨x, by omega⟩
  · rintro ⟨x, h⟩
    refine ⟨List.Vector.cons x .nil, ?_⟩
    rw [numOfArgs_vector_one hp]
    omega

theorem single_array_one (hp : PlainSlices α) : Single (List.Vector α 1) ↔ Single α := by
  constructor
  · intro h x hx
    rw [← argsWritten_vector_one hp]
    refine h _ ?_
    rw [numOfArgs_vector_one hp]
    omega
  · intro h items hx
    obtain ⟨x, rfl⟩ := exists_vector_one items
    rw [numOfArgs_vector_one hp] at hx
    rw [argsWritten_vector_one hp]
    exact h x (by omega)

end Wrappers

namespace ArgType

def passes : ArgType → Bool
  | int _ | bool | string | cow _ | option _ | vec _ | set _ => true
  | ref t | box t => t.passes
  | array t n => t.isU8 || match n with
    | 0 => true
    | 1 => t.passes
    | _ + 2 => false
  | tuple _ ts => ts.isEmpty

def single : ArgType → Bool
  | int _ | bool | string => true
  | ref t | box t => t.single
  | cow t => t.written == some 1
  | option _ | set _ => false
  | vec t => t.isU8
  | array t n => t.isU8 || match n with
    | 0 => false
    | 1 => t.single
    | _ + 2 => true
  | tuple t ts => !ts.isEmpty || t.written == some 1

theorem numOfArgs_int {k : IntType} (x : k.Carrier) : numOfArgs x = 1 := by cases k <;> rfl

theorem numOfArgs_tuple (t : ArgType) (ts : List ArgType) (x : (tuple t ts).Carrier) : numOfArgs x = ts.length + 1 :=
  size_components (t :: ts)

theorem passes_iff : (t : ArgType) → (t.passes = true ↔ Passes t.Carrier)
  | int k => iff_of_true rfl ((int k).nonempty.elim fun x => ⟨x, (numOfArgs_int (k := k) x).le⟩)
  | bool => iff_of_true rfl ⟨false, Nat.le_refl 1⟩
  | string => iff_of_true rfl ⟨"", Nat.le_refl 1⟩
  | cow t => iff_of_true rfl (t.nonempty.elim fun x => ⟨Cow.owned x, Nat.le_refl 1⟩)
  | option t => iff_of_true rfl ⟨(none : Option t.Carrier), Nat.zero_le 1⟩
  | set t => iff_of_true rfl ⟨(⟨[], .nil⟩ : SetInOrder t.Carrier), Nat.zero_le 1⟩
  | ref t => t.passes_iff.trans passes_ref.symm
  | box t => t.passes_iff.trans passes_box.symm
  | vec t => by
    refine iff_of_true rfl ⟨([] : List t.Carrier), ?_⟩
    rcases t.eq_u8_or_plain with rfl | ⟨h, hp⟩
    · exact Nat.le_refl 1
    · have hnum : numOfArgs ([] : List t.Carrier) = 0 := hp.sliceNumOfArgs_of_ne Nat.zero_ne_one
      exact hnum ▸ Nat.zero_le 1
  | array t n => by
    rcases t.eq_u8_or_plain with rfl | ⟨h, hp⟩
    · exact iff_of_true rfl ((array (int .u8) n).nonempty.elim fun x => ⟨x, Nat.le_refl 1⟩)
    · match n with
      | 0 =>
        refine iff_of_true (Bool.or_true _) ⟨(List.Vector.nil : List.Vector t.Carrier 0), ?_⟩
        exact (numOfArgs_vector hp Nat.zero_ne_one _).le.trans (Nat.zero_le 1)
      | 1 =>
        rw [passes, h, Bool.false_or]
        exact t.passes_iff.trans (passes_array_one hp).symm
      | n + 2 =>
        rw [passes, h, Bool.false_or]
        refine iff_of_false Bool.false_ne_true ?_
        rintro ⟨x, hx⟩
        have hnum : numOfArgs x = n + 2 := numOfArgs_vector hp (by omega) x
        omega
  | tuple t ts => by
    rw [passes, List.isEmpty_iff_length_eq_zero]
    constructor
    · intro hlen
      obtain ⟨x⟩ := (tuple t ts).nonempty
      exact ⟨x, by rw [numOfArgs_tuple]; omega⟩
    · rintro ⟨x, hx⟩
      rw [numOfArgs_tuple] at hx
      omega

theorem single_iff : (t : ArgType) → (t.single = true ↔ Single t.Carrier)
  | int k => iff_of_true rfl fun x _ => always_int k x
  | bool => iff_of_true rfl fun _ _ => rfl
  | string => iff_of_true rfl fun _ _ => rfl
  | ref t => t.single_iff.trans single_ref.symm
  | box t => t.single_iff.trans single_box.symm
  | option t => iff_of_false Bool.false_ne_true (not_single (x := (none : Option t.Carrier)) rfl rfl)
  | set t => iff_of_false Bool.false_ne_true (not_single (x := (⟨[], .nil⟩ : SetInOrder t.Carrier)) rfl rfl)
  | cow t => by
    have hcow : Single (Cow t.Carrier) ↔ Always t.Carrier 1 := (single_of_one fun _ => rfl).trans always_cow
    exact beq_iff_eq.trans ((t.written_iff 1).trans hcow.symm)
  | vec t => by
    rcases t.eq_u8_or_plain with rfl | ⟨h, hp⟩
    · exact iff_of_true rfl fun _ _ => rfl
    · refine iff_of_false (Bool.eq_false_iff.1 h) (not_single (x := ([] : List t.Carrier)) ?_ (hp.argsWritten_list []))
      exact hp.sliceNumOfArgs_of_ne Nat.zero_ne_one
  | array t n => by
    rcases t.eq_u8_or_plain with rfl | ⟨h, hp⟩
    · exact iff_of_true rfl fun _ _ => rfl
    · rcases n with _ | _ | n
      · rw [single, h, Bool.false_or]
        refine iff_of_false Bool.false_ne_true (not_single (x := (List.Vector.nil : List.Vector t.Carrier 0)) ?_ ?_)
        · exact numOfArgs_vector hp Nat.zero_ne_one _
        · exact always_array_zero hp _
      · rw [single, h, Bool.false_or]
        exact t.single_iff.trans (single_array_one hp).symm
      · refine iff_of_true (Bool.or_true _) (single_of_many fun x => ?_)
        have hnum : numOfArgs x = n + 2 := numOfArgs_vector hp (by omega) x
        omega
  | tuple t ts => by
    cases ts with
    | nil =>
      have htuple : Single (tuple t []).Carrier ↔ Always (tuple t []).Carrier 1 :=
          single_of_one fun x => numOfArgs_tuple t [] x
      refine Iff.trans ?_ (((tuple t []).written_iff 1).trans htuple.symm)
      refine beq_iff_eq.trans (Iff.trans ?_ bind_add_eq_some.symm)
      constructor
      · intro h
        exact ⟨1, 0, h, rfl, rfl⟩
      · rintro ⟨i, j, hi, ⟨⟩, rfl⟩
        exact hi
    | cons s ts =>
      refine iff_of_true rfl (single_of_many fun x => ?_)
      rw [numOfArgs_tuple, List.length_cons]
      omega

end ArgType

section Maps

variable {K V : Type} [ToRedisArgs K] [ToRedisArgs V]

/-- What is written alternates the single argument of a key and that of its value. -/
inductive Paired : List (K × V) → List Bytes → Prop
  | nil : Paired [] []
  | cons {key : K} {value : V} {items : List (K × V)} {k v : Bytes} {args : List Bytes} (hk : toRedisArgs key = [k])
      (hv : toRedisArgs value = [v]) (h : Paired items args) : Paired ((key, value) :: items) (k :: v :: args)

theorem Paired.length {items : List (K × V)} {args : List Bytes} (h : Paired items args) :
    args.length = 2 * items.length := by
  induction h with
  | nil => rfl
  | cons _ _ _ ih =>
    simp only [List.length_cons, ih]
    omega

/-- The assertion fails, or the arguments are paired. -/
def PanicsOrPaired (m : MapInOrder K V) : Prop :=
  m.writeRedisArgs = .error .assertion ∨
    ∃ args, m.writeRedisArgs = .ok args ∧ Paired m.items args ∧ args.length = 2 * m.items.length

theorem writeEntries_cases (items : List (K × V)) : writeEntries items = .error .assertion ∨
    (∀ item ∈ items, numOfArgs item.1 ≤ 1 ∧ numOfArgs item.2 ≤ 1) ∧
      writeEntries items = .ok (items.flatMap fun item => toRedisArgs item.1 ++ toRedisArgs item.2) := by
  induction items with
  | nil => exact .inr ⟨nofun, rfl⟩
  | cons item rest ih =>
    obtain ⟨key, value⟩ := item
    rw [writeEntries]
    by_cases hone : numOfArgs key ≤ 1 ∧ numOfArgs value ≤ 1
    · rw [if_pos hone]
      rcases ih with hpanic | ⟨hrest, hok⟩
      · exact .inl (by rw [hpanic]; rfl)
      · refine .inr ⟨?_, by rw [hok]; rfl⟩
        rintro item (_ | ⟨_, hmem⟩)
        · exact hone
        · exact hrest item hmem
    · rw [if_neg hone]
      exact .inl rfl

theorem paired_of_single (hk : Single K) (hv : Single V) {items : List (K × V)}
    (h : ∀ item ∈ items, numOfArgs item.1 ≤ 1 ∧ numOfArgs item.2 ≤ 1) :
    Paired items (items.flatMap fun item => toRedisArgs item.1 ++ toRedisArgs item.2) := by
  induction items with
  | nil => exact .nil
  | cons item rest ih =>
    obtain ⟨hkey, hval⟩ := h item List.mem_cons_self
    obtain ⟨k, hk'⟩ := List.length_eq_one_iff.1 (hk item.1 hkey)
    obtain ⟨v, hv'⟩ := List.length_eq_one_iff.1 (hv item.2 hval)
    rw [List.flatMap_cons, hk', hv']
    exact .cons hk' hv' (ih fun item hmem => h item (List.mem_cons_of_mem _ hmem))

def MapInOrder.singleton (key : K) (value : V) : MapInOrder K V := ⟨[(key, value)], List.nodup_singleton key⟩

theorem single_of_singleton {key : K} {value : V} (hkey : numOfArgs key ≤ 1) (hval : numOfArgs value ≤ 1)
    (h : PanicsOrPaired (MapInOrder.singleton key value)) : argsWritten key = 1 ∧ argsWritten value = 1 := by
  have hok : (MapInOrder.singleton key value).writeRedisArgs = .ok (toRedisArgs key ++ toRedisArgs value ++ []) := by
    show writeEntries [(key, value)] = _
    rw [writeEntries, if_pos ⟨hkey, hval⟩]
    rfl
  rcases h with hpanic | ⟨args, -, hpaired, -⟩
  · rw [hok] at hpanic
    cases hpanic
  · cases hpaired with
    | cons hk hv _ => exact ⟨congrArg List.length hk, congrArg List.length hv⟩

theorem panicsOrPaired_iff :
    (∀ m : MapInOrder K V, PanicsOrPaired m) ↔ ¬Passes K ∨ ¬Passes V ∨ (Single K ∧ Single V) := by
  constructor
  · intro h
    by_cases hk : Passes K
    · by_cases hv : Passes V
      · obtain ⟨key₀, hkey₀⟩ := hk
        obtain ⟨value₀, hval₀⟩ := hv
        refine .inr (.inr ⟨fun key hkey => ?_, fun value hval => ?_⟩)
        · exact (single_of_singleton hkey hval₀ (h _)).1
        · exact (single_of_singleton hkey₀ hval (h _)).2
      · exact .inr (.inl hv)
    · exact .inl hk
  · intro h m
    rcases writeEntries_cases m.items with hpanic | ⟨hitems, hok⟩
    · exact .inl hpanic
    · refine .inr ⟨_, hok, ?_⟩
      have hpaired : Paired m.items (m.items.flatMap fun item => toRedisArgs item.1 ++ toRedisArgs item.2) := by
        rcases h with hk | hv | ⟨hk, hv⟩
        · cases hm : m.items with
          | nil => exact .nil
          | cons item _ => exact absurd ⟨item.1, (hitems item (hm ▸ List.mem_cons_self)).1⟩ hk
        · cases hm : m.items with
          | nil => exact .nil
          | cons item _ => exact absurd ⟨item.2, (hitems item (hm ▸ List.mem_cons_self)).2⟩ hv
        · exact paired_of_single hk hv hitems
      exact ⟨hpaired, hpaired.length⟩

end Maps

/-- Every map with keys of the type `k` and values of the type `v` panics or writes its entries in pairs, exactly if no key
or no value of the types passes the check, or each one that does writes a single argument. -/
theorem map_arguments_paired_iff (k v : ArgType) :
    (∀ m : MapInOrder k.Carrier v.Carrier, PanicsOrPaired m) ↔
      k.passes = false ∨ v.passes = false ∨ (k.single = true ∧ v.single = true) := by
  rw [panicsOrPaired_iff, ← k.passes_iff, ← v.passes_iff, ← k.single_iff, ← v.single_iff, Bool.not_eq_true,
    Bool.not_eq_true]

theorem map_arguments_shifted :
    (⟨[("a", none), ("b", some 1)], by decide⟩ : MapInOrder String (Option Int64)).writeRedisArgs =
      .ok [bytesOf "a", bytesOf "b", bytesOf "1"] ∧
    ¬PanicsOrPaired (⟨[("a", none), ("b", some 1)], by decide⟩ : MapInOrder String (Option Int64)) := by
  refine ⟨by decide, ?_⟩
  rintro (hpanic | ⟨args, -, hpaired, -⟩)
  · cases hpanic
  · cases hpaired with
    | cons _ hv _ => cases hv

end RedisRs
