import Mathlib.Data.List.Basic

/-!
# Bounded maps that evict

The laws of a bounded map, of which only the order of evictions is left open.
-/

namespace Lru

open List

abbrev NonZero := { n : Nat // 0 < n }

structure LruMap (K V : Type) where
  Map : Type
  new : (capacity : NonZero) → Map
  peek : Map → K → Option V
  getMut : Map → K → Option V × Map
  set : Map → K → V → Map
  /-- Enters a key as the most recently used one; the least recently used one may have to go. -/
  push : Map → K → V → Map
  pop : Map → K → Option V × Map
  peek_new : ∀ capacity k, peek (new capacity) k = none
  getMut_fst : ∀ m k, (getMut m k).1 = peek m k
  peek_getMut : ∀ m k k', peek (getMut m k).2 k' = peek m k'
  peek_set_self : ∀ m k v, (peek m k).isSome → peek (set m k v) k = some v
  peek_set_of_ne : ∀ m k v k', k' ≠ k → peek (set m k v) k' = peek m k'
  peek_push_self : ∀ m k v, peek (push m k v) k = some v
  peek_push_of_ne : ∀ m k v k', k' ≠ k →
    peek (push m k v) k' = peek m k' ∨ peek (push m k v) k' = none
  pop_fst : ∀ m k, (pop m k).1 = peek m k
  peek_pop_self : ∀ m k, peek (pop m k).2 k = none
  peek_pop_of_ne : ∀ m k k', k' ≠ k → peek (pop m k).2 k' = peek m k'

/-- Everything `f` holds, `g` holds as well. -/
def Within {K V : Type} (f g : K → Option V) : Prop := ∀ k v, f k = some v → g k = some v

namespace Within

variable {K V : Type} {f g h : K → Option V}

theorem refl (f : K → Option V) : Within f f := fun _ _ hv => hv

theorem trans (hfg : Within f g) (hgh : Within g h) : Within f h := fun k v hv => hgh k v (hfg k v hv)

theorem of_forget (hf : ∀ k, f k = g k ∨ f k = none) : Within f g := by
  intro k v hv
  rcases hf k with he | he
  · rw [← he]
    exact hv
  · rw [he] at hv
    cases hv

theorem eq_none (hfg : Within f g) {k : K} (hk : g k = none) : f k = none := by
  cases hf : f k with
  | none => rfl
  | some v =>
    rw [hfg k v hf] at hk
    cases hk

end Within

structure ListLru (K V : Type) where
  capacity : NonZero
  entries : List (K × V)
  bounded : entries.length ≤ capacity.1

namespace ListLru

variable {K V : Type} [DecidableEq K]

def find (entries : List (K × V)) (k : K) : Option V := (entries.find? (·.1 = k)).map (·.2)

def without (entries : List (K × V)) (k : K) : List (K × V) := entries.filter (·.1 ≠ k)

theorem find_cons (e : K × V) (entries : List (K × V)) (k : K) :
    find (e :: entries) k = if e.1 = k then some e.2 else find entries k := by
  by_cases h : e.1 = k <;> simp [find, h]

variable (entries : List (K × V))

theorem find_without_self (k : K) : find (without entries k) k = none := by
  simp [find, without, find?_eq_none]

theorem find_without_of_ne {k k' : K} (h : k' ≠ k) (entries : List (K × V)) :
    find (without entries k) k' = find entries k' := by
  induction entries with
  | nil => rfl
  | cons e entries ih =>
    by_cases he : e.1 = k
    · have hk' : e.1 ≠ k' := fun h' => h (h'.symm.trans he)
      rw [without, filter_cons_of_neg (by simp [he]), find_cons, if_neg hk']
      exact ih
    · rw [without, filter_cons_of_pos (by simp [he]), find_cons, find_cons, ← ih]
      rfl

theorem find_take (n : Nat) (entries : List (K × V)) (k : K) :
    find (entries.take n) k = find entries k ∨ find (entries.take n) k = none := by
  induction entries generalizing n with
  | nil => simp
  | cons e entries ih =>
    cases n with
    | zero => exact .inr rfl
    | succ n =>
      rw [take_succ_cons, find_cons, find_cons]
      split
      · exact .inl rfl
      · exact ih n

theorem length_without_le (k : K) : (without entries k).length ≤ entries.length :=
  length_filter_le _ _

theorem find_isSome_length {entries : List (K × V)} {k : K} {v : V} (h : find entries k = some v) :
    (without entries k).length < entries.length := by
  obtain ⟨e, he, -⟩ := Option.map_eq_some_iff.1 h
  have hk : e.1 = k := by simpa using find?_some he
  refine length_filter_lt_length_iff_exists.2 ⟨e, mem_of_find?_eq_some he, ?_⟩
  simp [hk]

theorem find_map_value (k k' : K) (v : V) : find (entries.map fun e => if e.1 = k then (k, v) else e) k' =
      if k' = k ∧ (find entries k').isSome then some v else find entries k' := by
  induction entries with
  | nil => simp [find]
  | cons e entries ih =>
    rw [map_cons, find_cons, find_cons, ih]
    by_cases he : e.1 = k <;> by_cases hk : k' = k
    · simp [he, hk]
    · have hk' : k ≠ k' := fun h => hk h.symm
      simp [he, hk, hk']
    · subst hk
      simp [he]
    · by_cases hek : e.1 = k' <;> simp [he, hk, hek]

def promote (m : ListLru K V) (k : K) : ListLru K V :=
  match h : find m.entries k with
  | none => m
  | some v =>
    { capacity := m.capacity
      entries := (k, v) :: without m.entries k
      bounded := Nat.le_trans (find_isSome_length h) m.bounded }

theorem find_promote (m : ListLru K V) (k k' : K) :
    find (m.promote k).entries k' = find m.entries k' := by
  unfold promote
  split
  · rfl
  · rename_i v hv
    rw [find_cons]
    by_cases hk : k = k'
    · subst hk
      rw [if_pos rfl, hv]
    · rw [if_neg hk, find_without_of_ne fun h => hk h.symm]

end ListLru

open ListLru in
def listLru (K V : Type) [DecidableEq K] : LruMap K V where
  Map := ListLru K V
  new capacity := ⟨capacity, [], Nat.zero_le _⟩
  peek m k := find m.entries k
  getMut m k := (find m.entries k, m.promote k)
  set m k v := ⟨m.capacity, m.entries.map fun e => if e.1 = k then (k, v) else e,
    by rw [length_map]; exact m.bounded⟩
  push m k v := ⟨m.capacity, ((k, v) :: without m.entries k).take m.capacity.1, length_take_le _ _⟩
  pop m k := (find m.entries k, ⟨m.capacity, without m.entries k,
    Nat.le_trans (length_without_le _ _) m.bounded⟩)
  peek_new _ _ := rfl
  getMut_fst _ _ := rfl
  peek_getMut m k k' := find_promote m k k'
  peek_set_self m k v h := by
    rw [find_map_value, if_pos ⟨rfl, h⟩]
  peek_set_of_ne m k v k' h := by
    rw [find_map_value, if_neg fun hc => h hc.1]
  peek_push_self m k v := by
    obtain ⟨n, hn⟩ := Nat.exists_eq_succ_of_ne_zero (Nat.ne_of_gt m.capacity.2)
    show find (((k, v) :: without m.entries k).take m.capacity.1) k = some v
    rw [hn, take_succ_cons, find_cons, if_pos rfl]
  peek_push_of_ne m k v k' h := by
    have hfull : find ((k, v) :: without m.entries k) k' = find m.entries k' := by
      rw [find_cons, if_neg fun he => h he.symm, find_without_of_ne h]
    rw [← hfull]
    exact find_take _ _ _
  pop_fst _ _ := rfl
  peek_pop_self m k := find_without_self _ _
  peek_pop_of_ne m k k' h := find_without_of_ne h _

end Lru
