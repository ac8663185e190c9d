import RedisRs.ReplyTypes

/-!
# The iterators over the pairs of a value
-/

namespace RedisRs

def textValue (s : String) : Value := .bulkString (bytesOf s)

inductive MapIter
  | array (iter : List Value)
  | map (iter : List (Value × Value))

abbrev OwnedMapIter := MapIter

namespace MapIter

def next : MapIter → Option (Value × Value) × MapIter
  | array (k :: v :: iter) => (some (k, v), array iter)
  | array _ => (none, array [])
  | map (entry :: iter) => (some entry, map iter)
  | map [] => (none, map [])

def sizeHint : MapIter → Nat × Option Nat
  | array iter => (iter.length, some iter.length)
  | map iter => (iter.length, some iter.length)

def after (it : MapIter) : Nat → MapIter
  | 0 => it
  | n + 1 => (it.after n).next.2

end MapIter

def OwnedMapIter.sizeHint : OwnedMapIter → Nat × Option Nat
  | .array iter => (iter.length / 2, some (iter.length / 2))
  | .map iter => (iter.length, some iter.length)

namespace Value

def mapIter : Value → Option MapIter
  | array items => if items.length % 2 = 0 then some (.array items) else none
  | map items => some (.map items)
  | _ => none

def ownedMapIter : Value → Except Value OwnedMapIter
  | array items => if items.length % 2 = 0 then .ok (.array items) else .error (array items)
  | map items => .ok (.map items)
  | v => .error v

end Value

/-- The bounds of a size hint enclose `n`. -/
def Brackets (hint : Nat × Option Nat) (n : Nat) : Prop := hint.1 ≤ n ∧ ∀ upper, hint.2 = some upper → n ≤ upper

theorem length_pairUp : ∀ items : List Value, (pairUp items).length = items.length / 2
  | [] => rfl
  | [_] => by simp [pairUp]
  | _ :: _ :: items => by
    simp only [pairUp, List.length_cons, length_pairUp items]
    omega

theorem pairUp_flatMap (pairs : List (Value × Value)) :
    (pairs.flatMap fun pair => [pair.1, pair.2]).length % 2 = 0 ∧
      pairUp (pairs.flatMap fun pair => [pair.1, pair.2]) = pairs := by
  induction pairs with
  | nil => exact ⟨rfl, rfl⟩
  | cons pair pairs ih => exact ⟨(Nat.add_mod_right _ 2).trans ih.1, congrArg (pair :: ·) ih.2⟩

namespace MapIter

def left : MapIter → List (Value × Value)
  | array iter => pairUp iter
  | map iter => iter

theorem next_eq (it : MapIter) : it.next.1 = it.left.head? ∧ it.next.2.left = it.left.tail := by
  match it with
  | array (_ :: _ :: _) => exact ⟨rfl, rfl⟩
  | array [_] => exact ⟨rfl, rfl⟩
  | array [] => exact ⟨rfl, rfl⟩
  | map (_ :: _) => exact ⟨rfl, rfl⟩
  | map [] => exact ⟨rfl, rfl⟩

theorem left_after (it : MapIter) (n : Nat) : (it.after n).left = it.left.drop n := by
  induction n with
  | zero => rfl
  | succ n ih => rw [after, (next_eq _).2, ih, List.tail_drop]

theorem after_next (it : MapIter) (n : Nat) : (it.after n).next.1 = it.left[n]? := by
  rw [(next_eq _).1, left_after, List.head?_drop]

theorem after_array {items : List Value} (h : items.length % 2 = 0) (n : Nat) :
    ∃ iter, (array items).after n = array iter ∧ iter.length = items.length - 2 * n := by
  induction n with
  | zero => exact ⟨items, rfl, rfl⟩
  | succ n ih =>
    obtain ⟨iter, hiter, hlen⟩ := ih
    rw [after, hiter]
    match iter, hlen with
    | [], hlen => exact ⟨[], rfl, by simp at hlen ⊢; omega⟩
    | [_], hlen => simp at hlen; omega
    | _ :: _ :: iter, hlen => exact ⟨iter, rfl, by simp at hlen; omega⟩

theorem after_map (items : List (Value × Value)) (n : Nat) : (map items).after n = map (items.drop n) := by
  induction n with
  | zero => rfl
  | succ n ih =>
    rw [after, ih, ← List.tail_drop]
    cases items.drop n <;> rfl

end MapIter

/-- Both iterators are there for the same values and yield the same pairs. The hint of the owned one is right after any
number of calls; that of the borrowed one is for a map, and for an array once it has come to its end. -/
theorem map_iterators_exact_iff (v : Value) :
    (v.mapIter = v.ownedMapIter.toOption ∧ v.asMapIter = v.mapIter.map MapIter.left) ∧
    ∀ it, v.mapIter = some it → ∀ pairs, v.asMapIter = some pairs → ∀ n, (it.after n).next.1 = pairs[n]? ∧
      Brackets (OwnedMapIter.sizeHint (it.after n)) (pairs.length - n) ∧
      (Brackets (it.after n).sizeHint (pairs.length - n) ↔ (∃ entries, v = .map entries) ∨ pairs.length ≤ n) := by
  cases v with
  | array items =>
    by_cases h : items.length % 2 = 0
    · simp only [Value.mapIter, Value.ownedMapIter, Value.asMapIter, if_pos h]
      refine ⟨⟨rfl, rfl⟩, ?_⟩
      rintro _ ⟨⟩ _ ⟨⟩ n
      have hpairs := length_pairUp items
      obtain ⟨iter, hiter, hlen⟩ := MapIter.after_array h n
      refine ⟨MapIter.after_next _ n, ?_, ?_⟩
      · rw [hiter]
        simp only [OwnedMapIter.sizeHint, Brackets, Option.some.injEq, forall_eq']
        omega
      · rw [hiter]
        simp only [MapIter.sizeHint, Brackets, Option.some.injEq, forall_eq', reduceCtorEq, exists_const, false_or]
        omega
    · simp [Value.mapIter, Value.ownedMapIter, Value.asMapIter, if_neg h, Except.toOption]
  | map items =>
    refine ⟨⟨rfl, rfl⟩, ?_⟩
    rintro _ ⟨⟩ _ ⟨⟩ n
    refine ⟨MapIter.after_next _ n, ?_, ?_⟩
    · simp only [MapIter.after_map, OwnedMapIter.sizeHint, Brackets, List.length_drop, Option.some.injEq,
        forall_eq', le_refl,
        and_self]
    · simp only [MapIter.after_map, MapIter.sizeHint, Brackets, List.length_drop, Option.some.injEq, forall_eq', le_refl,
        and_self, Value.map.injEq, exists_eq', true_or]
  | _ => exact ⟨⟨rfl, rfl⟩, fun _ h => by cases h⟩

theorem map_iter_hint_too_large :
    ((Value.array [.int 1, .int 2]).mapIter.map fun it => (it.sizeHint, it.left.length)) = some ((2, some 2), 1) ∧
      ¬ Brackets (2, some 2) 1 :=
  ⟨rfl, fun h => absurd h.1 (by decide)⟩

end RedisRs
