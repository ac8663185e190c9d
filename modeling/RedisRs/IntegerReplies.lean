import RedisRs.EntryPoints
import RedisRs.Texts

/-!
# Integers in replies
-/

namespace RedisRs

open List FromRedisValue FromRedisTuple MachineInt

theorem parseInt_mono {lo lo' hi hi' m : Int} {s : String} (hlo : lo' ≤ lo) (hhi : hi ≤ hi')
    (h : parseInt lo hi s = some m) : parseInt lo' hi' s = some m := by
  obtain ⟨hm₁, hm₂⟩ := parseInt_mem_range h
  rw [parseInt] at h ⊢
  refine Option.filter_eq_some_iff.2 ⟨?_, decide_eq_true ⟨by omega, by omega⟩⟩
  have hdigs := (Option.filter_eq_some_iff.1 h).1
  split at hdigs
  · split at hdigs
    · next hneg => rwa [if_pos (Int.lt_of_le_of_lt hlo hneg)]
    · cases hdigs
  · exact hdigs
  · exact hdigs

theorem parseInt_intText_of_not_mem {lo hi n : Int} (h : ¬ (lo ≤ n ∧ n ≤ hi)) : parseInt lo hi n.repr = none := by
  refine Option.eq_none_iff_forall_ne_some.2 fun m hm => h ?_
  -- in a range that has `n` as well, the text is that of `n`
  have hwide := parseInt_mono (Int.min_le_left lo n) (Int.le_max_left hi n) hm
  rw [parseInt_intText (Int.min_le_right lo n) (Int.le_max_right hi n)] at hwide
  rw [Option.some.inj hwide]
  exact parseInt_mem_range hm

inductive Spelling
  | int
  | bulkString
  | simpleString
deriving DecidableEq, Repr

def Spelling.value (n : Int64) : Spelling → Value
  | int => .int n
  | bulkString => .bulkString (bytesOf n.toInt.repr)
  | simpleString => .simpleString n.toInt.repr

namespace IntType

/-- The number is one of the type. -/
def Representable (k : IntType) (n : Int) : Prop := lo k.Carrier ≤ n ∧ n ≤ hi k.Carrier

instance (k : IntType) (n : Int) : Decidable (k.Representable n) := inferInstanceAs (Decidable (_ ∧ _))

def read (k : IntType) (v : Value) : Option Int := (fromRedisValue v : ParseResult k.Carrier).toOption.map toInt

/-- However the number is written, it is read if it is one of the type, and refused otherwise. -/
def Exact (k : IntType) (n : Int64) : Prop :=
  ∀ s : Spelling, k.read (s.value n) = if k.Representable n.toInt then some n.toInt else none

variable {k : IntType} {n : Int64}

theorem fromRedisValue_int (k : IntType) (n : Int64) :
    (fromRedisValue (.int n) : ParseResult k.Carrier) = .ok (ofInt n.toInt) := by
  rw [k.fromRedisValue_eq]
  rfl

theorem read_int (h : k.Representable n.toInt) : k.read (.int n) = some n.toInt := by
  rw [read, fromRedisValue_int]
  exact congrArg some (toInt_ofInt h.1 h.2)

theorem fromRedisValue_digits (k : IntType) {s : Spelling} (hs : s ≠ .int) (n : Int64) :
    (fromRedisValue (s.value n) : ParseResult k.Carrier).toOption =
      (parseInt (lo k.Carrier) (hi k.Carrier) n.toInt.repr).map ofInt := by
  rw [k.fromRedisValue_eq]
  cases s with
  | int => exact absurd rfl hs
  | bulkString =>
    simp only [Spelling.value, fromRedisValueForNum, fromUtf8_bytesOf]
    cases parseInt (lo k.Carrier) (hi k.Carrier) n.toInt.repr <;> rfl
  | simpleString =>
    simp only [Spelling.value, fromRedisValueForNum]
    cases parseInt (lo k.Carrier) (hi k.Carrier) n.toInt.repr <;> rfl

theorem read_digits {s : Spelling} (hs : s ≠ .int) :
    k.read (s.value n) = if k.Representable n.toInt then some n.toInt else none := by
  rw [read, k.fromRedisValue_digits hs n]
  split
  · next h =>
    rw [parseInt_intText h.1 h.2]
    exact congrArg some (toInt_ofInt h.1 h.2)
  · next h =>
    rw [parseInt_intText_of_not_mem h]
    rfl

theorem exact_iff (k : IntType) (n : Int64) : k.Exact n ↔ k.Representable n.toInt := by
  constructor
  · intro h
    by_contra hout
    have hint := h .int
    rw [if_neg hout, read, Spelling.value, fromRedisValue_int] at hint
    cases hint
  · intro h s
    by_cases hs : s = .int
    · rw [hs, if_pos h]
      exact read_int h
    · exact read_digits hs

end IntType

structure SpelledInt where
  n : Int64
  spelling : Spelling

namespace SpelledInt

def value (x : SpelledInt) : Value := x.spelling.value x.n

/-- An integer reply is only used for numbers of the type. -/
def Fits (k : IntType) (x : SpelledInt) : Prop := x.spelling = .int → k.Representable x.n.toInt

/-- The digits of a number out of range, for which the conversion fails. -/
def OutOfRange (k : IntType) (x : SpelledInt) : Prop := x.spelling ≠ .int ∧ ¬ k.Representable x.n.toInt

variable {k : IntType} {x : SpelledInt}

theorem representable_of_read (h : k.read x.value = some x.n.toInt) : k.Representable x.n.toInt := by
  obtain ⟨y, -, hy⟩ := Option.map_eq_some_iff.1 h
  rw [← hy]
  exact ⟨lo_le_toInt y, toInt_le_hi y⟩

theorem read_eq_some_iff : k.read x.value = some x.n.toInt ↔ k.Representable x.n.toInt :=
  ⟨representable_of_read, fun h => ((k.exact_iff x.n).2 h x.spelling).trans (if_pos h)⟩

theorem read_eq_none_iff : k.read x.value = none ↔ x.OutOfRange k := by
  by_cases hs : x.spelling = .int
  · refine iff_of_false (fun h => ?_) fun h => h.1 hs
    rw [value, hs, Spelling.value, IntType.read, IntType.fromRedisValue_int] at h
    cases h
  · rw [value, IntType.read_digits hs, OutOfRange, and_iff_right hs]
    split
    · next h => exact iff_of_false nofun (not_not.2 h)
    · next h => exact iff_of_true rfl h

theorem fits_iff (h : ¬ x.OutOfRange k) : x.Fits k ↔ k.Representable x.n.toInt :=
  ⟨fun hfits => by_contra fun hk => h ⟨fun hs => hk (hfits hs), hk⟩, fun hk _ => hk⟩

theorem toInt_iff_fits {y : k.Carrier} (hy : fromRedisValue x.value = .ok y) : toInt y = x.n.toInt ↔ x.Fits k := by
  have hread : k.read x.value = some (toInt y) := by rw [IntType.read, hy]; rfl
  have hrange : ¬ x.OutOfRange k := by
    rw [← read_eq_none_iff, hread]
    exact nofun
  rw [fits_iff hrange, ← read_eq_some_iff, hread, Option.some_inj]

end SpelledInt

section Places

variable {ps : List (IntType × SpelledInt)}

def readPlaces : List (IntType × SpelledInt) → Option (List Int)
  | [] => some []
  | p :: ps => (p.1.read p.2.value).bind fun n => (readPlaces ps).map (n :: ·)

theorem readPlaces_eq_none_iff : readPlaces ps = none ↔ ∃ p ∈ ps, p.2.OutOfRange p.1 := by
  induction ps with
  | nil => simp [readPlaces]
  | cons p ps ih =>
    rw [readPlaces, exists_mem_cons_iff, ← ih, ← SpelledInt.read_eq_none_iff]
    cases p.1.read p.2.value <;> simp

theorem readPlaces_eq_some_iff :
    readPlaces ps = some (ps.map (·.2.n.toInt)) ↔ ∀ p ∈ ps, p.1.Representable p.2.n.toInt := by
  induction ps with
  | nil => simp [readPlaces]
  | cons p ps ih =>
    rw [forall_mem_cons, ← ih, ← SpelledInt.read_eq_some_iff, readPlaces, map_cons]
    cases p.1.read p.2.value <;> simp [and_comm]

theorem exact_of_readPlaces {α : Type} {r : ParseResult α} {numbers : α → List Int}
    (h : r.toOption.map numbers = readPlaces ps) : (∀ a, r = .ok a → numbers a = ps.map (·.2.n.toInt)) ↔
      (∀ p ∈ ps, p.2.Fits p.1) ∨ ∃ p ∈ ps, p.2.OutOfRange p.1 := by
  rcases r with e | a
  · exact iff_of_true nofun (.inr (readPlaces_eq_none_iff.1 h.symm))
  · have hrange : ¬ ∃ p ∈ ps, p.2.OutOfRange p.1 := by
      rw [← readPlaces_eq_none_iff, ← h]
      exact nofun
    have hfits : (∀ p ∈ ps, p.2.Fits p.1) ↔ ∀ p ∈ ps, p.1.Representable p.2.n.toInt :=
      forall₂_congr fun p hp => SpelledInt.fits_iff fun hout => hrange ⟨p, hp, hout⟩
    rw [or_iff_left hrange, hfits, ← readPlaces_eq_some_iff, ← h]
    simp [Except.toOption]

theorem readPlaces_mapM (k : IntType) (xs : List SpelledInt) :
    ((xs.map SpelledInt.value).mapM fromRedisValue : ParseResult (List k.Carrier)).toOption.map (List.map toInt) =
      readPlaces (xs.map (k, ·)) := by
  induction xs with
  | nil => rfl
  | cons x xs ih =>
    rw [map_cons, map_cons, mapM_cons, readPlaces, ← ih, IntType.read]
    rcases (fromRedisValue x.value : ParseResult k.Carrier) with e | y
    · rfl
    · rcases ((xs.map SpelledInt.value).mapM fromRedisValue : ParseResult (List k.Carrier)) with e | ys <;> rfl

end Places

def IntTuple : List IntType → Type
  | [] => Unit
  | k :: ks => k.Carrier × IntTuple ks

namespace IntTuple

instance conv : (ks : List IntType) → FromRedisTuple (IntTuple ks)
  | [] => inferInstanceAs (FromRedisTuple Unit)
  | k :: ks =>
    have := conv ks
    inferInstanceAs (FromRedisTuple (k.Carrier × IntTuple ks))

def numbers : (ks : List IntType) → IntTuple ks → List Int
  | [], _ => []
  | _ :: ks, (x, xs) => toInt x :: numbers ks xs

theorem readPlaces_fromItems {ks : List IntType} {xs : List SpelledInt} (hlen : xs.length = ks.length) :
    (fromItems (xs.map SpelledInt.value) : ParseResult (IntTuple ks)).toOption.map (numbers ks) =
    readPlaces (ks.zip xs) := by
  induction ks generalizing xs with
  | nil =>
    rw [length_eq_zero_iff.1 hlen]
    rfl
  | cons k ks ih =>
    cases xs with
    | nil => cases hlen
    | cons x xs =>
      rw [zip_cons_cons, readPlaces, ← ih (Nat.succ.inj hlen), IntType.read, map_cons]
      show (fromRedisValue x.value >>= fun y => fromItems (xs.map SpelledInt.value) >>= fun ys =>
        Except.ok ((y, ys) : k.Carrier × IntTuple ks)).toOption.map _ = _
      rcases (fromRedisValue x.value : ParseResult k.Carrier) with e | y
      · rfl
      · rcases (fromItems (xs.map SpelledInt.value) : ParseResult (IntTuple ks)) with e | ys <;> rfl

theorem arity_eq : (ks : List IntType) → arity (IntTuple ks) = ks.length
  | [] => rfl
  | _ :: ks => congrArg (· + 1) (arity_eq ks)

variable {k : IntType} {ks : List IntType} {vs : List Value}

theorem fromRedisValue_array_iff {t : Tuple (k.Carrier × IntTuple ks)} :
    fromRedisValue (.array vs) = .ok t ↔
      vs.length = ks.length + 1 ∧ (fromItems vs : ParseResult (IntTuple (k :: ks))) = .ok t.items := by
  have harity : arity (k.Carrier × IntTuple ks) = ks.length + 1 := arity_eq (k :: ks)
  show (tupleItems (arity (k.Carrier × IntTuple ks)) (.array vs) >>= fun items => fromItems items >>= fun t =>
    Except.ok (Tuple.mk (α := k.Carrier × IntTuple ks) t)) = .ok t ↔ _
  rw [harity]
  by_cases hlen : vs.length = ks.length + 1
  · rw [and_iff_right hlen, show tupleItems (ks.length + 1) (.array vs) = .ok vs from if_neg (not_not.2 hlen)]
    constructor
    · intro h
      obtain ⟨_, hvs, h⟩ := exists_of_bind_eq_ok h
      cases hvs
      obtain ⟨items, hitems, h⟩ := exists_of_bind_eq_ok h
      cases h
      exact hitems
    · intro h
      exact congrArg (· >>= fun t => Except.ok (Tuple.mk (α := k.Carrier × IntTuple ks) t)) h
  · refine iff_of_false (fun h => ?_) fun h => hlen h.1
    obtain ⟨items, hitems, -⟩ := exists_of_bind_eq_ok h
    cases (if_pos hlen).symm.trans hitems

end IntTuple

theorem mem_of_lookup_collectMap {K V : Type} [DecidableEq K] {entries : List (K × V)} {a : K} {b : V}
    (h : (collectMap entries).lookup a = some b) : (a, b) ∈ entries := by
  induction entries using List.reverseRecOn with
  | nil => cases h
  | append_singleton entries entry ih =>
    rw [lookup_collectMap_concat] at h
    split at h
    · next hkey =>
      subst hkey
      rw [← Option.some.inj h]
      exact mem_append_right entries mem_cons_self
    · exact mem_append_left [entry] (ih h)

def SpelledInt.pairs (xs : List (SpelledInt × SpelledInt)) : List (Value × Value) :=
  xs.map fun x => (x.1.value, x.2.value)

theorem SpelledInt.toInt_of_pairs {k k' : IntType} {xs : List (SpelledInt × SpelledInt)}
    (h : ∀ x ∈ xs, x.1.Fits k ∧ x.2.Fits k') {entries : List (k.Carrier × k'.Carrier)}
    (hok : ((pairs xs).mapM fun (a, b) => do return (← fromRedisValue a, ← fromRedisValue b)) = .ok entries) :
    ∀ e ∈ entries, ∃ x ∈ xs, toInt e.1 = x.1.n.toInt ∧ toInt e.2 = x.2.n.toInt := by
  induction xs generalizing entries with
  | nil =>
    cases hok
    exact nofun
  | cons x xs ih =>
    rw [pairs, map_cons, mapM_cons] at hok
    obtain ⟨e, he, hok⟩ := exists_of_bind_eq_ok hok
    obtain ⟨rest, hrest, hok⟩ := exists_of_bind_eq_ok hok
    obtain ⟨a, ha, he⟩ := exists_of_bind_eq_ok he
    obtain ⟨b, hb, he⟩ := exists_of_bind_eq_ok he
    cases hok
    cases he
    obtain ⟨hka, hkb⟩ := h x mem_cons_self
    intro e he
    rcases mem_cons.1 he with rfl | he
    · exact ⟨x, mem_cons_self, (toInt_iff_fits ha).2 hka, (toInt_iff_fits hb).2 hkb⟩
    · obtain ⟨y, hy, heq⟩ := ih (fun y hy => h y (mem_cons_of_mem x hy)) hrest e he
      exact ⟨y, mem_cons_of_mem x hy, heq⟩

theorem SpelledInt.toInt_of_map {k k' : IntType} {xs : List (SpelledInt × SpelledInt)}
    (h : ∀ x ∈ xs, x.1.Fits k ∧ x.2.Fits k') {v : Value} (hv : v.intoMapIter = .ok (pairs xs))
    {m : Finmap fun _ : k.Carrier => k'.Carrier} (hm : (forMap k.Carrier k'.Carrier).fromRedisValue v = .ok m)
    {a : k.Carrier} {b : k'.Carrier} (hab : m.lookup a = some b) :
    ∃ x ∈ xs, toInt a = x.1.n.toInt ∧ toInt b = x.2.n.toInt := by
  have hinner : getOwnedInnerValue v = v := by cases v <;> first | rfl | cases hv
  have hnil : v ≠ .nil := by
    rintro rfl
    cases hv
  simp only [fromRedisValue, hinner, hv] at hm
  obtain ⟨entries, hents, hm⟩ := exists_of_bind_eq_ok hm
  cases hm
  exact toInt_of_pairs h hents (a, b) (mem_of_lookup_collectMap hab)

theorem SpelledInt.cursor_exact_iff (x : SpelledInt) (items : Value) :
    (∀ (cursor : UInt64) (values : List Value), fromRedisValueTuple2 (.array [x.value, items]) = .ok (cursor, values) →
        (cursor.toNat : Int) = x.n.toInt) ↔
      x.Fits .u64 ∨ ∀ values : List Value, fromRedisValue items ≠ .ok values := by
  show (∀ (cursor : UInt64) (values : List Value), (fromRedisValue x.value >>= fun c => fromRedisValue items >>= fun vs =>
    Except.ok (c, vs)) = .ok (cursor, values) → _) ↔ _
  rcases hx : (fromRedisValue x.value : ParseResult UInt64) with e | c
  · have hread : IntType.u64.read x.value = none := by
      show (fromRedisValue x.value : ParseResult UInt64).toOption.map toInt = none
      rw [hx]
      rfl
    exact iff_of_true nofun (.inl fun hs => absurd hs (read_eq_none_iff.1 hread).1)
  · rcases (fromRedisValue items : ParseResult (List Value)) with e | values
    · exact iff_of_true nofun (.inr nofun)
    · rw [or_iff_left fun h => h values rfl, ← toInt_iff_fits (k := .u64) hx]
      refine ⟨fun h => h c values rfl, fun h cursor values' hok => ?_⟩
      cases hok
      exact h

/-- An integer reply is read exactly by the types that have the number and by no others. The numbers of a vector, of a
tuple and of a cursor are those of the reply exactly if its integer replies fit or the conversion fails; those of a
map are if they fit. -/
theorem integers_exact_iff (k : IntType) :
    (∀ n : Int64, k.Exact n ↔ k.Representable n.toInt) ∧
    (∀ xs : List SpelledInt, (∀ ys : List k.Carrier, fromRedisValue (.array (xs.map SpelledInt.value)) = .ok ys →
        ys.map toInt = xs.map (·.n.toInt)) ↔ (∀ x ∈ xs, x.Fits k) ∨ ∃ x ∈ xs, x.OutOfRange k) ∧
    (∀ (ks : List IntType) (xs : List SpelledInt), (∀ t : Tuple (k.Carrier × IntTuple ks),
        fromRedisValue (.array (xs.map SpelledInt.value)) = .ok t →
          IntTuple.numbers (k :: ks) t.items = xs.map (·.n.toInt)) ↔ xs.length ≠ ks.length + 1 ∨
        (∀ p ∈ (k :: ks).zip xs, p.2.Fits p.1) ∨ ∃ p ∈ (k :: ks).zip xs, p.2.OutOfRange p.1) ∧
    (∀ (k' : IntType) (xs : List (SpelledInt × SpelledInt)) (v : Value) (m : HashMap k.Carrier k'.Carrier),
      (∀ x ∈ xs, x.1.Fits k ∧ x.2.Fits k') → v.intoMapIter = .ok (SpelledInt.pairs xs) → fromRedisValue v = .ok m →
        ∀ a b, Finmap.lookup a m = some b → ∃ x ∈ xs, toInt a = x.1.n.toInt ∧ toInt b = x.2.n.toInt) ∧
    (∀ (x : SpelledInt) (items : Value), (∀ (cursor : UInt64) (values : List Value),
        fromRedisValueTuple2 (.array [x.value, items]) = .ok (cursor, values) → (cursor.toNat : Int) = x.n.toInt) ↔
      x.Fits .u64 ∨ ∀ values : List Value, fromRedisValue items ≠ .ok values) := by
  refine ⟨k.exact_iff, fun xs => ?_, fun ks xs => ?_, fun k' xs v m h hv hok a b => SpelledInt.toInt_of_map h hv hok,
    fun x items => ?_⟩
  · have hvalues : (fromRedisValues (xs.map SpelledInt.value) : ParseResult (List k.Carrier)) =
        (xs.map SpelledInt.value).mapM fromRedisValue := by cases k <;> rfl
    have hexact := exact_of_readPlaces ((congrArg _ (congrArg _ hvalues)).trans (readPlaces_mapM k xs))
    simp only [map_map, mem_map, forall_exists_index, and_imp, forall_apply_eq_imp_iff₂,
      exists_exists_and_eq_and] at hexact
    exact hexact
  · by_cases hlen : xs.length = ks.length + 1
    · have hexact := exact_of_readPlaces (IntTuple.readPlaces_fromItems (show xs.length = (k :: ks).length from hlen))
      have hnumbers : ((k :: ks).zip xs).map (·.2.n.toInt) = xs.map (·.n.toInt) := by
        have hsnd : ((k :: ks).zip xs).map Prod.snd = xs := map_snd_zip hlen.le
        rw [← congrArg (List.map (·.n.toInt)) hsnd, map_map]
        rfl
      rw [or_iff_right (not_not.2 hlen), ← hexact, hnumbers]
      simp only [IntTuple.fromRedisValue_array_iff, length_map, hlen, true_and]
      exact ⟨fun h t => h ⟨t⟩, fun h t => h t.items⟩
    · refine iff_of_true (fun t ht => absurd ?_ hlen) (.inl hlen)
      exact (length_map _).symm.trans (IntTuple.fromRedisValue_array_iff.1 ht).1
  · exact SpelledInt.cursor_exact_iff x items

theorem integers_wrapped :
    (fromRedisValue (.int (-1)) : ParseResult UInt64) = .ok 18446744073709551615 ∧
    (fromRedisValue (.array [.int 256]) : ParseResult (List UInt8)) = .ok [0] ∧
    (fromRedisValue (.simpleString "256") : ParseResult UInt8).toOption = none := by
  exact ⟨rfl, rfl, rfl⟩

end RedisRs
