import RedisRs.ArgCounts
import RedisRs.EntryPoints
import RedisRs.Texts

/-!
# What is written can be read back
-/

namespace RedisRs

open List FromRedisValue FromRedisTuple ToRedisArgs ToRedisTuple MachineInt

def bulkReply (args : List Bytes) : Value := .array (args.map .bulkString)

/-- The items are those of the set, in some order. -/
def SetInOrder.Iterates {α : Type} (order : SetInOrder α) (s : Finset α) : Prop := (order.items : Multiset α) = s.val

/-- The items are the entries of the map, in some order. -/
def MapInOrder.Iterates {K V : Type} (order : MapInOrder K V) (m : Finmap fun _ : K => V) : Prop :=
  ((order.items.map fun entry => ⟨entry.1, entry.2⟩ : List (Sigma fun _ : K => V)) : Multiset _) = m.entries

/-- A type whose values are one argument each and can be read back from it. -/
structure ReadsBack (α : Type) [FromRedisValue α] [ToRedisArgs α] : Prop where
  one : ∀ x : α, ∃ bytes, toRedisArgs x = [bytes] ∧ fromRedisValue (.bulkString bytes) = .ok x
  num : ∀ x : α, numOfArgs x = 1
  values : ∀ vs, (fromRedisValues vs : ParseResult (List α)) = vs.mapM fromRedisValue

namespace ReadsBack

theorem fromRedisValueForNum_intText {α : Type} [MachineInt α] (x : α) :
    fromRedisValueForNum ofInt (lo α) (hi α)
      (.bulkString (bytesOf (toInt x).repr)) = .ok x := by
  have hparse := parseInt_intText (lo_le_toInt x) (toInt_le_hi x)
  simp only [fromRedisValueForNum, fromUtf8_bytesOf, hparse, ofInt_toInt]

theorem int (k : IntType) : ReadsBack k.Carrier where
  one x := by
    refine ⟨bytesOf (toInt x).repr, by cases k <;> rfl, ?_⟩
    rw [k.fromRedisValue_eq]
    exact fromRedisValueForNum_intText x
  num x := by cases k <;> rfl
  values vs := by cases k <;> rfl

theorem bool : ReadsBack Bool where
  one
    | true => ⟨_, rfl, rfl⟩
    | false => ⟨_, rfl, rfl⟩
  num _ := rfl
  values _ := rfl

theorem string [Libraries] : ReadsBack String where
  one s := ⟨_, rfl, by simp only [fromRedisValue, getOwnedInnerValue, fromUtf8_bytesOf]⟩
  num _ := rfl
  values _ := rfl

theorem bytes : ReadsBack (List UInt8) where
  one bytes := ⟨bytes, rfl, rfl⟩
  num _ := rfl
  values _ := rfl

variable {α : Type} [FromRedisValue α] [ToRedisArgs α]

theorem flatMap (h : ReadsBack α) (items : List α) :
    ((items.flatMap toRedisArgs).map .bulkString).mapM (fromRedisValue (α := α)) = .ok items := by
  induction items with
  | nil => rfl
  | cons x items ih =>
    obtain ⟨bytes, hargs, hback⟩ := h.one x
    rw [flatMap_cons, hargs, singleton_append, map_cons, mapM_cons, hback, ih]
    rfl

theorem vec (h : ReadsBack α) (hp : PlainSlices α) (items : List α) :
    fromRedisValue (bulkReply (toRedisArgs items)) = .ok items := by
  have hargs : toRedisArgs items = items.flatMap toRedisArgs := hp.write items
  have hrep : (fromRedisValue (bulkReply (toRedisArgs items)) : ParseResult (List α)) =
      fromRedisValues ((toRedisArgs items).map .bulkString) := rfl
  rw [hrep, h.values, hargs]
  exact h.flatMap items

theorem forSet_back [DecidableEq α] (h : ReadsBack α) {order : SetInOrder α} {s : Finset α} (hs : order.Iterates s) :
    (forSet α).fromRedisValue (bulkReply (toRedisArgs order)) = .ok s := by
  have hfinset : order.items.toFinset = s := by
    ext x
    rw [mem_toFinset, ← Finset.mem_val, ← hs, Multiset.mem_coe]
  have hrep : (forSet α).fromRedisValue (bulkReply (toRedisArgs order)) =
      (((order.items.flatMap toRedisArgs).map .bulkString).mapM fromRedisValue).map List.toFinset := rfl
  rw [hrep, h.flatMap, Except.map, hfinset]

end ReadsBack

section Maps

variable {K V : Type}

theorem lookup_collectMap_iff [DecidableEq K] {entries : List (K × V)} (hnd : (entries.map Prod.fst).Nodup) (a : K)
    (b : V) :
    (collectMap entries).lookup a = some b ↔ (a, b) ∈ entries := by
  induction entries using List.reverseRecOn with
  | nil => exact iff_of_false nofun nofun
  | append_singleton entries entry ih =>
    rw [map_append, nodup_append] at hnd
    rw [lookup_collectMap_concat, mem_append, mem_singleton]
    split
    · next h =>
      subst h
      have hfresh : (entry.1, b) ∉ entries := fun hmem =>
        hnd.2.2 _ (mem_map_of_mem (f := Prod.fst) hmem) _ mem_cons_self rfl
      rw [Option.some_inj, or_iff_right hfresh, Prod.ext_iff]
      exact ⟨fun hb => ⟨rfl, hb.symm⟩, fun hb => hb.2.symm⟩
    · next h =>
      have hne : (a, b) ≠ entry := fun heq => h (congrArg Prod.fst heq)
      rw [ih hnd.1, or_iff_left hne]

theorem MapInOrder.Iterates.collectMap_eq [DecidableEq K] {order : MapInOrder K V} {m : Finmap fun _ : K => V}
    (h : order.Iterates m) : collectMap order.items = m := by
  refine Finmap.ext_lookup fun a => Option.ext fun b => ?_
  have hmem : (a, b) ∈ order.items ↔ (⟨a, b⟩ : Sigma fun _ : K => V) ∈ m.entries := by
    rw [← h, Multiset.mem_coe, mem_map]
    constructor
    · intro hmem
      exact ⟨(a, b), hmem, rfl⟩
    · rintro ⟨⟨k, v⟩, hmem, heq⟩
      cases heq
      exact hmem
  exact (lookup_collectMap_iff order.nodup a b).trans (hmem.trans Finmap.mem_lookup_iff.symm)

variable [FromRedisValue K] [FromRedisValue V] [ToRedisArgs K] [ToRedisArgs V]

theorem writeEntries_back (hk : ReadsBack K) (hv : ReadsBack V) (items : List (K × V)) : ∃ args,
    writeEntries items = .ok args ∧ args.length % 2 = 0 ∧ (pairUp (args.map .bulkString)).mapM (fun (k, v) => do
      return (← fromRedisValue (α := K) k, ← fromRedisValue (α := V) v)) = .ok items := by
  induction items with
  | nil => exact ⟨[], rfl, rfl, rfl⟩
  | cons item items ih =>
    obtain ⟨key, value⟩ := item
    obtain ⟨args, hargs, hlen, hback⟩ := ih
    obtain ⟨k, hkey, hkback⟩ := hk.one key
    obtain ⟨v, hval, hvback⟩ := hv.one value
    refine ⟨k :: v :: args, ?_, ?_, ?_⟩
    · have hkey' : writeRedisArgs key = [k] := hkey
      have hval' : writeRedisArgs value = [v] := hval
      rw [writeEntries, if_pos ⟨(hk.num key).le, (hv.num value).le⟩, hargs, hkey', hval']
      rfl
    · simp only [length_cons]
      omega
    · rw [map_cons, map_cons, pairUp, mapM_cons, hback]
      simp only [hkback, hvback]
      rfl

theorem forMap_back [DecidableEq K] (hk : ReadsBack K) (hv : ReadsBack V) {order : MapInOrder K V}
    {m : Finmap fun _ : K => V} (hm : order.Iterates m) :
    ∃ args, order.writeRedisArgs = .ok args ∧ (forMap K V).fromRedisValue (bulkReply args) = .ok m := by
  obtain ⟨args, hargs, hlen, hback⟩ := writeEntries_back hk hv order.items
  refine ⟨args, hargs, ?_⟩
  simp only [fromRedisValue, bulkReply, getOwnedInnerValue, Value.intoMapIter, length_map, if_pos hlen, hback]
  exact congrArg _ hm.collectMap_eq

end Maps

/-- The components of a tuple are as many arguments, and can be read back from them. -/
structure ItemsReadBack (α : Type) [FromRedisTuple α] [ToRedisTuple α] : Prop where
  length_eq : ∀ x : α, (writeItems x).length = arity α
  items : ∀ x : α, fromItems ((writeItems x).map .bulkString) = .ok x

namespace ItemsReadBack

theorem nil : ItemsReadBack Unit := ⟨fun _ => rfl, fun _ => rfl⟩

theorem cons {α β : Type} [FromRedisValue α] [ToRedisArgs α] [FromRedisTuple β] [ToRedisTuple β] (h : ReadsBack α)
    (hs : ItemsReadBack β) : ItemsReadBack (α × β) where
  length_eq x := by
    obtain ⟨bytes, hargs, -⟩ := h.one x.1
    have hitems : writeItems x = toRedisArgs x.1 ++ writeItems x.2 := rfl
    rw [hitems, hargs, length_append, hs.length_eq]
    exact Nat.add_comm 1 _
  items x := by
    obtain ⟨bytes, hargs, hback⟩ := h.one x.1
    have hitems : writeItems x = toRedisArgs x.1 ++ writeItems x.2 := rfl
    rw [hitems, hargs, singleton_append, map_cons]
    simp only [fromItems, hback, hs.items x.2]
    rfl

variable {α : Type} [FromRedisTuple α] [ToRedisTuple α] (h : ItemsReadBack α)
include h

theorem tuple_back (x : Tuple α) : tupleFromRedisValue α (bulkReply (writeItems x.items)) = .ok x := by
  have hlen : ((writeItems x.items).map Value.bulkString).length = arity α := by
    rw [length_map, h.length_eq]
  simp only [tupleFromRedisValue, tupleItems, bulkReply, getInnerValue, hlen, ne_eq, not_true_eq_false, if_false]
  simp only [bind, Except.bind, h.items]
  rfl

theorem tuples_back (hpos : 0 < arity α) (xs : List (Tuple α)) :
    tupleFromRedisValues α ((xs.flatMap fun x => writeItems x.items).map .bulkString) = .ok xs := by
  rcases hxs : xs with _ | ⟨x, rest⟩
  · rfl
  rw [← hxs]
  have hchunks : (xs.flatMap fun x => writeItems x.items).map Value.bulkString =
      (xs.map fun x => (writeItems x.items).map Value.bulkString).flatten := by
    rw [map_flatMap, flatMap_def]
  have hlen : ∀ chunk ∈ xs.map fun x => (writeItems x.items).map Value.bulkString, chunk.length = arity α := by
    intro chunk hchunk
    obtain ⟨x, -, rfl⟩ := mem_map.1 hchunk
    rw [length_map, h.length_eq]
  have hne : (xs.flatMap fun x => writeItems x.items) ≠ [] := fun hnil => by
    have hx := flatMap_eq_nil_iff.1 hnil x (hxs ▸ mem_cons_self)
    exact absurd (congrArg List.length hx) (by rw [h.length_eq]; exact hpos.ne')
  have hcollections : ∀ args : List Bytes, args ≠ [] →
      (args.map Value.bulkString).all (Value.isCollectionOfLen (arity α)) = false := fun args hargs => by
    cases args with
    | nil => exact absurd rfl hargs
    | cons => rfl
  have hlen0 : ¬((xs.flatMap fun x => writeItems x.items).map Value.bulkString).length = 0 := by
    rwa [length_map, length_eq_zero_iff]
  rw [tupleFromRedisValues, if_neg hlen0, if_neg (by rw [hcollections _ hne]; exact Bool.false_ne_true),
    hchunks, chunks_flatten hpos hlen, mapM_eq_ok_iff, map_map]
  refine map_congr_left fun x _ => ?_
  simp only [Function.comp_apply, length_map, h.length_eq, if_true, h.items]
  rfl

end ItemsReadBack

inductive ScalarType
  | int (k : IntType)
  | bool
  | string
  | bytes
deriving DecidableEq

namespace ScalarType

def Carrier : ScalarType → Type
  | int k => k.Carrier
  | bool => Bool
  | string => String
  | bytes => List UInt8

instance [Libraries] : (s : ScalarType) → FromRedisValue s.Carrier
  | int k => inferInstanceAs (FromRedisValue k.Carrier)
  | bool => inferInstanceAs (FromRedisValue Bool)
  | string => inferInstanceAs (FromRedisValue String)
  | bytes => inferInstanceAs (FromRedisValue (List UInt8))

instance : (s : ScalarType) → ToRedisArgs s.Carrier
  | int k => inferInstanceAs (ToRedisArgs k.Carrier)
  | bool => inferInstanceAs (ToRedisArgs Bool)
  | string => inferInstanceAs (ToRedisArgs String)
  | bytes => inferInstanceAs (ToRedisArgs (List UInt8))

instance : (s : ScalarType) → DecidableEq s.Carrier
  | int k => inferInstanceAs (DecidableEq k.Carrier)
  | bool => inferInstanceAs (DecidableEq Bool)
  | string => inferInstanceAs (DecidableEq String)
  | bytes => inferInstanceAs (DecidableEq (List UInt8))

theorem readsBack [Libraries] : (s : ScalarType) → ReadsBack s.Carrier
  | int k => .int k
  | bool => .bool
  | string => .string
  | bytes => .bytes

theorem plainSlices : (s : ScalarType) → s ≠ int .u8 → PlainSlices s.Carrier
  | int k, h => (ArgType.int k).plainSlices (by cases k <;> first | rfl | exact absurd rfl h)
  | bool, _ => ArgType.bool.plainSlices rfl
  | string, _ => ArgType.string.plainSlices rfl
  | bytes, _ => (ArgType.vec (.int .u8)).plainSlices rfl

def Items : List ScalarType → Type
  | [] => Unit
  | s :: ss => s.Carrier × Items ss

instance fromItemsConv [Libraries] : (ss : List ScalarType) → FromRedisTuple (Items ss)
  | [] => inferInstanceAs (FromRedisTuple Unit)
  | s :: ss =>
    have := fromItemsConv ss
    inferInstanceAs (FromRedisTuple (s.Carrier × Items ss))

instance toItemsConv : (ss : List ScalarType) → ToRedisTuple (Items ss)
  | [] => inferInstanceAs (ToRedisTuple Unit)
  | s :: ss =>
    have := toItemsConv ss
    inferInstanceAs (ToRedisTuple (s.Carrier × Items ss))

theorem itemsReadBack [Libraries] : (ss : List ScalarType) → ItemsReadBack (Items ss)
  | [] => .nil
  | s :: ss => .cons s.readsBack (itemsReadBack ss)

end ScalarType

/-- Scalars are read back from their argument, and vectors, tuples, vectors of tuples, maps and sets of scalars from the
array of theirs, in whatever order a map or a set is written. -/
theorem written_reads_back [Libraries] :
    (∀ (s : ScalarType) (x : s.Carrier), ∃ bytes, toRedisArgs x = [bytes] ∧ fromRedisValue (.bulkString bytes) = .ok x) ∧
    (∀ (s : ScalarType), s ≠ .int .u8 → ∀ xs : List s.Carrier, fromRedisValue (bulkReply (toRedisArgs xs)) = .ok xs) ∧
    (∀ (s : ScalarType) (ss : List ScalarType) (x : Tuple (s.Carrier × ScalarType.Items ss)),
      fromRedisValue (bulkReply (toRedisArgs x)) = .ok x) ∧
    (∀ (s : ScalarType) (ss : List ScalarType) (xs : List (Tuple (s.Carrier × ScalarType.Items ss))),
      fromRedisValue (bulkReply (toRedisArgs xs)) = .ok xs) ∧
    (∀ (k v : ScalarType) (m : HashMap k.Carrier v.Carrier) (order : MapInOrder k.Carrier v.Carrier), order.Iterates m →
      ∃ args, order.writeRedisArgs = .ok args ∧ fromRedisValue (bulkReply args) = .ok m) ∧
    (∀ (k v : ScalarType) (m : BTreeMap k.Carrier v.Carrier) (order : MapInOrder k.Carrier v.Carrier), order.Iterates m →
      ∃ args, order.writeRedisArgs = .ok args ∧ fromRedisValue (bulkReply args) = .ok m) ∧
    (∀ (s : ScalarType) (c : HashSet s.Carrier) (order : SetInOrder s.Carrier), order.Iterates c →
      fromRedisValue (bulkReply (toRedisArgs order)) = .ok c) ∧
    (∀ (s : ScalarType) (c : BTreeSet s.Carrier) (order : SetInOrder s.Carrier), order.Iterates c →
      fromRedisValue (bulkReply (toRedisArgs order)) = .ok c) := by
  refine ⟨fun s => s.readsBack.one, fun s hs => s.readsBack.vec (s.plainSlices hs), fun s ss x => ?_, fun s ss xs => ?_,
    fun k v m order hm => ?_, fun k v m order hm => ?_, fun s c order hc => ?_, fun s c order hc => ?_⟩
  · exact (ScalarType.itemsReadBack (s :: ss)).tuple_back x
  · exact (ScalarType.itemsReadBack (s :: ss)).tuples_back (Nat.succ_pos _) xs
  · exact forMap_back k.readsBack v.readsBack hm
  · exact forMap_back k.readsBack v.readsBack hm
  · exact s.readsBack.forSet_back hc
  · exact s.readsBack.forSet_back hc

def twoFields : HashMap String Bool := collectMap [("a", true), ("b", false)]

def twoFieldsInOrder : MapInOrder String Bool := ⟨[("b", false), ("a", true)], by decide⟩

def twoMembers : HashSet String := ["a", "b"].toFinset

def twoMembersInOrder : SetInOrder String := ⟨["b", "a"], by decide⟩

theorem two_fields_read_back :
    (twoFieldsInOrder.Iterates twoFields ∧ ∀ _ : Libraries, ∃ args, twoFieldsInOrder.writeRedisArgs = .ok args ∧
      fromRedisValue (bulkReply args) = .ok twoFields) ∧
    twoMembersInOrder.Iterates twoMembers ∧ ∀ _ : Libraries,
      fromRedisValue (bulkReply (toRedisArgs twoMembersInOrder)) = .ok twoMembers := by
  have hmap : twoFieldsInOrder.Iterates twoFields := by
    unfold MapInOrder.Iterates
    decide
  have hset : twoMembersInOrder.Iterates twoMembers := by
    unfold SetInOrder.Iterates
    decide
  exact ⟨⟨hmap, fun _ => written_reads_back.2.2.2.2.1 .string .bool _ _ hmap⟩, hset, fun _ =>
    written_reads_back.2.2.2.2.2.2.1 .string _ _ hset⟩

end RedisRs
