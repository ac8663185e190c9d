import Mathlib.Data.List.ReduceOption
import RedisRs.MapIterators
import RedisRs.ReadBack

/-!
# Replies with stream entries
-/

namespace RedisRs

open List FromRedisValue ParsingError

structure StreamId where
  id : String
  map : HashMap String Value
  millisecondsElapsedFromDelivery : Option UInt64
  deliveredCount : Option UInt64

structure StreamKey where
  key : String
  ids : List StreamId

structure StreamReadReply where
  keys : List StreamKey

structure StreamAutoClaimReply where
  nextStreamId : String
  claimed : List StreamId
  deletedIds : List String
  invalidEntries : Bool

def hashMapOf {V : Type} (entries : List (String × V)) : HashMap String V := collectMap entries

class MapOrder where
  iter : {V : Type} → HashMap String V → List (String × V)
  entries : ∀ {V : Type} (m : HashMap String V),
    (((iter m).map fun e => ⟨e.1, e.2⟩ : List (Sigma fun _ : String => V)) : Multiset _) = Finmap.entries m

theorem MapOrder.nonempty : Nonempty MapOrder := by
  refine ⟨⟨fun m => (Finmap.entries m).toList.map fun e => (e.1, e.2), fun m => ?_⟩⟩
  rw [List.map_map]
  exact (congrArg _ (List.map_id _)).trans (Multiset.coe_toList _)

abbrev SACRows := List (HashMap String (HashMap String Value))
abbrev SRRows := List (HashMap String SACRows)
abbrev ClaimRow := Tuple (String × HashMap String Value × Option UInt64 × Option UInt64 × Unit)
abbrev SRClaimRows := List (HashMap String (List ClaimRow))

section Conversions

variable [MapOrder]

def idsOfRows (rows : SACRows) : List StreamId :=
  rows.flatMap fun row => (MapOrder.iter row).map fun (id, map) => ⟨id, map, none, none⟩

namespace StreamReadReply

def fromStandardRows (rows : SRRows) : StreamReadReply :=
  ⟨rows.flatMap fun row => (MapOrder.iter row).map fun (key, entries) => ⟨key, idsOfRows entries⟩⟩

def fromClaimRows (rows : SRClaimRows) : StreamReadReply :=
  ⟨rows.flatMap fun row => (MapOrder.iter row).map fun (key, entries) =>
    ⟨key, entries.map fun ⟨(id, map, elapsed, count, _)⟩ => ⟨id, map, elapsed, count⟩⟩⟩

variable [Libraries]

def fromRedisValue (v : Value) : ParseResult StreamReadReply :=
  match (FromRedisValue.fromRedisValue v : ParseResult SRRows) with
  | .ok rows => .ok (fromStandardRows rows)
  | .error _ => match (FromRedisValue.fromRedisValue v : ParseResult SRClaimRows) with
    | .ok rows => .ok (fromClaimRows rows)
    | .error _ => .error (invalidType v "Could not parse StreamReadReply in any known format")

end StreamReadReply

namespace StreamAutoClaimReply

variable [Libraries]

def claimedIds (claimed : Value) : ParseResult (List StreamId × Bool) := do
  let .array arr := claimed | .error (invalidType claimed "Incorrect type")
  match arr.find? fun | .nil => false | _ => true with
  | none => return ([], !arr.isEmpty)
  | some (.bulkString _) =>
    let ids : List (Option String) ← fromRedisValue claimed
    let claimed := ids.filterMap fun id => id.map fun id => ⟨id, hashMapOf [], none, none⟩
    return (claimed, claimed.length < arr.length)
  | some (.array _) =>
    let claimed := idsOfRows (← fromRedisValue claimed)
    return (claimed, claimed.length < arr.length)
  | some _ => .error (invalidType claimed "Incorrect type")

def fromItems (next claimed : Value) (deletedIds : List String) : ParseResult StreamAutoClaimReply := do
  let nextStreamId ← fromRedisValue next
  let (claimed, invalidEntries) ← claimedIds claimed
  return ⟨nextStreamId, claimed, deletedIds, invalidEntries⟩

def fromRedisValue (v : Value) : ParseResult StreamAutoClaimReply :=
  match v with
  | .array [next, claimed, deletedIds] => do fromItems next claimed (← FromRedisValue.fromRedisValue deletedIds)
  | .array [next, claimed] => fromItems next claimed []
  | .array items => .error (invalidType (.array items) "Incorrect number of items")
  | v => .error (invalidType v "Not a array response")

end StreamAutoClaimReply

end Conversions

structure StreamEntry where
  id : String
  fields : Option (List (String × Value))
  nodup : ((fields.getD []).map Prod.fst).Nodup

structure ClaimedEntry extends StreamEntry where
  elapsed : Fin (2 ^ 63)
  count : Fin (2 ^ 63)

namespace StreamEntry

variable (e : StreamEntry)

def fieldsValue : Value := match e.fields with
  | none => .nil
  | some fields => .array (fields.flatMap fun entry => [textValue entry.1, entry.2])

def value : Value := .array [textValue e.id, e.fieldsValue]

def map : HashMap String Value := hashMapOf (e.fields.getD [])

def decoded : StreamId := ⟨e.id, e.map, none, none⟩

end StreamEntry

namespace ClaimedEntry

variable (e : ClaimedEntry)

def value : Value := .array [textValue e.id, e.fieldsValue, .int (Int64.ofNat e.elapsed), .int (Int64.ofNat e.count)]

def decoded : StreamId := ⟨e.id, e.map, some (UInt64.ofNat e.elapsed), some (UInt64.ofNat e.count)⟩

end ClaimedEntry

def streamsReply {E : Type} (resp3 : Bool) (value : E → Value) (streams : List (String × List E)) : Value :=
  if resp3 then .map (streams.map fun (name, entries) => (textValue name, .array (entries.map value)))
  else .array (streams.map fun (name, entries) => .array [textValue name, .array (entries.map value)])

def decodedStreams {E : Type} (decoded : E → StreamId) (streams : List (String × List E)) : StreamReadReply :=
  ⟨streams.map fun (name, entries) => ⟨name, entries.map decoded⟩⟩

def orNil {E : Type} (value : E → Value) : Option E → Value
  | none => .nil
  | some e => value e

def autoClaimReply (next : String) (claimed : List Value) (deletedIds : Option (List String)) : Value :=
  .array ([textValue next, .array claimed] ++ (deletedIds.map fun ids => .array (ids.map textValue)).toList)

def justId (id : String) : StreamId := ⟨id, hashMapOf [], none, none⟩

section Single

variable [MapOrder] {V : Type}

theorem iter_single (key : String) (v : V) : MapOrder.iter (hashMapOf [(key, v)]) = [(key, v)] := by
  have hents := MapOrder.entries (hashMapOf [(key, v)])
  have hone : Finmap.entries (hashMapOf [(key, v)]) = {⟨key, v⟩} := rfl
  rw [hone, Multiset.coe_eq_singleton] at hents
  obtain ⟨⟨k, w⟩, hiter, heq⟩ := map_eq_singleton_iff.1 hents
  cases heq
  exact hiter

theorem iter_empty : MapOrder.iter (hashMapOf [] : HashMap String V) = [] := by
  have hents := MapOrder.entries (hashMapOf [] : HashMap String V)
  have hnone : Finmap.entries (hashMapOf [] : HashMap String V) = 0 := rfl
  rw [hnone, Multiset.coe_eq_zero] at hents
  exact map_eq_nil_iff.1 hents

theorem iter_rows {α W : Type} (key : α → String) (v : α → V) (f : String × V → W) (l : List α) :
    (l.map fun a => hashMapOf [(key a, v a)]).flatMap (fun row => (MapOrder.iter row).map f) =
      l.map fun a => f (key a, v a) := by
  induction l with
  | nil => rfl
  | cons a l ih => simp [iter_single, ih]

theorem idsOfRows_entries (entries : List StreamEntry) :
    idsOfRows (entries.map fun e => hashMapOf [(e.id, e.map)]) = entries.map StreamEntry.decoded :=
  iter_rows StreamEntry.id StreamEntry.map (fun e => (⟨e.1, e.2, none, none⟩ : StreamId)) entries

end Single

/-- The value is read as `x`. -/
def Value.ReadAs {V : Type} [FromRedisValue V] (v : Value) (x : V) : Prop := fromRedisValue v = .ok x

theorem exists_of_mapM_eq_ok {α β : Type} {f : α → ParseResult β} {l : List α} {b : List β} (h : l.mapM f = .ok b) {a : α}
    (ha : a ∈ l) : ∃ x, f a = .ok x := by
  have hmem : f a ∈ b.map .ok := mapM_eq_ok_iff.1 h ▸ mem_map_of_mem ha
  obtain ⟨x, -, hx⟩ := mem_map.1 hmem
  exact ⟨x, hx.symm⟩

theorem readAs_count (n : Fin (2 ^ 63)) : (Value.int (Int64.ofNat n)).ReadAs (some (UInt64.ofNat n)) := by
  have hn : ((Int64.ofNat n).toInt % 2 ^ 64).toNat = n.val := by
    rw [Int64.toInt_ofNat_of_lt n.isLt]
    omega
  show Except.ok (some (UInt64.ofNat ((Int64.ofNat n).toInt % 2 ^ 64).toNat)) = _
  rw [hn]

theorem intoMapIter_flatMap (l : List (String × Value)) :
    (Value.array (l.flatMap fun e => [textValue e.1, e.2])).intoMapIter = .ok (l.map fun e => (textValue e.1, e.2)) := by
  have hpairs := pairUp_flatMap (l.map fun e => (textValue e.1, e.2))
  rw [flatMap_map] at hpairs
  rw [Value.intoMapIter, if_pos hpairs.1, hpairs.2]

theorem find_orNil {E : Type} {value : E → Value} (hval : ∀ e, value e ≠ .nil) (entries : List (Option E)) :
    ((entries.map (orNil value)).find? fun | .nil => false | _ => true) = entries.reduceOption.head?.map value := by
  induction entries with
  | nil => rfl
  | cons entry entries ih =>
    cases entry with
    | none => exact ih
    | some e =>
      refine find?_cons_of_pos ?_
      show (match value e with | .nil => false | _ => true) = true
      split
      · exact absurd ‹value e = .nil› (hval e)
      · rfl

theorem decide_length_lt {E : Type} (entries : List (Option E)) :
    decide (entries.reduceOption.length < entries.length) = entries.any Option.isNone := by
  rw [Bool.eq_iff_iff, decide_eq_true_iff, reduceOption_length_lt_iff, any_eq_true]
  exact ⟨fun h => ⟨none, h, rfl⟩, fun ⟨entry, h, hnone⟩ => Option.isNone_iff_eq_none.1 hnone ▸ h⟩

theorem mapM_readAs {V E : Type} [FromRedisValue V] {value : E → Value} {x : E → V} {l : List E}
    (h : ∀ e ∈ l, (value e).ReadAs (x e)) : (l.map value).mapM fromRedisValue = .ok (l.map x) := by
  rw [mapM_map]
  exact mapM_eq_ok_map h

section Decoding

variable [Libraries]

theorem readAs_textValue (s : String) : (textValue s).ReadAs s := by
  simp only [Value.ReadAs, fromRedisValue, textValue, getOwnedInnerValue, fromUtf8_bytesOf]

section Pairs

variable {V : Type} [FromRedisValue V]

theorem fromRedisValue_of_intoMapIter {v : Value} {items : List (Value × Value)} (hv : v.intoMapIter = .ok items) :
    (fromRedisValue v : ParseResult (HashMap String V)) =
      (items.mapM fun item => do return (← fromRedisValue item.1, ← fromRedisValue item.2)) >>= fun l =>
        .ok (hashMapOf l) := by
  cases v with
  | array elems =>
    simp only [fromRedisValue, getOwnedInnerValue, hv]
    rfl
  | map entries =>
    cases hv
    rfl
  | _ => cases hv

theorem readAs_hashMapOf {v : Value} {l : List (String × Value)} {x : String × Value → V}
    (hv : v.intoMapIter = .ok (l.map fun e => (textValue e.1, e.2))) (h : ∀ e ∈ l, e.2.ReadAs (x e)) :
    v.ReadAs (hashMapOf (l.map fun e => (e.1, x e))) := by
  rw [Value.ReadAs, fromRedisValue_of_intoMapIter hv, mapM_map, mapM_eq_ok_map fun e he => ?_]
  · rfl
  · have hkey := readAs_textValue e.1
    have hx := h e he
    rw [Value.ReadAs] at hkey hx
    simp only [Function.comp, hkey, hx]
    rfl

theorem readAs_pair (key : String) {v : Value} {x : V} (h : v.ReadAs x) :
    (Value.array [textValue key, v]).ReadAs (hashMapOf [(key, x)]) ∧
      (Value.map [(textValue key, v)]).ReadAs (hashMapOf [(key, x)]) := by
  have hv : ∀ e ∈ [(key, v)], e.2.ReadAs x := by simpa using h
  exact ⟨readAs_hashMapOf (intoMapIter_flatMap [(key, v)]) hv, readAs_hashMapOf (l := [(key, v)]) rfl hv⟩

theorem readAs_streams {E : Type} {value : E → Value} {d : List E → V} (resp3 : Bool) (streams : List (String × List E))
    (h : ∀ s ∈ streams, (Value.array (s.2.map value)).ReadAs (d s.2)) :
    (streamsReply resp3 value streams).ReadAs (streams.map fun s => hashMapOf [(s.1, d s.2)]) := by
  cases resp3 with
  | false => exact mapM_readAs fun s hs => (readAs_pair s.1 (h s hs)).1
  | true =>
    show (streams.map _).mapM _ = _
    rw [mapM_map]
    exact mapM_eq_ok_map fun s hs => (readAs_pair s.1 (h s hs)).2

end Pairs

theorem StreamEntry.readAs_fieldsValue (e : StreamEntry) : e.fieldsValue.ReadAs e.map := by
  rcases e with ⟨id, _ | fields, nodup⟩
  · rfl
  · refine (readAs_hashMapOf (x := Prod.snd) (intoMapIter_flatMap fields) fun _ _ => rfl).trans ?_
    simp [StreamEntry.map]

theorem StreamEntry.readAs_value (e : StreamEntry) : e.value.ReadAs (hashMapOf [(e.id, e.map)]) :=
  (readAs_pair e.id e.readAs_fieldsValue).1

def ClaimedEntry.row (e : ClaimedEntry) : ClaimRow :=
  ⟨e.id, e.map, some (UInt64.ofNat e.elapsed), some (UInt64.ofNat e.count), ()⟩

theorem ClaimedEntry.readAs_value (e : ClaimedEntry) : e.value.ReadAs e.row := by
  have hid := readAs_textValue e.id
  have hfields := e.readAs_fieldsValue
  have hcnt := readAs_count
  simp only [Value.ReadAs] at hid hfields hcnt
  show (do return ⟨← FromRedisTuple.fromItems [_, _, _, _]⟩ : ParseResult ClaimRow) = _
  simp only [FromRedisTuple.fromItems, hid, hfields, hcnt]
  rfl

theorem readAs_claimedEntries (entries : List ClaimedEntry) :
    (Value.array (entries.map ClaimedEntry.value)).ReadAs (entries.map ClaimedEntry.row) := by
  show tupleFromRedisValues _ _ = _
  rcases entries with _ | ⟨e, entries⟩
  · rfl
  · have hall : ((e :: entries).map ClaimedEntry.value).all (Value.isCollectionOfLen 4) = true := by
      simp [ClaimedEntry.value, Value.isCollectionOfLen]
    rw [tupleFromRedisValues, if_neg (by simp)]
    exact (if_pos hall).trans (mapM_readAs fun e _ => e.readAs_value)

theorem exists_of_readAs {V : Type} [FromRedisValue V] {v : Value} {items : List (Value × Value)} {m : HashMap String V}
    (hv : v.intoMapIter = .ok items) (h : v.ReadAs m) {item : Value × Value} (hitem : item ∈ items) :
    ∃ x : V, item.2.ReadAs x := by
  rw [Value.ReadAs, fromRedisValue_of_intoMapIter hv] at h
  obtain ⟨pairs, hpairs, -⟩ := exists_of_bind_eq_ok h
  obtain ⟨pair, hpair⟩ := exists_of_mapM_eq_ok hpairs hitem
  obtain ⟨key, -, hpair⟩ := exists_of_bind_eq_ok hpair
  obtain ⟨x, hx, -⟩ := exists_of_bind_eq_ok hpair
  exact ⟨x, hx⟩

theorem eq_nil_of_standard {resp3 : Bool} {streams : List (String × List ClaimedEntry)} {rows : SRRows}
    (h : (streamsReply resp3 ClaimedEntry.value streams).ReadAs rows) : ∀ s ∈ streams, s.2 = [] := by
  intro s hs
  obtain ⟨entries, hents⟩ : ∃ entries : SACRows, (Value.array (s.2.map ClaimedEntry.value)).ReadAs entries := by
    cases resp3 with
    | false =>
      obtain ⟨row, hrow⟩ : ∃ row : HashMap String SACRows,
          (Value.array [textValue s.1, .array (s.2.map ClaimedEntry.value)]).ReadAs row :=
        exists_of_mapM_eq_ok (b := rows) h (mem_map_of_mem hs)
      exact exists_of_readAs (intoMapIter_flatMap [(s.1, _)]) hrow mem_cons_self
    | true =>
      obtain ⟨row, hrow⟩ : ∃ row : HashMap String SACRows,
          (Value.map [(textValue s.1, .array (s.2.map ClaimedEntry.value))]).ReadAs row :=
        exists_of_mapM_eq_ok (b := rows) h (mem_map_of_mem hs)
      exact exists_of_readAs rfl hrow mem_cons_self
  refine eq_nil_iff_forall_not_mem.2 fun e he => ?_
  obtain ⟨row, hrow⟩ : ∃ row : HashMap String (HashMap String Value), e.value.ReadAs row :=
    exists_of_mapM_eq_ok (b := entries) hents (mem_map_of_mem he)
  have hitems : e.value.intoMapIter = .ok [(textValue e.id, e.fieldsValue),
      (.int (Int64.ofNat e.elapsed), .int (Int64.ofNat e.count))] := by
    simp [ClaimedEntry.value, Value.intoMapIter, pairUp]
  obtain ⟨map, hmap⟩ := exists_of_readAs hitems hrow (mem_cons_of_mem _ mem_cons_self)
  cases hmap

section Reply

variable [MapOrder]

variable (entries : List (Option StreamEntry)) (ids : List (Option String)) (resp3 : Bool)

theorem read_reply_decoded (streams : List (String × List StreamEntry)) :
    StreamReadReply.fromRedisValue (streamsReply resp3 StreamEntry.value streams) =
      .ok (decodedStreams StreamEntry.decoded streams) := by
  have hrows := readAs_streams (V := SACRows) resp3 streams fun s _ => mapM_readAs fun e _ => StreamEntry.readAs_value e
  rw [Value.ReadAs] at hrows
  simp only [StreamReadReply.fromRedisValue, hrows, StreamReadReply.fromStandardRows, decodedStreams, iter_rows Prod.fst,
    idsOfRows_entries]

theorem claim_reply_decoded (streams : List (String × List ClaimedEntry)) :
    StreamReadReply.fromRedisValue (streamsReply resp3 ClaimedEntry.value streams) =
      .ok (decodedStreams ClaimedEntry.decoded streams) := by
  have hclaim := readAs_streams resp3 streams fun s _ => readAs_claimedEntries s.2
  rw [Value.ReadAs] at hclaim
  rcases hrows : (fromRedisValue (streamsReply resp3 ClaimedEntry.value streams) : ParseResult SRRows) with err | rows
  · simp only [StreamReadReply.fromRedisValue, hrows, hclaim, StreamReadReply.fromClaimRows, decodedStreams,
      iter_rows Prod.fst, map_map]
    rfl
  · -- The rows have no entries, and then both forms give the same.
    have hnil := eq_nil_of_standard hrows
    have hempty : ∀ s ∈ streams, (Value.array (s.2.map ClaimedEntry.value)).ReadAs ([] : SACRows) := fun s hs => by
      rw [hnil s hs]
      rfl
    have hstandard := readAs_streams (d := fun _ => []) resp3 streams hempty
    rw [Value.ReadAs] at hstandard
    have hkeys : ∀ s ∈ streams, (⟨s.1, idsOfRows []⟩ : StreamKey) = ⟨s.1, s.2.map ClaimedEntry.decoded⟩ := fun s hs => by
      rw [hnil s hs]
      rfl
    simp only [StreamReadReply.fromRedisValue, hstandard, StreamReadReply.fromStandardRows, decodedStreams,
      iter_rows Prod.fst]
    rw [map_congr_left hkeys]

open StreamAutoClaimReply in
theorem claimedIds_of_nil {E : Type} {value : E → Value} (hval : ∀ e, value e ≠ .nil) {entries : List (Option E)}
    (h : entries.reduceOption = []) :
    claimedIds (.array (entries.map (orNil value))) = .ok ([], entries.any Option.isNone) := by
  simp only [claimedIds, find_orNil hval, h, ← decide_length_lt]
  cases entries <;> rfl

theorem readAs_orNil : ∃ rows : SACRows, (Value.array (entries.map (orNil StreamEntry.value))).ReadAs rows ∧
      idsOfRows rows = entries.reduceOption.map StreamEntry.decoded := by
  let row : Option StreamEntry → HashMap String (HashMap String Value)
    | none => hashMapOf []
    | some e => hashMapOf [(e.id, e.map)]
  refine ⟨entries.map row, ?_, ?_⟩
  · refine mapM_readAs (x := row) fun entry _ => ?_
    cases entry with
    | none => rfl
    | some e => exact e.readAs_value
  · induction entries with
    | nil => rfl
    | cons entry entries ih =>
      rw [map_cons, idsOfRows, flatMap_cons]
      refine (congrArg (_ ++ ·) ih).trans ?_
      cases entry with
      | none => rw [iter_empty]; rfl
      | some e => rw [iter_single]; rfl

theorem claimedIds_full : StreamAutoClaimReply.claimedIds (.array (entries.map (orNil StreamEntry.value))) =
      .ok (entries.reduceOption.map StreamEntry.decoded, entries.any Option.isNone) := by
  have hval : ∀ e, StreamEntry.value e ≠ .nil := nofun
  rcases hsome : entries.reduceOption with _ | ⟨e, rest⟩
  · exact claimedIds_of_nil hval hsome
  · obtain ⟨rows, hrows, hids⟩ := readAs_orNil entries
    rw [Value.ReadAs] at hrows
    simp only [StreamAutoClaimReply.claimedIds, find_orNil hval, hsome, head?_cons, Option.map_some]
    show (fromRedisValue _ >>= fun rows => .ok (idsOfRows rows, decide ((idsOfRows rows).length < _))) = _
    rw [hrows, ← hsome, ← decide_length_lt]
    show Except.ok (idsOfRows rows, decide ((idsOfRows rows).length < _)) = _
    rw [hids, length_map, length_map]

omit [MapOrder] in
theorem readAs_justId : (Value.array (ids.map (orNil textValue))).ReadAs ids := by
  refine (mapM_readAs (x := id) fun id _ => ?_).trans (by rw [map_id])
  cases id with
  | none => rfl
  | some id => exact congrArg (Except.map some) (readAs_textValue id)

theorem claimedIds_justId : StreamAutoClaimReply.claimedIds (.array (ids.map (orNil textValue))) =
      .ok (ids.reduceOption.map justId, ids.any Option.isNone) := by
  have hval : ∀ s, textValue s ≠ .nil := nofun
  rcases hsome : ids.reduceOption with _ | ⟨id, rest⟩
  · exact claimedIds_of_nil hval hsome
  · have hids : (ids.filterMap fun id => id.map justId) = ids.reduceOption.map justId := by
      rw [List.reduceOption, map_filterMap]
      rfl
    have hread := readAs_justId ids
    rw [Value.ReadAs] at hread
    simp only [StreamAutoClaimReply.claimedIds, find_orNil hval, hsome, head?_cons, Option.map_some]
    show (fromRedisValue _ >>= fun ids : List (Option String) => .ok (ids.filterMap fun id => id.map justId,
      decide ((ids.filterMap fun id => id.map justId).length < _))) = _
    rw [hread, ← hsome, ← decide_length_lt]
    show Except.ok (ids.filterMap fun id => id.map justId,
        decide ((ids.filterMap fun id => id.map justId).length < _)) = _
    rw [hids, length_map, length_map]

theorem auto_claim_decoded (next : String) (deletedIds : Option (List String)) {claimed : List Value}
    {r : List StreamId × Bool} (h : StreamAutoClaimReply.claimedIds (.array claimed) = .ok r) :
    StreamAutoClaimReply.fromRedisValue (autoClaimReply next claimed deletedIds) =
      .ok ⟨next, r.1, deletedIds.getD [], r.2⟩ := by
  have hitems : ∀ deletedIds, StreamAutoClaimReply.fromItems (textValue next) (.array claimed) deletedIds =
      .ok ⟨next, r.1, deletedIds, r.2⟩ := fun deletedIds => by
    have hnext := readAs_textValue next
    rw [Value.ReadAs] at hnext
    rw [StreamAutoClaimReply.fromItems, hnext, h]
    rfl
  cases deletedIds with
  | none => exact hitems []
  | some ids =>
    have hids : (fromRedisValue (Value.array (ids.map textValue)) : ParseResult (List String)) = .ok (ids.map id) :=
      mapM_readAs fun id _ => readAs_textValue id
    rw [map_id] at hids
    show (fromRedisValue (Value.array (ids.map textValue)) >>= _) = _
    rw [hids]
    exact hitems ids

/-- The replies of `XREAD`, `XREADGROUP` with `CLAIM` and `XAUTOCLAIM` are decoded completely and in order, in both
protocols, and the map of an entry has the fields that were sent. -/
theorem stream_replies_decoded :
    (∀ resp3 streams, StreamReadReply.fromRedisValue (streamsReply resp3 StreamEntry.value streams) =
      .ok (decodedStreams StreamEntry.decoded streams)) ∧
    (∀ resp3 streams, StreamReadReply.fromRedisValue (streamsReply resp3 ClaimedEntry.value streams) =
      .ok (decodedStreams ClaimedEntry.decoded streams)) ∧
    (∀ next deletedIds, ∀ entries : List (Option StreamEntry),
      StreamAutoClaimReply.fromRedisValue (autoClaimReply next (entries.map (orNil StreamEntry.value)) deletedIds) =
        .ok ⟨next, entries.reduceOption.map StreamEntry.decoded, deletedIds.getD [], entries.any Option.isNone⟩) ∧
    (∀ next deletedIds, ∀ ids : List (Option String),
      StreamAutoClaimReply.fromRedisValue (autoClaimReply next (ids.map (orNil textValue)) deletedIds) =
        .ok ⟨next, ids.reduceOption.map justId, deletedIds.getD [], ids.any Option.isNone⟩) ∧
    ∀ (e : StreamEntry) field v, Finmap.lookup field e.map = some v ↔ (field, v) ∈ e.fields.getD [] :=
  ⟨read_reply_decoded, claim_reply_decoded,
    fun next deletedIds entries => auto_claim_decoded next deletedIds (claimedIds_full entries),
    fun next deletedIds ids => auto_claim_decoded next deletedIds (claimedIds_justId ids),
    fun e field v => lookup_collectMap_iff e.nodup field v⟩

end Reply

end Decoding

theorem two_streams_decoded :
    Nonempty MapOrder ∧ ∀ (_ : Libraries) (_ : MapOrder) (resp3 : Bool),
      let entry (id : String) : StreamEntry := ⟨id, some [("f", .int 1)], nodup_singleton _⟩
      let streams := [("s", [entry "1-0", entry "2-0", ⟨"3-0", none, nodup_nil⟩]), ("t", [])]
      StreamReadReply.fromRedisValue (streamsReply resp3 StreamEntry.value streams) =
        .ok (decodedStreams StreamEntry.decoded streams) :=
  ⟨MapOrder.nonempty, fun _ _ resp3 => stream_replies_decoded.1 resp3 _⟩

end RedisRs
