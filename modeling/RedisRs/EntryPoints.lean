import RedisRs.ReplyTypes

/-!
# The entry points of a conversion agree
-/

namespace RedisRs

open List FromRedisValue FromRedisTuple

/-- Both succeed with the same value or both fail. -/
def Same {α : Type} (r s : ParseResult α) : Prop := r.toOption = s.toOption

namespace Same

variable {α β : Type} {r s : ParseResult α}

theorem refl (r : ParseResult α) : Same r r := rfl

theorem of_errors (e e' : ParsingError) : Same (.error e : ParseResult α) (.error e') := rfl

theorem of_eq (h : r = s) : Same r s := congrArg _ h

theorem symm (h : Same r s) : Same s r := Eq.symm h

theorem trans {t : ParseResult α} (hr : Same r s) (hs : Same s t) : Same r t := Eq.trans hr hs

theorem cases (h : Same r s) : (∃ e e', r = .error e ∧ s = .error e') ∨ ∃ a, r = .ok a ∧ s = .ok a := by
  rcases r with e | a <;> rcases s with e' | b <;> cases h
  · exact .inl ⟨e, e', rfl, rfl⟩
  · exact .inr ⟨a, rfl, rfl⟩

theorem bind {f g : α → ParseResult β} (h : Same r s) (hf : ∀ a, Same (f a) (g a)) : Same (r >>= f) (s >>= g) := by
  obtain ⟨e, e', rfl, rfl⟩ | ⟨a, rfl, rfl⟩ := h.cases
  · rfl
  · exact hf a

theorem map (h : Same r s) (f : α → β) : Same (r.map f) (s.map f) := by
  obtain ⟨e, e', rfl, rfl⟩ | ⟨a, rfl, rfl⟩ := h.cases <;> rfl

theorem mapM {γ : Type} {f g : γ → ParseResult β} {l : List γ} (h : ∀ a ∈ l, Same (f a) (g a)) :
    Same (l.mapM f) (l.mapM g) := by
  induction l with
  | nil => rfl
  | cons a l ih =>
    rw [mapM_cons, mapM_cons]
    have hl := ih fun b hb => h b (mem_cons_of_mem a hb)
    exact (h a mem_cons_self).bind fun _ => hl.bind fun _ => .refl _

end Same

variable {α : Type}

theorem mapM_eq_ok_iff {β : Type} {f : α → ParseResult β} {l : List α} {xs : List β} :
    l.mapM f = .ok xs ↔ l.map f = xs.map .ok := by
  induction l generalizing xs with
  | nil => cases xs <;> simp [pure, Except.pure]
  | cons a l ih =>
    rw [mapM_cons, map_cons]
    constructor
    · intro h
      obtain ⟨b, hb, h⟩ := exists_of_bind_eq_ok h
      obtain ⟨bs, hbs, h⟩ := exists_of_bind_eq_ok h
      cases h
      rw [map_cons, hb, ih.1 hbs]
    · intro h
      cases xs with
      | nil => cases h
      | cons b bs =>
        obtain ⟨hb, hbs⟩ := List.cons.inj h
        rw [hb, ih.2 hbs]
        rfl

/-- The type leaves lists of values to the trait. -/
structure Inherits (α : Type) [FromRedisValue α] : Prop where
  refs : ∀ vs, (fromRedisValueRefs vs : ParseResult (List α)) = vs.mapM fromRedisValueRef
  values : ∀ vs, (fromRedisValues vs : ParseResult (List α)) = vs.mapM fromRedisValue
  each : ∀ vs, (fromEachRedisValues vs : List (ParseResult α)) = vs.map fromRedisValue
  bytes : ∀ bytes, (fromByteSlice bytes : Option (List α)) = (fromByteVec bytes).toOption

namespace Inherits

variable {α K V : Type} [FromRedisValue α] [FromRedisValue K] [FromRedisValue V]

theorem int (k : IntType) : Inherits k.Carrier := by
  cases k <;> exact ⟨fun _ => rfl, fun _ => rfl, fun _ => rfl, fun _ => rfl⟩

theorem bool : Inherits Bool := ⟨fun _ => rfl, fun _ => rfl, fun _ => rfl, fun _ => rfl⟩
theorem string [Libraries] : Inherits String := ⟨fun _ => rfl, fun _ => rfl, fun _ => rfl, fun _ => rfl⟩
theorem cString : Inherits CString := ⟨fun _ => rfl, fun _ => rfl, fun _ => rfl, fun _ => rfl⟩
theorem bigNum [Libraries] (b : BigNumType) : Inherits (Libraries.BigNum b) :=
  ⟨fun _ => rfl, fun _ => rfl, fun _ => rfl, fun _ => rfl⟩
theorem value : Inherits Value := ⟨fun _ => rfl, fun _ => rfl, fun _ => rfl, fun _ => rfl⟩
theorem unit : Inherits Unit := ⟨fun _ => rfl, fun _ => rfl, fun _ => rfl, fun _ => rfl⟩
theorem vec : Inherits (List α) := ⟨fun _ => rfl, fun _ => rfl, fun _ => rfl, fun _ => rfl⟩
theorem array (n : Nat) : Inherits (List.Vector α n) := ⟨fun _ => rfl, fun _ => rfl, fun _ => rfl, fun _ => rfl⟩
theorem option : Inherits (Option α) := ⟨fun _ => rfl, fun _ => rfl, fun _ => rfl, fun _ => rfl⟩
theorem box : Inherits (Boxed α) := ⟨fun _ => rfl, fun _ => rfl, fun _ => rfl, fun _ => rfl⟩
theorem hashMap [DecidableEq K] : Inherits (HashMap K V) := ⟨fun _ => rfl, fun _ => rfl, fun _ => rfl, fun _ => rfl⟩
theorem btreeMap [DecidableEq K] : Inherits (BTreeMap K V) := ⟨fun _ => rfl, fun _ => rfl, fun _ => rfl, fun _ => rfl⟩
theorem hashSet [DecidableEq α] : Inherits (HashSet α) := ⟨fun _ => rfl, fun _ => rfl, fun _ => rfl, fun _ => rfl⟩
theorem btreeSet [DecidableEq α] : Inherits (BTreeSet α) := ⟨fun _ => rfl, fun _ => rfl, fun _ => rfl, fun _ => rfl⟩

end Inherits

/-- The entry points of `FromRedisValue` agree with one another. -/
structure EntryPointsAgree (α : Type) [FromRedisValue α] : Prop where
  one : ∀ v, Same (fromRedisValueRef v : ParseResult α) (fromRedisValue v)
  many : ∀ vs, Same (fromRedisValueRefs vs : ParseResult (List α)) (fromRedisValues vs)
  each : ∀ vs xs, (fromRedisValues vs : ParseResult (List α)) = .ok xs ↔ fromEachRedisValues vs = xs.map .ok
  bytes : ∀ bytes, (fromByteSlice bytes : Option (List α)) = (fromByteVec bytes).toOption

/-- The two entry points of a tuple agree. -/
structure TupleEntryPointsAgree (α : Type) [FromRedisTuple α] : Prop where
  items : ∀ vs, Same (fromRefs vs : ParseResult α) (fromItems vs)

namespace EntryPointsAgree

variable {α : Type}

theorem of_one [FromRedisValue α] (h : Inherits α)
    (one : ∀ v, Same (fromRedisValueRef v : ParseResult α) (fromRedisValue v)) :
    EntryPointsAgree α where
  one := one
  many vs := by
    rw [h.refs, h.values]
    exact .mapM fun v _ => one v
  each vs xs := by
    rw [h.values, h.each]
    exact mapM_eq_ok_iff
  bytes := h.bytes

theorem int (k : IntType) : EntryPointsAgree k.Carrier := by
  refine of_one (.int k) fun v => ?_
  rw [k.fromRedisValueRef_eq, k.fromRedisValue_eq]
  exact .refl _

theorem bool : EntryPointsAgree Bool := of_one .bool fun _ => .refl _

theorem getOwnedInnerValue_eq (v : Value) : getOwnedInnerValue v = getInnerValue v := by cases v <;> rfl

theorem string [Libraries] : EntryPointsAgree String := by
  refine of_one .string fun v => ?_
  simp only [fromRedisValueRef, fromRedisValue, getOwnedInnerValue_eq]
  exact .refl _

theorem cString : EntryPointsAgree CString := by
  refine of_one .cString fun v => ?_
  simp only [fromRedisValueRef, fromRedisValue, getOwnedInnerValue_eq]
  exact .refl _

theorem bigNum [Libraries] (b : BigNumType) : EntryPointsAgree (Libraries.BigNum b) := of_one (.bigNum b) fun _ => .refl _

theorem value : EntryPointsAgree Value := of_one .value fun _ => .refl _

theorem unit : EntryPointsAgree Unit := of_one .unit fun _ => .refl _

variable [FromRedisValue α]

theorem vec (h : EntryPointsAgree α) : EntryPointsAgree (List α) := by
  refine of_one .vec fun v => ?_
  cases v with
  | bulkString bytes =>
    have hbytes := h.bytes bytes
    simp only [fromRedisValueRef, fromRedisValue, hbytes]
    cases (fromByteVec bytes : ParseResult (List α)) <;> rfl
  | array items => exact h.many items
  | set items => exact h.many items
  | map items => exact .mapM fun item _ => h.one _
  | _ => rfl

theorem array (n : Nat) : EntryPointsAgree (List.Vector α n) := of_one (.array n) fun _ => .refl _

theorem option (h : EntryPointsAgree α) : EntryPointsAgree (Option α) := by
  refine of_one .option fun v => ?_
  simp only [fromRedisValueRef, fromRedisValue, getOwnedInnerValue_eq]
  split
  · exact .refl _
  · exact (h.one _).map _

theorem box (h : EntryPointsAgree α) : EntryPointsAgree (Boxed α) :=
  of_one .box fun v => (h.one v).map _

theorem intoMapIter_toOption (v : Value) : v.intoMapIter.toOption = v.asMapIter := by
  cases v with
  | array items =>
    simp only [Value.intoMapIter, Value.asMapIter]
    split <;> rfl
  | _ => rfl

theorem intoSequence_toOption (v : Value) : v.intoSequence.toOption = v.asSequence := by cases v <;> rfl

variable {K V : Type} [FromRedisValue K] [FromRedisValue V]

theorem forMap_one [DecidableEq K] (hk : EntryPointsAgree K) (hv : EntryPointsAgree V) (v : Value) :
    Same ((forMap K V).fromRedisValueRef v) ((forMap K V).fromRedisValue v) := by
  simp only [fromRedisValueRef, fromRedisValue, getOwnedInnerValue_eq]
  split
  · exact .refl _
  · rw [← intoMapIter_toOption]
    cases (getInnerValue v).intoMapIter with
    | error w => exact .of_errors _ _
    | ok items =>
      refine Same.bind (.mapM fun item _ => ?_) fun _ => .refl _
      exact (hk.one item.1).bind fun _ => (hv.one item.2).bind fun _ => .refl _

theorem forSet_one [DecidableEq α] (h : EntryPointsAgree α) (v : Value) :
    Same ((forSet α).fromRedisValueRef v) ((forSet α).fromRedisValue v) := by
  simp only [fromRedisValueRef, fromRedisValue, getOwnedInnerValue_eq]
  rw [← intoSequence_toOption]
  cases (getInnerValue v).intoSequence with
  | error w => exact .of_errors _ _
  | ok items => exact Same.bind (.mapM fun item _ => h.one item) fun _ => .refl _

theorem hashMap [DecidableEq K] (hk : EntryPointsAgree K) (hv : EntryPointsAgree V) : EntryPointsAgree (HashMap K V) :=
  of_one .hashMap (forMap_one hk hv)

theorem btreeMap [DecidableEq K] (hk : EntryPointsAgree K) (hv : EntryPointsAgree V) : EntryPointsAgree (BTreeMap K V) :=
  of_one .btreeMap (forMap_one hk hv)

theorem hashSet [DecidableEq α] (h : EntryPointsAgree α) : EntryPointsAgree (HashSet α) :=
  of_one .hashSet (forSet_one h)

theorem btreeSet [DecidableEq α] (h : EntryPointsAgree α) : EntryPointsAgree (BTreeSet α) :=
  of_one .btreeSet (forSet_one h)

end EntryPointsAgree

theorem tupleItemRefs_same (n : Nat) (v : Value) : Same (tupleItemRefs n v) (tupleItems n v) := by
  rw [tupleItemRefs, tupleItems]
  cases getInnerValue v with
  | set items =>
    -- the two report the value in different ways
    dsimp only
    split <;> rfl
  | _ => rfl

namespace TupleEntryPointsAgree

theorem nil : TupleEntryPointsAgree Unit := ⟨fun _ => .refl _⟩

theorem cons {α β : Type} [FromRedisValue α] [FromRedisTuple β] (h : EntryPointsAgree α) (ht : TupleEntryPointsAgree β) :
    TupleEntryPointsAgree (α × β) where
  items
    | [] => .refl _
    | v :: vs => (h.one v).bind fun _ => (ht.items vs).bind fun _ => .refl _

variable {α : Type} [FromRedisTuple α]

theorem tuple_one (h : TupleEntryPointsAgree α) (v : Value) :
    Same (tupleFromRedisValueRef α v) (tupleFromRedisValue α v) :=
  (tupleItemRefs_same _ v).bind fun items => (h.items items).bind fun _ => .refl _

end TupleEntryPointsAgree

variable {blocks : List (List α)} {n : Nat} {items : List α}

theorem chunksFrom_succ (n fuel : Nat) (h : items ≠ []) :
    chunksFrom n (fuel + 1) items = items.take n :: chunksFrom n fuel (items.drop n) := by
  cases items with
  | nil => exact absurd rfl h
  | cons => rfl

theorem chunksFrom_flatten (hn : 0 < n) (h : ∀ block ∈ blocks, block.length = n) {fuel : Nat}
    (hfuel : blocks.length ≤ fuel) : chunksFrom n fuel blocks.flatten = blocks := by
  induction blocks generalizing fuel with
  | nil => cases fuel <;> rfl
  | cons block blocks ih =>
    obtain ⟨fuel, rfl⟩ : ∃ fuel', fuel = fuel' + 1 := ⟨fuel - 1, by rw [length_cons] at hfuel; omega⟩
    have hblock := h block mem_cons_self
    have hne : block ++ blocks.flatten ≠ [] := fun hnil => by
      rw [(append_eq_nil_iff.1 hnil).1] at hblock
      exact absurd hblock.symm hn.ne'
    rw [flatten_cons, chunksFrom_succ n fuel hne, take_left' hblock, drop_left' hblock,
      ih (fun b hb => h b (mem_cons_of_mem _ hb)) (Nat.le_of_succ_le_succ hfuel)]

theorem chunks_flatten (hn : 0 < n) (h : ∀ block ∈ blocks, block.length = n) : chunks n blocks.flatten = blocks := by
  refine chunksFrom_flatten hn h ?_
  rw [length_flatten, map_congr_left h, map_const', sum_replicate_nat]
  exact Nat.le_mul_of_pos_right _ hn

theorem chunks_of_length (hn : 0 < n) (h : items.length = n) : chunks n items = [items] := by
  have hone := chunks_flatten hn (forall_mem_singleton.2 h)
  rwa [flatten_singleton] at hone

section Chunks

variable {α : Type} [FromRedisTuple α]

def chunkItems (len : Nat) (chunk : List Value) : ParseResult (Tuple α) :=
  if chunk.length = arity α then do return ⟨← fromItems chunk⟩ else .error (ParsingError.arity len (arity α))

theorem length_of_chunkItems {len : Nat} {chunk : List Value} {x : Tuple α} (h : chunkItems (α := α) len chunk = .ok x) :
    chunk.length = arity α := by
  by_contra hne
  rw [chunkItems, if_neg hne] at h
  cases h

variable {cs : List (List Value)}

theorem eachChunk_of_complete {len : Nat} (h : ∀ chunk ∈ cs, chunk.length = arity α)
    (rv : List (ParseResult (Tuple α))) : eachChunk α len cs rv = rv ++ cs.map (chunkItems len) := by
  induction cs generalizing rv with
  | nil => rw [eachChunk, map_nil, append_nil]
  | cons chunk cs ih =>
    have hchunk := h chunk mem_cons_self
    have hitems : chunkItems (α := α) len chunk = (fromItems chunk).map Tuple.mk := by
      rw [chunkItems, if_pos hchunk]
      cases (fromItems chunk : ParseResult α) <;> rfl
    rw [eachChunk, if_pos hchunk, ih (fun c hc => h c (mem_cons_of_mem _ hc)), map_cons, hitems, append_assoc]
    rfl

theorem eachChunk_of_incomplete {len : Nat} (h : ∃ chunk ∈ cs, chunk.length ≠ arity α)
    (rv : List (ParseResult (Tuple α))) : eachChunk α len cs rv = [.error (ParsingError.arity len (arity α))] := by
  induction cs generalizing rv with
  | nil => simp at h
  | cons chunk cs ih =>
    rw [eachChunk]
    split
    · next hchunk =>
      obtain ⟨c, hc, hne⟩ := h
      rcases mem_cons.1 hc with rfl | hc
      · exact absurd hchunk hne
      · exact ih ⟨c, hc, hne⟩ _
    · rfl

theorem mapM_chunkItems_iff {len : Nat} {xs : List (Tuple α)} :
    cs.mapM (chunkItems len) = .ok xs ↔ eachChunk α len cs [] = xs.map .ok := by
  by_cases h : ∀ chunk ∈ cs, chunk.length = arity α
  · rw [eachChunk_of_complete h, nil_append]
    exact mapM_eq_ok_iff
  · push Not at h
    rw [eachChunk_of_incomplete h]
    constructor
    · intro hmap
      obtain ⟨chunk, hchunk, hne⟩ := h
      have hmem := mem_map_of_mem (f := chunkItems (α := α) len) hchunk
      rw [mapM_eq_ok_iff.1 hmap] at hmem
      obtain ⟨x, -, hx⟩ := mem_map.1 hmem
      exact absurd (length_of_chunkItems hx.symm) hne
    · intro hxs
      cases xs with
      | nil => cases hxs
      | cons x xs => cases (List.cons.inj hxs).1

theorem tuple_many (h : TupleEntryPointsAgree α) (hpos : 0 < arity α) (vs : List Value) :
    Same (tupleFromRedisValueRefs α vs) (tupleFromRedisValues α vs) := by
  rw [tupleFromRedisValueRefs, tupleFromRedisValues]
  split
  · exact .refl _
  split
  · exact .mapM fun v _ => h.tuple_one v
  split
  · next hlen =>
    rw [chunks_of_length hpos hlen, mapM_cons, mapM_nil, if_pos hlen]
    have hitems := (h.items vs).bind fun x => Same.refl (pure [Tuple.mk x])
    cases hx : (fromItems vs : ParseResult α) <;> simpa [hx] using hitems
  · refine .mapM fun chunk _ => ?_
    split
    · exact (h.items chunk).bind fun _ => .refl _
    · exact .refl _

theorem tuple_each (vs : List Value) (xs : List (Tuple α)) :
    tupleFromRedisValues α vs = .ok xs ↔ tupleFromEachRedisValues α vs = xs.map .ok := by
  rw [tupleFromRedisValues, tupleFromEachRedisValues]
  split
  · cases xs <;> simp
  split
  · exact mapM_eq_ok_iff
  · exact mapM_chunkItems_iff

end Chunks

theorem EntryPointsAgree.tuple {β : Type} [FromRedisValue α] [FromRedisTuple β] (h : EntryPointsAgree α)
    (ht : TupleEntryPointsAgree β) : EntryPointsAgree (Tuple (α × β)) where
  one := (TupleEntryPointsAgree.cons h ht).tuple_one
  many := tuple_many (.cons h ht) (Nat.succ_pos _)
  each := tuple_each
  bytes _ := rfl

namespace ReplyType

variable [Libraries]

open scoped Classical in
mutual

theorem entryPointsAgree : (t : ReplyType) → EntryPointsAgree t.Carrier
  | int k => .int k
  | bool => .bool
  | string => .string
  | cString => .cString
  | bigNum b => .bigNum b
  | value => .value
  | unit => .unit
  | vec t => .vec t.entryPointsAgree
  | array _ n => .array n
  | tuple t ts => .tuple t.entryPointsAgree (tupleEntryPointsAgree ts)
  | hashMap k v => .hashMap k.entryPointsAgree v.entryPointsAgree
  | btreeMap k v => .btreeMap k.entryPointsAgree v.entryPointsAgree
  | hashSet t => .hashSet t.entryPointsAgree
  | btreeSet t => .btreeSet t.entryPointsAgree
  | option t => .option t.entryPointsAgree
  | box t => .box t.entryPointsAgree

theorem tupleEntryPointsAgree : (ts : List ReplyType) → TupleEntryPointsAgree (components ts).Carrier
  | [] => .nil
  | t :: ts => .cons t.entryPointsAgree (tupleEntryPointsAgree ts)

end

/-- By reference and by value, one or many, all or each: the conversions to a type agree. -/
theorem conversions_agree (t : ReplyType) (v : Value) (vs : List Value) :
    Same (fromRedisValueRef v : ParseResult t.Carrier) (fromRedisValue v) ∧
    Same (fromRedisValueRefs vs : ParseResult (List t.Carrier)) (fromRedisValues vs) ∧
    ∀ xs : List t.Carrier, fromRedisValues vs = .ok xs ↔ fromEachRedisValues vs = xs.map .ok :=
  ⟨t.entryPointsAgree.one v, t.entryPointsAgree.many vs, t.entryPointsAgree.each vs⟩

end ReplyType

end RedisRs
