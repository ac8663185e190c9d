import Mathlib.Data.Finmap
import Mathlib.Data.Vector.Basic
import RedisRs.Convert

/-!
# The types a reply is converted to
-/

namespace RedisRs

open FromRedisValue ParsingError

class MachineInt (α : Type) where
  lo : Int
  hi : Int
  toInt : α → Int
  ofInt : Int → α
  lo_le_toInt : ∀ x, lo ≤ toInt x
  toInt_le_hi : ∀ x, toInt x ≤ hi
  toInt_ofInt : ∀ {n}, lo ≤ n → n ≤ hi → toInt (ofInt n) = n
  ofInt_toInt : ∀ x, ofInt (toInt x) = x

namespace MachineInt

variable {α : Type}

@[reducible]
def signed (w : Nat) (toInt : α → Int) (ofInt : Int → α) (le_toInt : ∀ x, -2 ^ w ≤ toInt x)
    (toInt_lt : ∀ x, toInt x < 2 ^ w)
    (toInt_ofInt : ∀ n, -2 ^ w ≤ n → n < 2 ^ w → toInt (ofInt n) = n) (ofInt_toInt : ∀ x, ofInt (toInt x) = x) :
    MachineInt α where
  lo := -2 ^ w
  hi := 2 ^ w - 1
  toInt := toInt
  ofInt := ofInt
  lo_le_toInt := le_toInt
  toInt_le_hi x := Int.le_sub_one_of_lt (toInt_lt x)
  toInt_ofInt {n} hlo hhi := toInt_ofInt n hlo (Int.lt_of_le_sub_one hhi)
  ofInt_toInt := ofInt_toInt

@[reducible]
def unsigned (w : Nat) (toNat : α → Nat) (ofNat : Nat → α) (toNat_lt : ∀ x, toNat x < 2 ^ w)
    (toNat_ofNat : ∀ m, toNat (ofNat m) = m % 2 ^ w) (ofNat_toNat : ∀ x, ofNat (toNat x) = x) : MachineInt α where
  lo := 0
  hi := 2 ^ w - 1
  toInt x := toNat x
  ofInt n := ofNat (n % 2 ^ w).toNat
  lo_le_toInt x := Int.natCast_nonneg (toNat x)
  toInt_le_hi x := Int.le_sub_one_of_lt (by exact_mod_cast toNat_lt x)
  toInt_ofInt {n} hlo hhi := by
    have hn : n % 2 ^ w = n := Int.emod_eq_of_lt hlo (Int.lt_of_le_sub_one hhi)
    have hlt : n.toNat < 2 ^ w := (Int.toNat_lt hlo).2 (by push_cast; omega)
    rw [hn, toNat_ofNat, Nat.mod_eq_of_lt hlt, Int.toNat_of_nonneg hlo]
  ofInt_toInt x := by
    have hlt : (toNat x : Int) < 2 ^ w := by exact_mod_cast toNat_lt x
    rw [Int.emod_eq_of_lt (Int.natCast_nonneg _) hlt, Int.toNat_natCast, ofNat_toNat]

end MachineInt

instance : MachineInt Int8 :=
  .signed 7 Int8.toInt Int8.ofInt Int8.le_toInt Int8.toInt_lt (fun _ => Int8.toInt_ofInt_of_le) Int8.ofInt_toInt
instance : MachineInt Int16 :=
  .signed 15 Int16.toInt Int16.ofInt Int16.le_toInt Int16.toInt_lt (fun _ => Int16.toInt_ofInt_of_le) Int16.ofInt_toInt
instance : MachineInt Int32 :=
  .signed 31 Int32.toInt Int32.ofInt Int32.le_toInt Int32.toInt_lt (fun _ => Int32.toInt_ofInt_of_le) Int32.ofInt_toInt
instance : MachineInt Int64 :=
  .signed 63 Int64.toInt Int64.ofInt Int64.le_toInt Int64.toInt_lt (fun _ => Int64.toInt_ofInt_of_le) Int64.ofInt_toInt
instance : MachineInt UInt8 :=
  .unsigned 8 UInt8.toNat UInt8.ofNat UInt8.toNat_lt (fun _ => UInt8.toNat_ofNat') fun _ => UInt8.ofNat_toNat
instance : MachineInt UInt16 :=
  .unsigned 16 UInt16.toNat UInt16.ofNat UInt16.toNat_lt (fun _ => UInt16.toNat_ofNat') fun _ => UInt16.ofNat_toNat
instance : MachineInt UInt32 :=
  .unsigned 32 UInt32.toNat UInt32.ofNat UInt32.toNat_lt (fun _ => UInt32.toNat_ofNat') fun _ => UInt32.ofNat_toNat
instance : MachineInt UInt64 :=
  .unsigned 64 UInt64.toNat UInt64.ofNat UInt64.toNat_lt (fun _ => UInt64.toNat_ofNat') fun _ => UInt64.ofNat_toNat

structure Int128 where
  bits : BitVec 128
deriving DecidableEq

structure UInt128 where
  bits : BitVec 128
deriving DecidableEq

instance : MachineInt Int128 :=
  .signed 127 (fun x => x.bits.toInt) (fun n => ⟨BitVec.ofInt 128 n⟩) (fun x => x.bits.le_toInt) (fun _ => BitVec.toInt_lt)
    (fun n hlo hhi => (BitVec.toInt_ofInt n).trans (Int.bmod_eq_of_le (by omega) (by omega)))
    fun x => congrArg Int128.mk BitVec.ofInt_toInt
instance : MachineInt UInt128 :=
  .unsigned 128 (fun x => x.bits.toNat) (fun m => ⟨BitVec.ofNat 128 m⟩) (fun x => x.bits.isLt)
    (fun m => BitVec.toNat_ofNat m 128) fun x => congrArg UInt128.mk (BitVec.ofNat_toNat 128 x.bits)

open MachineInt in
@[reducible]
def forNum (α : Type) [MachineInt α] : FromRedisValue α where
  fromRedisValueRef := fromRedisValueForNum ofInt (lo α) (hi α)
  fromRedisValue := fromRedisValueForNum ofInt (lo α) (hi α)

instance : FromRedisValue Int8 := forNum Int8
instance : FromRedisValue Int16 := forNum Int16
instance : FromRedisValue Int32 := forNum Int32
instance : FromRedisValue UInt32 := forNum UInt32
instance : FromRedisValue Int128 := forNum Int128
instance : FromRedisValue UInt128 := forNum UInt128

inductive IntType
  | i8
  | i16
  | i32
  | i64
  | i128
  | isize
  | u8
  | u16
  | u32
  | u64
  | u128
  | usize
deriving DecidableEq, Repr

namespace IntType

def Carrier : IntType → Type
  | i8 => Int8
  | i16 => Int16
  | i32 => Int32
  | i64 | isize => Int64
  | i128 => Int128
  | u8 => UInt8
  | u16 => UInt16
  | u32 => UInt32
  | u64 | usize => UInt64
  | u128 => UInt128

instance : (k : IntType) → MachineInt k.Carrier
  | i8 => inferInstanceAs (MachineInt Int8)
  | i16 => inferInstanceAs (MachineInt Int16)
  | i32 => inferInstanceAs (MachineInt Int32)
  | i64 | isize => inferInstanceAs (MachineInt Int64)
  | i128 => inferInstanceAs (MachineInt Int128)
  | u8 => inferInstanceAs (MachineInt UInt8)
  | u16 => inferInstanceAs (MachineInt UInt16)
  | u32 => inferInstanceAs (MachineInt UInt32)
  | u64 | usize => inferInstanceAs (MachineInt UInt64)
  | u128 => inferInstanceAs (MachineInt UInt128)

instance : (k : IntType) → FromRedisValue k.Carrier
  | i8 => inferInstanceAs (FromRedisValue Int8)
  | i16 => inferInstanceAs (FromRedisValue Int16)
  | i32 => inferInstanceAs (FromRedisValue Int32)
  | i64 | isize => inferInstanceAs (FromRedisValue Int64)
  | i128 => inferInstanceAs (FromRedisValue Int128)
  | u8 => inferInstanceAs (FromRedisValue UInt8)
  | u16 => inferInstanceAs (FromRedisValue UInt16)
  | u32 => inferInstanceAs (FromRedisValue UInt32)
  | u64 | usize => inferInstanceAs (FromRedisValue UInt64)
  | u128 => inferInstanceAs (FromRedisValue UInt128)

instance : (k : IntType) → DecidableEq k.Carrier
  | i8 => inferInstanceAs (DecidableEq Int8)
  | i16 => inferInstanceAs (DecidableEq Int16)
  | i32 => inferInstanceAs (DecidableEq Int32)
  | i64 | isize => inferInstanceAs (DecidableEq Int64)
  | i128 => inferInstanceAs (DecidableEq Int128)
  | u8 => inferInstanceAs (DecidableEq UInt8)
  | u16 => inferInstanceAs (DecidableEq UInt16)
  | u32 => inferInstanceAs (DecidableEq UInt32)
  | u64 | usize => inferInstanceAs (DecidableEq UInt64)
  | u128 => inferInstanceAs (DecidableEq UInt128)

theorem fromRedisValueRef_eq (k : IntType) (v : Value) : (fromRedisValueRef v : ParseResult k.Carrier) =
    fromRedisValueForNum MachineInt.ofInt (MachineInt.lo k.Carrier) (MachineInt.hi k.Carrier) v := by
  cases k <;> rfl

theorem fromRedisValue_eq (k : IntType) (v : Value) : (fromRedisValue v : ParseResult k.Carrier) =
    fromRedisValueForNum MachineInt.ofInt (MachineInt.lo k.Carrier) (MachineInt.hi k.Carrier) v := by
  cases k <;> rfl

end IntType

inductive BigNumType
  | decimal
  | bigDecimal
  | bigInt
  | bigUint
deriving DecidableEq, Repr

class Libraries where
  displayF64 : UInt64 → String
  BigNum : BigNumType → Type
  tryFromInt : (b : BigNumType) → Int64 → Option (BigNum b)
  parse : (b : BigNumType) → String → Option (BigNum b)

def getOwnedInnerValue : Value → Value
  | .attribute data _ => data
  | v => v

def fromRedisValueBool (v : Value) : ParseResult Bool :=
  match getInnerValue v with
  | .nil => .ok false
  | .int val => .ok (val != 0)
  | .simpleString s =>
    if s = "1" then .ok true
    else if s = "0" then .ok false
    else .error (invalidType (.simpleString s) "Response status not valid boolean")
  | .bulkString bytes =>
    if bytes = bytesOf "1" then .ok true
    else if bytes = bytesOf "0" then .ok false
    else .error (invalidType (.bulkString bytes) "Response type not bool compatible.")
  | .boolean b => .ok b
  | .okay => .ok true
  | v => .error (invalidType v "Response type not bool compatible.")

instance : FromRedisValue Bool where
  fromRedisValueRef := fromRedisValueBool
  fromRedisValue := fromRedisValueBool

instance [Libraries] : FromRedisValue String where
  fromRedisValueRef v := match getInnerValue v with
    | .bulkString bytes => match fromUtf8 bytes with
      | some s => .ok s
      | none => .error invalidUtf8
    | .okay => .ok "OK"
    | .simpleString val => .ok val
    | .verbatimString _ text => .ok text
    | .double val => .ok (Libraries.displayF64 val)
    | .int val => .ok val.toInt.repr
    | v => .error (invalidType v "Response type not string compatible.")
  fromRedisValue v := match getOwnedInnerValue v with
    | .bulkString bytes => match fromUtf8 bytes with
      | some s => .ok s
      | none => .error invalidUtf8
    | .okay => .ok "OK"
    | .simpleString val => .ok val
    | .verbatimString _ text => .ok text
    | .double val => .ok (Libraries.displayF64 val)
    | .int val => .ok val.toInt.repr
    | v => .error (invalidType v "Response type not string compatible.")

structure CString where
  bytes : Bytes
  noNul : 0 ∉ bytes
deriving DecidableEq

def CString.new (bytes : Bytes) : ParseResult CString :=
  if h : 0 ∉ bytes then .ok ⟨bytes, h⟩ else .error (interiorNul (bytes.idxOf 0))

instance : FromRedisValue CString where
  fromRedisValueRef v := match getInnerValue v with
    | .bulkString bytes => CString.new bytes
    | .okay => CString.new (bytesOf "OK")
    | .simpleString val => CString.new (bytesOf val)
    | v => .error (invalidType v "Response type not CString compatible.")
  fromRedisValue v := match getOwnedInnerValue v with
    | .bulkString bytes => CString.new bytes
    | .okay => CString.new (bytesOf "OK")
    | .simpleString val => CString.new (bytesOf val)
    | v => .error (invalidType v "Response type not CString compatible.")

def fromRedisValueForBignum [Libraries] (b : BigNumType) (v : Value) : ParseResult (Libraries.BigNum b) :=
  match v with
  | .int val => match Libraries.tryFromInt b val with
    | some n => .ok n
    | none => .error (invalidType v "Could not convert from integer.")
  | .simpleString s => match Libraries.parse b s with
    | some n => .ok n
    | none => .error (invalidType v "Could not convert from string.")
  | .bulkString bytes => match fromUtf8 bytes with
    | none => .error invalidUtf8
    | some s => match Libraries.parse b s with
      | some n => .ok n
      | none => .error (invalidType v "Could not convert from string.")
  | _ => .error (invalidType v "Response type not convertible to numeric.")

instance [Libraries] (b : BigNumType) : FromRedisValue (Libraries.BigNum b) where
  fromRedisValueRef := fromRedisValueForBignum b
  fromRedisValue := fromRedisValueForBignum b

section Wrappers

variable {α : Type} [FromRedisValue α]

def vecToArray {α : Type} {n : Nat} (items : List α) (originalValue : Value) : ParseResult (List.Vector α n) :=
  if h : items.length = n then .ok ⟨items, h⟩
  else .error (invalidType originalValue
    ("Response has wrong dimension, expected " ++ toString n ++ ", got " ++ toString items.length))

def arrayFromRedisValueRef (n : Nat) (v : Value) : ParseResult (List.Vector α n) :=
  match v with
  | .bulkString bytes => match fromByteSlice bytes with
    | some items => vecToArray items v
    | none => .error (invalidType v "Conversion failed")
  | .array items => do vecToArray (← fromRedisValueRefs items) v
  | .nil => vecToArray [] v
  | _ => .error (invalidType v "Response type not array compatible")

instance (n : Nat) : FromRedisValue (List.Vector α n) where
  fromRedisValueRef := arrayFromRedisValueRef n
  fromRedisValue := arrayFromRedisValueRef n

instance : FromRedisValue (Option α) where
  fromRedisValueRef v := match getInnerValue v with
    | .nil => .ok none
    | v => (fromRedisValueRef v).map some
  fromRedisValue v := match getOwnedInnerValue v with
    | .nil => .ok none
    | v => (fromRedisValue v).map some

structure Boxed (α : Type) where
  val : α
deriving DecidableEq

instance : FromRedisValue (Boxed α) where
  fromRedisValueRef v := (fromRedisValueRef v).map Boxed.mk
  fromRedisValue v := (fromRedisValue v).map Boxed.mk

end Wrappers

def pairUp : List Value → List (Value × Value)
  | k :: v :: rest => (k, v) :: pairUp rest
  | _ => []

namespace Value

def asSequence : Value → Option (List Value)
  | array items | set items => some items
  | nil => some []
  | _ => none

def asMapIter : Value → Option (List (Value × Value))
  | array items => if items.length % 2 = 0 then some (pairUp items) else none
  | map items => some items
  | _ => none

def intoMapIter : Value → Except Value (List (Value × Value))
  | array items => if items.length % 2 = 0 then .ok (pairUp items) else .error (array items)
  | map items => .ok items
  | v => .error v

end Value

section Collections

variable (α K V : Type)

def HashMap := Finmap fun _ : K => V
def BTreeMap := Finmap fun _ : K => V

def HashSet := Finset α
def BTreeSet := Finset α

variable {K V} in
def collectMap [DecidableEq K] (entries : List (K × V)) : Finmap fun _ : K => V :=
  entries.foldl (fun m entry => m.insert entry.1 entry.2) ∅

variable {K V} in
theorem lookup_collectMap_concat [DecidableEq K] (entries : List (K × V)) (entry : K × V) (a : K) :
    (collectMap (entries ++ [entry])).lookup a = if a = entry.1 then some entry.2 else (collectMap entries).lookup a := by
  have hconcat : collectMap (entries ++ [entry]) = (collectMap entries).insert entry.1 entry.2 := by
    rw [collectMap, List.foldl_append]
    rfl
  rw [hconcat]
  split
  · next h => rw [h, Finmap.lookup_insert]
  · next h => rw [Finmap.lookup_insert_of_ne _ h]

variable [FromRedisValue α] [FromRedisValue K] [FromRedisValue V] [DecidableEq α] [DecidableEq K]

@[reducible]
def forMap : FromRedisValue (Finmap fun _ : K => V) where
  fromRedisValueRef v := match getInnerValue v with
    | .nil => .ok ∅
    | v => match v.asMapIter with
      | none => .error (invalidType v "Response type not map compatible")
      | some items => do
        let entries ← items.mapM fun (k, v) => do return (← fromRedisValueRef k, ← fromRedisValueRef v)
        return collectMap entries
  fromRedisValue v := match getOwnedInnerValue v with
    | .nil => .ok ∅
    | v => match v.intoMapIter with
      | .error v => .error (invalidType v "Response type not map compatible")
      | .ok items => do
        let entries ← items.mapM fun (k, v) => do return (← fromRedisValue k, ← fromRedisValue v)
        return collectMap entries

@[reducible]
def forSet : FromRedisValue (Finset α) where
  fromRedisValueRef v := match (getInnerValue v).asSequence with
    | none => .error (invalidType (getInnerValue v) "Response type not map compatible")
    | some items => do return (← items.mapM fromRedisValueRef).toFinset
  fromRedisValue v := match (getOwnedInnerValue v).intoSequence with
    | .error v => .error (invalidType v "Response type not map compatible")
    | .ok items => do return (← items.mapM fromRedisValue).toFinset

instance : FromRedisValue (HashMap K V) := forMap K V
instance : FromRedisValue (BTreeMap K V) := forMap K V
instance : FromRedisValue (HashSet α) := forSet α
instance : FromRedisValue (BTreeSet α) := forSet α

end Collections

class FromRedisTuple (α : Type) where
  arity : Nat
  fromRefs : List Value → ParseResult α
  fromItems : List Value → ParseResult α

open FromRedisTuple

instance : FromRedisTuple Unit where
  arity := 0
  fromRefs _ := .ok ()
  fromItems _ := .ok ()

instance {α β : Type} [FromRedisValue α] [FromRedisTuple β] : FromRedisTuple (α × β) where
  arity := arity β + 1
  fromRefs
    | [] => .error (ParsingError.arity 0 (arity β + 1))
    | v :: vs => do return (← fromRedisValueRef v, ← fromRefs vs)
  fromItems
    | [] => .error (ParsingError.arity 0 (arity β + 1))
    | v :: vs => do return (← fromRedisValue v, ← fromItems vs)

structure Tuple (α : Type) where
  items : α
deriving DecidableEq

def chunksFrom {α : Type} (n : Nat) : Nat → List α → List (List α)
  | _, [] => []
  | 0, _ => []
  | fuel + 1, items => items.take n :: chunksFrom n fuel (items.drop n)

def chunks {α : Type} (n : Nat) (items : List α) : List (List α) := chunksFrom n items.length items

def Value.isCollectionOfLen (len : Nat) : Value → Bool
  | array values | set values => values.length == len
  | map items => items.length * 2 == len
  | _ => false

def tupleItemRefs (n : Nat) (v : Value) : ParseResult (List Value) :=
  match getInnerValue v with
  | .array items =>
    if items.length ≠ n then .error (invalidType (.array items) "Array response of wrong dimension")
    else .ok items
  | .set items =>
    if items.length ≠ n then .error (invalidType (.set items) "Set response of wrong dimension")
    else .ok items
  | .map items =>
    if n ≠ items.length * 2 then .error (invalidType (.map items) "Map response of wrong dimension")
    else .ok (items.flatMap fun (a, b) => [a, b])
  | v => .error (invalidType v "Not a Array response")

section Tuples

variable (α : Type) [FromRedisTuple α]

def tupleFromRedisValueRef (v : Value) : ParseResult (Tuple α) := do
  return ⟨← fromRefs (← tupleItemRefs (arity α) v)⟩

def tupleFromRedisValue (v : Value) : ParseResult (Tuple α) := do
  return ⟨← fromItems (← tupleItems (arity α) v)⟩

def tupleFromRedisValueRefs (items : List Value) : ParseResult (List (Tuple α)) :=
  if items.length = 0 then .ok []
  else if items.all (Value.isCollectionOfLen (arity α)) then items.mapM (tupleFromRedisValueRef α)
  else if items.length = arity α then do return [⟨← fromRefs items⟩]
  else (chunks (arity α) items).mapM fun chunk =>
    if chunk.length = arity α then do return ⟨← fromRefs chunk⟩
    else .error (ParsingError.arity items.length (arity α))

def tupleFromRedisValues (items : List Value) : ParseResult (List (Tuple α)) :=
  if items.length = 0 then .ok []
  else if items.all (Value.isCollectionOfLen (arity α)) then items.mapM (tupleFromRedisValue α)
  else (chunks (arity α) items).mapM fun chunk =>
    if chunk.length = arity α then do return ⟨← fromItems chunk⟩
    else .error (ParsingError.arity items.length (arity α))

def eachChunk (len : Nat) : List (List Value) → List (ParseResult (Tuple α)) → List (ParseResult (Tuple α))
  | [], rv => rv
  | chunk :: rest, rv =>
    if chunk.length = arity α then eachChunk len rest (rv ++ [(fromItems chunk).map Tuple.mk])
    else [.error (ParsingError.arity len (arity α))]

def tupleFromEachRedisValues (items : List Value) : List (ParseResult (Tuple α)) :=
  if items.length = 0 then []
  else if items.all (Value.isCollectionOfLen (arity α)) then items.map (tupleFromRedisValue α)
  else eachChunk α items.length (chunks (arity α) items) []

end Tuples

instance {α β : Type} [FromRedisValue α] [FromRedisTuple β] : FromRedisValue (Tuple (α × β)) where
  fromRedisValueRef := tupleFromRedisValueRef (α × β)
  fromRedisValue := tupleFromRedisValue (α × β)
  fromRedisValueRefs := tupleFromRedisValueRefs (α × β)
  fromRedisValues := tupleFromRedisValues (α × β)
  fromEachRedisValues := tupleFromEachRedisValues (α × β)

inductive ReplyType
  | int (k : IntType)
  | bool
  | string
  | cString
  | bigNum (b : BigNumType)
  | value
  | unit
  | vec (t : ReplyType)
  | array (t : ReplyType) (n : Nat)
  | tuple (t : ReplyType) (ts : List ReplyType)
  | hashMap (k v : ReplyType)
  | btreeMap (k v : ReplyType)
  | hashSet (t : ReplyType)
  | btreeSet (t : ReplyType)
  | option (t : ReplyType)
  | box (t : ReplyType)

structure Component where
  Carrier : Type
  [conv : FromRedisValue Carrier]

structure TupleComponents where
  Carrier : Type
  [conv : FromRedisTuple Carrier]

attribute [instance] Component.conv TupleComponents.conv

namespace ReplyType

open scoped Classical in
mutual

variable [Libraries]

noncomputable def component : ReplyType → Component
  | int k => ⟨k.Carrier⟩
  | bool => ⟨Bool⟩
  | string => ⟨String⟩
  | cString => ⟨CString⟩
  | bigNum b => ⟨Libraries.BigNum b⟩
  | value => ⟨Value⟩
  | unit => ⟨Unit⟩
  | vec t => ⟨List t.component.Carrier⟩
  | array t n => ⟨List.Vector t.component.Carrier n⟩
  | tuple t ts => ⟨Tuple (t.component.Carrier × (components ts).Carrier)⟩
  | hashMap k v => ⟨HashMap k.component.Carrier v.component.Carrier⟩
  | btreeMap k v => ⟨BTreeMap k.component.Carrier v.component.Carrier⟩
  | hashSet t => ⟨HashSet t.component.Carrier⟩
  | btreeSet t => ⟨BTreeSet t.component.Carrier⟩
  | option t => ⟨Option t.component.Carrier⟩
  | box t => ⟨Boxed t.component.Carrier⟩

noncomputable def components : List ReplyType → TupleComponents
  | [] => ⟨Unit⟩
  | t :: ts => ⟨t.component.Carrier × (components ts).Carrier⟩

end

abbrev Carrier [Libraries] (t : ReplyType) : Type := t.component.Carrier

end ReplyType

end RedisRs
