import RedisRs.ReplyTypes

/-!
# The arguments a value is written as: `ToRedisArgs`
-/

namespace RedisRs

class ToRedisArgs (α : Type) where
  writeRedisArgs : α → List Bytes
  numOfArgs : α → Nat := fun _ => 1
  writeArgsFromSlice : List α → List Bytes := List.flatMap writeRedisArgs
  isSingleVecArg : List α → Bool := fun items => match items with
    | [item] => numOfArgs item ≤ 1
    | _ => false

open ToRedisArgs

def toRedisArgs {α : Type} [ToRedisArgs α] (x : α) : List Bytes := writeRedisArgs x

@[reducible]
def forItoa (α : Type) [MachineInt α] : ToRedisArgs α where
  writeRedisArgs x := [bytesOf (MachineInt.toInt x).repr]

instance : ToRedisArgs Int8 := forItoa Int8
instance : ToRedisArgs Int16 := forItoa Int16
instance : ToRedisArgs UInt16 := forItoa UInt16
instance : ToRedisArgs Int32 := forItoa Int32
instance : ToRedisArgs UInt32 := forItoa UInt32
instance : ToRedisArgs Int64 := forItoa Int64
instance : ToRedisArgs UInt64 := forItoa UInt64
instance : ToRedisArgs Int128 := forItoa Int128
instance : ToRedisArgs UInt128 := forItoa UInt128

instance : ToRedisArgs UInt8 where
  writeRedisArgs x := [bytesOf (MachineInt.toInt x).repr]
  writeArgsFromSlice items := [items]
  isSingleVecArg _ := true

instance : (k : IntType) → ToRedisArgs k.Carrier
  | .i8 => inferInstanceAs (ToRedisArgs Int8)
  | .i16 => inferInstanceAs (ToRedisArgs Int16)
  | .i32 => inferInstanceAs (ToRedisArgs Int32)
  | .i64 | .isize => inferInstanceAs (ToRedisArgs Int64)
  | .i128 => inferInstanceAs (ToRedisArgs Int128)
  | .u8 => inferInstanceAs (ToRedisArgs UInt8)
  | .u16 => inferInstanceAs (ToRedisArgs UInt16)
  | .u32 => inferInstanceAs (ToRedisArgs UInt32)
  | .u64 | .usize => inferInstanceAs (ToRedisArgs UInt64)
  | .u128 => inferInstanceAs (ToRedisArgs UInt128)

instance : ToRedisArgs Bool where
  writeRedisArgs b := [bytesOf (if b then "1" else "0")]

instance : ToRedisArgs String where
  writeRedisArgs s := [bytesOf s]

section Wrappers

variable {α : Type} [ToRedisArgs α]

structure Ref (α : Type) where
  val : α
deriving DecidableEq

instance : ToRedisArgs (Ref α) where
  writeRedisArgs x := writeRedisArgs x.val
  numOfArgs x := numOfArgs x.val

instance : ToRedisArgs (Boxed α) where
  writeRedisArgs x := writeRedisArgs x.val
  numOfArgs x := numOfArgs x.val

inductive Cow (α : Type)
  | borrowed (inner : α)
  | owned (inner : α)

instance : ToRedisArgs (Cow α) where
  writeRedisArgs
    | .borrowed inner => writeRedisArgs inner
    | .owned inner => writeRedisArgs inner

instance : ToRedisArgs (Option α) where
  writeRedisArgs
    | some x => writeRedisArgs x
    | none => []
  numOfArgs
    | some x => numOfArgs x
    | none => 0

def sliceNumOfArgs (items : List α) : Nat :=
  if isSingleVecArg items then 1
  else match items with
    | [item] => numOfArgs item
    | _ => items.length

instance : ToRedisArgs (List α) where
  writeRedisArgs := writeArgsFromSlice
  numOfArgs := sliceNumOfArgs

instance (n : Nat) : ToRedisArgs (List.Vector α n) where
  writeRedisArgs items := writeArgsFromSlice items.toList
  numOfArgs items := sliceNumOfArgs items.toList

structure SetInOrder (α : Type) where
  items : List α
  nodup : items.Nodup

instance : ToRedisArgs (SetInOrder α) where
  writeRedisArgs s := s.items.flatMap writeRedisArgs
  numOfArgs s := s.items.length

end Wrappers

structure MapInOrder (K V : Type) where
  items : List (K × V)
  nodup : (items.map Prod.fst).Nodup

section Maps

variable {K V : Type} [ToRedisArgs K] [ToRedisArgs V]

def writeEntries : List (K × V) → Ends (List Bytes)
  | [] => .ok []
  | (key, value) :: rest =>
    if numOfArgs key ≤ 1 ∧ numOfArgs value ≤ 1 then do
      return writeRedisArgs key ++ writeRedisArgs value ++ (← writeEntries rest)
    else .error .assertion

def MapInOrder.writeRedisArgs (m : MapInOrder K V) : Ends (List Bytes) := writeEntries m.items

end Maps

class ToRedisTuple (α : Type) where
  size : Nat
  writeItems : α → List Bytes

open ToRedisTuple

instance : ToRedisTuple Unit where
  size := 0
  writeItems _ := []

instance {α β : Type} [ToRedisArgs α] [ToRedisTuple β] : ToRedisTuple (α × β) where
  size := size β + 1
  writeItems x := writeRedisArgs x.1 ++ writeItems x.2

instance {α β : Type} [ToRedisArgs α] [ToRedisTuple β] : ToRedisArgs (Tuple (α × β)) where
  writeRedisArgs x := writeItems x.items
  numOfArgs _ := size (α × β)

inductive ArgType
  | int (k : IntType)
  | bool
  | string
  | ref (t : ArgType)
  | box (t : ArgType)
  | cow (t : ArgType)
  | option (t : ArgType)
  | vec (t : ArgType)
  | array (t : ArgType) (n : Nat)
  | tuple (t : ArgType) (ts : List ArgType)
  | set (t : ArgType)

structure ArgComponent where
  Carrier : Type
  [args : ToRedisArgs Carrier]

structure ArgTupleComponents where
  Carrier : Type
  [args : ToRedisTuple Carrier]

attribute [instance] ArgComponent.args ArgTupleComponents.args

namespace ArgType

mutual

def component : ArgType → ArgComponent
  | int k => ⟨k.Carrier⟩
  | bool => ⟨Bool⟩
  | string => ⟨String⟩
  | ref t => ⟨Ref t.component.Carrier⟩
  | box t => ⟨Boxed t.component.Carrier⟩
  | cow t => ⟨Cow t.component.Carrier⟩
  | option t => ⟨Option t.component.Carrier⟩
  | vec t => ⟨List t.component.Carrier⟩
  | array t n => ⟨List.Vector t.component.Carrier n⟩
  | tuple t ts => ⟨Tuple (t.component.Carrier × (components ts).Carrier)⟩
  | set t => ⟨SetInOrder t.component.Carrier⟩

def components : List ArgType → ArgTupleComponents
  | [] => ⟨Unit⟩
  | t :: ts => ⟨t.component.Carrier × (components ts).Carrier⟩

end

abbrev Carrier (t : ArgType) : Type := t.component.Carrier

end ArgType

end RedisRs
