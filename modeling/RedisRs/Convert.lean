import RedisRs.Error
import Mathlib.Algebra.Ring.Int.Defs
import Mathlib.Algebra.Ring.Nat

/-!
# Converting replies: `FromRedisValue`
-/

namespace RedisRs

open ParsingError

abbrev ParseResult := Except ParsingError

def fromUtf8 (bytes : Bytes) : Option String := String.fromUTF8? ⟨⟨bytes⟩⟩

def parseDigits : List Char → Option Nat
  | [] => none
  | ds => if ds.all Char.isDigit then some (ds.foldl (fun n c => 10 * n + (c.toNat - 48)) 0) else none

def parseInt (lo hi : Int) (s : String) : Option Int :=
  let n : Option Int := match s.toList with
    | '-' :: ds => if lo < 0 then (parseDigits ds).map fun n => -(n : Int) else none
    | '+' :: ds => (parseDigits ds).map Int.ofNat
    | ds => (parseDigits ds).map Int.ofNat
  n.filter fun n => lo ≤ n ∧ n ≤ hi

def f64ToInt (lo hi : Int) (bits : UInt64) : Int :=
  let exponent := bits.toNat / 2 ^ 52 % 2 ^ 11
  let mantissa := bits.toNat % 2 ^ 52
  let negative := 2 ^ 63 ≤ bits.toNat
  if exponent = 2047 ∧ mantissa ≠ 0 then 0
  else
    let magnitude : Nat :=
      if exponent < 1023 then 0
      else if 1075 ≤ exponent then (2 ^ 52 + mantissa) * 2 ^ (exponent - 1075)
      else (2 ^ 52 + mantissa) / 2 ^ (1075 - exponent)
    max lo (min hi (if negative then -(magnitude : Int) else magnitude))

def fromRedisValueForNum {α : Type} (cast : Int → α) (lo hi : Int) (v : Value) : ParseResult α :=
  let v := match v with
    | .attribute data _ => data
    | v => v
  match v with
  | .int n => .ok (cast n.toInt)
  | .simpleString s => match parseInt lo hi s with
    | some n => .ok (cast n)
    | none => .error (invalidType v "Could not convert from string.")
  | .bulkString bytes => match fromUtf8 bytes with
    | none => .error invalidUtf8
    | some s => match parseInt lo hi s with
      | some n => .ok (cast n)
      | none => .error (invalidType v "Could not convert from string.")
  | .double bits => .ok (cast (f64ToInt lo hi bits))
  | _ => .error (invalidType v "Response type not convertible to numeric.")

class FromRedisValue (α : Type) where
  fromRedisValueRef : Value → ParseResult α
  fromRedisValue : Value → ParseResult α
  fromRedisValueRefs : List Value → ParseResult (List α) := List.mapM fromRedisValueRef
  fromRedisValues : List Value → ParseResult (List α) := List.mapM fromRedisValue
  fromEachRedisValues : List Value → List (ParseResult α) := List.map fromRedisValue
  fromByteSlice : Bytes → Option (List α) :=
    fun bytes => ((fromRedisValue (.bulkString bytes)).map ([·])).toOption
  fromByteVec : Bytes → ParseResult (List α) :=
    fun bytes => (fromRedisValue (.bulkString bytes)).map ([·])

open FromRedisValue

def getInnerValue : Value → Value
  | .attribute data _ => data
  | v => v

def Value.intoSequence : Value → Except Value (List Value)
  | .array items | .set items => .ok items
  | .nil => .ok []
  | v => .error v

instance : FromRedisValue Value where
  fromRedisValueRef v := .ok v
  fromRedisValue v := .ok v

instance : FromRedisValue Unit where
  fromRedisValueRef
    | .serverError err => .error (ofServerError err)
    | _ => .ok ()
  fromRedisValue
    | .serverError err => .error (ofServerError err)
    | _ => .ok ()

instance : FromRedisValue Int64 where
  fromRedisValueRef := fromRedisValueForNum Int64.ofInt (-2 ^ 63) (2 ^ 63 - 1)
  fromRedisValue := fromRedisValueForNum Int64.ofInt (-2 ^ 63) (2 ^ 63 - 1)

instance : FromRedisValue UInt64 where
  fromRedisValueRef := fromRedisValueForNum UInt64.ofInt 0 (2 ^ 64 - 1)
  fromRedisValue := fromRedisValueForNum UInt64.ofInt 0 (2 ^ 64 - 1)

instance : FromRedisValue UInt16 where
  fromRedisValueRef := fromRedisValueForNum UInt16.ofInt 0 65535
  fromRedisValue := fromRedisValueForNum UInt16.ofInt 0 65535

instance : FromRedisValue UInt8 where
  fromRedisValueRef := fromRedisValueForNum UInt8.ofInt 0 255
  fromRedisValue := fromRedisValueForNum UInt8.ofInt 0 255
  fromByteSlice bytes := some bytes
  fromByteVec bytes := .ok bytes

inductive Text
  | str (s : String)
  | ofF64 (bits : UInt64)
deriving DecidableEq, Repr

def Text.fromRedisValue (v : Value) : ParseResult Text :=
  match getInnerValue v with
  | .bulkString bytes => match fromUtf8 bytes with
    | some s => .ok (.str s)
    | none => .error invalidUtf8
  | .okay => .ok (.str "OK")
  | .simpleString s => .ok (.str s)
  | .verbatimString _ text => .ok (.str text)
  | .double bits => .ok (.ofF64 bits)
  | .int n => .ok (.str (toString n.toInt))
  | v => .error (invalidType v "Response type not string compatible.")

instance : FromRedisValue Text where
  fromRedisValueRef := Text.fromRedisValue
  fromRedisValue := Text.fromRedisValue

instance {α : Type} [FromRedisValue α] : FromRedisValue (List α) where
  fromRedisValueRef v := match v with
    | .bulkString bytes => match fromByteSlice bytes with
      | some x => .ok x
      | none => .error (invalidType v "Conversion failed.")
    | .array items => fromRedisValueRefs items
    | .set items => fromRedisValueRefs items
    | .map items => items.mapM fun item => fromRedisValueRef (.map [item])
    | .nil => .ok []
    | _ => .error (invalidType v "Response type not vector compatible.")
  fromRedisValue v := match v with
    | .bulkString bytes => fromByteVec bytes
    | .array items => fromRedisValues items
    | .set items => fromRedisValues items
    | .map items => items.mapM fun item => fromRedisValue (.map [item])
    | .nil => .ok []
    | _ => .error (invalidType v "Response type not vector compatible.")

def tupleItems (n : Nat) (v : Value) : ParseResult (List Value) :=
  match getInnerValue v with
  | .array items =>
    if items.length ≠ n then .error (invalidType (.array items) "Array response of wrong dimension")
    else .ok items
  | .set items =>
    if items.length ≠ n then .error (invalidType (.array items) "Set response of wrong dimension")
    else .ok items
  | .map items =>
    if n ≠ items.length * 2 then .error (invalidType (.map items) "Map response of wrong dimension")
    else .ok (items.flatMap fun (a, b) => [a, b])
  | v => .error (invalidType v "Not a Array response")

def fromRedisValueTuple1 {α : Type} [FromRedisValue α] (v : Value) : ParseResult α := do
  match ← tupleItems 1 v with
  | [a] => fromRedisValue a
  | items => .error (arity items.length 1)

def fromRedisValueTuple2 {α β : Type} [FromRedisValue α] [FromRedisValue β] (v : Value) : ParseResult (α × β) := do
  match ← tupleItems 2 v with
  | [a, b] => return (← fromRedisValue a, ← fromRedisValue b)
  | items => .error (arity items.length 2)

def fromRedisValueTuple3 {α β γ : Type} [FromRedisValue α] [FromRedisValue β] [FromRedisValue γ]
    (v : Value) : ParseResult (α × β × γ) := do
  match ← tupleItems 3 v with
  | [a, b, c] => return (← fromRedisValue a, ← fromRedisValue b, ← fromRedisValue c)
  | items => .error (arity items.length 3)

def ParseResult.toRedisResult {α : Type} : ParseResult α → RedisResult α
  | .ok a => .ok a
  | .error err => .error (.parsing err)

theorem mapM_fromRedisValue_value (vs : List Value) :
    vs.mapM (fromRedisValue (α := Value)) = .ok vs := by
  induction vs with
  | nil => rfl
  | cons v vs ih => rw [List.mapM_cons, ih]; rfl

@[simp] theorem fromRedisValue_array_value (vs : List Value) :
    (fromRedisValue (.array vs) : ParseResult (List Value)) = .ok vs :=
  mapM_fromRedisValue_value vs

@[simp] theorem fromRedisValue_nil_value :
    (fromRedisValue .nil : ParseResult (List Value)) = .ok [] := rfl

mutual

def Value.extractError : Value → RedisResult Value
  | .array items => (extractErrorVec items).map .array
  | .map items => (extractErrorMap items).map .map
  | .attribute data attributes => do
    let data ← data.extractError
    let attributes ← extractErrorMap attributes
    return .attribute data attributes
  | .set items => (extractErrorVec items).map .set
  | .push kind data => (extractErrorVec data).map (.push kind)
  | .serverError err => .error (.server err)
  | v => .ok v

def extractErrorVec : List Value → RedisResult (List Value)
  | [] => .ok []
  | v :: vs => do
    let v ← v.extractError
    let vs ← extractErrorVec vs
    return v :: vs

def extractErrorMap : List (Value × Value) → RedisResult (List (Value × Value))
  | [] => .ok []
  | (key, value) :: items => do
    let key ← key.extractError
    let value ← value.extractError
    let items ← extractErrorMap items
    return (key, value) :: items

end

theorem Value.extractError_not_serverError {v w : Value} (h : v.extractError = .ok w) : w.isServerError = false := by
  unfold Value.extractError at h
  split at h
  · obtain ⟨_, -, rfl⟩ := exists_of_map_eq_ok h
    rfl
  · obtain ⟨_, -, rfl⟩ := exists_of_map_eq_ok h
    rfl
  · obtain ⟨_, -, h⟩ := exists_of_bind_eq_ok h
    obtain ⟨_, -, h⟩ := exists_of_bind_eq_ok h
    cases h
    rfl
  · obtain ⟨_, -, rfl⟩ := exists_of_map_eq_ok h
    rfl
  · obtain ⟨_, -, rfl⟩ := exists_of_map_eq_ok h
    rfl
  · cases h
  · next hother =>
    cases h
    rw [Bool.eq_false_iff, ne_eq, isServerError_iff]
    exact fun ⟨err, herr⟩ => hother err herr

end RedisRs
