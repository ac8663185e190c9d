import RedisRs.ArgCounts
import RedisRs.Texts

/-!
# Commands that carry the number of their arguments
-/

namespace RedisRs

open ToRedisArgs

inductive RadiusOrder
  | unsorted
  | asc
  | desc
deriving DecidableEq, Repr

structure RadiusOptions where
  withCoord : Bool := false
  withDist : Bool := false
  count : Option UInt64 := none
  order : RadiusOrder := .unsorted
  store : Option (List Bytes) := none
  storeDist : Option (List Bytes) := none

instance : ToRedisArgs RadiusOptions where
  writeRedisArgs o :=
    (if o.withCoord then [bytesOf "WITHCOORD"] else []) ++
    (if o.withDist then [bytesOf "WITHDIST"] else []) ++
    (match o.count with
      | some n => [bytesOf "COUNT", itoa n.toNat]
      | none => []) ++
    (match o.order with
      | .asc => [bytesOf "ASC"]
      | .desc => [bytesOf "DESC"]
      | .unsorted => []) ++
    (match o.store with
      | some store => bytesOf "STORE" :: store
      | none => []) ++
    (match o.storeDist with
      | some storeDist => bytesOf "STOREDIST" :: storeDist
      | none => [])
  numOfArgs o :=
    (if o.withCoord then 1 else 0) +
    (if o.withDist then 1 else 0) +
    (if o.count.isSome then 2 else 0) +
    (match o.order with
      | .asc | .desc => 1
      | .unsorted => 0) +
    (1 + (o.store.map List.length).getD 0) +
    (1 + (o.storeDist.map List.length).getD 0)

theorem RadiusOptions.numOfArgs_eq (o : RadiusOptions) : numOfArgs o =
    (toRedisArgs o).length + (if o.store.isSome then 0 else 1) + (if o.storeDist.isSome then 0 else 1) := by
  obtain ⟨withCoord, withDist, count, order, store, storeDist⟩ := o
  simp only [numOfArgs, toRedisArgs, writeRedisArgs, List.length_append]
  cases withCoord <;> cases withDist <;> cases count <;> cases order <;> cases store <;> cases storeDist <;>
    simp <;> omega

structure HotkeysOptions where
  cpu : Bool
  net : Bool
  countK : Option UInt64
  durationSecs : Option UInt64
  sampleRatio : Option UInt64
  slots : Option (List UInt16)

def HotkeysOptions.metricsCount (o : HotkeysOptions) : Nat := o.cpu.toNat + o.net.toNat

def numberOption (name : String) : Option UInt64 → List Bytes
  | some n => [bytesOf name, itoa n.toNat]
  | none => []

instance : ToRedisArgs HotkeysOptions where
  writeRedisArgs o :=
    [bytesOf "METRICS", itoa o.metricsCount] ++
    (if o.cpu then [bytesOf "CPU"] else []) ++
    (if o.net then [bytesOf "NET"] else []) ++
    numberOption "COUNT" o.countK ++
    numberOption "DURATION" o.durationSecs ++
    numberOption "SAMPLE" o.sampleRatio ++
    (match o.slots with
      | some slots => bytesOf "SLOTS" :: itoa slots.length :: slots.map fun slot => itoa slot.toNat
      | none => [])
  numOfArgs o :=
    2 + o.cpu.toNat + o.net.toNat +
    (if o.countK.isSome then 2 else 0) +
    (if o.durationSecs.isSome then 2 else 0) +
    (if o.sampleRatio.isSome then 2 else 0) +
    (match o.slots with
      | some slots => 2 + slots.length
      | none => 0)

theorem length_numberOption (name : String) (n : Option UInt64) :
    (numberOption name n).length = if n.isSome then 2 else 0 := by
  cases n <;> rfl

theorem HotkeysOptions.countsRight : CountsRight HotkeysOptions := by
  rintro ⟨cpu, net, countK, durationSecs, sampleRatio, slots⟩
  simp only [numOfArgs, argsWritten, toRedisArgs, writeRedisArgs, List.length_append, length_numberOption]
  cases cpu <;> cases net <;> cases slots <;> simp <;> omega

structure CountedCommand (α : Type) where
  name : String
  before : List Bytes
  counted : α
  after : List Bytes := []

namespace CountedCommand

section

variable {α : Type} [ToRedisArgs α]

def cmd (c : CountedCommand α) : Cmd :=
  Cmd.ofArgs (bytesOf c.name :: c.before ++ itoa (numOfArgs c.counted) :: toRedisArgs c.counted ++ c.after)

/-- The count in the command is the number of the arguments it counts. -/
def CountIsRight (c : CountedCommand α) : Prop :=
  c.cmd.argsIter[c.before.length + 1]? = some (.simple (itoa (argsWritten c.counted)))

theorem itoa_injective : Function.Injective itoa := by
  intro m n h
  have htext : Nat.repr m = Nat.repr n := by
    have := congrArg fromUtf8 h
    rw [itoa, itoa, fromUtf8_bytesOf, fromUtf8_bytesOf] at this
    exact Option.some.inj this
  have hm : parseInt 0 (max m n) (Nat.repr m) = some (m : Int) :=
    parseInt_natText (Int.natCast_nonneg m) (Int.le_max_left _ _)
  rw [htext, parseInt_natText (Int.natCast_nonneg n) (Int.le_max_right _ _)] at hm
  exact (Int.ofNat.inj (Option.some.inj hm)).symm

theorem countIsRight_iff (c : CountedCommand α) : c.CountIsRight ↔ numOfArgs c.counted = argsWritten c.counted := by
  have hat : c.cmd.argsIter[c.before.length + 1]? = some (.simple (itoa (numOfArgs c.counted))) := by
    rw [cmd, Cmd.argsIter_ofArgs]
    simp
  rw [CountIsRight, hat, Option.some_inj, Arg.simple.injEq, itoa_injective.eq_iff]

end

end CountedCommand

inductive Expiry
  | ex (sec : UInt64)
  | px (ms : UInt64)
  | exat (timestampSec : UInt64)
  | pxat (timestampMs : UInt64)
  | persist
deriving DecidableEq, Repr

instance : ToRedisArgs Expiry where
  writeRedisArgs
    | .ex sec => [bytesOf "EX", itoa sec.toNat]
    | .px ms => [bytesOf "PX", itoa ms.toNat]
    | .exat timestampSec => [bytesOf "EXAT", itoa timestampSec.toNat]
    | .pxat timestampMs => [bytesOf "PXAT", itoa timestampMs.toNat]
    | .persist => [bytesOf "PERSIST"]

inductive ExpireOption
  | none
  | nx
  | xx
  | gt
  | lt
deriving DecidableEq, Repr

instance : ToRedisArgs ExpireOption where
  writeRedisArgs
    | .nx => [bytesOf "NX"]
    | .xx => [bytesOf "XX"]
    | .gt => [bytesOf "GT"]
    | .lt => [bytesOf "LT"]
    | .none => []

namespace Commands

section Fields

variable {K F : Type} [ToRedisArgs K] [ToRedisArgs F]

def fieldsCommand (name : String) (before : List Bytes) (fields : F) : CountedCommand F where
  name := name
  before := before ++ [bytesOf "FIELDS"]
  counted := fields

def hgetEx (key : K) (fields : F) (expireAt : Expiry) :=
  fieldsCommand "HGETEX" (toRedisArgs key ++ toRedisArgs expireAt) fields
def hgetDel (key : K) (fields : F) := fieldsCommand "HGETDEL" (toRedisArgs key) fields
def httl (key : K) (fields : F) := fieldsCommand "HTTL" (toRedisArgs key) fields
def hpttl (key : K) (fields : F) := fieldsCommand "HPTTL" (toRedisArgs key) fields
def hexpire (key : K) (seconds : Int64) (opt : ExpireOption) (fields : F) :=
  fieldsCommand "HEXPIRE" (toRedisArgs key ++ toRedisArgs seconds ++ toRedisArgs opt) fields
def hexpireAt (key : K) (ts : Int64) (opt : ExpireOption) (fields : F) :=
  fieldsCommand "HEXPIREAT" (toRedisArgs key ++ toRedisArgs ts ++ toRedisArgs opt) fields
def hexpireTime (key : K) (fields : F) := fieldsCommand "HEXPIRETIME" (toRedisArgs key) fields
def hpersist (key : K) (fields : F) := fieldsCommand "HPERSIST" (toRedisArgs key) fields
def hpexpire (key : K) (milliseconds : Int64) (opt : ExpireOption) (fields : F) :=
  fieldsCommand "HPEXPIRE" (toRedisArgs key ++ toRedisArgs milliseconds ++ toRedisArgs opt) fields
def hpexpireAt (key : K) (ts : Int64) (opt : ExpireOption) (fields : F) :=
  fieldsCommand "HPEXPIREAT" (toRedisArgs key ++ toRedisArgs ts ++ toRedisArgs opt) fields
def hpexpireTime (key : K) (fields : F) := fieldsCommand "HPEXPIRETIME" (toRedisArgs key) fields

end Fields

section Keys

variable {D K W T : Type} [ToRedisArgs D] [ToRedisArgs K] [ToRedisArgs W] [ToRedisArgs T]

def storeCommand (name : String) (dstkey : D) (keys : K) (words : List String) : CountedCommand K where
  name := name
  before := toRedisArgs dstkey
  counted := keys
  after := words.map bytesOf

def zinterstore (dstkey : D) (keys : K) := storeCommand "ZINTERSTORE" dstkey keys []
def zinterstoreMin (dstkey : D) (keys : K) := storeCommand "ZINTERSTORE" dstkey keys ["AGGREGATE", "MIN"]
def zinterstoreMax (dstkey : D) (keys : K) := storeCommand "ZINTERSTORE" dstkey keys ["AGGREGATE", "MAX"]
def zunionstore (dstkey : D) (keys : K) := storeCommand "ZUNIONSTORE" dstkey keys []
def zunionstoreMin (dstkey : D) (keys : K) := storeCommand "ZUNIONSTORE" dstkey keys ["AGGREGATE", "MIN"]
def zunionstoreMax (dstkey : D) (keys : K) := storeCommand "ZUNIONSTORE" dstkey keys ["AGGREGATE", "MAX"]

def weightsCommand (name : String) (dstkey : D) (keys : List (K × W)) (words : List String) :
    CountedCommand (List (Ref K)) where
  name := name
  before := toRedisArgs dstkey
  counted := keys.map fun (key, _) => ⟨key⟩
  after := words.map bytesOf ++ bytesOf "WEIGHTS" :: toRedisArgs (keys.map fun (_, weight) => Ref.mk weight)

def zinterstoreWeights (dstkey : D) (keys : List (K × W)) := weightsCommand "ZINTERSTORE" dstkey keys []
def zinterstoreMinWeights (dstkey : D) (keys : List (K × W)) :=
  weightsCommand "ZINTERSTORE" dstkey keys ["AGGREGATE", "MIN"]
def zinterstoreMaxWeights (dstkey : D) (keys : List (K × W)) :=
  weightsCommand "ZINTERSTORE" dstkey keys ["AGGREGATE", "MAX"]
def zunionstoreWeights (dstkey : D) (keys : List (K × W)) := weightsCommand "ZUNIONSTORE" dstkey keys []
def zunionstoreMinWeights (dstkey : D) (keys : List (K × W)) :=
  weightsCommand "ZUNIONSTORE" dstkey keys ["AGGREGATE", "MIN"]
def zunionstoreMaxWeights (dstkey : D) (keys : List (K × W)) :=
  weightsCommand "ZUNIONSTORE" dstkey keys ["AGGREGATE", "MAX"]

def mpopCommand (name : String) (before : List Bytes) (keys : K) (side : String) (count : Int64) : CountedCommand K where
  name := name
  before := before
  counted := keys
  after := [bytesOf side, bytesOf "COUNT"] ++ toRedisArgs count

def bzmpopMax (timeout : T) (keys : K) (count : Int64) := mpopCommand "BZMPOP" (toRedisArgs timeout) keys "MAX" count
def zmpopMax (keys : K) (count : Int64) := mpopCommand "ZMPOP" [] keys "MAX" count
def bzmpopMin (timeout : T) (keys : K) (count : Int64) := mpopCommand "BZMPOP" (toRedisArgs timeout) keys "MIN" count
def zmpopMin (keys : K) (count : Int64) := mpopCommand "ZMPOP" [] keys "MIN" count

end Keys

end Commands

/-- A type counts its arguments right exactly if `counted` says so, the options of `GEORADIUS` do if both keys to store at
are given, those of `HOTKEYS` always; and the count in a command is right exactly if its keys or fields counted right. -/
theorem argument_counts_iff (t : ArgType) (o : RadiusOptions) (h : HotkeysOptions) {α : Type} [ToRedisArgs α]
    (c : CountedCommand α) :
    ((∀ x : t.Carrier, numOfArgs x = (toRedisArgs x).length) ↔ t.counted = true) ∧
    (numOfArgs o = (toRedisArgs o).length ↔ o.store.isSome = true ∧ o.storeDist.isSome = true) ∧
    numOfArgs h = (toRedisArgs h).length ∧
    (c.CountIsRight ↔ numOfArgs c.counted = (toRedisArgs c.counted).length) := by
  refine ⟨t.counted_iff.symm, ?_, h.countsRight, c.countIsRight_iff⟩
  rw [o.numOfArgs_eq]
  cases o.store.isSome <;> cases o.storeDist.isSome <;> simp
  omega

theorem argument_counts_wrong :
    (numOfArgs ([[1, 2], [3]] : List (List Int64)) = 2 ∧ (toRedisArgs ([[1, 2], [3]] : List (List Int64))).length = 3) ∧
    (numOfArgs ({} : RadiusOptions) = 2 ∧ toRedisArgs ({} : RadiusOptions) = []) ∧
    (numOfArgs (Cow.owned ([1, 2] : List Int64)) = 1 ∧ (toRedisArgs (Cow.owned ([1, 2] : List Int64))).length = 2) ∧
    ¬(Commands.zinterstore "dst" [["a", "b"], ["c"]]).CountIsRight := by
  refine ⟨⟨rfl, rfl⟩, ⟨rfl, rfl⟩, ⟨rfl, rfl⟩, fun h => ?_⟩
  have hcount := (CountedCommand.countIsRight_iff _).1 h
  cases hcount

end RedisRs
