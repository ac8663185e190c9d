import RedisRs.ClusterRouting
import RedisRs.Texts

/-!
# The slot map
-/

namespace RedisRs

structure SlotRangeMap (V : Type) where
  inner : List (UInt16 × UInt16 × V)
  sorted : inner.Pairwise fun a b => a.1 < b.1

namespace SlotRangeMap

variable {V : Type}

def new : SlotRangeMap V := ⟨[], .nil⟩

def insertEnd (stop : UInt16) (x : UInt16 × V) : List (UInt16 × UInt16 × V) → List (UInt16 × UInt16 × V)
  | [] => [(stop, x)]
  | y :: rest =>
    if stop < y.1 then (stop, x) :: y :: rest
    else if stop = y.1 then (stop, x) :: rest
    else y :: insertEnd stop x rest

theorem mem_insertEnd {stop : UInt16} {x : UInt16 × V} {inner : List (UInt16 × UInt16 × V)}
    (h : inner.Pairwise fun a b => a.1 < b.1) {y : UInt16 × UInt16 × V} :
    y ∈ insertEnd stop x inner ↔ y = (stop, x) ∨ y ∈ inner ∧ y.1 ≠ stop := by
  induction inner with
  | nil => simp [insertEnd]
  | cons z rest ih =>
    obtain ⟨hz, hrest⟩ := List.pairwise_cons.1 h
    rw [insertEnd]
    split_ifs with hlt heq
    · have hne : ∀ w ∈ z :: rest, w.1 ≠ stop := by
        intro w hw hstop
        rcases List.mem_cons.1 hw with rfl | hw
        · exact UInt16.lt_irrefl _ (hstop ▸ hlt)
        · exact UInt16.lt_irrefl _ (hstop ▸ UInt16.lt_trans hlt (hz w hw))
      rw [List.mem_cons]
      exact or_congr_right ⟨fun hy => ⟨hy, hne y hy⟩, And.left⟩
    · have hne : ∀ w ∈ rest, w.1 ≠ stop := fun w hw hstop => UInt16.lt_irrefl _ (hstop ▸ heq ▸ hz w hw)
      rw [List.mem_cons, List.mem_cons]
      refine or_congr_right ⟨fun hy => ⟨.inr hy, hne y hy⟩, fun ⟨hy, hstop⟩ => hy.resolve_left ?_⟩
      rintro rfl
      exact hstop heq.symm
    · rw [List.mem_cons, ih hrest, List.mem_cons, or_left_comm, or_and_right]
      refine or_congr_right (or_congr_left ⟨fun hy => ⟨hy, ?_⟩, And.left⟩)
      rw [hy]
      exact Ne.symm heq

theorem sorted_insertEnd (stop : UInt16) (x : UInt16 × V) {inner : List (UInt16 × UInt16 × V)}
    (h : inner.Pairwise fun a b => a.1 < b.1) : (insertEnd stop x inner).Pairwise fun a b => a.1 < b.1 := by
  induction inner with
  | nil => exact List.pairwise_singleton _ _
  | cons y rest ih =>
    obtain ⟨hy, hrest⟩ := List.pairwise_cons.1 h
    rw [insertEnd]
    split_ifs with hlt heq
    · refine List.pairwise_cons.2 ⟨fun z hz => ?_, h⟩
      rcases List.mem_cons.1 hz with rfl | hz
      · exact hlt
      · exact UInt16.lt_trans hlt (hy z hz)
    · exact List.pairwise_cons.2 ⟨fun z hz => heq ▸ hy z hz, hrest⟩
    · refine List.pairwise_cons.2 ⟨fun z hz => ?_, ih hrest⟩
      rcases (mem_insertEnd hrest).1 hz with rfl | ⟨hz, -⟩
      · exact UInt16.lt_of_le_of_ne (UInt16.not_lt.1 hlt) (Ne.symm heq)
      · exact hy z hz

def insert (m : SlotRangeMap V) (start stop : UInt16) (value : V) : SlotRangeMap V :=
  ⟨insertEnd stop (start, value) m.inner, sorted_insertEnd _ _ m.sorted⟩

def get (m : SlotRangeMap V) (slot : UInt16) : Option V :=
  (m.inner.find? fun range => slot ≤ range.1).bind fun range => if range.2.1 ≤ slot then some range.2.2 else none

def values (m : SlotRangeMap V) : List V := m.inner.map fun range => range.2.2

end SlotRangeMap

structure SlotRange where
  start : UInt16
  stop : UInt16
  master : NodeAddress
  replicas : List NodeAddress
deriving DecidableEq, Repr

structure SlotAddrs where
  primary : NodeAddress
  replicas : List NodeAddress
deriving DecidableEq, Repr

inductive ReadCandidates
  | anyNode (slot : UInt16) (primary : NodeAddress) (replicas : List NodeAddress)
  | replicasOnly (slot : UInt16) (replicas : List NodeAddress)

structure ReadPick where
  strategy : Option (ReadCandidates → NodeAddress)
  random : Nat

namespace SlotAddrs

def fromSlot (slot : SlotRange) : SlotAddrs := ⟨slot.master, slot.replicas⟩

def toList (addrs : SlotAddrs) : List NodeAddress := addrs.primary :: addrs.replicas

def slotAddr (addrs : SlotAddrs) (slot : UInt16) (slotAddr : SlotAddr) (pick : ReadPick) : NodeAddress :=
  match pick.strategy with
  | none => match slotAddr with
    | .master | .replicaOptional => addrs.primary
    | .replicaRequired => (addrs.replicas[pick.random % addrs.replicas.length]?).getD addrs.primary
  | some strategy =>
    if addrs.replicas.isEmpty then addrs.primary
    else match slotAddr with
      | .master => addrs.primary
      | .replicaOptional => strategy (.anyNode slot addrs.primary addrs.replicas)
      | .replicaRequired => strategy (.replicasOnly slot addrs.replicas)

end SlotAddrs

structure SlotMap where
  slots : SlotRangeMap SlotAddrs

namespace SlotMap

def new : SlotMap := ⟨.new⟩

def fillSlots (map : SlotMap) (slots : List SlotRange) : SlotMap :=
  ⟨slots.foldl (fun m slot => m.insert slot.start slot.stop (.fromSlot slot)) map.slots⟩

def fromSlots (slots : List SlotRange) : SlotMap := new.fillSlots slots

def clear (_ : SlotMap) : SlotMap := new

def slotAddrForRoute (map : SlotMap) (route : Route) (pick : ReadPick) : Option NodeAddress :=
  (map.slots.get route.slot).map fun addrs => addrs.slotAddr route.slot route.slotAddr pick

theorem slotAddrForRoute_master (map : SlotMap) (slot : UInt16) (pick : ReadPick) :
    map.slotAddrForRoute ⟨slot, .master⟩ pick = (map.slots.get slot).map SlotAddrs.primary := by
  rw [slotAddrForRoute]
  refine congrArg (Option.map · (map.slots.get slot)) (funext fun addrs => ?_)
  rw [SlotAddrs.slotAddr]
  cases pick.strategy with
  | none => rfl
  | some strategy => exact ite_self _

def shardFallbackAddrs (map : SlotMap) (route : Route) : List NodeAddress :=
  match map.slots.get route.slot with
  | none => []
  | some addrs => match route.slotAddr with
    | .master => []
    | .replicaOptional => addrs.replicas ++ [addrs.primary]
    | .replicaRequired => addrs.replicas

def values (map : SlotMap) : List SlotAddrs := map.slots.values

def allUniqueAddresses (map : SlotMap) (onlyPrimaries : Bool) : List NodeAddress :=
  (if onlyPrimaries then map.values.map SlotAddrs.primary else map.values.flatMap SlotAddrs.toList).dedup

def addressesForAllPrimaries (map : SlotMap) : List NodeAddress := map.allUniqueAddresses true

def addressesForAllNodes (map : SlotMap) : List NodeAddress := map.allUniqueAddresses false

def Nonempty (map : SlotMap) : Prop := map.slots.inner ≠ []

variable {slots : List SlotRange}

theorem nonempty_fillSlots {map : SlotMap} (h : map.Nonempty ∨ slots ≠ []) : (map.fillSlots slots).Nonempty := by
  have hins : ∀ (m : SlotRangeMap SlotAddrs) (start stop : UInt16) (addrs : SlotAddrs),
      (m.insert start stop addrs).inner ≠ [] := by
    intro m start stop addrs
    rcases m with ⟨_ | ⟨y, rest⟩, hm⟩ <;> simp only [SlotRangeMap.insert, SlotRangeMap.insertEnd]
    · simp
    · split_ifs <;> simp
  induction slots generalizing map with
  | nil => simpa [fillSlots] using h
  | cons slot slots ih => exact @ih ⟨map.slots.insert _ _ _⟩ (.inl (hins _ _ _ _))

theorem nonempty_fromSlots (h : slots ≠ []) : (fromSlots slots).Nonempty :=
  nonempty_fillSlots (.inr h)

theorem nonempty_fromSlots_iff : (fromSlots slots).Nonempty ↔ slots ≠ [] := by
  refine ⟨fun h hnil => ?_, nonempty_fromSlots⟩
  subst hnil
  exact h rfl

end SlotMap

def isWildcardAddress (address : String) : Bool := address = "0.0.0.0" || address = "::"

def tryToAddress (addrOfAnsweringNode : String) : Value → Option NodeAddress
  | .array (host :: port :: _) => do
    let hostname ← match host with
      | .bulkString ip =>
        let hostname := fromUtf8Lossy ip
        if hostname = "" || isWildcardAddress hostname then some addrOfAnsweringNode
        else if hostname = "?" then none
        else some hostname
      | .nil => some addrOfAnsweringNode
      | _ => none
    if hostname = "" then none
    else match port with
      | .int port => some ⟨hostname, UInt16.ofInt port.toInt⟩
      | _ => none
  | _ => none

def firstAddress (addrOfAnsweringNode : String) : List Value → Option (NodeAddress × List Value)
  | [] => none
  | node :: nodes => match tryToAddress addrOfAnsweringNode node with
    | some primary => some (primary, nodes)
    | none => firstAddress addrOfAnsweringNode nodes

def parseEntry (addrOfAnsweringNode : String) : List Value → Option SlotRange
  | .int start :: .int stop :: node :: nodes => do
    let (primary, rest) ← firstAddress addrOfAnsweringNode (node :: nodes)
    return ⟨UInt16.ofInt start.toInt, UInt16.ofInt stop.toInt, primary,
      rest.filterMap (tryToAddress addrOfAnsweringNode)⟩
  | _ => none

def parseEntries (addrOfAnsweringNode : String) : List Value → List SlotRange
  | .array item :: items => (parseEntry addrOfAnsweringNode item).toList ++ parseEntries addrOfAnsweringNode items
  | _ => []

def parseSlots (rawSlotResp : Value) (addrOfAnsweringNode : String) : RedisResult (List SlotRange) :=
  match rawSlotResp with
  | .array items => .ok (parseEntries addrOfAnsweringNode items)
  | _ => .ok []

def slotCmd : Cmd := (cmd "CLUSTER").writeArg (bytesOf "SLOTS")

end RedisRs
