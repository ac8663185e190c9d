import RedisRs.MultiShard
import RedisRs.PackedCommands

/-!
# Routing a command, its wire form and its other spellings
-/

namespace RedisRs

open List Routable RoutingInfo

section Congr

variable {R R' : Type} [Routable R] [Routable R'] {r : R} {r' : R'}
  {order : RouteOrder}

end Congr

section Wire

variable {c : Cmd} {name : Bytes} {args words : List Bytes}

end Wire

def isStreams (word : Bytes) : Bool := eqIgnoreAsciiCase word (bytesOf "STREAMS")

def streamsToken (words : List Bytes) : Option Nat :=
  let name := words.head?.map asciiUppercase
  if name = some (bytesOf "XREAD") then words.findIdx? isStreams
  else if name = some (bytesOf "XREADGROUP") then ((words.drop 4).findIdx? isStreams).map (· + 4)
  else none

def isTwoWord (words : List Bytes) : Bool :=
  words.head?.any fun name => (twoWordCommands.map bytesOf).contains (asciiUppercase name)

def isKeyword (words : List Bytes) (i : Nat) : Bool :=
  i = 0 || (i = 1 && isTwoWord words) || streamsToken words = some i

/-- Another spelling of the command. -/
structure Respells (words words' : List Bytes) : Prop where
  keywords : words'.map asciiUppercase = words.map asciiUppercase
  others : ∀ i, isKeyword words i = false → words'[i]? = words[i]?

/-- The same routing, but for the order of the routes of a plan for several slots. -/
def SameRouting : Ends (Option RoutingInfo) → Ends (Option RoutingInfo) → Prop
  | .ok (some (.multiNode (.multiSlot routes pattern) policy)),
      .ok (some (.multiNode (.multiSlot routes' pattern') policy')) =>
    routes.Perm routes' ∧ pattern = pattern' ∧ policy = policy'
  | routing, routing' => routing = routing'

section Order

variable {R : Type} [Routable R] {order order' : RouteOrder}

theorem SameRouting.refl (routing : Ends (Option RoutingInfo)) : SameRouting routing routing := by
  unfold SameRouting
  split
  · exact ⟨.refl _, rfl, rfl⟩
  · rfl

theorem multiShard_sameRouting [Crc16] (hord : ∀ routes, (order routes).Perm routes)
    (hord' : ∀ routes, (order' routes).Perm routes)
    (r : R) (cmd : Bytes) (pattern : MultiSlotArgPattern) :
    SameRouting (multiShard order r cmd 1 pattern) (multiShard order' r cmd 1 pattern) := by
  rw [multiShard, multiShard]
  rcases multiShardLoop r (isReadonlyCmd cmd) 1 pattern (argCount r) ∅ 0 with panic | _ | routes
  · exact .refl _
  · exact .refl _
  · have hperm : (order routes).Perm (order' routes) := (hord routes).trans (hord' routes).symm
    simp only [bind, Except.bind, pure, Except.pure]
    rcases hrts : order routes with _ | ⟨entry, _ | ⟨entry', rest⟩⟩ <;> rw [hrts] at hperm
    · rw [hperm.nil_eq.symm]
      exact .refl _
    · rw [singleton_perm.1 hperm]
      exact .refl _
    · have hlen := hperm.length_eq
      rcases hrts' : order' routes with _ | ⟨entry₁, _ | ⟨entry₁', rest₁⟩⟩ <;> rw [hrts'] at hperm hlen
      · cases hlen
      · simp at hlen
      · exact ⟨hperm, rfl, rfl⟩

theorem forCommand_sameRouting [Crc16] (hord : ∀ routes, (order routes).Perm routes)
    (hord' : ∀ routes, (order' routes).Perm routes) (r : R) (cmd : Bytes) :
    SameRouting (forCommand order r cmd) (forCommand order' r cmd) := by
  rw [forCommand, forCommand]
  cases baseRouting cmd with
  | multiShard pattern => exact multiShard_sameRouting hord hord' r cmd pattern
  | _ => exact .refl _

theorem forRoutable_sameRouting [Crc16] (hord : ∀ routes, (order routes).Perm routes)
    (hord' : ∀ routes, (order' routes).Perm routes) (r : R) :
    SameRouting (forRoutable order r) (forRoutable order' r) := by
  rw [forRoutable_eq, forRoutable_eq]
  rcases Routable.command r with panic | _ | cmd
  · exact .refl _
  · exact .refl _
  · exact forCommand_sameRouting hord hord' r cmd

end Order

section Names

variable {words words' : List Bytes} {cmd : Bytes}

def commandName (words : List Bytes) : Option Bytes :=
  words.head?.map fun name =>
    if isTwoWord words then (words[1]?.map fun sub => asciiUppercase name ++ bytesOf " " ++ asciiUppercase sub).getD (asciiUppercase name)
    else asciiUppercase name

end Names

namespace Respells

variable {words words' : List Bytes} {cmd : Bytes}

theorem getElem?_map (h : Respells words words') (i : Nat) :
    words'[i]?.map asciiUppercase = words[i]?.map asciiUppercase := by
  rw [← List.getElem?_map, ← List.getElem?_map, h.keywords]

theorem length_eq (h : Respells words words') : words'.length = words.length := by
  have hlen := congrArg List.length h.keywords
  rwa [length_map, length_map] at hlen

variable {order order' : RouteOrder}

end Respells

section Agree

variable {order order' : RouteOrder}

end Agree

end RedisRs
