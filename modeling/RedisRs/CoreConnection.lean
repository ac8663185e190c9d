import RedisRs.Asking
import RedisRs.AsyncRefresh

/-!
# The connection a request is sent on
-/

namespace RedisRs

def Redirect.addr : Redirect → NodeAddress
  | moved addr => addr
  | ask addr => addr

namespace AsyncCluster

open AsyncConnectionLike

variable {C : Type}

namespace ConnState

def connected? : ConnState C → Option C
  | connected conn => some conn
  | reconnecting _ => none
  | connecting => none

theorem connected?_eq_some {state : ConnState C} {conn : C} : state.connected? = some conn ↔ state = connected conn := by
  cases state <;> simp [connected?]

end ConnState

def getRandomConnection (choice : Nat) (connections : ConnectionMap C) : Option (NodeAddress × C) :=
  let connected := connections.entries.filterMap fun entry => entry.2.connected?.map fun conn => (entry.1, conn)
  connected[choice % connected.length]?

namespace Core

def connectedTo (s : Core C) (addr : NodeAddress) : Option C := (s.connections.lookup addr).bind ConnState.connected?

variable {s : Core C} {addr : NodeAddress} {conn : C}

theorem connectedTo_eq_some :
    s.connectedTo addr = some conn ↔ s.connections.lookup addr = some (.connected conn) := by
  rw [connectedTo, Option.bind_eq_some_iff]
  constructor
  · rintro ⟨state, hlook, hst⟩
    rw [hlook, ConnState.connected?_eq_some.1 hst]
  · intro hlook
    exact ⟨_, hlook, rfl⟩

variable [AsyncConnectionLike C] (env : CoreEnv C)

def connectCheckAndAdd (addr : NodeAddress) (s : Core C) : RedisResult C × Core C :=
  let conn := connectAndCheck env addr (s.attempts addr)
  let s := { s with attempts := Function.update s.attempts addr (s.attempts addr + 1) }
  match conn with
  | .error e => (.error e, s)
  | .ok conn => (.ok conn, { s with connections := s.connections.insert addr (.connected conn) })

def askFirst (conn : C) : Redirect → RedisResult (NodeAddress × C)
  | .moved addr => .ok (addr, conn)
  | .ask addr =>
    let (reply, conn) := reqPackedCommand (cmd "ASKING") conn
    (reply.bind Value.extractError).map fun _ => (addr, conn)

def getRedirectedConnection (redirect : Redirect) (first second : Core C) : RedisResult (NodeAddress × C) × Core C :=
  match first.connectedTo redirect.addr with
  | some conn => (askFirst conn redirect, first)
  | none =>
    match connectCheckAndAdd env redirect.addr second with
    | (.error e, s) => (.error e, s)
    | (.ok conn, s) => (askFirst conn redirect, s)

def requestedConnectionNotFound (address : NodeAddress) : RedisError :=
  .general .clusterConnectionNotFound "Requested connection not found" (some (.text address.text))

def preferredOrFallback (pick : ReadPick) (s : Core C) (route : Route) : Option (NodeAddress × C) :=
  let connectedNode (addr : NodeAddress) := (s.connectedTo addr).map fun conn => (addr, conn)
  ((s.slots.slotAddrForRoute route pick).bind connectedNode).or
    ((s.slots.shardFallbackAddrs route).findSome? connectedNode)

def getConnection (pick : ReadPick) (choice : Nat) (first second : Core C) :
    InternalSingleNodeRouting C → RedisResult (NodeAddress × C) × Core C
  | .random =>
    match getRandomConnection choice first.connections with
    | some found => (.ok found, first)
    | none => (.error noConnectionsFound, first)
  | .connection identifier conn => (.ok (identifier, conn), first)
  -- a redirected request is not sent on a random connection
  | .redirect redirect _ => getRedirectedConnection env redirect first second
  | .byAddress address =>
    match first.connectedTo address with
    | some conn => (.ok (address, conn), first)
    | none => (.error (requestedConnectionNotFound address), first)
  | .specificNode route =>
    match preferredOrFallback pick first route with
    | some found => (.ok found, first)
    | none =>
      match getRandomConnection choice second.connections with
      | some found => (.ok found, second)
      | none => (.error noConnectionsFound, second)

omit [AsyncConnectionLike C] in
theorem mem_connected :
    (addr, conn) ∈ s.connections.entries.filterMap (fun entry => entry.2.connected?.map fun conn => (entry.1, conn)) ↔
      s.connectedTo addr = some conn := by
  rw [connectedTo_eq_some, List.mem_filterMap]
  constructor
  · rintro ⟨⟨a, state⟩, hmem, hst⟩
    obtain ⟨conn', hconn, heq⟩ := Option.map_eq_some_iff.1 hst
    cases heq
    rw [← ConnState.connected?_eq_some.1 hconn]
    exact AList.mem_lookup_iff.2 hmem
  · intro hlook
    exact ⟨⟨addr, .connected conn⟩, AList.mem_lookup_iff.1 hlook, rfl⟩

omit [AsyncConnectionLike C] in
omit [AsyncConnectionLike C] in
theorem exists_random (h : s.connectedTo addr = some conn) :
    ∃ choice, getRandomConnection choice s.connections = some (addr, conn) := by
  obtain ⟨choice, hlt, hget⟩ := List.mem_iff_getElem.1 (mem_connected.2 h)
  refine ⟨choice, ?_⟩
  rw [getRandomConnection, Nat.mod_eq_of_lt hlt, List.getElem?_eq_getElem hlt, hget]

section Master

variable {pick : ReadPick} {first second : Core C} {slot : UInt16} {addrs : SlotAddrs}

omit [AsyncConnectionLike C] in
theorem preferredOrFallback_master (hslot : first.slots.slots.get slot = some addrs) :
    preferredOrFallback pick first ⟨slot, .master⟩ =
      (first.connectedTo addrs.primary).map fun conn => (addrs.primary, conn) := by
  have hfallback : first.slots.shardFallbackAddrs ⟨slot, .master⟩ = [] := by
    rw [SlotMap.shardFallbackAddrs, hslot]
  rw [preferredOrFallback, SlotMap.slotAddrForRoute_master, hslot, hfallback]
  exact Option.or_none

theorem getConnection_master_lost {choice : Nat} (hslot : first.slots.slots.get slot = some addrs)
    (hconn : first.connectedTo addrs.primary = none) {addr : NodeAddress} {conn : C} {s : Core C} :
    getConnection env pick choice first second (.specificNode ⟨slot, .master⟩) = (.ok (addr, conn), s) ↔
      getRandomConnection choice second.connections = some (addr, conn) ∧ s = second := by
  simp only [getConnection, preferredOrFallback_master hslot, hconn, Option.map_none]
  cases getRandomConnection choice second.connections with
  | none => simp
  | some found => simp [eq_comm]

/-- A route to a primary never gets to a replica of its shard exactly when the primary is connected as the lock is taken
first, or no replica is as it is taken again. -/
theorem getConnection_master_iff (pick : ReadPick) (first second : Core C) (slot : UInt16) (addrs : SlotAddrs)
    (hslot : first.slots.slots.get slot = some addrs) :
    (∀ (choice : Nat) (addr : NodeAddress) (conn : C) (s : Core C),
      getConnection env pick choice first second (.specificNode ⟨slot, .master⟩) = (.ok (addr, conn), s) →
        addr = addrs.primary ∨ addr ∉ addrs.replicas) ↔
    (∃ conn, first.connectedTo addrs.primary = some conn) ∨
      ∀ addr ∈ addrs.replicas, addr ≠ addrs.primary → second.connectedTo addr = none := by
  constructor
  · intro hnever
    by_cases hconn : ∃ conn, first.connectedTo addrs.primary = some conn
    · exact .inl hconn
    · refine .inr fun addr haddr hne => ?_
      have hlost : first.connectedTo addrs.primary = none := by
        rwa [← Option.isSome_iff_exists, Bool.not_eq_true, Option.isSome_eq_false_iff, Option.isNone_iff_eq_none] at hconn
      refine Option.eq_none_iff_forall_not_mem.2 fun conn hmem => ?_
      obtain ⟨choice, hchoice⟩ := exists_random hmem
      have hget : getConnection env pick choice first second (.specificNode ⟨slot, .master⟩) =
          (.ok (addr, conn), second) :=
        (getConnection_master_lost env hslot hlost).2 ⟨hchoice, rfl⟩
      rcases hnever choice addr conn second hget with hprimary | hreplica
      · exact hne hprimary
      · exact hreplica haddr
  · intro hwhen choice addr conn s hget
    cases hconn : first.connectedTo addrs.primary with
    | some conn' =>
      simp only [getConnection, preferredOrFallback_master hslot, hconn] at hget
      cases hget
      exact .inl rfl
    | none =>
      obtain ⟨hrandom, -⟩ := (getConnection_master_lost env hslot hconn).1 hget
      rcases hwhen with ⟨conn', hconn'⟩ | hreplicas
      · rw [hconn] at hconn'
        cases hconn'
      · by_cases hprimary : addr = addrs.primary
        · exact .inl hprimary
        · refine .inr fun haddr => ?_
          have hnone := hreplicas addr haddr hprimary
          rw [mem_connected.1 (List.mem_of_getElem? hrandom)] at hnone
          cases hnone

end Master

def twoNodes (primary replica : ConnState C) : Core C where
  connections := ((∅ : ConnectionMap C).insert ⟨"p", 1⟩ primary).insert ⟨"r", 1⟩ replica
  slots := .fromSlots [⟨0, 16383, ⟨"p", 1⟩, [⟨"r", 1⟩]⟩]
  attempts _ := 0
  tick := 0

theorem getConnection_master_iff_connected :
    (twoNodes (.connected (Steady.mk (.ok .okay))) .connecting).connectedTo ⟨"p", 1⟩ = some ⟨.ok .okay⟩ ∧
    ∀ choice addr conn s,
      getConnection refusedEnv ⟨none, 0⟩ choice (twoNodes (.connected ⟨.ok .okay⟩) .connecting)
          (twoNodes .connecting (.connected ⟨.ok .okay⟩)) (.specificNode ⟨7, .master⟩) = (.ok (addr, conn), s) →
        addr = ⟨"p", 1⟩ ∨ addr ∉ [(⟨"r", 1⟩ : NodeAddress)] := by
  refine ⟨rfl, ?_⟩
  exact (getConnection_master_iff refusedEnv _ _ _ 7 ⟨⟨"p", 1⟩, [⟨"r", 1⟩]⟩ rfl).2 (.inl ⟨⟨.ok .okay⟩, rfl⟩)

theorem getConnection_master_replica :
    (twoNodes (.reconnecting (Steady.mk (.ok .okay))) (.connected ⟨.ok .okay⟩)).slots.slots.get 7 =
      some ⟨⟨"p", 1⟩, [⟨"r", 1⟩]⟩ ∧
    getConnection refusedEnv ⟨none, 0⟩ 0 (twoNodes (.reconnecting ⟨.ok .okay⟩) (.connected ⟨.ok .okay⟩))
        (twoNodes (.reconnecting ⟨.ok .okay⟩) (.connected ⟨.ok .okay⟩)) (.specificNode ⟨7, .master⟩) =
      (.ok (⟨"r", 1⟩, ⟨.ok .okay⟩), twoNodes (.reconnecting ⟨.ok .okay⟩) (.connected ⟨.ok .okay⟩)) := by
  have hget : (twoNodes (.reconnecting (Steady.mk (.ok .okay))) (.connected ⟨.ok .okay⟩)).slots.slots.get 7 =
      some ⟨⟨"p", 1⟩, [⟨"r", 1⟩]⟩ := rfl
  exact ⟨hget, (getConnection_master_lost refusedEnv hget rfl).2 ⟨rfl, rfl⟩⟩

/-- Only what belongs to the node has changed. -/
def ChangedAt (addr : NodeAddress) (s s' : Core C) : Prop :=
  s'.slots = s.slots ∧ ∀ a, a ≠ addr → s'.connections.lookup a = s.connections.lookup a ∧ s'.attempts a = s.attempts a

omit [AsyncConnectionLike C] in
theorem ChangedAt.refl (addr : NodeAddress) (s : Core C) : ChangedAt addr s s := ⟨rfl, fun _ _ => ⟨rfl, rfl⟩⟩

def asked (conn : C) : Redirect → C
  | .moved _ => conn
  | .ask _ => (reqPackedCommand (cmd "ASKING") conn).2

end Core

namespace InternalSingleNodeRouting

@[simp] theorem reset_reset (route : InternalSingleNodeRouting C) : route.reset.reset = route.reset := by
  induction route with
  | redirect redirect previousRouting ih => exact ih
  | _ => rfl

end InternalSingleNodeRouting

inductive RoutingCall
  | setRedirect (redirect : Option Redirect)
  | resetRouting

namespace CmdArg

def call (arg : CmdArg C) : RoutingCall → CmdArg C
  | .setRedirect redirect => arg.setRedirect redirect
  | .resetRouting => arg.resetRouting

variable (arg : CmdArg C) (call : RoutingCall) (calls : List RoutingCall)

end CmdArg

end AsyncCluster

end RedisRs
