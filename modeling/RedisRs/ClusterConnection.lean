import RedisRs.ClusterAggregate
import RedisRs.Connection
import RedisRs.Prog
import RedisRs.RetryWaits
import RedisRs.SlotMap
import Mathlib.Data.List.Destutter
import Mathlib.Data.List.Sort

/-!
# The blocking cluster connection

A borrow that conflicts with a live one is a panic; `attempts`, `tick`, `refreshes` and `log` only record.
-/

namespace RedisRs

class ConnectionLike (C : Type) where
  reqPackedCommand : Bytes → C → RedisResult Value × C
  reqCommand : Cmd → C → RedisResult Value × C
  reqPackedCommands : Bytes → Nat → Nat → C → Ends (RedisResult (List Value)) × C
  checkConnection : C → Bool × C

class Connect (C : Type) extends ConnectionLike C where
  sendPackedCommand : Bytes → C → RedisResult Unit × C
  recvResponse : C → RedisResult Value × C
  setReadTimeout : C → RedisResult Unit
  setWriteTimeout : C → RedisResult Unit

open ConnectionLike Connect

namespace Cluster

inductive Input
  | slice (cmd : Bytes) (routable : Value)
  | cmd (cmd : Cmd)
  | commands (cmd : Bytes) (offset count : Nat)

inductive Output
  | single (value : Value)
  | multi (values : List Value)

def Output.toValue : Output → Value
  | single value => value
  | multi values => .array values

namespace Input

variable {C : Type}

def send [ConnectionLike C] (con : C) : Input → Ends (RedisResult Output) × C
  | slice bytes _ =>
    let (r, con) := reqPackedCommand bytes con
    (.ok (r.bind fun value => value.extractError.map .single), con)
  | cmd c =>
    let (r, con) := reqCommand c con
    (.ok (r.bind fun value => value.extractError.map .single), con)
  | commands bytes offset count =>
    let (r, con) := reqPackedCommands bytes offset count con
    (r.map fun r => r.bind fun values => (extractErrorVec values).map .multi, con)

def argIdx : Input → Nat → Ends (Option Bytes)
  | slice _ routable, idx => Routable.argIdx routable idx
  | cmd c, idx => Routable.argIdx c idx
  | commands _ _ _, _ => .ok none

def argCount : Input → Nat
  | slice _ routable => Routable.argCount routable
  | cmd c => Routable.argCount c
  | commands _ _ _ => 0

theorem argIdx_of_argCount_le (input : Input) (i : Nat) (h : input.argCount ≤ i) :
    input.argIdx i = .ok none := by
  rcases input with ⟨_, routable⟩ | cmd | _
  · exact Routable.argIdx_argCount routable i h
  · exact Routable.argIdx_argCount cmd i h
  · rfl

instance : Routable Input where
  argIdx := argIdx
  position
    | slice _ routable, candidate => Routable.position routable candidate
    | cmd c, candidate => Routable.position c candidate
    | commands _ _ _, _ => none
  argCount := argCount
  argIdx_argCount := argIdx_of_argCount_le

end Input

inductive Borrow
  | free
  | shared (n : Nat)
  | mutable
deriving DecidableEq, Repr

structure RefCell (α : Type) where
  value : α
  borrow : Borrow

structure Link (C : Type) where
  con : C
  sent : Nat
  received : Nat

abbrev Connections (C : Type) := AList fun _ : NodeAddress => Link C

theorem lookup_insert_cases {γ : Type} {m : AList fun _ : NodeAddress => γ} {a b : NodeAddress} {x y : γ}
    (h : (m.insert a x).lookup b = some y) : (b = a ∧ x = y) ∨ (b ≠ a ∧ m.lookup b = some y) := by
  rcases eq_or_ne b a with rfl | hne
  · rw [AList.lookup_insert] at h
    exact .inl ⟨rfl, Option.some.inj h⟩
  · rw [AList.lookup_insert_ne hne] at h
    exact .inr ⟨hne, h⟩

inductive ClusterEvent
  | request (addr : NodeAddress) (input : Input) (result : RedisResult Output)
  | part (addr : NodeAddress) (cmd : Cmd) (result : RedisResult Value)
  | recv (index : Nat) (result : RedisResult Value)

structure ClusterConnection (C : Type) where
  connections : RefCell (Connections C)
  slots : RefCell SlotMap
  attempts : NodeAddress → Nat
  tick : Nat
  refreshes : Nat
  log : List ClusterEvent

structure ClusterEnv (C : Type) where
  initialNodes : List ConnectionAddr
  autoReconnect : Bool
  readRouting : Bool
  retryParams : RetryParams
  connect : NodeAddress → Nat → RedisResult C
  random : Nat → Nat
  strategy : Option (Nat → ReadCandidates → NodeAddress)
  order : Nat → List NodeAddress → List NodeAddress
  order_perm : ∀ n l, (order n l).Perm l
  routeOrder : Nat → RouteOrder
  routeOrder_perm : ∀ n l, (routeOrder n l).Perm l
  keyOrder : Nat → List Bytes → List Bytes
  keyOrder_perm : ∀ n l, (keyOrder n l).Perm l

def ClusterEnv.numberOfRetries {C : Type} (env : ClusterEnv C) : Nat := env.retryParams.limit

inductive Abort
  | alreadyBorrowed
  | panicked (panic : Panic)
deriving DecidableEq, Repr

abbrev ClusterM (C : Type) := Prog Abort (ClusterConnection C)

namespace ClusterConnection

variable {C : Type} {α : Type}

def choice : ClusterM C Nat := fun s => (.ok s.tick, { s with tick := s.tick + 1 })

def ends (r : Ends α) : ClusterM C α := .ofExcept (r.mapError .panicked)

def record (event : ClusterEvent) : ClusterM C Unit := .modify fun s => { s with log := s.log ++ [event] }

def holdConnections (body : ClusterM C α) : ClusterM C α := fun s =>
  if s.connections.borrow = .free then
    let (r, s) := body { s with connections.borrow := .mutable }
    (r, { s with connections.borrow := .free })
  else (.error .alreadyBorrowed, s)

def holdSlots (body : ClusterM C α) : ClusterM C α := fun s =>
  if s.slots.borrow = .free then
    let (r, s) := body { s with slots.borrow := .mutable }
    (r, { s with slots.borrow := .free })
  else (.error .alreadyBorrowed, s)

def shareSlots (body : SlotMap → ClusterM C α) : ClusterM C α := fun s =>
  match s.slots.borrow with
  | .mutable => (.error .alreadyBorrowed, s)
  | .free =>
    let (r, s) := body s.slots.value { s with slots.borrow := .shared 1 }
    (r, { s with slots.borrow := .free })
  | .shared n =>
    let (r, s) := body s.slots.value { s with slots.borrow := .shared (n + 1) }
    (r, { s with slots.borrow := .shared n })

theorem holdConnections_of_free {body : ClusterM C α} {s : ClusterConnection C} (h : s.connections.borrow = .free) :
    holdConnections body s = ((body { s with connections.borrow := .mutable }).1,
      { (body { s with connections.borrow := .mutable }).2 with connections.borrow := .free }) := by
  rw [holdConnections, if_pos h]

theorem holdSlots_of_free {body : ClusterM C α} {s : ClusterConnection C} (h : s.slots.borrow = .free) :
    holdSlots body s = ((body { s with slots.borrow := .mutable }).1,
      { (body { s with slots.borrow := .mutable }).2 with slots.borrow := .free }) := by
  rw [holdSlots, if_pos h]

def setLink (addr : NodeAddress) (link : Link C) : ClusterM C Unit :=
  .modify fun s => { s with connections.value := s.connections.value.insert addr link }

variable [Connect C] (env : ClusterEnv C)

def connectNode (addr : NodeAddress) (n : Nat) : RedisResult C := do
  let con ← env.connect addr n
  let (r, con) := reqCommand (cmd (if env.readRouting then "READONLY" else "PING")) con
  let value ← r
  let value ← value.extractError
  let _ ← (FromRedisValue.fromRedisValue value : ParseResult Unit).toRedisResult
  setReadTimeout con
  setWriteTimeout con
  return con

def connect (addr : NodeAddress) : ClusterM C (RedisResult C) := fun s =>
  (.ok (connectNode env addr (s.attempts addr)),
    { s with attempts := Function.update s.attempts addr (s.attempts addr + 1) })

def connectAndCheck (addr : NodeAddress) : ClusterM C (Option C) := do
  match ← connect env addr with
  | .error _ => return none
  | .ok con =>
    let (alive, con) := checkConnection con
    return if alive then some con else none

def getConnectionByAddr (addr : NodeAddress) : ClusterM C (RedisResult (Link C)) := do
  match (← Prog.get).connections.value.lookup addr with
  | some link => return .ok link
  | none =>
    match ← connect env addr with
    | .error e => return .error e
    | .ok con =>
      setLink addr ⟨con, 0, 0⟩
      return .ok ⟨con, 0, 0⟩

def getRandomConnectionOrError : ClusterM C (NodeAddress × RedisResult (Link C)) := do
  let n := env.random (← choice)
  let connections := (← Prog.get).connections.value
  match connections.entries[n % connections.entries.length]? with
  | some entry => return (entry.1, .ok entry.2)
  | none =>
    -- a fake address
    return (default, .error (.general .clusterConnectionNotFound "No connections found" none))

def readPick : ClusterM C ReadPick := do
  let n ← choice
  return ⟨env.strategy.map fun strategy => strategy n, env.random n⟩

def getConnection (route : Route) : ClusterM C (NodeAddress × RedisResult (Link C)) :=
  shareSlots fun slots => do
    match slots.slotAddrForRoute route (← readPick env) with
    | some addr => return (addr, ← getConnectionByAddr env addr)
    | none => getRandomConnectionOrError env

def noSlots : RedisError := .general .client "Slot refresh error. didn't get any slots from server" none

def createNewSlotsFrom : List NodeAddress → ClusterM C (RedisResult SlotMap)
  | [] => return .error noSlots
  | addr :: addrs => do
    match (← Prog.get).connections.value.lookup addr with
    | none => createNewSlotsFrom addrs
    | some link =>
      let (r, con) := reqCommand slotCmd link.con
      setLink addr { link with con := con }
      match r with
      | .error e => return .error e
      | .ok value =>
        match parseSlots value addr.host with
        | .ok slotsData => return .ok (.fromSlots slotsData)
        | .error _ => createNewSlotsFrom addrs

def createNewSlots : ClusterM C (RedisResult SlotMap) :=
  holdConnections do
    let n ← choice
    createNewSlotsFrom (env.order n (← Prog.get).connections.value.keys)

def NodeAddress.le (a b : NodeAddress) : Bool := a.host < b.host || (a.host = b.host && a.port ≤ b.port)

def sortedNodes (slots : SlotMap) : List NodeAddress :=
  ((slots.values.flatMap SlotAddrs.toList).insertionSort fun a b => NodeAddress.le a b).destutter (· ≠ ·)

def keepOrConnect (addr : NodeAddress) : ClusterM C (Option (NodeAddress × Link C)) := do
  let old := (← Prog.get).connections.value.lookup addr
  Prog.modify fun s => { s with connections.value := s.connections.value.erase addr }
  match old.map fun link => (link, checkConnection link.con) with
  | some (link, true, con) => return some (addr, { link with con := con })
  | _ => return (← connectAndCheck env addr).map fun con => (addr, ⟨con, 0, 0⟩)

def replaceConnections (newSlots : SlotMap) : ClusterM C Unit :=
  holdConnections do
    let kept ← Prog.forEach (keepOrConnect env) (sortedNodes newSlots)
    Prog.modify fun s => { s with
      connections.value := (kept.filterMap id).foldl (fun m entry => m.insert entry.1 entry.2) ∅ }

def installSlots : RedisResult SlotMap → ClusterM C (RedisResult Unit)
  | .error e => return .error e
  | .ok newSlots => do
    Prog.modify fun s => { s with slots.value := newSlots }
    replaceConnections env newSlots
    return .ok ()

def replaceSlots : ClusterM C (RedisResult Unit) := holdSlots (createNewSlots env >>= installSlots env)

def refreshSlots : ClusterM C (RedisResult Unit) := do
  Prog.modify fun s => { s with refreshes := s.refreshes + 1 }
  replaceSlots env

def sendInput (input : Input) (addr : NodeAddress) : RedisResult (Link C) → ClusterM C (RedisResult Output)
  | .error e => return .error e
  | .ok link => do
    let (r, con) := input.send link.con
    setLink addr { link with con := con }
    let result ← ends r
    record (.request addr input result)
    return result

def asking : Bytes := bytesOf "*1\r\n$6\r\nASKING\r\n"

def getRedirected : Redirect → ClusterM C (NodeAddress × RedisResult (Link C))
  | .moved addr => return (addr, ← getConnectionByAddr env addr)
  | .ask addr => do
    match ← getConnectionByAddr env addr with
    | .error e => return (addr, .error e)
    | .ok link =>
      -- one `ASKING` before what is to be executed
      let (r, con) := reqPackedCommand asking link.con
      let link := { link with con := con }
      setLink addr link
      return (addr, (r.bind Value.extractError).map fun _ => link)

def randomSlot (n : Nat) : Slot := ⟨UInt16.ofNat n % slotSize, mod_slotSize_lt _⟩

def getTarget (routing : SingleNodeRoutingInfo) (redirected : Option Redirect) :
    ClusterM C (NodeAddress × RedisResult (Link C)) :=
  match redirected with
  | some redirect => getRedirected env redirect
  | none =>
    match routing with
    | .random => getRandomConnectionOrError env
    | .specificNode route => getConnection env route
    | .byAddress host port => return (⟨host, port⟩, ← getConnectionByAddr env ⟨host, port⟩)
    | .randomPrimary => do
      let n := env.random (← choice)
      getConnection env (.withSlot (randomSlot n) .master)

def connectAndInsert (addr : NodeAddress) : ClusterM C Unit := do
  match ← connectAndCheck env addr with
  | none => return ()
  | some con => holdConnections (setLink addr ⟨con, 0, 0⟩)

def connectInitialNodes : List ConnectionAddr → ClusterM C (RedisResult Unit)
  | [] => return .ok ()
  | node :: nodes => do
    match NodeAddress.tryFromAddr node with
    | .error e => return .error e
    | .ok addr =>
      connectAndInsert env addr
      connectInitialNodes nodes

def redirectAddr (e : RedisError) : Option NodeAddress :=
  e.redirectNode.bind fun node => (NodeAddress.tryFrom node).toOption

def sleep (retries : Nat) : ClusterM C Unit := do
  let n ← choice
  let _ ← ends (env.retryParams.waitTimeForRetry (.ofNat retries) (env.random n))

def recover (retries : Nat) (addr : NodeAddress) (e : RedisError) : ClusterM C (RedisResult (Option Redirect)) :=
  match e.retryMethod with
  | .askRedirect => return .ok ((redirectAddr e).map .ask)
  | .movedRedirect => return (← refreshSlots env).map fun _ => (redirectAddr e).map .moved
  | .waitAndRetry => do
    sleep env retries
    return .ok none
  | .retryImmediately => return .ok none
  | .refreshSlotsAndRetry => do
    sleep env retries
    return (← refreshSlots env).map fun _ => none
  | .reconnect => do
    if env.autoReconnect then
      holdConnections (Prog.modify fun s => { s with connections.value := s.connections.value.erase addr })
      connectAndInsert env addr
    return .ok none
  | .noRetry => return .error e
  | .reconnectFromInitialConnections => do
    if env.autoReconnect then
      connectAndInsert env addr
    return .ok none

def reconnectInitial (e : RedisError) : ClusterM C (RedisResult Unit) := do
  if e.kind = .clusterConnectionNotFound ∧ env.autoReconnect = true then
    match ← connectInitialNodes env env.initialNodes with
    | .error e => return .error e
    | .ok () => refreshSlots env
  else return .ok ()

def attempt (input : Input) (routing : SingleNodeRoutingInfo) (redirected : Option Redirect) :
    ClusterM C (NodeAddress × RedisResult Output) :=
  holdConnections do
    let (addr, link) ← getTarget env routing redirected
    return (addr, ← sendInput input addr link)

def requestLoop (input : Input) (routing : SingleNodeRoutingInfo) :
    Nat → Option Redirect → ClusterM C (RedisResult Output)
  | retries, redirected => do
    let (addr, rv) ← attempt env input routing redirected
    match rv with
    | .ok rv => return .ok rv
    | .error err =>
      match ← reconnectInitial env err with
      | .error e => return .error e
      | .ok () =>
        match retries with
        | 0 => return .error err
        | retries + 1 =>
          match ← recover env (env.numberOfRetries - retries) addr err with
          | .error e => return .error e
          | .ok redirected => requestLoop input routing retries redirected

def requestAgain (input : Input) (routing : SingleNodeRoutingInfo) (addr : NodeAddress) (err : RedisError) :
    Nat → ClusterM C (RedisResult Output)
  | 0 => return .error err
  | retries + 1 => do
    match ← recover env (env.numberOfRetries - retries) addr err with
    | .error e => return .error e
    | .ok redirected => requestLoop env input routing retries redirected

def afterAttempt (input : Input) (routing : SingleNodeRoutingInfo) (retries : Nat) :
    NodeAddress × RedisResult Output → ClusterM C (RedisResult Output)
  | (_, .ok rv) => return .ok rv
  | (addr, .error err) => do
    match ← reconnectInitial env err with
    | .error e => return .error e
    | .ok () => requestAgain env input routing addr err retries

theorem requestLoop_eq (input : Input) (routing : SingleNodeRoutingInfo) (retries : Nat) (redirected : Option Redirect) :
    requestLoop env input routing retries redirected =
      attempt env input routing redirected >>= afterAttempt env input routing retries := by
  rw [requestLoop]
  refine congrArg _ (funext fun r => ?_)
  rcases r with ⟨addr, err | rv⟩
  · show (reconnectInitial env err >>= _) = (reconnectInitial env err >>= _)
    refine congrArg _ (funext fun r => ?_)
    rcases r with e | _ <;> cases retries <;> rfl
  · rfl

def requestSingleNode (input : Input) (routing : SingleNodeRoutingInfo) : ClusterM C (RedisResult Output) :=
  requestLoop env input routing env.numberOfRetries none

end ClusterConnection

end Cluster

end RedisRs
