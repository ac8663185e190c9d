import RedisRs.Parser
import RedisRs.ReplyTypes
import RedisRs.Sentinel

/-!
# Searching for masters and replicas
-/

namespace RedisRs

open List

structure NodeReplies where
  connect : RedisResult Unit
  role : RedisResult Value
  info : RedisResult Value

abbrev ServerInfo := Finmap fun _ : String => String

inductive TlsMode
  | secure
  | insecure

structure SentinelNodeConnectionInfo where
  tlsMode : Option TlsMode
  redis : RedisConnectionInfo

def SentinelNodeConnectionInfo.default : SentinelNodeConnectionInfo :=
  ⟨none, ⟨0, none, none, .resp2, false, none, none⟩⟩

def SentinelNodeConnectionInfo.createConnectionInfo (node : SentinelNodeConnectionInfo) (certs : RedisResult Unit) :
    String × UInt16 → RedisResult ConnectionInfo
  | (ip, port) => match node.tlsMode with
    | none => .ok ⟨.tcp ip port, node.redis⟩
    | some .secure => certs.map fun _ => ⟨.tcpTls ip port, node.redis⟩
    | some .insecure => .ok ⟨.tcpTls ip port, node.redis⟩

def containsText (s word : String) : Bool := decide (word.toList <:+: s.toList)

def isDown (flags : String) : Bool := containsText flags "s_down" || containsText flags "o_down"

def isMasterValid (serviceName : String) (info : ServerInfo) : Bool :=
  info.lookup "name" == some serviceName && (info.lookup "ip").isSome && (info.lookup "port").isSome &&
    (info.lookup "flags").any (fun flags => containsText flags "master" && !isDown flags) &&
    ((info.lookup "port").bind parseU16).isSome

def isReplicaValid (info : ServerInfo) : Bool :=
  (info.lookup "ip").isSome && (info.lookup "port").isSome && (info.lookup "flags").any (fun flags => !isDown flags) &&
    ((info.lookup "port").bind parseU16).isSome

def validAddrs (servers : List ServerInfo) (validate : ServerInfo → Bool) : List (String × UInt16) :=
  (servers.filter validate).filterMap fun info => do return (← info.lookup "ip", ← (info.lookup "port").bind parseU16)

/-- The address of a listed server of the service, with the flag of a master and no other than that. -/
def ListedMaster (masters : List ServerInfo) (serviceName : String) (addr : String × UInt16) : Prop :=
  ∃ info ∈ masters, info.lookup "name" = some serviceName ∧ info.lookup "ip" = some addr.1 ∧
    (info.lookup "port").bind parseU16 = some addr.2 ∧
    ∃ flags, info.lookup "flags" = some flags ∧ containsText flags "master" = true ∧ isDown flags = false

theorem mem_validAddrs {servers : List ServerInfo} {validate : ServerInfo → Bool} {addr : String × UInt16} :
    addr ∈ validAddrs servers validate ↔ ∃ info ∈ servers, validate info = true ∧ info.lookup "ip" = some addr.1 ∧
      (info.lookup "port").bind parseU16 = some addr.2 := by
  simp only [validAddrs, mem_filterMap, mem_filter, Option.bind_eq_bind, Option.bind_eq_some_iff, Option.pure_def,
    Option.some.injEq]
  constructor
  · rintro ⟨info, ⟨hmem, hvalid⟩, ip, hip, port, hport, rfl⟩
    exact ⟨info, hmem, hvalid, hip, hport⟩
  · rintro ⟨info, hmem, hvalid, hip, hport⟩
    exact ⟨info, ⟨hmem, hvalid⟩, addr.1, hip, addr.2, hport, rfl⟩

theorem mem_validAddrs_isMasterValid {masters : List ServerInfo} {serviceName : String} {addr : String × UInt16} :
    addr ∈ validAddrs masters (isMasterValid serviceName) ↔ ListedMaster masters serviceName addr := by
  rw [mem_validAddrs, ListedMaster]
  refine exists_congr fun info => and_congr_right fun _ => ?_
  simp only [isMasterValid, Bool.and_eq_true, beq_iff_eq, Option.any_eq_true, Bool.not_eq_true']
  constructor
  · rintro ⟨⟨⟨⟨⟨hname, -⟩, -⟩, flags⟩, -⟩, hip, hport⟩
    exact ⟨hname, hip, hport, flags⟩
  · rintro ⟨hname, hip, hport, flags⟩
    obtain ⟨text, htext, -⟩ := Option.bind_eq_some_iff.1 hport
    have hvalid : ((info.lookup "port").bind parseU16).isSome = true := by rw [hport]; rfl
    exact ⟨⟨⟨⟨⟨hname, by rw [hip]; rfl⟩, by rw [htext]; rfl⟩, flags⟩, hvalid⟩, hip, hport⟩

def splitCrlf : List Char → List (List Char)
  | [] => [[]]
  | '\r' :: '\n' :: rest => [] :: splitCrlf rest
  | c :: rest => ((splitCrlf rest).head?.getD []).cons c :: (splitCrlf rest).tail

def parseReplicationInfo (value : String) : ServerInfo :=
  let lines := (splitCrlf value.toList).filter fun line => (line.dropWhile Resp.isWhitespace).head? ≠ some '#'
  collectMap (lines.filterMap fun line => match line.span (· ≠ ':') with
    | (key, _ :: val) => some (String.ofList key, String.ofList val)
    | (_, []) => none)

def evaluateRoleCheckErrors (roleErr fallbackRoleErr : RedisError) : RedisResult Bool :=
  if roleErr.kind ≠ .server .responseError then .error roleErr else .error fallbackRoleErr

namespace Role

def isPrimary : Role → Bool
  | primary .. => true
  | _ => false

def isReplica : Role → Bool
  | replica .. => true
  | _ => false

end Role

namespace NodeReplies

variable (node : NodeReplies)

def checkRole : RedisResult Role := (cmd "ROLE").query node.role

def checkInfoReplication : RedisResult String := do
  let role := match ← (Cmd.ofWords ["INFO", "REPLICATION"]).query node.info with
    | Text.str info => (parseReplicationInfo info).lookup "role"
    | .ofF64 _ => none
  match role with
  | some role => return role
  | none => .error (.general .unexpectedReturnType "Missing \"role\" field" none)

def determineFromRoleOrInfoReplication (isRole : Role → Bool) (name : String) : RedisResult Bool := do
  node.connect
  match node.checkRole, node.checkInfoReplication with
  | .ok role, _ => return isRole role
  | .error _, .ok role => return role == name
  | .error roleErr, .error fallbackRoleErr => evaluateRoleCheckErrors roleErr fallbackRoleErr

def determineMasterFromRoleOrInfoReplication : RedisResult Bool :=
  node.determineFromRoleOrInfoReplication Role.isPrimary "master"

def asyncDetermineSlaveFromRoleOrInfoReplication : RedisResult Bool :=
  node.determineFromRoleOrInfoReplication Role.isReplica "slave"

def getNodeRole : RedisResult Role := do
  node.connect
  node.checkRole

def isReplica : Bool := match node.getNodeRole with
  | .ok role => role.isReplica
  | .error _ => false

def isReplicaRoleValid : Bool := match node.asyncDetermineSlaveFromRoleOrInfoReplication with
  | .ok x => x
  | .error _ => false

/-- The node says that it has the role: by `ROLE`, or by `INFO` when `ROLE` failed. -/
def Reports (isRole : Role → Bool) (name : String) : Prop :=
  node.connect = .ok () ∧ ((∃ role, node.checkRole = .ok role ∧ isRole role = true) ∨
    (∃ err, node.checkRole = .error err) ∧ node.checkInfoReplication = .ok name)

theorem determine_eq_ok_true {isRole : Role → Bool} {name : String} :
    node.determineFromRoleOrInfoReplication isRole name = .ok true ↔ node.Reports isRole name := by
  simp only [determineFromRoleOrInfoReplication, Reports, bind, Except.bind]
  rcases node.connect with err | _
  · simp
  · rcases node.checkRole with roleErr | role
    · rcases node.checkInfoReplication with err | role
      · simp only [evaluateRoleCheckErrors]
        split <;> simp
      · simp [pure, Except.pure]
    · simp [pure, Except.pure]

theorem isReplica_eq_iff : node.isReplica = node.isReplicaRoleValid ↔
    (node.connect = .ok () → ∀ err, node.checkRole = .error err → node.checkInfoReplication ≠ .ok "slave") := by
  simp only [isReplica, isReplicaRoleValid, asyncDetermineSlaveFromRoleOrInfoReplication, getNodeRole,
    determineFromRoleOrInfoReplication, bind, Except.bind]
  rcases node.connect with err | _
  · simp
  · rcases node.checkRole with roleErr | role
    · rcases node.checkInfoReplication with err | role
      · by_cases hkind : roleErr.kind = .server .responseError <;> simp [evaluateRoleCheckErrors, hkind]
      · simp [pure, Except.pure]
    · simp [pure, Except.pure]

end NodeReplies

section Search

variable (nodes : ConnectionInfo → NodeReplies) (certs : RedisResult Unit) (node : SentinelNodeConnectionInfo)

def masterAt (addr : String × UInt16) : RedisResult (Option ConnectionInfo) := do
  let info ← node.createConnectionInfo certs addr
  return if ← (nodes info).determineMasterFromRoleOrInfoReplication then some info else none

def findMasterFrom : List (String × UInt16) → RedisResult ConnectionInfo
  | [] => .error (.general .masterNameNotFoundBySentinel "Master with given name not found in sentinel" none)
  | addr :: addrs => do
    match ← masterAt nodes certs node addr with
    | some info => return info
    | none => findMasterFrom addrs

def findValidMaster (masters : List ServerInfo) (serviceName : String) : RedisResult ConnectionInfo :=
  findMasterFrom nodes certs node (validAddrs masters (isMasterValid serviceName))

variable {nodes certs node}

theorem masterAt_eq_ok_some {addr : String × UInt16} {info : ConnectionInfo} :
    masterAt nodes certs node addr = .ok (some info) ↔
      node.createConnectionInfo certs addr = .ok info ∧ (nodes info).Reports Role.isPrimary "master" := by
  rw [← NodeReplies.determine_eq_ok_true]
  constructor
  · intro h
    obtain ⟨info', hcreate, h⟩ := exists_of_bind_eq_ok h
    obtain ⟨isMaster, hmaster, h⟩ := exists_of_bind_eq_ok h
    cases isMaster with
    | false => cases h
    | true =>
      cases h
      exact ⟨hcreate, hmaster⟩
  · rintro ⟨hcreate, hmaster⟩
    rw [masterAt, hcreate]
    show (NodeReplies.determineFromRoleOrInfoReplication _ _ _ >>= fun _ => _) = _
    rw [hmaster]
    rfl

theorem findMasterFrom_eq_ok {addrs : List (String × UInt16)} {info : ConnectionInfo} :
    findMasterFrom nodes certs node addrs = .ok info ↔ ∃ before addr after, addrs = before ++ addr :: after ∧
      masterAt nodes certs node addr = .ok (some info) ∧ ∀ b ∈ before, masterAt nodes certs node b = .ok none := by
  induction addrs with
  | nil => simp [findMasterFrom]
  | cons addr addrs ih =>
    have hcons : (∃ before a after, addr :: addrs = before ++ a :: after ∧ masterAt nodes certs node a = .ok (some info) ∧
        ∀ b ∈ before, masterAt nodes certs node b = .ok none) ↔ masterAt nodes certs node addr = .ok (some info) ∨
          masterAt nodes certs node addr = .ok none ∧ findMasterFrom nodes certs node addrs = .ok info := by
      rw [ih]
      constructor
      · rintro ⟨_ | ⟨b, before⟩, a, after, heq, ha, hbef⟩
        · cases heq
          exact .inl ha
        · cases heq
          exact .inr ⟨hbef _ mem_cons_self, before, a, after, rfl, ha, fun c hc =>
            hbef c (mem_cons_of_mem _ hc)⟩
      · rintro (ha | ⟨haddr, before, a, after, rfl, ha, hbef⟩)
        · exact ⟨[], addr, addrs, rfl, ha, nofun⟩
        · exact ⟨addr :: before, a, after, rfl, ha, forall_mem_cons.2 ⟨haddr, hbef⟩⟩
    rw [hcons, findMasterFrom]
    rcases masterAt nodes certs node addr with err | _ | found <;> simp [bind, Except.bind, pure, Except.pure]

variable (nodes certs node) in
/-- What is found is a listed master. Where there is one, it is found exactly if the nodes of all entries before
the first such entry have answered that they are no masters. -/
theorem valid_master_found_iff (masters : List ServerInfo) (serviceName : String) :
    (∀ info, findValidMaster nodes certs node masters serviceName = .ok info →
      ∃ addr, ListedMaster masters serviceName addr ∧ node.createConnectionInfo certs addr = .ok info ∧
        (nodes info).Reports Role.isPrimary "master") ∧
    ∀ addr info, ListedMaster masters serviceName addr → node.createConnectionInfo certs addr = .ok info →
      (nodes info).Reports Role.isPrimary "master" →
      ((∃ found, findValidMaster nodes certs node masters serviceName = .ok found) ↔
        ∃ before addr' after found, validAddrs masters (isMasterValid serviceName) = before ++ addr' :: after ∧
          node.createConnectionInfo certs addr' = .ok found ∧ (nodes found).Reports Role.isPrimary "master" ∧
          ∀ b ∈ before, masterAt nodes certs node b = .ok none) := by
  simp only [findValidMaster, findMasterFrom_eq_ok, masterAt_eq_ok_some]
  constructor
  · rintro info ⟨before, addr, after, heq, ⟨hcreate, hreports⟩, -⟩
    refine ⟨addr, mem_validAddrs_isMasterValid.1 ?_, hcreate, hreports⟩
    rw [heq]
    exact mem_append_right _ mem_cons_self
  · intro addr info _ _ _
    constructor
    · rintro ⟨found, before, addr', after, heq, ⟨hcreate, hreports⟩, hbefore⟩
      exact ⟨before, addr', after, found, heq, hcreate, hreports, hbefore⟩
    · rintro ⟨before, addr', after, found, heq, hcreate, hreports, hbefore⟩
      exact ⟨found, before, addr', after, heq, ⟨hcreate, hreports⟩, hbefore⟩

end Search

def serverInfo (name ip flags : String) : ServerInfo :=
  collectMap [("name", name), ("ip", ip), ("port", "6379"), ("flags", flags)]

def threeNodes (info : ConnectionInfo) : NodeReplies :=
  if info.addr = .tcp "a" 6379 then ⟨.error (.ofIo .connectionRefused), .ok .nil, .ok .nil⟩
  else if info.addr = .tcp "b" 6379 then
    ⟨.ok (), .ok (.array [.bulkString (bytesOf "master"), .int 0, .array []]), .ok .nil⟩
  else ⟨.ok (), .ok (.serverError (.known .responseError none)), .ok (.bulkString (bytesOf "role:slave"))⟩

theorem listed_master_found : ∃ info,
    ListedMaster [serverInfo "m" "b" "master"] "m" ("b", 6379) ∧
    SentinelNodeConnectionInfo.default.createConnectionInfo (.ok ()) ("b", 6379) = .ok info ∧
    (threeNodes info).Reports Role.isPrimary "master" ∧
    ∃ found, findValidMaster threeNodes (.ok ()) .default [serverInfo "m" "b" "master"] "m" = .ok found := by
  have hlisted : ListedMaster [serverInfo "m" "b" "master"] "m" ("b", 6379) :=
    ⟨_, mem_cons_self, rfl, rfl, rfl, "master", rfl, rfl, rfl⟩
  have hreports : ∀ redis, (threeNodes ⟨.tcp "b" 6379, redis⟩).Reports Role.isPrimary "master" :=
    fun _ => ⟨rfl, .inl ⟨_, rfl, rfl⟩⟩
  exact ⟨_, hlisted, rfl, hreports _, ((valid_master_found_iff threeNodes (.ok ()) .default _ "m").2 _ _ hlisted rfl
    (hreports _)).2 ⟨[], _, [], _, rfl, rfl, hreports _, nofun⟩⟩

theorem master_behind_unreachable :
    findValidMaster threeNodes (.ok ()) .default [serverInfo "m" "a" "master", serverInfo "m" "b" "master"] "m" =
      .error (.ofIo .connectionRefused) ∧
    findValidMaster threeNodes (.ok ()) .default [serverInfo "m" "b" "master"] "m" =
      SentinelNodeConnectionInfo.default.createConnectionInfo (.ok ()) ("b", 6379) :=
  ⟨rfl, rfl⟩

section Search

variable (nodes : ConnectionInfo → NodeReplies) (certs : RedisResult Unit) (node : SentinelNodeConnectionInfo)

def replicaAddresses (replicas : List ServerInfo) : RedisResult (List ConnectionInfo) :=
  (validAddrs replicas isReplicaValid).mapM (node.createConnectionInfo certs)

def getValidReplicasAddresses (replicas : List ServerInfo) : RedisResult (List ConnectionInfo) := do
  let addresses ← replicaAddresses certs node replicas
  return addresses.filter fun info => (nodes info).isReplica

def asyncGetValidReplicasAddresses (replicas : List ServerInfo) : RedisResult (List ConnectionInfo) := do
  let addresses ← replicaAddresses certs node replicas
  return addresses.filter fun info => (nodes info).isReplicaRoleValid

/-- The two functions find the same replicas exactly if no node says only by `INFO` that it is one. -/
theorem replica_discovery_agrees_iff (replicas : List ServerInfo) :
    getValidReplicasAddresses nodes certs node replicas = asyncGetValidReplicasAddresses nodes certs node replicas ↔
      ∀ addresses, replicaAddresses certs node replicas = .ok addresses → ∀ info ∈ addresses,
        (nodes info).connect = .ok () → ∀ err, (nodes info).checkRole = .error err →
          (nodes info).checkInfoReplication ≠ .ok "slave" := by
  simp only [← NodeReplies.isReplica_eq_iff]
  rw [getValidReplicasAddresses, asyncGetValidReplicasAddresses]
  rcases replicaAddresses certs node replicas with err | addresses
  · simp [bind, Except.bind]
  · show Except.ok _ = Except.ok _ ↔ _
    simp only [Except.ok.injEq, forall_eq']
    refine ⟨fun h info hmem => ?_, fun h => filter_congr h⟩
    -- The node is in both lists or in neither.
    have hiff : info ∈ addresses.filter (fun info => (nodes info).isReplica) ↔
        info ∈ addresses.filter (fun info => (nodes info).isReplicaRoleValid) := by rw [h]
    simp only [mem_filter, hmem, true_and] at hiff
    exact Bool.eq_iff_iff.2 hiff

end Search

theorem replica_found_by_info :
    getValidReplicasAddresses threeNodes (.ok ()) .default [serverInfo "r" "c" "slave"] = .ok [] ∧
    (asyncGetValidReplicasAddresses threeNodes (.ok ()) .default [serverInfo "r" "c" "slave"]).map List.length = .ok 1 :=
  ⟨rfl, rfl⟩

def noValidReplicas : RedisError :=
  .general .noValidReplicasFoundBySentinel "No valid replica found in sentinel for given name" none

section Rotation

variable {C : Type} (openClient : ConnectionInfo → RedisResult C)

def connectFrom (addresses : List ConnectionInfo) (startIndex : Nat) : List Nat → RedisError → RedisResult C
  | [], lastErr => .error lastErr
  | i :: is, lastErr => match addresses[(i + startIndex) % addresses.length]? with
    | none => .error lastErr
    | some info => match openClient info with
      | .ok client => .ok client
      | .error err => connectFrom addresses startIndex is err

def tryConnectToFirstReplica (addresses : List ConnectionInfo) (startIndex : Option Nat) : RedisResult C :=
  connectFrom openClient addresses (startIndex.getD 0) (List.range addresses.length) noValidReplicas

def replicaRotateFor (addresses : List ConnectionInfo) (replicaStartIndex : Nat) : RedisResult C × Nat :=
  let index := if addresses = [] then replicaStartIndex else (replicaStartIndex + 1) % addresses.length
  (tryConnectToFirstReplica openClient addresses (some index), index)

variable {S : Type} [DecidableEq S] (replicas : S → List ConnectionInfo)

def rotations (s : S) : Nat → List S → List (RedisResult ConnectionInfo)
  | _, [] => []
  | index, u :: calls =>
    let (client, index) := replicaRotateFor .ok (replicas u) index
    if u = s then client :: rotations s index calls else rotations s index calls

/-- Any consecutive calls, as many as there are replicas, get each replica once. -/
def Fair : Prop := ∀ index calls s window, window <:+: rotations replicas s index calls →
  window.length = (replicas s).length → window.Perm ((replicas s).map .ok)

theorem replicaRotateFor_eq {addresses : List ConnectionInfo} (hne : addresses ≠ []) (index : Nat) :
    ∃ info, addresses[(index + 1) % addresses.length]? = some info ∧
      replicaRotateFor .ok addresses index = (.ok info, (index + 1) % addresses.length) := by
  have hpos : 0 < addresses.length := length_pos_iff.2 hne
  have hlt := Nat.mod_lt (index + 1) hpos
  refine ⟨addresses[(index + 1) % addresses.length], getElem?_eq_getElem hlt, ?_⟩
  obtain ⟨n, hn⟩ := Nat.exists_eq_succ_of_ne_zero hpos.ne'
  simp only [replicaRotateFor, if_neg hne, tryConnectToFirstReplica, Option.getD_some, Prod.mk.injEq, and_true]
  rw [show List.range addresses.length = 0 :: (List.range n).map (· + 1) by rw [hn, range_succ_eq_map], connectFrom]
  simp [Nat.mod_eq_of_lt hlt, getElem?_eq_getElem hlt]

variable {replicas} {s : S}

theorem rotations_self (hne : replicas s ≠ []) (index : Nat) (calls : List S) :
    ∃ info, (replicas s)[(index + 1) % (replicas s).length]? = some info ∧ rotations replicas s index (s :: calls) =
      .ok info :: rotations replicas s ((index + 1) % (replicas s).length) calls := by
  obtain ⟨info, hinfo, heq⟩ := replicaRotateFor_eq hne index
  exact ⟨info, hinfo, by simp [rotations, heq]⟩

theorem rotations_other {u : S} (hu : u ≠ s) (hne : replicas u ≠ []) (index : Nat) (calls : List S) :
    rotations replicas s index (u :: calls) = rotations replicas s ((index + 1) % (replicas u).length) calls := by
  obtain ⟨info, -, heq⟩ := replicaRotateFor_eq hne index
  simp [rotations, heq, hu]

theorem rotations_getElem? (hne : replicas s ≠ []) (h : ∀ u, u = s) (calls : List S) (index j : Nat)
    (hj : j < calls.length) :
    (rotations replicas s index calls)[j]? = ((replicas s)[(j + (index + 1)) % (replicas s).length]?).map .ok := by
  induction calls generalizing index j with
  | nil => cases hj
  | cons u calls ih =>
    obtain rfl := h u
    obtain ⟨info, hinfo, heq⟩ := rotations_self hne index calls
    rw [heq]
    cases j with
    | zero => simp [hinfo]
    | succ j =>
      rw [getElem?_cons_succ, ih _ j (by simpa using hj)]
      congr 2
      rw [← Nat.add_assoc, ← Nat.add_assoc, Nat.add_right_comm, Nat.add_mod_mod]
      congr 1

theorem length_rotations (h : ∀ u, u = s) (calls : List S) (index : Nat) :
    (rotations replicas s index calls).length = calls.length := by
  induction calls generalizing index with
  | nil => rfl
  | cons u calls ih => simp [rotations, h u, ih]

theorem perm_of_only (hne : replicas s ≠ []) (h : ∀ u, u = s) {index : Nat} {calls : List S}
    {window : List (RedisResult ConnectionInfo)} (hwin : window <:+: rotations replicas s index calls)
    (hlen : window.length = (replicas s).length) : window.Perm ((replicas s).map .ok) := by
  obtain ⟨before, after, heq⟩ := hwin
  have hrotate : window = ((replicas s).rotate (before.length + (index + 1))).map .ok := by
    refine ext_getElem? fun j => ?_
    by_cases hj : j < window.length
    · have hget := rotations_getElem? hne h calls index (before.length + j) (by
        rw [← length_rotations h calls index, ← heq]
        simp
        omega)
      rw [← heq, append_assoc, getElem?_append_right (Nat.le_add_right _ _), Nat.add_sub_cancel_left,
        getElem?_append_left hj] at hget
      rw [hget, getElem?_map, getElem?_rotate (hlen ▸ hj)]
      congr 3
      omega
    · rw [getElem?_eq_none (Nat.le_of_not_lt hj), getElem?_eq_none (by simpa [← hlen] using hj)]
  rw [hrotate]
  exact (rotate_perm _ _).map _

theorem all_of_single {info : ConnectionInfo} (hs : replicas s = [info]) (hne : ∀ u, replicas u ≠ []) (calls : List S)
    (index : Nat) : ∀ r ∈ rotations replicas s index calls, r = .ok info := by
  induction calls generalizing index with
  | nil => exact nofun
  | cons u calls ih =>
    by_cases hu : u = s
    · subst hu
      obtain ⟨info', hinfo, heq⟩ := rotations_self (hne u) index calls
      rw [heq]
      refine forall_mem_cons.2 ⟨?_, ih _⟩
      simp only [hs, length_singleton, Nat.mod_one, getElem?_cons_zero, Option.some.injEq] at hinfo
      rw [hinfo]
    · rw [rotations_other hu (hne u)]
      exact ih _

theorem rotations_replicate {u : S} (hu : u ≠ s) (hne : replicas u ≠ []) (k index : Nat) (calls : List S) :
    rotations replicas s index (List.replicate (k + 1) u ++ calls) =
      rotations replicas s ((index + (k + 1)) % (replicas u).length) calls := by
  induction k generalizing index with
  | zero => exact rotations_other hu hne index calls
  | succ k ih =>
    rw [replicate_succ, cons_append, rotations_other hu hne, ih, Nat.mod_add_mod]
    congr 2
    omega

theorem rotations_stuck {u : S} (hu : u ≠ s) (hne : ∀ u, replicas u ≠ []) (htwo : 2 ≤ (replicas s).length) :
    ∃ info block, ∀ m, rotations replicas s 0 (List.replicate m block).flatten = List.replicate m (.ok info) := by
  obtain ⟨info, hinfo⟩ : ∃ info, (replicas s)[1]? = some info := ⟨_, getElem?_eq_getElem htwo⟩
  have hpos : 0 < (replicas u).length := length_pos_iff.2 (hne u)
  refine ⟨info, s :: List.replicate (2 * (replicas u).length - 2 + 1) u, fun m => ?_⟩
  induction m with
  | zero => rfl
  | succ m ih =>
    obtain ⟨info', hinfo', heq⟩ := rotations_self (hne s) 0
      (List.replicate (2 * (replicas u).length - 2 + 1) u ++
        (List.replicate m (s :: List.replicate (2 * (replicas u).length - 2 + 1) u)).flatten)
    rw [Nat.zero_add, Nat.mod_eq_of_lt htwo] at hinfo' heq
    cases hinfo.symm.trans hinfo'
    have hback : (1 + (2 * (replicas u).length - 2 + 1)) % (replicas u).length = 0 := by
      rw [show 1 + (2 * (replicas u).length - 2 + 1) = (replicas u).length * 2 by omega]
      exact Nat.mul_mod_right _ _
    rw [replicate_succ, flatten_cons, cons_append, heq, rotations_replicate hu (hne u), hback, ih,
      replicate_succ]

variable (replicas) in
/-- The rotation is fair, for every interleaving and first index, exactly if each service with more than one replica is
the only one. -/
theorem rotation_fair_iff (hne : ∀ s, replicas s ≠ []) :
    ((∀ s, (replicas s).length = 1 ∨ ∀ u, u = s) → Fair replicas) ∧
    ((∀ s, (replicas s).Nodup) → Fair replicas → ∀ s, (replicas s).length = 1 ∨ ∀ u, u = s) := by
  constructor
  · intro h index calls s window hwin hlen
    rcases h s with hone | honly
    · obtain ⟨info, hs⟩ := length_eq_one_iff.1 hone
      obtain ⟨r, rfl⟩ := length_eq_one_iff.1 (hlen.trans hone)
      rw [hs, all_of_single hs hne calls index r (hwin.subset mem_cons_self)]
      exact .refl _
    · exact perm_of_only (hne s) honly hwin hlen
  · intro hnodup hfair s
    have hpos : 0 < (replicas s).length := length_pos_iff.2 (hne s)
    by_contra hnot
    obtain ⟨hone, hother⟩ := not_or.1 hnot
    obtain ⟨u, hu⟩ := not_forall.1 hother
    obtain ⟨info, block, hstuck⟩ := rotations_stuck hu hne (by omega)
    have hwin : List.replicate (replicas s).length (.ok info) <:+:
        rotations replicas s 0 (List.replicate (replicas s).length block).flatten := by
      rw [hstuck]
    have hperm := hfair 0 _ s _ hwin length_replicate
    have hdistinct := hperm.nodup_iff.2 ((hnodup s).map fun _ _ => Except.ok.inj)
    rw [nodup_replicate] at hdistinct
    omega

end Rotation

def replicaAt (host : String) : ConnectionInfo := ⟨.tcp host 6379, SentinelNodeConnectionInfo.default.redis⟩

theorem rotation_fair_one_service : Fair fun _ : Unit => [replicaAt "a", replicaAt "b"] :=
  (rotation_fair_iff (fun _ : Unit => [replicaAt "a", replicaAt "b"]) fun _ => cons_ne_nil _ _).1
    fun _ => .inr fun _ => rfl

theorem rotation_stuck_two_services :
    rotations (fun _ : Bool => [replicaAt "a", replicaAt "b"]) true 0 [true, false, true, false] =
      [.ok (replicaAt "b"), .ok (replicaAt "b")] ∧
    ¬ ([.ok (replicaAt "b"), .ok (replicaAt "b")] : List (RedisResult ConnectionInfo)).Perm
      ([replicaAt "a", replicaAt "b"].map .ok) := by
  refine ⟨rfl, fun hperm => ?_⟩
  have hmem := hperm.mem_iff.2 mem_cons_self
  simp [replicaAt] at hmem

end RedisRs
