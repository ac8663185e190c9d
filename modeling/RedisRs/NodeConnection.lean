import RedisRs.ClusterConnection

/-!
# `Connection` as the connection to a node
-/

namespace RedisRs

inductive Answer
  | value (v : Value)
  | io (kind : IoErrorKind)
  | parse (err : ParsingError)

def Answer.toResult : Answer → RedisResult Value
  | value v => .ok v
  | io kind => .error (.ofIo kind)
  | parse err => .error (.parsing err)

structure NodeConnection where
  con : Connection
  answers : List Answer

namespace NodeConnection

def timedOut : RedisError := .ofIo .timedOut

def call {ρ : Type} (timeout : ρ) (n : Nat) (f : Connection → Wire → Option (ρ × Connection × Wire))
    (node : NodeConnection) : ρ × NodeConnection :=
  match f node.con (node.answers.map Answer.toResult ++ List.replicate n (.error timedOut)) with
  | some (out, con, rest) => (out, ⟨con, node.answers.drop (node.answers.length + n - rest.length)⟩)
  | none => (timeout, node)

instance : ConnectionLike NodeConnection where
  reqPackedCommand bytes := call (.error timedOut) 1 (Connection.reqPackedCommand bytes)
  reqCommand cmd := call (.error timedOut) 1 (Connection.reqCommand cmd)
  -- a read that fails does not end the loop over the replies
  reqPackedCommands bytes offset count :=
    call (.ok (.error timedOut)) (offset + count + 1) (Connection.reqPackedCommands bytes offset count)
  checkConnection node :=
    let (r, node) := call (.error timedOut) 1 (Connection.reqCommand (cmd "PING")) node
    let value : RedisResult Text := do (FromRedisValue.fromRedisValue (← (← r).extractError)).toRedisResult
    (value.isOk, node)

instance : Connect NodeConnection where
  sendPackedCommand bytes node :=
    let (r, con) := node.con.sendBytes bytes
    (r.map fun _ => (), { node with con := con })
  recvResponse := call (.error timedOut) 1 (Connection.read true)
  setReadTimeout _ := .ok ()
  setWriteTimeout _ := .ok ()

open Connect

theorem readStep_result {b : Bool} {con con' : Connection} {r r' : RedisResult Value}
    (h : con.readStep b r = (some r', con')) : r' = r := by
  simp only [Connection.readStep] at h
  repeat' split at h
  all_goals
    simp only [Prod.mk.injEq, Option.some.injEq, reduceCtorEq, false_and] at h
  all_goals exact h.1.symm

theorem read_mem {b : Bool} {con con' : Connection} {wire rest : Wire} {r : RedisResult Value}
    (h : con.read b wire = some (r, con', rest)) : r ∈ wire := by
  induction wire generalizing con with
  | nil => cases h
  | cons x wire ih =>
    rw [Connection.read] at h
    rcases hs : con.readStep b x with ⟨_ | r', con₁⟩
    · simp only [hs] at h
      exact List.mem_cons_of_mem _ (ih h)
    · simp only [hs, Option.some.injEq, Prod.mk.injEq] at h
      rw [← h.1, readStep_result hs]
      exact List.mem_cons_self

theorem recvResponse_error {node : NodeConnection} {e : RedisError} (h : (recvResponse node).1 = .error e) :
    e.isClusterError = false := by
  have hans : ∀ a : Answer, a.toResult = .error e → e.isClusterError = false := by
    intro a ha
    rcases a with v | kind | err
    · cases ha
    · rw [← Except.error.inj ha]
      rfl
    · rw [← Except.error.inj ha]
      rfl
  have hrecv : recvResponse node = call (.error timedOut) 1 (Connection.read true) node := rfl
  rw [hrecv, call] at h
  rcases hread : node.con.read true (node.answers.map Answer.toResult ++ List.replicate 1 (.error timedOut))
    with _ | ⟨r, con, rest⟩
  · simp only [hread] at h
    exact hans (.io .timedOut) h
  · simp only [hread] at h
    rcases List.mem_append.1 (read_mem hread) with hmem | hmem
    · obtain ⟨a, -, ha⟩ := List.mem_map.1 hmem
      exact hans a (ha.trans h)
    · exact hans (.io .timedOut) ((List.eq_of_mem_replicate hmem).symm.trans h)

end NodeConnection

namespace Cluster

def nodeA : NodeAddress := ⟨"a", 7000⟩

def nodeB : NodeAddress := ⟨"b", 7001⟩

def plainEnv (numberOfRetries : UInt32) : ClusterEnv NodeConnection where
  initialNodes := []
  autoReconnect := false
  readRouting := false
  retryParams := { numberOfRetries }
  connect _ _ := .error (.ofIo .connectionRefused)
  random _ := 0
  strategy := none
  order _ l := l
  order_perm _ l := .refl l
  routeOrder _ l := l
  routeOrder_perm _ l := .refl l
  keyOrder _ l := l
  keyOrder_perm _ l := .refl l

def halves : SlotMap := .fromSlots [⟨0, 8191, nodeA, []⟩, ⟨8192, 16383, nodeB, []⟩]

def twoNodes (a b : NodeConnection) : ClusterConnection NodeConnection where
  connections := ⟨((∅ : Connections NodeConnection).insert nodeB ⟨b, 0, 0⟩).insert nodeA ⟨a, 0, 0⟩, .free⟩
  slots := ⟨halves, .free⟩
  attempts _ := 0
  tick := 0
  refreshes := 0
  log := []

theorem twoNodes_links (a b : NodeConnection) (addr : NodeAddress) (link : Link NodeConnection)
    (h : (twoNodes a b).connections.value.lookup addr = some link) : link.received = link.sent := by
  rcases lookup_insert_cases h with ⟨-, rfl⟩ | ⟨-, h⟩
  · rfl
  · rcases lookup_insert_cases h with ⟨-, rfl⟩ | ⟨-, h⟩
    · rfl
    · cases h

def answering (answers : List Answer) : NodeConnection := ⟨.fresh .resp2, answers⟩

def broken : NodeConnection := ⟨{ Connection.fresh .resp2 with writeError := some (.ofIo .brokenPipe) }, []⟩

end Cluster

end RedisRs
