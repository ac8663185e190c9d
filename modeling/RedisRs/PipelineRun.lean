import RedisRs.PipelinePlan

/-!
# Sending and receiving a pipeline
-/

namespace RedisRs

open List

namespace Cluster

open ConnectionLike Connect

variable {C : Type} [Connect C] (env : ClusterEnv C)

namespace ClusterConnection

def linkFor (s : ClusterConnection C) (addr : NodeAddress) : RedisResult (Link C) :=
  match s.connections.value.lookup addr with
  | some link => .ok link
  | none => (connectNode env addr (s.attempts addr)).map fun con => ⟨con, 0, 0⟩

def accepts (s : ClusterConnection C) (nc : NodeCmd) : Bool :=
  match linkFor env s nc.addr with
  | .ok link => (sendPackedCommand nc.pipe link.con).1.isOk
  | .error _ => false

def sentLink (nc : NodeCmd) (link : Link C) : Link C :=
  { link with con := (sendPackedCommand nc.pipe link.con).2, sent := link.sent + nc.indexes.length }

/-- Only the nodes `addrs` were dealt with. -/
structure Frame (addrs : List NodeAddress) (s s' : ClusterConnection C) : Prop where
  borrow : s'.connections.borrow = s.connections.borrow
  slots : s'.slots = s.slots
  lookup : ∀ a, a ∉ addrs → s'.connections.value.lookup a = s.connections.value.lookup a
  attempts : ∀ a, a ∉ addrs → s'.attempts a = s.attempts a

namespace Frame

variable {addrs addrs' : List NodeAddress} {s s' s'' : ClusterConnection C}

omit [Connect C] in
theorem refl (addrs : List NodeAddress) (s : ClusterConnection C) : Frame addrs s s :=
  ⟨rfl, rfl, fun _ _ => rfl, fun _ _ => rfl⟩

omit [Connect C] in
theorem mono (h : Frame addrs s s') (hsub : addrs ⊆ addrs') : Frame addrs' s s' :=
  ⟨h.borrow, h.slots, fun a ha => h.lookup a fun hm => ha (hsub hm), fun a ha => h.attempts a fun hm => ha (hsub hm)⟩

omit [Connect C] in
theorem trans (h : Frame addrs s s') (h' : Frame addrs' s' s'') : Frame (addrs ++ addrs') s s'' where
  borrow := h'.borrow.trans h.borrow
  slots := h'.slots.trans h.slots
  lookup a ha := (h'.lookup a (ha ∘ mem_append_right _)).trans (h.lookup a (ha ∘ mem_append_left _))
  attempts a ha := (h'.attempts a (ha ∘ mem_append_right _)).trans (h.attempts a (ha ∘ mem_append_left _))

theorem linkFor (h : Frame addrs s s') {a : NodeAddress} (ha : a ∉ addrs) : linkFor env s' a = linkFor env s a := by
  unfold ClusterConnection.linkFor
  rw [h.lookup a ha, h.attempts a ha]

theorem accepts (h : Frame addrs s s') {nc : NodeCmd} (ha : nc.addr ∉ addrs) : accepts env s' nc = accepts env s nc := by
  unfold ClusterConnection.accepts
  rw [h.linkFor env ha]

omit [Connect C] in
theorem setLink (h : Frame addrs s s') {a : NodeAddress} (ha : a ∈ addrs) (link : Link C) :
    Frame addrs s { s' with connections.value := s'.connections.value.insert a link } where
  borrow := h.borrow
  slots := h.slots
  lookup b hb := by
    have hne : b ≠ a := fun hba => hb (hba ▸ ha)
    exact (AList.lookup_insert_ne hne).trans (h.lookup b hb)
  attempts := h.attempts

end Frame

theorem getConnectionByAddr_of_some {addr : NodeAddress} {s : ClusterConnection C} {link : Link C}
    (hlook : s.connections.value.lookup addr = some link) :
    getConnectionByAddr env addr s = (.ok (.ok link), s) := by
  unfold getConnectionByAddr
  rw [Prog.bind_of_ok (Prog.get_apply s)]
  simp only [hlook]
  rfl

theorem getConnectionByAddr_spec (addr : NodeAddress) (s : ClusterConnection C) :
    ∃ s', getConnectionByAddr env addr s = (.ok (linkFor env s addr), s') ∧ Frame [addr] s s' ∧
      s'.connections.value.lookup addr = (linkFor env s addr).toOption ∧ s'.log = s.log := by
  unfold linkFor
  rcases hlook : s.connections.value.lookup addr with _ | link
  · -- a new attempt to connect
    have hframe : Frame [addr] s { s with attempts := Function.update s.attempts addr (s.attempts addr + 1) } := by
      refine ⟨rfl, rfl, fun _ _ => rfl, fun a ha => ?_⟩
      have hne : a ≠ addr := fun h => ha (mem_singleton.2 h)
      exact Function.update_of_ne hne _ _
    have hconnect : ∀ r, connectNode env addr (s.attempts addr) = r → connect env addr s =
        (.ok r, { s with attempts := Function.update s.attempts addr (s.attempts addr + 1) }) :=
      fun r hr => Prod.ext (congrArg Except.ok hr) rfl
    unfold getConnectionByAddr
    rw [Prog.bind_of_ok (Prog.get_apply s)]
    simp only [hlook]
    rcases hcon : connectNode env addr (s.attempts addr) with e | con
    · refine ⟨_, ?_, hframe, hlook, rfl⟩
      rw [Prog.bind_of_ok (hconnect _ hcon)]
      rfl
    · refine ⟨_, ?_, hframe.setLink mem_cons_self ⟨con, 0, 0⟩, AList.lookup_insert _, rfl⟩
      rw [Prog.bind_of_ok (hconnect _ hcon)]
      rfl
  · exact ⟨s, getConnectionByAddr_of_some env hlook, .refl _ s, hlook, rfl⟩

variable {nc : NodeCmd} {s : ClusterConnection C}

theorem sendNodeCmd_of_accepts (h : accepts env s nc = true) :
    ∃ link s', linkFor env s nc.addr = .ok link ∧ sendNodeCmd env nc s = (.ok (.ok ()), s') ∧
      Frame [nc.addr] s s' ∧ s'.connections.value.lookup nc.addr = some (sentLink nc link) ∧ s'.log = s.log := by
  obtain ⟨s₁, hget, hframe, -, hlog⟩ := getConnectionByAddr_spec env nc.addr s
  unfold accepts at h
  rcases hlink : linkFor env s nc.addr with e | link
  · rw [hlink] at h
    cases h
  · rw [hlink] at hget
    simp only [hlink] at h
    rcases hsend : sendPackedCommand nc.pipe link.con with ⟨e | _, con⟩
    · rw [hsend] at h
      cases h
    · refine ⟨link, _, rfl, ?_, hframe.setLink mem_cons_self (sentLink nc link), AList.lookup_insert _, hlog⟩
      unfold sendNodeCmd sentLink
      rw [Prog.bind_of_ok hget]
      simp only [hsend]
      rfl

theorem sendNodeCmd_of_refuses (h : accepts env s nc = false) :
    ∃ e s', sendNodeCmd env nc s = (.ok (.error e), s') ∧ Frame [nc.addr] s s' ∧
      (∀ link', s'.connections.value.lookup nc.addr = some link' →
        ∃ link, linkFor env s nc.addr = .ok link ∧ link'.sent = link.sent ∧ link'.received = link.received) ∧
      s'.log = s.log := by
  obtain ⟨s₁, hget, hframe, hlook, hlog⟩ := getConnectionByAddr_spec env nc.addr s
  unfold accepts at h
  rcases hlink : linkFor env s nc.addr with e | link
  · rw [hlink] at hget hlook
    refine ⟨e, s₁, ?_, hframe, fun link' hlink' => ?_, hlog⟩
    · unfold sendNodeCmd
      rw [Prog.bind_of_ok hget]
      rfl
    · rw [hlook] at hlink'
      cases hlink'
  · rw [hlink] at hget
    simp only [hlink] at h
    rcases hsend : sendPackedCommand nc.pipe link.con with ⟨e | _, con⟩
    · refine ⟨e, _, ?_, hframe.setLink mem_cons_self { link with con := con }, fun link' hlink' => ?_, hlog⟩
      · unfold sendNodeCmd
        rw [Prog.bind_of_ok hget]
        simp only [hsend]
        rfl
      · simp only [AList.lookup_insert] at hlink'
        rw [← Option.some.inj hlink']
        exact ⟨link, rfl, rfl, rfl⟩
    · rw [hsend] at h
      cases h

/-- Each of these nodes was sent its pipeline. -/
structure Sent (ncs : List NodeCmd) (s s' : ClusterConnection C) : Prop extends Frame (ncs.map NodeCmd.addr) s s' where
  links : ∀ nc ∈ ncs, ∃ link, linkFor env s nc.addr = .ok link ∧
    s'.connections.value.lookup nc.addr = some (sentLink nc link)
  log : s'.log = s.log

variable {ncs : List NodeCmd}

theorem sendNodeCmds_of_accepts (hnodup : (ncs.map NodeCmd.addr).Nodup) (h : ∀ nc ∈ ncs, accepts env s nc = true)
    (rest : List NodeCmd) :
    ∃ s', sendNodeCmds env (ncs ++ rest) s = sendNodeCmds env rest s' ∧ Sent env ncs s s' := by
  induction ncs generalizing s with
  | nil => exact ⟨s, rfl, .refl _ s, fun _ hnc => absurd hnc not_mem_nil, rfl⟩
  | cons nc ncs ih =>
    rw [map_cons, nodup_cons] at hnodup
    obtain ⟨link, s₁, hlink, hsend, hframe, hlook, hlog⟩ := sendNodeCmd_of_accepts env (h nc mem_cons_self)
    -- the other nodes are not touched
    have hother : ∀ nd ∈ ncs, nd.addr ∉ [nc.addr] := by
      intro nd hnd hmem
      exact hnodup.1 (mem_singleton.1 hmem ▸ mem_map_of_mem hnd)
    obtain ⟨s₂, hrest, hsent⟩ := ih hnodup.2 (s := s₁) fun nd hnd => by
      rw [hframe.accepts env (hother nd hnd)]
      exact h nd (mem_cons_of_mem _ hnd)
    refine ⟨s₂, ?_, hframe.trans hsent.toFrame, ?_, hsent.log.trans hlog⟩
    · rw [cons_append, sendNodeCmds, Prog.bind_of_ok hsend]
      exact hrest
    · intro nd hnd
      rcases mem_cons.1 hnd with rfl | hnd
      · exact ⟨link, hlink, (hsent.lookup _ hnodup.1).trans hlook⟩
      · obtain ⟨link', hlink', hlook'⟩ := hsent.links nd hnd
        exact ⟨link', (hframe.linkFor env (hother nd hnd)).symm.trans hlink', hlook'⟩

def readReplies : Nat → C → List (RedisResult Value) × C
  | 0, con => ([], con)
  | n + 1, con =>
    let (reply, con) := recvResponse con
    let (replies, con) := readReplies n con
    (reply :: replies, con)

theorem mem_readReplies {n : Nat} {con : C} {reply : RedisResult Value}
    (h : reply ∈ (readReplies n con).1) : ∃ con' : C, (recvResponse con').1 = reply := by
  induction n generalizing con with
  | zero => cases h
  | succ n ih =>
    rcases mem_cons.1 h with rfl | h
    · exact ⟨con, rfl⟩
    · exact ih h

def receivedLink (n : Nat) (link : Link C) : Link C :=
  { link with con := (readReplies n link.con).2, received := link.received + n }

def repliesOf (nc : NodeCmd) (link : Link C) : List (Nat × RedisResult Value) :=
  nc.indexes.zip (readReplies nc.indexes.length link.con).1

def Received.takeAll : Received → List (Nat × RedisResult Value) → Ends Received
  | r, [] => .ok r
  | r, item :: items => do (← r.take item.1 item.2).takeAll items

namespace Received

theorem takeAll_append (r : Received) (items items' : List (Nat × RedisResult Value)) :
    r.takeAll (items ++ items') = (r.takeAll items).bind fun r => r.takeAll items' := by
  induction items generalizing r with
  | nil => rfl
  | cons item items ih =>
    rcases htake : r.take item.1 item.2 with p | r₁
    · simp only [cons_append, takeAll, htake]
      rfl
    · simp only [cons_append, takeAll, htake]
      exact ih r₁

theorem take_of_lt (r : Received) {i : Nat} (hi : i < r.results.length) (reply : RedisResult Value) :
    ∃ r', r.take i reply = .ok r' ∧ r'.results.length = r.results.length := by
  rcases reply with e | value
  · rcases hc : e.isClusterError with _ | _
    · exact ⟨{ r with firstErr := r.firstErr <|> some e }, by simp [take, hc, pure, Except.pure], rfl⟩
    · exact ⟨{ r with toRetry := r.toRetry ++ [i] }, by simp [take, hc, pure, Except.pure], rfl⟩
  · refine ⟨{ r with results := r.results.set i value }, ?_, length_set⟩
    simp [take, indexSet, hi, pure, Except.pure, bind, Except.bind]

theorem takeAll_of_lt {r : Received} {items : List (Nat × RedisResult Value)}
    (h : ∀ item ∈ items, item.1 < r.results.length) :
    ∃ r', r.takeAll items = .ok r' ∧ r'.results.length = r.results.length := by
  induction items generalizing r with
  | nil => exact ⟨r, rfl, rfl⟩
  | cons item items ih =>
    obtain ⟨r₁, htake, hlen⟩ := r.take_of_lt (h item mem_cons_self) item.2
    obtain ⟨r₂, hall, hlen'⟩ := ih (r := r₁) fun item' hitem' => by
      rw [hlen]
      exact h item' (mem_cons_of_mem _ hitem')
    refine ⟨r₂, ?_, hlen'.trans hlen⟩
    simp only [takeAll, htake]
    exact hall

end Received

theorem recvNode_spec {addr : NodeAddress} {indexes : List Nat} {r r' : Received} {link : Link C}
    (hlook : s.connections.value.lookup addr = some link)
    (htake : r.takeAll (indexes.zip (readReplies indexes.length link.con).1) = .ok r') :
    ∃ s', recvNode env addr indexes r s = (.ok (.ok r'), s') ∧ Frame [addr] s s' ∧
      s'.connections.value.lookup addr = some (receivedLink indexes.length link) ∧
      s'.log = s.log ++ (indexes.zip (readReplies indexes.length link.con).1).map fun item => .recv item.1 item.2 := by
  induction indexes generalizing r link s with
  | nil =>
    have hr : r = r' := Except.ok.inj htake
    subst hr
    exact ⟨s, rfl, .refl _ s, hlook, (append_nil _).symm⟩
  | cons idx indexes ih =>
    have hget := getConnectionByAddr_of_some env hlook
    rcases hrecv : recvResponse link.con with ⟨reply, con⟩
    have hzip : (idx :: indexes).zip (readReplies (idx :: indexes).length link.con).1 =
        (idx, reply) :: indexes.zip (readReplies indexes.length con).1 := by
      simp [readReplies, hrecv]
    rw [hzip] at htake ⊢
    rcases htake₁ : r.take idx reply with p | r₁
    · simp only [Received.takeAll, htake₁] at htake
      cases htake
    · simp only [Received.takeAll, htake₁] at htake
      have hset : ({ s with
          connections.value := s.connections.value.insert addr ⟨con, link.sent, link.received + 1⟩
          log := s.log ++ [.recv idx reply] } : ClusterConnection C).connections.value.lookup addr =
            some ⟨con, link.sent, link.received + 1⟩ := AList.lookup_insert _
      obtain ⟨s', hrun, hframe, hlook', hlog⟩ := ih hset htake
      refine ⟨s', ?_, ?_, ?_, ?_⟩
      · have hends : ∀ t : ClusterConnection C, ends (r.take idx reply) t = (.ok r₁, t) := by
          intro t
          rw [htake₁]
          rfl
        unfold recvNode
        rw [Prog.bind_of_ok hget]
        simp only [hrecv]
        exact (Prog.bind_of_ok (hends _)).trans hrun
      · have hset := (Frame.refl [addr] s).setLink mem_cons_self ⟨con, link.sent, link.received + 1⟩
        refine Frame.mono (Frame.trans (?_ : Frame [addr] s _) hframe) (by simp)
        exact ⟨hset.borrow, hset.slots, hset.lookup, hset.attempts⟩
      · have hsum : link.received + 1 + indexes.length = link.received + (indexes.length + 1) := by omega
        rw [hlook']
        simp [receivedLink, readReplies, hrecv, hsum]
      · rw [hlog]
        simp

def repliesIn (s : ClusterConnection C) (nc : NodeCmd) : List (Nat × RedisResult Value) :=
  ((s.connections.value.lookup nc.addr).map (repliesOf nc)).getD []

theorem Frame.repliesIn {addrs : List NodeAddress} {s' : ClusterConnection C} (h : Frame addrs s s')
    (ha : nc.addr ∉ addrs) : repliesIn s' nc = repliesIn s nc := by
  unfold ClusterConnection.repliesIn
  rw [h.lookup nc.addr ha]

/-- The replies of these nodes were read. -/
structure Answered (ncs : List NodeCmd) (s s' : ClusterConnection C) : Prop
    extends Frame (ncs.map NodeCmd.addr) s s' where
  links : ∀ nc ∈ ncs, ∀ link, s.connections.value.lookup nc.addr = some link →
    s'.connections.value.lookup nc.addr = some (receivedLink nc.indexes.length link)
  log : s'.log = s.log ++ (ncs.flatMap (repliesIn s)).map fun item => .recv item.1 item.2

theorem recvNodes_spec (hnodup : (ncs.map NodeCmd.addr).Nodup) {r r' : Received}
    (hlook : ∀ nc ∈ ncs, ∃ link, s.connections.value.lookup nc.addr = some link)
    (htake : r.takeAll (ncs.flatMap (repliesIn s)) = .ok r') :
    ∃ s', recvNodes env ncs r s = (.ok (.ok r'), s') ∧ Answered ncs s s' := by
  induction ncs generalizing r s with
  | nil =>
    have hr : r = r' := Except.ok.inj htake
    subst hr
    exact ⟨s, rfl, .refl _ s, fun _ hnc => absurd hnc not_mem_nil, (append_nil _).symm⟩
  | cons nc ncs ih =>
    rw [map_cons, nodup_cons] at hnodup
    have hother : ∀ nd ∈ ncs, nd.addr ∉ [nc.addr] := by
      intro nd hnd hmem
      exact hnodup.1 (mem_singleton.1 hmem ▸ mem_map_of_mem hnd)
    obtain ⟨link, hlink⟩ := hlook nc mem_cons_self
    have hreps : repliesIn s nc = repliesOf nc link := by rw [repliesIn, hlink]; rfl
    -- the replies of the first node, then those of the others
    rw [flatMap_cons, Received.takeAll_append, hreps] at htake
    rcases htake₁ : r.takeAll (repliesOf nc link) with p | r₁
    · rw [htake₁] at htake
      cases htake
    rw [htake₁] at htake
    obtain ⟨s₁, hrun₁, hframe₁, hlook₁, hlog₁⟩ := recvNode_spec env hlink htake₁
    have hrest : ncs.flatMap (repliesIn s₁) = ncs.flatMap (repliesIn s) :=
      flatMap_congr fun nd hnd => hframe₁.repliesIn (hother nd hnd)
    have hlook' : ∀ nd ∈ ncs, s₁.connections.value.lookup nd.addr = s.connections.value.lookup nd.addr :=
      fun nd hnd => hframe₁.lookup _ (hother nd hnd)
    obtain ⟨s₂, hrun₂, hans⟩ := ih hnodup.2 (s := s₁)
      (fun nd hnd => by rw [hlook' nd hnd]; exact hlook nd (mem_cons_of_mem _ hnd)) (by rw [hrest]; exact htake)
    refine ⟨s₂, ?_, hframe₁.trans hans.toFrame, ?_, ?_⟩
    · rw [recvNodes, Prog.bind_of_ok hrun₁]
      exact hrun₂
    · intro nd hnd link' hlink'
      rcases mem_cons.1 hnd with rfl | hnd
      · rw [hlink] at hlink'
        rw [hans.lookup _ hnodup.1, hlook₁, Option.some.inj hlink']
      · exact hans.links nd hnd link' ((hlook' nd hnd).trans hlink')
    · rw [hans.log, hlog₁, hrest, flatMap_cons, map_append, append_assoc, hreps]
      rfl

def planOf [Crc16] (cmds : List Cmd) (s : ClusterConnection C) : Except Abort (RedisResult (List NodeCmd)) :=
  (mapCmdsToNodes env cmds { s with connections.borrow := .mutable }).1

variable {cmds : List Cmd}

omit [Connect C] in
theorem planOf_eq_ok [Crc16] (h : (planOf env cmds s).toOption.bind Except.toOption = some ncs) :
    planOf env cmds s = .ok (.ok ncs) := by
  rcases hplan : planOf env cmds s with p | (e | ncs')
  · rw [hplan] at h
    cases h
  · rw [hplan] at h
    cases h
  · rw [hplan] at h
    rw [Option.some.inj h]

def answersOf (s : ClusterConnection C) (nc : NodeCmd) : List (Nat × RedisResult Value) :=
  ((linkFor env s nc.addr).toOption.map fun link => repliesOf nc (sentLink nc link)).getD []

theorem mem_answersOf {item : Nat × RedisResult Value} (h : item ∈ answersOf env s nc) :
    item.1 ∈ nc.indexes ∧ ∃ con : C, (recvResponse con).1 = item.2 := by
  unfold answersOf at h
  rcases hlink : linkFor env s nc.addr with e | link
  · rw [hlink] at h
    cases h
  · rw [hlink] at h
    have hzip := of_mem_zip (show (item.1, item.2) ∈ nc.indexes.zip _ from h)
    exact ⟨hzip.1, mem_readReplies hzip.2⟩

theorem sendRecv_of_no_plan [Crc16] (hc : s.connections.borrow = .free) (h : ∀ ncs, planOf env cmds s ≠ .ok (.ok ncs)) :
    ∃ r t, sendRecvAndRetryCmds env cmds s = (r, { s with tick := t }) ∧ ∀ values, r ≠ .ok (.ok values) := by
  obtain ⟨t, ht⟩ := (mapCmdsToNodes_ticks env cmds).run { s with connections.borrow := .mutable }
  have hst : ({ s with connections.borrow := .free, tick := t } : ClusterConnection C) = { s with tick := t } := by
    rw [← hc]
  rcases hplan : planOf env cmds s with e | (e | ncs)
  · have hmap : mapCmdsToNodes env cmds { s with connections.borrow := .mutable } =
      (.error e, { s with connections.borrow := .mutable, tick := t }) := Prod.ext hplan ht
    have hsend : sendAllCommands env cmds s = (.error e, { s with tick := t }) := by
      unfold sendAllCommands
      rw [holdConnections_of_free hc, Prog.bind_of_error hmap, ← hst]
    exact ⟨.error e, t, Prog.bind_of_error hsend, nofun⟩
  · have hmap : mapCmdsToNodes env cmds { s with connections.borrow := .mutable } =
      (.ok (.error e), { s with connections.borrow := .mutable, tick := t }) := Prod.ext hplan ht
    have hsend : sendAllCommands env cmds s = (.ok (.error e), { s with tick := t }) := by
      unfold sendAllCommands
      rw [holdConnections_of_free hc, Prog.bind_of_ok hmap, ← hst]
      rfl
    exact ⟨.ok (.error e), t, Prog.bind_of_ok hsend, nofun⟩
  · exact absurd hplan (h ncs)

theorem sendAllCommands_of_plan [Crc16] (hc : s.connections.borrow = .free) (hplan : planOf env cmds s = .ok (.ok ncs)) :
    ∃ t, ∀ r s', sendNodeCmds env ncs { s with connections.borrow := .mutable, tick := t } = (.ok r, s') →
      sendAllCommands env cmds s = (.ok (r.map fun _ => ncs), { s' with connections.borrow := .free }) := by
  obtain ⟨t, ht⟩ := (mapCmdsToNodes_ticks env cmds).run { s with connections.borrow := .mutable }
  have hmap : mapCmdsToNodes env cmds { s with connections.borrow := .mutable } =
    (.ok (.ok ncs), { s with connections.borrow := .mutable, tick := t }) := Prod.ext hplan ht
  refine ⟨t, fun r s' hrun => ?_⟩
  unfold sendAllCommands
  rw [holdConnections_of_free hc, Prog.bind_of_ok hmap]
  dsimp only
  rw [Prog.bind_of_ok hrun]
  rcases r with e | _
  · rfl
  · rfl

theorem sendRecv_of_refused [Crc16] (hc : s.connections.borrow = .free) {before after : List NodeCmd}
    (hplan : planOf env cmds s = .ok (.ok (before ++ nc :: after))) (hbef : ∀ nd ∈ before, accepts env s nd = true)
    (hnc : accepts env s nc = false) :
    ∃ e s', sendRecvAndRetryCmds env cmds s = (.ok (.error e), s') ∧
      Frame ((before ++ [nc]).map NodeCmd.addr) s s' ∧
      (∀ nd ∈ before, ∃ link, linkFor env s nd.addr = .ok link ∧
        s'.connections.value.lookup nd.addr = some (sentLink nd link)) ∧
      (∀ link', s'.connections.value.lookup nc.addr = some link' →
        ∃ link, linkFor env s nc.addr = .ok link ∧ link'.sent = link.sent ∧ link'.received = link.received) ∧
      s'.log = s.log := by
  have hpart := mapCmdsToNodes_partitioned env hplan
  have haddrs := hpart.addrs
  rw [map_append, map_cons, nodup_append] at haddrs
  have hnew : nc.addr ∉ before.map NodeCmd.addr := fun hmem => haddrs.2.2 _ hmem _ mem_cons_self rfl
  obtain ⟨t, hsendAll⟩ := sendAllCommands_of_plan env hc hplan
  obtain ⟨s₁, hrun₁, hsent⟩ := sendNodeCmds_of_accepts env haddrs.1
    (s := { s with connections.borrow := .mutable, tick := t }) hbef (nc :: after)
  have hrefuse : accepts env s₁ nc = false := (hsent.toFrame.accepts env hnew).trans hnc
  obtain ⟨e, s₂, hrun₂, hframe₂, hlink₂, hlog₂⟩ := sendNodeCmd_of_refuses env hrefuse
  have hrun : sendNodeCmds env (before ++ nc :: after) { s with connections.borrow := .mutable, tick := t } =
      (.ok (.error e), s₂) := by
    rw [hrun₁, sendNodeCmds, Prog.bind_of_ok hrun₂]
    rfl
  refine ⟨e, { s₂ with connections.borrow := .free }, Prog.bind_of_ok (hsendAll _ _ hrun), ?_, ?_, ?_, ?_⟩
  · have hframe := hsent.toFrame.trans hframe₂
    rw [map_append]
    exact ⟨hc.symm, hframe.slots, hframe.lookup, hframe.attempts⟩
  · intro nd hnd
    obtain ⟨link, hlink, hlook⟩ := hsent.links nd hnd
    have hne : nd.addr ∉ [nc.addr] := fun hmem => hnew (mem_singleton.1 hmem ▸ mem_map_of_mem hnd)
    exact ⟨link, hlink, (hframe₂.lookup _ hne).trans hlook⟩
  · intro link' hlink'
    obtain ⟨link, hlink, hcnt⟩ := hlink₂ link' hlink'
    exact ⟨link, (hsent.toFrame.linkFor env hnew).symm.trans hlink, hcnt⟩
  · exact hlog₂.trans hsent.log

theorem sendRecv_of_accepted [Crc16] (hc : s.connections.borrow = .free) (hplan : planOf env cmds s = .ok (.ok ncs))
    (h : ∀ nc ∈ ncs, accepts env s nc = true) :
    ∃ r s', Received.takeAll ⟨List.replicate cmds.length .nil, [], none⟩ (ncs.flatMap (answersOf env s)) = .ok r ∧
      Frame (ncs.map NodeCmd.addr) s s' ∧
      (∀ nc ∈ ncs, ∃ link, linkFor env s nc.addr = .ok link ∧
        s'.connections.value.lookup nc.addr = some (receivedLink nc.indexes.length (sentLink nc link))) ∧
      s'.log = s.log ++ (ncs.flatMap (answersOf env s)).map (fun item => .recv item.1 item.2) ∧
      (∀ e, r.firstErr = some e → sendRecvAndRetryCmds env cmds s = (.ok (.error e), s')) ∧
      (r.firstErr = none → sendRecvAndRetryCmds env cmds s = finishCmds env cmds r.results r.toRetry s') := by
  have hpart := mapCmdsToNodes_partitioned env hplan
  obtain ⟨t, hsendAll⟩ := sendAllCommands_of_plan env hc hplan
  obtain ⟨s₁, hrun₁, hsent⟩ := sendNodeCmds_of_accepts env hpart.addrs
    (s := { s with connections.borrow := .mutable, tick := t }) h []
  rw [append_nil] at hrun₁
  have hsend : sendAllCommands env cmds s = (.ok (.ok ncs), { s₁ with connections.borrow := .free }) :=
    hsendAll _ _ hrun₁
  -- the replies are those of the connections after sending
  have hanss : ncs.flatMap (repliesIn { s₁ with connections.borrow := .mutable }) = ncs.flatMap (answersOf env s) := by
    refine flatMap_congr fun nc hnc => ?_
    obtain ⟨link, hlink, hlook⟩ := hsent.links nc hnc
    have hlink' : linkFor env s nc.addr = .ok link := hlink
    unfold repliesIn answersOf
    rw [hlook, hlink']
    rfl
  have hlt : ∀ item ∈ ncs.flatMap (answersOf env s), item.1 < (List.replicate cmds.length Value.nil).length := by
    intro item hitem
    rw [length_replicate, ← mem_range, ← hpart.indexes.mem_iff]
    obtain ⟨nc, hnc, hmem⟩ := mem_flatMap.1 hitem
    exact mem_flatMap.2 ⟨nc, hnc, (mem_answersOf env hmem).1⟩
  obtain ⟨r, htake, -⟩ := Received.takeAll_of_lt (r := ⟨List.replicate cmds.length .nil, [], none⟩) hlt
  have hlook : ∀ nc ∈ ncs, ∃ link, s₁.connections.value.lookup nc.addr = some link := by
    intro nc hnc
    obtain ⟨link, -, hl⟩ := hsent.links nc hnc
    exact ⟨_, hl⟩
  obtain ⟨s₂, hrun₂, hans⟩ := recvNodes_spec env hpart.addrs (s := { s₁ with connections.borrow := .mutable })
    hlook (hanss ▸ htake)
  have hrecv : recvAllCommands env (List.replicate cmds.length .nil) ncs { s₁ with connections.borrow := .free } =
      (.ok (r.firstErr.elim (.ok (r.results, r.toRetry)) .error), { s₂ with connections.borrow := .free }) := by
    unfold recvAllCommands
    rw [holdConnections_of_free rfl]
    simp only [Prog.bind_of_ok hrun₂]
    rcases r.firstErr with _ | e
    · rfl
    · rfl
  refine ⟨r, { s₂ with connections.borrow := .free }, htake, ?_, ?_, ?_, ?_, ?_⟩
  · exact ⟨hc.symm, hans.slots.trans hsent.slots, fun a ha => (hans.lookup a ha).trans (hsent.lookup a ha),
      fun a ha => (hans.attempts a ha).trans (hsent.attempts a ha)⟩
  · intro nc hnc
    obtain ⟨link, hlink, hl⟩ := hsent.links nc hnc
    exact ⟨link, hlink, hans.links nc hnc _ hl⟩
  · have hlog : s₂.log = s₁.log ++ _ := hans.log
    rw [hanss, hsent.log] at hlog
    exact hlog
  · intro e he
    rw [he] at hrecv
    exact (Prog.bind_of_ok hsend).trans (Prog.bind_of_ok hrecv)
  · intro he
    rw [he] at hrecv
    exact (Prog.bind_of_ok hsend).trans (Prog.bind_of_ok hrecv)

end ClusterConnection

end Cluster

end RedisRs
