import RedisRs.ClusterInvariant
import RedisRs.NodeConnection
import RedisRs.PipelineRun

/-!
# The replies of a pipeline
-/

namespace RedisRs

open List

namespace Cluster

open ConnectionLike Connect

/-- As many replies were read from the connection as commands were written to it. -/
def Link.Balanced {C : Type} (link : Link C) : Prop := link.received = link.sent

theorem balanced_linkInv {C : Type} : LinkInv (Link.Balanced (C := C)) := ⟨fun _ => rfl, fun _ _ h => h⟩

variable {C : Type} [Connect C] (env : ClusterEnv C)

namespace ClusterConnection

variable {cmds : List Cmd} {P : Link C → Prop} {n : Nat} (reply : Nat → Value) (indexes : List Nat)
  (results : List Value)

theorem retryCmds_keeps [Crc16] (hP : LinkInv P) (cmds : List Cmd) (toRetry : List Nat) (results : List Value) :
    Prog.Keeps (Held P .free .free n) (fun _ => True) (fun _ => True) (retryCmds env cmds toRetry results) := by
  induction toRetry generalizing results with
  | nil => exact .pure trivial
  | cons idx toRetry ih =>
    unfold retryCmds
    rcases cmds[idx]? with _ | cmd
    · exact .mono (ends_keeps (fun _ => trivial) _) fun _ _ => trivial
    · refine .bind (choice_keeps (connInv_held hP)) fun k _ => .bind (ends_keeps (fun _ => trivial) _) fun routing _ => ?_
      refine .bind (request_keeps env hP (fun _ => trivial) (.inl rfl) _ routing fun _ _ _ => .inr trivial)
        fun r _ => ?_
      rcases r with e | output
      · exact .pure trivial
      · exact .bind (ends_keeps (fun _ => trivial) _) fun results _ => ih results

theorem finishCmds_keeps [Crc16] (hP : LinkInv P) (cmds : List Cmd) (results : List Value) (toRetry : List Nat) :
    Prog.Keeps (Held P .free .free n) (fun _ => True) (fun _ => True) (finishCmds env cmds results toRetry) := by
  unfold finishCmds
  split_ifs with h
  · exact .pure trivial
  · refine .bind (refreshSlots_keeps env (cellInv_held hP) (.inl rfl)) fun r _ => ?_
    rcases r with e | _
    · exact .pure trivial
    · exact retryCmds_keeps env hP cmds toRetry results

variable {s : ClusterConnection C}

theorem balanced_linkFor (hs : ∀ addr link, s.connections.value.lookup addr = some link → link.Balanced)
    {addr : NodeAddress} {link : Link C} (h : linkFor env s addr = .ok link) : link.Balanced := by
  unfold linkFor at h
  rcases hlook : s.connections.value.lookup addr with _ | link'
  · simp only [hlook] at h
    rcases hcon : connectNode env addr (s.attempts addr) with e | con
    · rw [hcon] at h
      cases h
    · rw [hcon] at h
      rw [← Except.ok.inj h]
      rfl
  · simp only [hlook] at h
    rw [← Except.ok.inj h]
    exact hs addr link' hlook

theorem balanced_of_accepted [Crc16] (hc : s.connections.borrow = .free) (hl : s.slots.borrow = .free)
    (hs : ∀ addr link, s.connections.value.lookup addr = some link → link.Balanced) {ncs : List NodeCmd}
    (hplan : planOf env cmds s = .ok (.ok ncs)) (h : ∀ nc ∈ ncs, accepts env s nc = true) :
    ∀ addr link, (sendRecvAndRetryCmds env cmds s).2.connections.value.lookup addr = some link → link.Balanced := by
  obtain ⟨r, s', -, hframe, hlinks, -, herr, hok⟩ := sendRecv_of_accepted env hc hplan h
  have hheld : Held Link.Balanced .free .free 0 s' := by
    refine ⟨hframe.borrow.trans hc, (congrArg RefCell.borrow hframe.slots).trans hl, fun addr link hlook => ?_,
      Nat.zero_le _⟩
    by_cases haddr : addr ∈ ncs.map NodeCmd.addr
    · obtain ⟨nc, hnc, rfl⟩ := mem_map.1 haddr
      obtain ⟨link', hlink', hlook'⟩ := hlinks nc hnc
      have hbal : link'.received = link'.sent := balanced_linkFor env hs hlink'
      rw [hlook] at hlook'
      rw [Option.some.inj hlook']
      exact congrArg (· + nc.indexes.length) hbal
    · rw [hframe.lookup addr haddr] at hlook
      exact hs addr link hlook
  rcases hfirst : r.firstErr with _ | e
  · rw [hok hfirst]
    exact ((finishCmds_keeps env balanced_linkInv cmds r.results r.toRetry).inv s' hheld).links
  · rw [herr e hfirst]
    exact hheld.links

theorem balanced_of_head_refused [Crc16] (hc : s.connections.borrow = .free)
    (hs : ∀ addr link, s.connections.value.lookup addr = some link → link.Balanced) {nc : NodeCmd}
    {after : List NodeCmd} (hplan : planOf env cmds s = .ok (.ok (nc :: after))) (h : accepts env s nc = false) :
    ∀ addr link, (sendRecvAndRetryCmds env cmds s).2.connections.value.lookup addr = some link → link.Balanced := by
  have hbef : ∀ nd ∈ ([] : List NodeCmd), accepts env s nd = true := fun _ h => absurd h not_mem_nil
  -- nothing was sent, and at most the connection to the node is new
  obtain ⟨e, s', hrun, hframe, -, hlink, -⟩ := sendRecv_of_refused env hc hplan hbef h
  rw [hrun]
  intro addr link hlook
  rcases eq_or_ne addr nc.addr with rfl | hne
  · obtain ⟨link₀, hlink₀, hsent, hreceived⟩ := hlink link hlook
    have hbal : link₀.received = link₀.sent := balanced_linkFor env hs hlink₀
    show link.received = link.sent
    rw [hsent, hreceived, hbal]
  · have hnot : addr ∉ ([] ++ [nc]).map NodeCmd.addr := fun hmem => hne (mem_singleton.1 hmem)
    rw [hframe.lookup addr hnot] at hlook
    exact hs addr link hlook

theorem first_refused {ncs : List NodeCmd} (h : ¬ ∀ nc ∈ ncs, accepts env s nc = true) :
    ∃ before nc after, ncs = before ++ nc :: after ∧ (∀ nd ∈ before, accepts env s nd = true) ∧
      accepts env s nc = false := by
  obtain ⟨nc, hnc⟩ : ∃ nc, ncs.find? (fun nc => !accepts env s nc) = some nc := by
    refine Option.isSome_iff_exists.1 (find?_isSome.2 ?_)
    by_contra hall
    refine h fun nc hnc => ?_
    by_contra hacc
    exact hall ⟨nc, hnc, by simpa using hacc⟩
  obtain ⟨hrefuse, before, after, rfl, hbef⟩ := find?_eq_some_iff_append.1 hnc
  exact ⟨before, nc, after, rfl, fun nd hnd => by simpa using hbef nd hnd, by simpa using hrefuse⟩

/-- After a pipeline the connections have no reply left to read, exactly if there is no plan, every node of the
plan accepts its commands, or already the first one refuses them. -/
theorem no_reply_unread_iff [Crc16] (cmds : List Cmd) (s : ClusterConnection C) (hc : s.connections.borrow = .free)
    (hl : s.slots.borrow = .free)
    (hs : ∀ addr link, s.connections.value.lookup addr = some link → link.received = link.sent) :
    (∀ r s', sendRecvAndRetryCmds env cmds s = (.ok r, s') →
        ∀ addr link, s'.connections.value.lookup addr = some link → link.received = link.sent) ↔
      ∀ ncs, planOf env cmds s = .ok (.ok ncs) →
        (∀ nc ∈ ncs, accepts env s nc = true) ∨ ∀ nc, ncs.head? = some nc → accepts env s nc = false := by
  constructor
  · intro hread ncs hplan
    by_contra hcond
    rw [not_or] at hcond
    obtain ⟨before, nc, after, rfl, hbefore, hnc⟩ := first_refused env hcond.1
    obtain ⟨e, s', hrun, -, hlinks, -, -⟩ := sendRecv_of_refused env hc hplan hbefore hnc
    rcases before with _ | ⟨nd, before⟩
    · refine hcond.2 fun nd hnd => ?_
      rw [← Option.some.inj hnd]
      exact hnc
    · -- the first node was sent its commands, and nothing was read from it
      obtain ⟨link, hlink, hlook⟩ := hlinks nd mem_cons_self
      have hbal : link.received = link.sent := balanced_linkFor env hs hlink
      have hread' : link.received = link.sent + nd.indexes.length := hread _ _ hrun nd.addr _ hlook
      have hne : nd.indexes ≠ [] := (mapCmdsToNodes_partitioned env hplan).nonempty nd (by simp)
      have hpos := length_pos_iff.2 hne
      omega
  · intro hcond r s' hrun addr link hlook
    have hstate : s' = (sendRecvAndRetryCmds env cmds s).2 := by rw [hrun]
    by_cases hplan : ∃ ncs, planOf env cmds s = .ok (.ok ncs)
    · obtain ⟨ncs, hplan⟩ := hplan
      rcases hcond ncs hplan with hall | hfirst
      · rw [hstate] at hlook
        exact balanced_of_accepted env hc hl hs hplan hall addr link hlook
      · rcases ncs with _ | ⟨nc, after⟩
        · rw [hstate] at hlook
          exact balanced_of_accepted env hc hl hs hplan (fun _ h => absurd h not_mem_nil) addr link hlook
        · rw [hstate] at hlook
          exact balanced_of_head_refused env hc hs hplan (hfirst nc rfl) addr link hlook
    · obtain ⟨r', t, hrun', -⟩ := sendRecv_of_no_plan env hc fun ncs h => hplan ⟨ncs, h⟩
      have hs' : s' = { s with tick := t } := congrArg Prod.snd (hrun.symm.trans hrun')
      rw [hs'] at hlook
      exact hs addr link hlook

def getBarFoo : List Cmd := [Cmd.ofArgs [bytesOf "GET", bytesOf "bar"], Cmd.ofArgs [bytesOf "GET", bytesOf "foo"]]

theorem both_nodes_accept_no_reply_unread :
    (twoNodes (answering [.io .timedOut]) (answering [])).connections.borrow = .free ∧
    ∀ r s', sendRecvAndRetryCmds (plainEnv 1) getBarFoo (twoNodes (answering [.io .timedOut]) (answering [])) =
        (.ok r, s') →
      ∀ addr link, s'.connections.value.lookup addr = some link → link.received = link.sent := by
  have haccept : ((planOf (plainEnv 1) getBarFoo (twoNodes (answering [.io .timedOut]) (answering []))).toOption.bind
      Except.toOption).all (fun ncs => ncs.all
        (accepts (plainEnv 1) (twoNodes (answering [.io .timedOut]) (answering [])))) = true := by
    decide +kernel
  refine ⟨rfl, (no_reply_unread_iff (plainEnv 1) getBarFoo _ rfl rfl (twoNodes_links _ _)).2
    fun ncs hplan => .inl ?_⟩
  rw [hplan] at haccept
  exact all_eq_true.1 haccept

theorem refused_node_leaves_reply_unread :
    (∀ addr link, (twoNodes broken (answering [])).connections.value.lookup addr = some link →
      link.received = link.sent) ∧
    ∃ e s' link, sendRecvAndRetryCmds (plainEnv 1) getBarFoo (twoNodes broken (answering [])) = (.ok (.error e), s') ∧
      s'.connections.value.lookup nodeB = some link ∧ link.received ≠ link.sent := by
  refine ⟨twoNodes_links _ _, ?_⟩
  have hrun : (sendRecvAndRetryCmds (plainEnv 1) getBarFoo (twoNodes broken (answering []))).1.toOption.map
      Except.isOk = some false := by decide +kernel
  have hlook : ((sendRecvAndRetryCmds (plainEnv 1) getBarFoo
      (twoNodes broken (answering []))).2.connections.value.lookup nodeB).map
        (fun link => (link.sent, link.received)) = some (1, 0) := by decide +kernel
  obtain ⟨link, hlink, hcounts⟩ := Option.map_eq_some_iff.1 hlook
  rcases hres : sendRecvAndRetryCmds (plainEnv 1) getBarFoo (twoNodes broken (answering [])) with ⟨p | (e | v), s'⟩
  · rw [hres] at hrun
    cases hrun
  · rw [hres] at hlink
    refine ⟨e, s', link, rfl, hlink, ?_⟩
    have hsent : link.sent = 1 := congrArg Prod.fst hcounts
    have hreceived : link.received = 0 := congrArg Prod.snd hcounts
    omega
  · rw [hres] at hrun
    cases hrun

theorem length_foldl_set : (indexes.foldl (fun l i => l.set i (reply i)) results).length = results.length := by
  induction indexes generalizing results with
  | nil => rfl
  | cons i indexes ih => rw [foldl_cons, ih, length_set]

theorem getElem?_foldl_set (j : Nat) (h : j < results.length) :
    (indexes.foldl (fun l i => l.set i (reply i)) results)[j]? =
      if j ∈ indexes then some (reply j) else results[j]? := by
  induction indexes generalizing results with
  | nil => rfl
  | cons i indexes ih =>
    rw [foldl_cons, ih (results.set i (reply i)) (by rw [length_set]; exact h)]
    by_cases hmem : j ∈ indexes
    · rw [if_pos hmem, if_pos (mem_cons_of_mem _ hmem)]
    · rw [if_neg hmem]
      rcases eq_or_ne i j with rfl | hne
      · rw [if_pos mem_cons_self, getElem?_set_self h]
      · have hnot : j ∉ i :: indexes := fun hm => (mem_cons.1 hm).elim (fun hji => hne hji.symm) hmem
        rw [if_neg hnot, getElem?_set_ne hne]

theorem Received.takeAll_values {indexes : List Nat} {results : List Value} (h : ∀ i ∈ indexes, i < results.length) :
    Received.takeAll ⟨results, [], none⟩ (indexes.map fun i => (i, .ok (reply i))) =
      .ok ⟨indexes.foldl (fun l i => l.set i (reply i)) results, [], none⟩ := by
  induction indexes generalizing results with
  | nil => rfl
  | cons i indexes ih =>
    have hi := h i mem_cons_self
    have htake : Received.take ⟨results, [], none⟩ i (.ok (reply i)) = .ok ⟨results.set i (reply i), [], none⟩ := by
      simp [Received.take, indexSet, hi, pure, Except.pure, bind, Except.bind]
    simp only [map_cons, Received.takeAll, htake, foldl_cons]
    refine ih fun j hj => ?_
    rw [length_set]
    exact h j (mem_cons_of_mem _ hj)

/-- A node takes its commands and answers each with a value, `reply i` the one at position `i`. -/
def Replies (s : ClusterConnection C) (nc : NodeCmd) (reply : Nat → Value) : Prop :=
  ∃ link, linkFor env s nc.addr = .ok link ∧ (sendPackedCommand nc.pipe link.con).1 = .ok () ∧
    (readReplies nc.indexes.length (sendPackedCommand nc.pipe link.con).2).1 = nc.indexes.map fun i => .ok (reply i)

theorem Replies.accepts {nc : NodeCmd} {reply : Nat → Value} (h : Replies env s nc reply) :
    accepts env s nc = true := by
  obtain ⟨link, hlink, hsend, -⟩ := h
  simp only [ClusterConnection.accepts, hlink, hsend]
  rfl

theorem Replies.answersOf {nc : NodeCmd} {reply : Nat → Value} (h : Replies env s nc reply) :
    answersOf env s nc = nc.indexes.map fun i => (i, .ok (reply i)) := by
  obtain ⟨link, hlink, -, hreps⟩ := h
  have hzip : repliesOf nc (sentLink nc link) = nc.indexes.map fun i => (i, .ok (reply i)) := by
    unfold repliesOf sentLink
    rw [hreps, ← map_prod_left_eq_zip]
  simp only [ClusterConnection.answersOf, hlink]
  exact hzip

/-- Commands that can be routed have a plan; the plan partitions them, each node with its own in increasing order;
and if every node answers each of its commands with a value, the values are returned in the order of the commands. -/
theorem pipeline_in_order [Crc16] (cmds : List Cmd) (s : ClusterConnection C) (hc : s.connections.borrow = .free) :
    ((∀ cmd ∈ cmds, ∀ t, ∃ addr,
        (getAddrForCmd env cmd { s with connections.borrow := .mutable, tick := t }).1 = .ok (.ok addr)) →
      ∃ ncs, planOf env cmds s = .ok (.ok ncs)) ∧
    ∀ ncs, planOf env cmds s = .ok (.ok ncs) →
      Partitioned cmds ncs ∧
      ∀ reply : Nat → Value, (∀ nc ∈ ncs, Replies env s nc reply) →
        (sendRecvAndRetryCmds env cmds s).1 = .ok (.ok ((List.range cmds.length).map reply)) := by
  refine ⟨mapCmdsToNodes_of_routed env (s := { s with connections.borrow := .mutable }), fun ncs hplan => ?_⟩
  have hpart := mapCmdsToNodes_partitioned env hplan
  refine ⟨hpart, fun reply hreplies => ?_⟩
  obtain ⟨r, s', htake, -, -, -, -, hok⟩ :=
    sendRecv_of_accepted env hc hplan fun nc hnc => (hreplies nc hnc).accepts
  have hanswers : ncs.flatMap (answersOf env s) = (ncs.flatMap NodeCmd.indexes).map fun i => (i, .ok (reply i)) := by
    rw [map_flatMap]
    exact flatMap_congr fun nc hnc => (hreplies nc hnc).answersOf
  have hlt : ∀ i ∈ ncs.flatMap NodeCmd.indexes, i < (List.replicate cmds.length Value.nil).length := by
    intro i hi
    rw [length_replicate]
    exact mem_range.1 (hpart.indexes.mem_iff.1 hi)
  rw [hanswers, Received.takeAll_values reply hlt] at htake
  have hr := Except.ok.inj htake
  rw [← hr] at hok
  -- every place is written
  have hvalues : (ncs.flatMap NodeCmd.indexes).foldl (fun l i => l.set i (reply i))
      (List.replicate cmds.length Value.nil) = (List.range cmds.length).map reply := by
    refine ext_getElem? fun j => ?_
    rcases Nat.lt_or_ge j cmds.length with hj | hj
    · have hmem : j ∈ ncs.flatMap NodeCmd.indexes := hpart.indexes.mem_iff.2 (mem_range.2 hj)
      rw [getElem?_foldl_set _ _ _ _ (by rwa [length_replicate]), if_pos hmem]
      simp [hj]
    · rw [getElem?_eq_none (by rwa [length_foldl_set, length_replicate]),
        getElem?_eq_none (by simpa using hj)]
  rw [hok rfl, hvalues]
  rfl

theorem bar_foo_in_order :
    (sendRecvAndRetryCmds (plainEnv 1) getBarFoo
      (twoNodes (answering [.value (.int 1)]) (answering [.value (.int 2)]))).1 = .ok (.ok [.int 1, .int 2]) := by
  have hplan : planOf (plainEnv 1) getBarFoo
      (twoNodes (answering [.value (.int 1)]) (answering [.value (.int 2)])) = .ok (.ok
      [⟨[1], (Cmd.ofArgs [bytesOf "GET", bytesOf "foo"]).writePackedCommand, nodeB⟩,
        ⟨[0], (Cmd.ofArgs [bytesOf "GET", bytesOf "bar"]).writePackedCommand, nodeA⟩]) :=
    planOf_eq_ok _ (by decide +kernel)
  refine ((pipeline_in_order (plainEnv 1) getBarFoo _ rfl).2 _ hplan).2
    (fun i => if i = 0 then .int 1 else .int 2) fun nc hnc => ?_
  simp only [mem_cons, not_mem_nil, or_false] at hnc
  rcases hnc with rfl | rfl
  · exact ⟨_, rfl, rfl, rfl⟩
  · exact ⟨_, rfl, rfl, rfl⟩

end ClusterConnection

end Cluster

end RedisRs
