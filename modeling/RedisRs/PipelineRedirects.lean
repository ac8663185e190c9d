import RedisRs.PipelineReplies

/-!
# Redirections in a pipeline
-/

namespace RedisRs

open List

namespace Cluster

open ConnectionLike Connect

namespace ClusterConnection

variable {C : Type}

namespace Received

variable {r r' : Received} {reply : RedisResult Value}

theorem take_toRetry {i : Nat} (h : ∀ e, reply = .error e → e.isClusterError = false)
    (htake : r.take i reply = .ok r') : r'.toRetry = r.toRetry := by
  rcases reply with e | value
  · have hc := h e rfl
    simp only [take, hc, Bool.false_eq_true, if_false] at htake
    rw [← Except.ok.inj htake]
  · by_cases hi : i < r.results.length
    · simp only [take, indexSet, if_pos hi] at htake
      rw [← Except.ok.inj htake]
    · simp only [take, indexSet, if_neg hi] at htake
      cases htake

variable {items : List (Nat × RedisResult Value)}

theorem takeAll_toRetry (h : ∀ item ∈ items, ∀ e, item.2 = .error e → e.isClusterError = false)
    (htake : r.takeAll items = .ok r') : r'.toRetry = r.toRetry := by
  induction items generalizing r with
  | nil => rw [Except.ok.inj htake]
  | cons item items ih =>
    rcases h₁ : r.take item.1 item.2 with p | r₁
    · simp only [takeAll, h₁] at htake
      cases htake
    · simp only [takeAll, h₁] at htake
      exact (ih (fun it hit => h it (mem_cons_of_mem _ hit)) htake).trans
        (take_toRetry (h item mem_cons_self) h₁)

theorem take_results {i j : Nat} {v : Value} (htake : r.take i reply = .ok r') (hv : r'.results[j]? = some v) :
    r.results[j]? = some v ∨ (i, reply) = (j, .ok v) := by
  rcases reply with e | value
  · rcases hc : e.isClusterError with _ | _
    · simp only [take, hc, Bool.false_eq_true, if_false] at htake
      rw [← Except.ok.inj htake] at hv
      exact .inl hv
    · simp only [take, hc, if_true] at htake
      rw [← Except.ok.inj htake] at hv
      exact .inl hv
  · by_cases hi : i < r.results.length
    · simp only [take, indexSet, if_pos hi] at htake
      rw [← Except.ok.inj htake] at hv
      rcases eq_or_ne i j with rfl | hne
      · have hv' : (r.results.set i value)[i]? = some v := hv
        rw [getElem?_set_self hi] at hv'
        rw [Option.some.inj hv']
        exact .inr rfl
      · have hv' : (r.results.set i value)[j]? = some v := hv
        rw [getElem?_set_ne hne] at hv'
        exact .inl hv'
    · simp only [take, indexSet, if_neg hi] at htake
      cases htake

theorem takeAll_results {j : Nat} {v : Value} (htake : r.takeAll items = .ok r') (hv : r'.results[j]? = some v) :
    r.results[j]? = some v ∨ (j, .ok v) ∈ items := by
  induction items generalizing r with
  | nil =>
    rw [← Except.ok.inj htake] at hv
    exact .inl hv
  | cons item items ih =>
    rcases h₁ : r.take item.1 item.2 with p | r₁
    · simp only [takeAll, h₁] at htake
      cases htake
    · simp only [takeAll, h₁] at htake
      rcases ih htake with hv₁ | hmem
      · rcases take_results h₁ hv₁ with hv₀ | heq
        · exact .inl hv₀
        · exact .inr (mem_cons.2 (.inl heq.symm))
      · exact .inr (mem_cons_of_mem _ hmem)

end Received

variable (env : ClusterEnv NodeConnection)

def logged {α : Type} (m : ClusterM C α) (s : ClusterConnection C) : List ClusterEvent :=
  (m s).2.log.drop s.log.length

/-- A command answered with an error of the cluster is sent again, until all attempts of `request` were made. -/
structure RetriesRedirected [Crc16] (cmds : List Cmd) (s : ClusterConnection NodeConnection) : Prop where
  resent : ∀ (i : Nat) cmd err, cmds[i]? = some cmd → (RedisError.server err).isClusterError = true →
    .recv i (.ok (.serverError err)) ∈ logged (sendRecvAndRetryCmds env cmds) s →
    ∃ addr result, .request addr (.cmd cmd) result ∈ logged (sendRecvAndRetryCmds env cmds) s
  returned : ∀ values, (sendRecvAndRetryCmds env cmds s).1 = .ok (.ok values) →
    ∀ (i : Nat) cmd err, cmds[i]? = some cmd → values[i]? = some (Value.serverError err) →
      (RedisError.server err).isClusterError = true →
      ∃ events : List ClusterEvent, events.Sublist (logged (sendRecvAndRetryCmds env cmds) s) ∧
        events.length = env.numberOfRetries + 1 ∧
        ∀ event ∈ events, ∃ addr result, event = .request addr (.cmd cmd) result

variable {cmds : List Cmd} {s : ClusterConnection NodeConnection} {ncs : List NodeCmd}

theorem sendRecv_log [Crc16] (hc : s.connections.borrow = .free) (hplan : planOf env cmds s = .ok (.ok ncs))
    (h : ∀ nc ∈ ncs, accepts env s nc = true) :
    logged (sendRecvAndRetryCmds env cmds) s =
        (ncs.flatMap (answersOf env s)).map (fun item => .recv item.1 item.2) ∧
      ∀ values, (sendRecvAndRetryCmds env cmds s).1 = .ok (.ok values) → ∀ i v, values[i]? = some v →
        v = .nil ∨ (i, .ok v) ∈ ncs.flatMap (answersOf env s) := by
  obtain ⟨r, s', htake, -, -, hlog, herr, hok⟩ := sendRecv_of_accepted env hc hplan h
  have hretry : r.toRetry = [] := by
    refine Received.takeAll_toRetry (fun item hitem e he => ?_) htake
    obtain ⟨nc, -, hmem⟩ := mem_flatMap.1 hitem
    obtain ⟨con, hcon⟩ := (mem_answersOf env hmem).2
    exact NodeConnection.recvResponse_error (hcon.trans he)
  have hdrop : s'.log.drop s.log.length = (ncs.flatMap (answersOf env s)).map (fun item => .recv item.1 item.2) := by
    rw [hlog, drop_left]
  rcases hfirst : r.firstErr with _ | e
  · have hrun := hok hfirst
    rw [hretry] at hrun
    refine ⟨by rw [logged, hrun]; exact hdrop, fun values hvals i v hv => ?_⟩
    rw [hrun] at hvals
    have hress : r.results = values := Except.ok.inj (Except.ok.inj hvals)
    rw [← hress] at hv
    rcases Received.takeAll_results htake hv with hinit | hmem
    · have hnil : v ∈ List.replicate cmds.length Value.nil := mem_of_getElem? hinit
      exact .inl (eq_of_mem_replicate hnil)
    · exact .inr hmem
  · have hrun := herr e hfirst
    refine ⟨by rw [logged, hrun]; exact hdrop, fun values hvals => ?_⟩
    rw [hrun] at hvals
    cases hvals

theorem retriesRedirected_of_accepted [Crc16] (hc : s.connections.borrow = .free)
    (hplan : planOf env cmds s = .ok (.ok ncs))
    (hacc : ∀ nc ∈ ncs, accepts env s nc = true)
    (h : ∀ nc ∈ ncs, ∀ i err, (i, .ok (.serverError err)) ∈ answersOf env s nc →
      (RedisError.server err).isClusterError = false) :
    RetriesRedirected env cmds s := by
  obtain ⟨hlog, hvals⟩ := sendRecv_log env hc hplan hacc
  have hnone : ∀ i err, (i, .ok (.serverError err)) ∈ ncs.flatMap (answersOf env s) →
      (RedisError.server err).isClusterError ≠ true := by
    intro i err hmem
    obtain ⟨nc, hnc, hmem⟩ := mem_flatMap.1 hmem
    rw [h nc hnc i err hmem]
    exact Bool.false_ne_true
  constructor
  · intro i cmd err hcmd herr hrecv
    rw [hlog] at hrecv
    obtain ⟨item, hmem, hitem⟩ := mem_map.1 hrecv
    injection hitem with h₁ h₂
    exact absurd herr (hnone i err (h₁ ▸ h₂ ▸ hmem))
  · intro values hres i cmd err hcmd hv herr
    rcases hvals values hres i _ hv with hnil | hmem
    · cases hnil
    · exact absurd herr (hnone i err hmem)

theorem retriesRedirected_of_nothing [Crc16] (hlog : (sendRecvAndRetryCmds env cmds s).2.log = s.log)
    (hres : ∀ values, (sendRecvAndRetryCmds env cmds s).1 ≠ .ok (.ok values)) : RetriesRedirected env cmds s where
  resent i cmd err hcmd herr hrecv := by
    rw [logged, hlog, drop_length] at hrecv
    cases hrecv
  returned values hvals := absurd hvals (hres values)

/-- Redirected commands of a pipeline are sent again exactly if there are none: no node that was sent its commands
answers one of them with an error of the cluster. -/
theorem retries_redirected_iff [Crc16] (cmds : List Cmd) (s : ClusterConnection NodeConnection)
    (hc : s.connections.borrow = .free) :
    RetriesRedirected env cmds s ↔
      ∀ ncs, planOf env cmds s = .ok (.ok ncs) → (∀ nc ∈ ncs, accepts env s nc = true) →
        ∀ nc ∈ ncs, ∀ i err, (i, .ok (.serverError err)) ∈ answersOf env s nc →
          (RedisError.server err).isClusterError = false := by
  constructor
  · intro h ncs hplan haccept nc hnc i err hmem
    by_contra herr
    have herr : (RedisError.server err).isClusterError = true := by simpa using herr
    obtain ⟨hlog, -⟩ := sendRecv_log env hc hplan haccept
    have hlt : i < cmds.length := by
      have hindex : i ∈ ncs.flatMap NodeCmd.indexes := mem_flatMap.2 ⟨nc, hnc, (mem_answersOf env hmem).1⟩
      exact mem_range.1 ((mapCmdsToNodes_partitioned env hplan).indexes.mem_iff.1 hindex)
    have hrecv : .recv i (.ok (.serverError err)) ∈ logged (sendRecvAndRetryCmds env cmds) s := by
      rw [hlog]
      exact mem_map.2 ⟨_, mem_flatMap.2 ⟨nc, hnc, hmem⟩, rfl⟩
    obtain ⟨addr, result, hrequest⟩ := h.resent i cmds[i] err (getElem?_eq_getElem hlt) herr hrecv
    rw [hlog] at hrequest
    obtain ⟨item, -, hitem⟩ := mem_map.1 hrequest
    cases hitem
  · intro hcond
    by_cases hplan : ∃ ncs, planOf env cmds s = .ok (.ok ncs)
    · obtain ⟨ncs, hplan⟩ := hplan
      by_cases haccept : ∀ nc ∈ ncs, accepts env s nc = true
      · exact retriesRedirected_of_accepted env hc hplan haccept (hcond ncs hplan haccept)
      · obtain ⟨before, nc, after, rfl, hbefore, hnc⟩ := first_refused env haccept
        obtain ⟨e, s', hrun, -, -, -, hlog⟩ := sendRecv_of_refused env hc hplan hbefore hnc
        refine retriesRedirected_of_nothing env (by rw [hrun]; exact hlog) fun values hvalues => ?_
        rw [hrun] at hvalues
        cases hvalues
    · obtain ⟨r, t, hrun, hr⟩ := sendRecv_of_no_plan env hc fun ncs h => hplan ⟨ncs, h⟩
      refine retriesRedirected_of_nothing env (by rw [hrun]) fun values hvalues => ?_
      rw [hrun] at hvalues
      exact hr values hvalues

def getFoo : List Cmd := [Cmd.ofArgs [bytesOf "GET", bytesOf "foo"]]

def getFooPlan : List NodeCmd := [⟨[0], (Cmd.ofArgs [bytesOf "GET", bytesOf "foo"]).writePackedCommand, nodeB⟩]

theorem value_reply_not_redirected :
    RetriesRedirected (plainEnv 1) getFoo (twoNodes (answering []) (answering [.value (.int 2)])) := by
  have hplan : planOf (plainEnv 1) getFoo (twoNodes (answering []) (answering [.value (.int 2)])) =
      .ok (.ok getFooPlan) := planOf_eq_ok _ (by decide +kernel)
  refine (retries_redirected_iff (plainEnv 1) getFoo _ rfl).2 fun ncs hncs _ nc hnc i err hmem => ?_
  rw [← Except.ok.inj (Except.ok.inj (hplan.symm.trans hncs))] at hnc
  have hanswer : (i, .ok (.serverError err)) ∈ [(0, (.ok (.int 2) : RedisResult Value))] := by
    rw [mem_singleton.1 hnc] at hmem
    exact hmem
  cases mem_singleton.1 hanswer

def movedFoo : ServerError := .known .moved (some "12182 a:7000")

theorem moved_reply_returned :
    (sendRecvAndRetryCmds (plainEnv 1) getFoo
      (twoNodes (answering []) (answering [.value (.serverError movedFoo)]))).1 = .ok (.ok [.serverError movedFoo]) ∧
    ¬ RetriesRedirected (plainEnv 1) getFoo
      (twoNodes (answering []) (answering [.value (.serverError movedFoo)])) := by
  have hplan : planOf (plainEnv 1) getFoo (twoNodes (answering []) (answering [.value (.serverError movedFoo)])) =
      .ok (.ok getFooPlan) := planOf_eq_ok _ (by decide +kernel)
  have haccept : ∀ nc ∈ getFooPlan,
      accepts (plainEnv 1) (twoNodes (answering []) (answering [.value (.serverError movedFoo)])) nc = true := by
    intro nc hnc
    rw [mem_singleton.1 hnc]
    rfl
  constructor
  · obtain ⟨r, s', htake, -, -, -, -, hok⟩ := sendRecv_of_accepted (plainEnv 1) rfl hplan haccept
    have hr : r = ⟨[.serverError movedFoo], [], none⟩ := Except.ok.inj (htake.symm.trans rfl)
    rw [hr] at hok
    rw [hok rfl]
    rfl
  · intro h
    obtain ⟨hlog, -⟩ := sendRecv_log (plainEnv 1) rfl hplan haccept
    obtain ⟨addr, result, hrequest⟩ := h.resent 0 _ movedFoo rfl rfl (by rw [hlog]; exact mem_cons_self)
    rw [hlog] at hrequest
    obtain ⟨item, -, hitem⟩ := mem_map.1 hrequest
    cases hitem

end ClusterConnection

end Cluster

end RedisRs
