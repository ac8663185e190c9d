import RedisRs.FanOutSuccess

/-!
# One success is enough
-/

namespace RedisRs

/-- The result is a value that is no error if there is one, and an error only if all failed. -/
structure PicksSuccess (outcomes : List (RedisResult Value)) (result : RedisResult Value) : Prop where
  success : (∃ v, .ok v ∈ outcomes ∧ v.isServerError = false) →
    ∃ v, .ok v ∈ outcomes ∧ v.isServerError = false ∧ result = .ok v
  failure : (∀ v, result = .ok v → v.isServerError = true) → ∀ v, .ok v ∈ outcomes → v.isServerError = true

/-- If some outcome is a value that is no error then so is the first one that is not `Err`. -/
def ValueFirst (outcomes : List (RedisResult Value)) : Prop :=
  (∃ v, .ok v ∈ outcomes ∧ v.isServerError = false) →
    ∀ v, outcomes.find? Except.isOk = some (.ok v) → v.isServerError = false

theorem picksSuccess_iff {outcomes arrived : List (RedisResult Value)} (hperm : arrived.Perm outcomes)
    {result : RedisResult Value}
    (hfirst : ∀ v, .ok v ∈ arrived → ∃ w, arrived.find? Except.isOk = some (.ok w) ∧ result = .ok w) :
    PicksSuccess outcomes result ↔ ValueFirst arrived := by
  constructor
  · rintro hpicks ⟨v, hv, hval⟩ w hw
    obtain ⟨w', hw', hres⟩ := hfirst v hv
    obtain ⟨v', -, hval', hres'⟩ := hpicks.success ⟨v, hperm.mem_iff.1 hv, hval⟩
    cases hw.symm.trans hw'
    cases hres.symm.trans hres'
    exact hval'
  · intro hvalueFirst
    have hsuccess : (∃ v, .ok v ∈ outcomes ∧ v.isServerError = false) →
        ∃ v, .ok v ∈ outcomes ∧ v.isServerError = false ∧ result = .ok v := by
      rintro ⟨v, hv, hval⟩
      have hv := hperm.mem_iff.2 hv
      obtain ⟨w, hw, hres⟩ := hfirst v hv
      exact ⟨w, hperm.mem_iff.1 (List.mem_of_find?_eq_some hw), hvalueFirst ⟨v, hv, hval⟩ w hw, hres⟩
    refine ⟨hsuccess, fun herr v hv => ?_⟩
    rcases hval : v.isServerError with _ | _
    · obtain ⟨w, -, hw, hres⟩ := hsuccess ⟨v, hv, hval⟩
      rw [herr w hres] at hw
      cases hw
    · rfl

theorem Cluster.oneSucceeded_first (lastFailure : Option RedisError) {results : List (RedisResult Value)} {v : Value}
    (h : .ok v ∈ results) :
    ∃ w, results.find? Except.isOk = some (.ok w) ∧ Cluster.oneSucceeded lastFailure results = .ok w := by
  induction results generalizing lastFailure with
  | nil => cases h
  | cons result results ih =>
    rcases result with e | w
    · rcases List.mem_cons.1 h with h | h
      · cases h
      · exact ih (some e) h
    · exact ⟨w, rfl, rfl⟩

theorem AsyncCluster.selectOk_first {results : List (RedisResult Value)} {v : Value} (h : .ok v ∈ results) :
    ∃ w, results.find? Except.isOk = some (.ok w) ∧ AsyncCluster.selectOk results = .ok (.ok w) := by
  induction results with
  | nil => cases h
  | cons result results ih =>
    rcases result with e | w
    · rcases List.mem_cons.1 h with h | h
      · cases h
      · obtain ⟨w, hw, hsel⟩ := ih h
        rcases results with _ | ⟨next, results⟩
        · cases h
        · exact ⟨w, hw, hsel⟩
    · exact ⟨w, rfl, rfl⟩

namespace Cluster.ClusterConnection

theorem picksSuccess_iff_of_plan {C : Type} [Connect C] (env : ClusterEnv C) {input : Input}
    {routing : MultipleNodeRoutingInfo} {s s₁ s' : ClusterConnection C}
    {results : List (RedisResult (NodeAddress × Value))} {result : RedisResult Value}
    (hnodes : nodeResults env input routing s = (.ok results, s₁))
    (hrun : executeOnMultipleNodes env input routing (some .oneSucceeded) s = (.ok result, s')) :
    PicksSuccess (results.map fun r => r.map Prod.snd) result ↔
      (routing.isPlan = true → ValueFirst (results.map fun r => r.map Prod.snd)) := by
  obtain ⟨results', s₁', hnodes', hcomb, -⟩ := (executeOnMultipleNodes_eq_ok env).1 hrun
  cases hnodes.symm.trans hnodes'
  have hres : result = oneSucceeded none (results.map fun r => r.map Prod.snd) := (Except.ok.inj hcomb).symm
  rw [picksSuccess_iff (.refl _) fun v hv => hres ▸ oneSucceeded_first none hv]
  refine ⟨fun h _ => h, fun h => ?_⟩
  rcases hplan : routing.isPlan with _ | _
  · -- the values of a fan-out to all nodes are never errors
    obtain ⟨events, -, hacct⟩ := nodeResults_logs env input routing hnodes
    intro _ v hv
    obtain ⟨r, hr, hval⟩ := List.mem_map.1 (List.mem_of_find?_eq_some hv)
    rcases r with e | answer
    · cases hval
    · cases hval
      refine hacct.not_serverError env (fun routes pattern hrout => ?_) hr
      rw [hrout] at hplan
      cases hplan
  · exact h hplan

end Cluster.ClusterConnection

namespace AsyncCluster.Core

theorem picksSuccess_iff_of_completed {C : Type} (env : CoreEnv C) {progress : Progress} {s : Core C} {cmd : Cmd}
    {routing : MultipleNodeRoutingInfo} {ts : List (Option (NodeAddress × PendingRequest C))}
    {result : RedisResult Value} (htgts : targets env s cmd routing = .ok ts)
    (hrun : executeOnMultipleNodes env progress s cmd routing (some .oneSucceeded) =
      .ok (.fanOut, result.map .single)) :
    PicksSuccess (outcomes env progress ts.reduceOption) result ↔
      ValueFirst (progress.completed (outcomes env progress ts.reduceOption)) := by
  refine picksSuccess_iff (progress.completed_perm _) fun v hv => ?_
  obtain ⟨w, hw, hsel⟩ := selectOk_first hv
  refine ⟨w, hw, ?_⟩
  have hne : ts.reduceOption ≠ [] := fun hnil => by
    have hmem := (progress.completed_perm _).mem_iff.1 hv
    rw [hnil] at hmem
    cases hmem
  have hempty : s.connections.entries.isEmpty = false :=
    Bool.eq_false_iff.2 fun hempty => hne (requests_eq_nil env hempty htgts)
  obtain ⟨results, hress⟩ := receivers_of_returns env hrun htgts
  have hagg : aggregateResults (env.keyOrder s.tick) progress results routing (some .oneSucceeded) = .ok (.ok w) := by
    rw [outcomes_eq env hress] at hsel
    unfold aggregateResults
    rw [List.isEmpty_eq_false_iff.2 ((results_ne_nil env hress).2 hne)]
    exact hsel
  rw [executeOnMultipleNodes_of_targets env (some .oneSucceeded) htgts hress hempty, hagg] at hrun
  rcases result with e | w'
  · cases hrun
  · cases hrun
    rfl

end AsyncCluster.Core

open Cluster AsyncCluster

/-- `OneSucceeded` picks a success if there is one, exactly if the first outcome that is not `Err` is no error reply
either. For the blocking connection that is so unless the routing is a plan. -/
theorem one_succeeded_iff (routing : MultipleNodeRoutingInfo) :
    (∀ (C : Type) [Connect C] (env : ClusterEnv C) (input : Input) (s s₁ s' : ClusterConnection C)
      (results : List (RedisResult (NodeAddress × Value))) (result : RedisResult Value),
      ClusterConnection.nodeResults env input routing s = (.ok results, s₁) →
      ClusterConnection.executeOnMultipleNodes env input routing (some .oneSucceeded) s = (.ok result, s') →
      (PicksSuccess (results.map fun r => r.map Prod.snd) result ↔
        (routing.isPlan = true → ValueFirst (results.map fun r => r.map Prod.snd)))) ∧
    (∀ (C : Type) (env : CoreEnv C) (progress : Progress) (s : Core C) (cmd : Cmd)
      (ts : List (Option (NodeAddress × PendingRequest C))) (result : RedisResult Value),
      Core.targets env s cmd routing = .ok ts →
      Core.executeOnMultipleNodes env progress s cmd routing (some .oneSucceeded) = .ok (.fanOut, result.map .single) →
      (PicksSuccess (Core.outcomes env progress ts.reduceOption) result ↔
        ValueFirst (progress.completed (Core.outcomes env progress ts.reduceOption)))) :=
  ⟨fun _ _ env _ _ _ _ _ _ hnodes hrun => ClusterConnection.picksSuccess_iff_of_plan env hnodes hrun,
    fun _ env _ _ _ _ _ htargets hrun => Core.picksSuccess_iff_of_completed env htargets hrun⟩

def scriptKill : Cmd := Cmd.ofArgs [bytesOf "SCRIPT", bytesOf "KILL"]

def notBusy : Value := .serverError (.known .notBusy none)

def oneBusy : ClusterConnection NodeConnection := twoNodes (answering [.value notBusy]) (answering [.value .okay])

theorem success_after_notBusy :
    (∃ results result, (ClusterConnection.nodeResults (plainEnv 1) (.cmd scriptKill) .allMasters oneBusy).1 =
      .ok results ∧
      (ClusterConnection.executeOnMultipleNodes (plainEnv 1) (.cmd scriptKill) .allMasters (some .oneSucceeded)
        oneBusy).1 = .ok result ∧ PicksSuccess (results.map fun r => r.map Prod.snd) result) ∧
    PicksSuccess [.ok .okay, .ok notBusy] (.ok .okay) := by
  obtain ⟨hsync, hasync⟩ := one_succeeded_iff .allMasters
  constructor
  · have hnodes : (ClusterConnection.nodeResults (plainEnv 1) (.cmd scriptKill) .allMasters oneBusy).1.isOk = true := by
      decide +kernel
    have hrun : (ClusterConnection.executeOnMultipleNodes (plainEnv 1) (.cmd scriptKill) .allMasters
        (some .oneSucceeded) oneBusy).1.isOk = true := by decide +kernel
    rcases hresults : ClusterConnection.nodeResults (plainEnv 1) (.cmd scriptKill) .allMasters oneBusy with
      ⟨p | results, s₁⟩
    · rw [hresults] at hnodes
      cases hnodes
    rcases hresult : ClusterConnection.executeOnMultipleNodes (plainEnv 1) (.cmd scriptKill) .allMasters
      (some .oneSucceeded) oneBusy with ⟨p | result, s'⟩
    · rw [hresult] at hrun
      cases hrun
    exact ⟨results, result, rfl, rfl,
      (hsync _ _ _ _ s₁ s' results result hresults hresult).2 nofun⟩
  · refine (hasync Unit (plainCore 1) (answered fun i => if i = 0 then .okay else notBusy) (connectedTo [nodeA, nodeB])
      scriptKill _ (.ok .okay) rfl rfl).2 fun _ v hv => ?_
    cases hv
    rfl

theorem notBusy_taken_for_success :
    Core.executeOnMultipleNodes (plainCore 1) (answered fun i => if i = 0 then notBusy else .okay)
      (connectedTo [nodeA, nodeB]) scriptKill .allMasters (some .oneSucceeded) = .ok (.fanOut, .ok (.single notBusy)) ∧
    ∃ requests, Core.targets (plainCore 1) (connectedTo [nodeA, nodeB]) scriptKill .allMasters = .ok (requests.map some) ∧
      ¬ PicksSuccess (Core.outcomes (plainCore 1) (answered fun i => if i = 0 then notBusy else .okay) requests)
        (.ok notBusy) := by
  refine ⟨rfl, [nodeA, nodeB].map fun addr => (addr, ⟨0, .cmd scriptKill (.singleNode (.connection addr ()))⟩), rfl,
    fun hpicks => ?_⟩
  obtain ⟨v, -, hvalue, hresult⟩ := hpicks.success ⟨.okay, List.mem_cons_of_mem _ List.mem_cons_self, rfl⟩
  cases hresult
  cases hvalue

end RedisRs
