import RedisRs.ClusterLog
import RedisRs.FanOutPolicy
import RedisRs.NodeConnection
import Mathlib.Data.List.ReduceOption

/-!
# What success of a fan-out means
-/

namespace RedisRs

open List

namespace Cluster

open ConnectionLike Connect

namespace ClusterConnection

variable {C : Type} [Connect C] (env : ClusterEnv C)

theorem executeOnMultipleNodes_eq_ok {input : Input} {routing : MultipleNodeRoutingInfo}
    {policy : Option ResponsePolicy} {s s' : ClusterConnection C} {r : RedisResult Value} :
    executeOnMultipleNodes env input routing policy s = (.ok r, s') ↔
      ∃ results s₁, nodeResults env input routing s = (.ok results, s₁) ∧
        combine (env.keyOrder s₁.tick) routing results policy = .ok r ∧ s' = { s₁ with tick := s₁.tick + 1 } := by
  unfold executeOnMultipleNodes
  rcases hnodes : nodeResults env input routing s with ⟨e | results, s₁⟩
  · rw [Prog.bind_of_error hnodes]
    exact ⟨nofun, fun ⟨_, _, h, _⟩ => (by cases h)⟩
  · rw [Prog.bind_of_ok hnodes]
    have hrest : (do let n ← choice; ends (combine (env.keyOrder n) routing results policy) : ClusterM C _) s₁ =
        ((combine (env.keyOrder s₁.tick) routing results policy).mapError .panicked,
          { s₁ with tick := s₁.tick + 1 }) := rfl
    rw [hrest]
    constructor
    · intro h
      refine ⟨results, s₁, rfl, ?_⟩
      rcases hcomb : combine (env.keyOrder s₁.tick) routing results policy with p | r'
      · rw [hcomb] at h
        cases h
      · rw [hcomb] at h
        cases h
        exact ⟨rfl, rfl⟩
    · rintro ⟨results', s₁', heq, hcomb, rfl⟩
      cases heq
      rw [hcomb]
      rfl

theorem allOk_map_ok (answers : List (NodeAddress × Value)) :
    allOk ((answers.map Except.ok).map fun result : RedisResult (NodeAddress × Value) => result.map Prod.snd) =
      .ok (answers.map Prod.snd) := by
  rw [allOk_eq_ok, map_map, map_map]
  rfl

section Combine

variable {keyOrder : List Bytes → List Bytes} {routing : MultipleNodeRoutingInfo} {policy : ResponsePolicy}

theorem combine_of_needsAll (hneeds : policy.needsAll = true) (results : List (RedisResult (NodeAddress × Value))) :
    combine keyOrder routing results (some policy) =
      match allOk (results.map fun result => result.map Prod.snd) with
      | .error e => .ok (.error e)
      | .ok values => ofValues keyOrder routing values policy := by
  unfold combine
  cases policy with
  | oneSucceeded => cases hneeds
  | firstSucceededNonEmptyOrAllEmpty => cases hneeds
  | special => cases hneeds
  | _ => rfl

theorem combine_of_all (hneeds : policy.needsAll = true) (answers : List (NodeAddress × Value)) :
    combine keyOrder routing (answers.map .ok) (some policy) =
      ofValues keyOrder routing (answers.map Prod.snd) policy := by
  rw [combine_of_needsAll hneeds, allOk_map_ok]

theorem combine_ok_of_needsAll (hneeds : policy.needsAll = true) {results : List (RedisResult (NodeAddress × Value))}
    {v : Value} (h : combine keyOrder routing results (some policy) = .ok (.ok v)) :
    ∃ answers : List (NodeAddress × Value), results = answers.map .ok := by
  rw [combine_of_needsAll hneeds] at h
  rcases hall : allOk (results.map fun result => result.map Prod.snd) with e | values
  · rw [hall] at h
    cases h
  · refine ⟨_, AsyncCluster.eq_map_ok fun result hres => ?_⟩
    obtain ⟨value, -, hval⟩ := mem_map.1 (allOk_eq_ok.1 hall ▸ mem_map_of_mem hres)
    obtain ⟨answer, rfl, -⟩ := exists_of_map_eq_ok hval.symm
    exact ⟨answer, rfl⟩

end Combine

/-- A fan-out succeeds only if every target was sent its command and answered it with a value that is no error. -/
def SucceedsRightly (input : Input) (routing : MultipleNodeRoutingInfo) (policy : ResponsePolicy)
    (s : ClusterConnection C) : Prop :=
  ∀ v s', executeOnMultipleNodes env input routing (some policy) s = (.ok (.ok v), s') →
    ∃ (answers : List (NodeAddress × Value)) (events : List ClusterEvent),
      (nodeResults env input routing s).1 = .ok (answers.map .ok) ∧ s'.log = s.log ++ events ∧
      NodesAccounted env input routing s.slots.value (answers.map .ok) events ∧
      ∀ answer ∈ answers, answer.2.isServerError = false

/-- No part of a plan with the policy `AllSucceeded` is answered with an error, if all are answered. -/
def PartsWithoutError (input : Input) (routing : MultipleNodeRoutingInfo) (policy : ResponsePolicy)
    (s : ClusterConnection C) : Prop :=
  policy = .allSucceeded → routing.isPlan = true →
    ∀ answers : List (NodeAddress × Value), (nodeResults env input routing s).1 = .ok (answers.map .ok) →
      ∀ answer ∈ answers, answer.2.isServerError = false

theorem map_ok_injective {α : Type} {as bs : List α}
    (h : as.map (.ok : α → RedisResult α) = bs.map .ok) : as = bs :=
  (map_injective_iff.2 fun _ _ => Except.ok.inj) h

theorem succeedsRightly_iff (input : Input) (routing : MultipleNodeRoutingInfo) {policy : ResponsePolicy}
    (hneeds : policy.needsAll = true) (s : ClusterConnection C) :
    SucceedsRightly env input routing policy s ↔ PartsWithoutError env input routing policy s := by
  constructor
  · rintro hright rfl - answers hnodes answer hans
    -- the last answer is returned, whatever it is
    obtain ⟨s₁, hnodes⟩ : ∃ s₁, nodeResults env input routing s = (.ok (answers.map .ok), s₁) :=
      ⟨_, Prod.ext hnodes rfl⟩
    have hne : answers.map Prod.snd ≠ [] := fun hnil => by
      rw [map_eq_nil_iff] at hnil
      subst hnil
      cases hans
    have hcomb : combine (env.keyOrder s₁.tick) routing (answers.map .ok) (some .allSucceeded) =
        .ok (.ok ((answers.map Prod.snd).getLast hne)) := by
      rw [combine_of_all rfl, ofValues, getLast?_eq_some_getLast hne]
    obtain ⟨answers', -, hnodes', -, -, hvals⟩ := hright _ _
      ((executeOnMultipleNodes_eq_ok env).2 ⟨_, s₁, hnodes, hcomb, rfl⟩)
    rw [hnodes] at hnodes'
    have heq := map_ok_injective (Except.ok.inj hnodes')
    exact hvals answer (heq ▸ hans)
  · intro hparts v s' hrun
    obtain ⟨results, s₁, hnodes, hcomb, rfl⟩ := (executeOnMultipleNodes_eq_ok env).1 hrun
    obtain ⟨answers, rfl⟩ := combine_ok_of_needsAll hneeds hcomb
    obtain ⟨events, hlog, hacct⟩ := nodeResults_logs env input routing hnodes
    refine ⟨answers, events, by rw [hnodes], hlog, hacct, fun answer hans => ?_⟩
    have hval : answer.2 ∈ answers.map Prod.snd := mem_map_of_mem hans
    by_cases hall : policy = .allSucceeded
    · rcases hplan : routing.isPlan with _ | _
      · refine hacct.not_serverError env (fun routes pattern hrout => ?_) (mem_map_of_mem hans)
        rw [hrout] at hplan
        cases hplan
      · exact hparts hall hplan answers (by rw [hnodes]) answer hans
    · rw [combine_of_all hneeds] at hcomb
      exact ofValues_ok hneeds hall (ne_nil_of_mem hval) hcomb answer.2 hval

end ClusterConnection

end Cluster

namespace AsyncCluster

namespace Core

variable {C : Type} (env : CoreEnv C)

/-- A request of a fan-out: the first attempt at a command, on the connection there is. -/
def IsFirst (s : Core C) (request : NodeAddress × PendingRequest C) : Prop :=
  s.connections.lookup request.1 ≠ none ∧ request.2.retry = 0 ∧ request.2.cmd.isReconnect = false

variable {progress : Progress} {s : Core C} {cmd : Cmd} {routing : MultipleNodeRoutingInfo} {policy : ResponsePolicy}
  {ts : List (Option (NodeAddress × PendingRequest C))}

variable {request : NodeAddress × PendingRequest C}

theorem isFirst_toRequest {addr : NodeAddress} (h : s.toRequest addr cmd = some request) : IsFirst s request := by
  obtain ⟨conn, hconn, rfl⟩ := Option.map_eq_some_iff.1 h
  obtain ⟨state, hst, -⟩ := Option.bind_eq_some_iff.1 hconn
  exact ⟨fun hnone => (by rw [hnone] at hst; cases hst), rfl, rfl⟩

theorem mapM_eq_ok {α β : Type} {f : α → Ends β} {as : List α} {bs : List β} (h : as.mapM f = .ok bs) :
    Forall₂ (fun a b => f a = .ok b) as bs := by
  induction as generalizing bs with
  | nil => cases h; exact .nil
  | cons a as ih =>
    rw [mapM_cons] at h
    obtain ⟨b, hb, h⟩ := exists_of_bind_eq_ok h
    obtain ⟨bs', hbs, h⟩ := exists_of_bind_eq_ok h
    cases h
    exact .cons hb (ih hbs)

theorem isFirst_of_mem_targets (h : targets env s cmd routing = .ok ts) (hmem : some request ∈ ts) :
    IsFirst s request := by
  cases routing with
  | multiSlot routes pattern =>
    obtain ⟨route, -, hpart⟩ := Prog.exists_of_forall₂ (mapM_eq_ok h) hmem
    unfold partRequest at hpart
    split at hpart
    · cases hpart
    · obtain ⟨part, -, hpart⟩ := exists_of_map_eq_ok hpart
      exact isFirst_toRequest hpart
  | _ =>
    cases h
    obtain ⟨addr, -, haddr⟩ := mem_map.1 hmem
    exact isFirst_toRequest haddr

theorem length_targets (hplan : routing.isPlan = true)
    (h : targets env s cmd routing = .ok ts) : ts.length = routing.numRoutes := by
  cases routing with
  | multiSlot routes pattern => exact (mapM_eq_ok h).length_eq.symm.trans length_zipIdx
  | _ => cases hplan

theorem requests_eq_nil (hempty : s.connections.entries.isEmpty = true)
    (h : targets env s cmd routing = .ok ts) : ts.reduceOption = [] := by
  refine eq_nil_iff_forall_not_mem.2 fun request hmem => ?_
  have hfirst := isFirst_of_mem_targets env h (reduceOption_mem_iff.1 hmem)
  refine hfirst.1 (AList.lookup_eq_none.2 fun hkey => ?_)
  rw [AList.mem_keys, AList.keys, List.isEmpty_iff.1 hempty] at hkey
  cases hkey

theorem eq_map_some {α : Type} {l : List (Option α)} (h : none ∉ l) : l = l.reduceOption.map some := by
  induction l with
  | nil => rfl
  | cons a l ih =>
    rw [mem_cons, not_or] at h
    rcases a with _ | a
    · exact absurd rfl h.1
    · rw [reduceOption_cons_of_some, map_cons, ← ih h.2]

theorem reduceOption_map_some {α : Type} (l : List α) : (l.map some).reduceOption = l := by
  rw [reduceOption, filterMap_map]
  exact filterMap_some

def outcomes (progress : Progress) (requests : List (NodeAddress × PendingRequest C)) : List (RedisResult Value) :=
  ((receivers env progress requests).toOption.getD []).map Prod.snd

variable {requests : List (NodeAddress × PendingRequest C)} {results : List (NodeAddress × RedisResult Value)}

section Received

variable (h : receivers env progress requests = .ok results)
include h

theorem outcomes_eq : outcomes env progress requests = results.map Prod.snd := by
  rw [outcomes, h]
  rfl

theorem forall₂_receive : Forall₂ (fun request result =>
      receive env.retryParams env.random request.1.2 (progress.handling request.2) = .ok result.2)
    requests.zipIdx results := by
  refine (mapM_eq_ok h).imp fun request result hres => ?_
  obtain ⟨outcome, hout, rfl⟩ := exists_of_map_eq_ok hres
  exact hout

theorem length_results : results.length = requests.length :=
  (mapM_eq_ok h).length_eq.symm.trans length_zipIdx

theorem results_ne_nil : results ≠ [] ↔ requests ≠ [] := by
  rw [← length_pos_iff, ← length_pos_iff, length_results env h]

theorem mem_outcomes {outcome : RedisResult Value} : outcome ∈ outcomes env progress requests ↔
    ∃ request ∈ requests.zipIdx,
      receive env.retryParams env.random request.1.2 (progress.handling request.2) = .ok outcome := by
  rw [outcomes_eq env h, mem_map]
  constructor
  · rintro ⟨result, hres, rfl⟩
    exact Prog.exists_of_forall₂ (forall₂_receive env h) hres
  · rintro ⟨request, hreq, hrecv⟩
    obtain ⟨result, hres, hrecv'⟩ := Prog.exists_of_forall₂ (forall₂_receive env h).flip hreq
    exact ⟨result, hres, Except.ok.inj (hrecv'.symm.trans hrecv)⟩

end Received

theorem executeOnMultipleNodes_of_targets (policy : Option ResponsePolicy) (h : targets env s cmd routing = .ok ts)
    (hress : receivers env progress ts.reduceOption = .ok results) (hne : s.connections.entries.isEmpty = false) :
    executeOnMultipleNodes env progress s cmd routing policy =
      (aggregateResults (env.keyOrder s.tick) progress results routing policy).map
        fun result => (.fanOut, result.map .single) := by
  unfold executeOnMultipleNodes
  rw [hne, if_neg Bool.false_ne_true, h]
  show (receivers env progress ts.reduceOption >>= fun results => aggregateResults _ _ results _ _ >>= _) = _
  rw [hress]
  show (aggregateResults (env.keyOrder s.tick) progress results routing policy >>= _) = _
  rcases aggregateResults (env.keyOrder s.tick) progress results routing policy with p | result
  · rfl
  · rfl

theorem receivers_of_returns {policy : Option ResponsePolicy} {result : OperationResult}
    (h : executeOnMultipleNodes env progress s cmd routing policy = .ok result)
    (htgts : targets env s cmd routing = .ok ts) : ∃ results, receivers env progress ts.reduceOption = .ok results := by
  unfold executeOnMultipleNodes at h
  split_ifs at h with hempty
  · rw [requests_eq_nil env hempty htgts]
    exact ⟨[], rfl⟩
  · rw [htgts] at h
    obtain ⟨results, hress, -⟩ := exists_of_bind_eq_ok (x := receivers env progress ts.reduceOption) h
    exact ⟨results, hress⟩

theorem executeOnMultipleNodes_eq_ok {policy : Option ResponsePolicy} {v : Value}
    (h : executeOnMultipleNodes env progress s cmd routing policy = .ok (.fanOut, .ok (.single v))) :
    ∃ ts results, targets env s cmd routing = .ok ts ∧ receivers env progress ts.reduceOption = .ok results ∧
      aggregateResults (env.keyOrder s.tick) progress results routing policy = .ok (.ok v) := by
  rcases hempty : s.connections.entries.isEmpty with _ | _
  · rcases htgts : targets env s cmd routing with p | ts
    · unfold executeOnMultipleNodes at h
      rw [hempty, htgts] at h
      cases h
    · obtain ⟨results, hress⟩ := receivers_of_returns env h htgts
      rw [executeOnMultipleNodes_of_targets env policy htgts hress hempty] at h
      refine ⟨ts, results, rfl, hress, ?_⟩
      obtain ⟨result, hagg, hres⟩ := exists_of_map_eq_ok h
      obtain ⟨v', rfl, hv⟩ := exists_of_map_eq_ok (congrArg Prod.snd hres)
      cases hv
      exact hagg
  · unfold executeOnMultipleNodes at h
    rw [hempty] at h
    cases h

section Aggregate

variable {keyOrder : List Bytes → List Bytes} {receivers : List (NodeAddress × RedisResult Value)}

theorem aggregateResults_of_needsAll (hneeds : policy.needsAll = true) (hempty : receivers.isEmpty = false) :
    aggregateResults keyOrder progress receivers routing (some policy) =
      match progress.tryJoinAll (receivers.map Prod.snd) with
      | .error e => .ok (.error e)
      | .ok values => ofValues keyOrder routing values policy := by
  unfold aggregateResults
  rw [hempty]
  cases policy with
  | oneSucceeded => cases hneeds
  | firstSucceededNonEmptyOrAllEmpty => cases hneeds
  | special => cases hneeds
  | _ => rfl

theorem aggregateResults_of_all (hneeds : policy.needsAll = true) (hne : receivers ≠ []) {values : List Value}
    (h : receivers.map Prod.snd = values.map .ok) :
    aggregateResults keyOrder progress receivers routing (some policy) = ofValues keyOrder routing values policy := by
  rw [aggregateResults_of_needsAll hneeds (isEmpty_eq_false_iff.2 hne), progress.tryJoinAll_eq_ok.2 h]

theorem aggregateResults_eq_ok (hneeds : policy.needsAll = true) {v : Value}
    (h : aggregateResults keyOrder progress receivers routing (some policy) = .ok (.ok v)) :
    receivers ≠ [] ∧ ∃ values : List Value, receivers.map Prod.snd = values.map .ok := by
  rcases hempty : receivers.isEmpty with _ | _
  · refine ⟨isEmpty_eq_false_iff.1 hempty, ?_⟩
    rw [aggregateResults_of_needsAll hneeds hempty] at h
    rcases hjoin : progress.tryJoinAll (receivers.map Prod.snd) with e | values
    · rw [hjoin] at h
      cases h
    · exact ⟨values, progress.tryJoinAll_eq_ok.1 hjoin⟩
  · unfold aggregateResults at h
    rw [hempty] at h
    cases h

end Aggregate

/-- A fan-out succeeds only if every target was sent its command and answered it with a value that is no error. -/
def SucceedsRightly (progress : Progress) (s : Core C) (cmd : Cmd) (routing : MultipleNodeRoutingInfo)
    (policy : ResponsePolicy) : Prop :=
  ∀ v, executeOnMultipleNodes env progress s cmd routing (some policy) = .ok (.fanOut, .ok (.single v)) →
    ∃ requests : List (NodeAddress × PendingRequest C), targets env s cmd routing = .ok (requests.map some) ∧
      ∀ request ∈ requests.zipIdx, ∃ value,
      receive env.retryParams env.random request.1.2 (progress.handling request.2) = .ok (.ok value) ∧
      (progress.handling request.2).Answers value ∧ value.isServerError = false

/-- If all requests succeed with values the policy combines, no target was missing or taken with an error. -/
def Covered (progress : Progress) (s : Core C) (cmd : Cmd) (routing : MultipleNodeRoutingInfo)
    (policy : ResponsePolicy) : Prop :=
  ∀ ts, targets env s cmd routing = .ok ts → ts.reduceOption ≠ [] →
    (∀ outcome ∈ outcomes env progress ts.reduceOption, ∃ value, outcome = .ok value ∧ policy.accepts value = true) →
    (none ∉ ts ∨ policy = .combineArrays ∧ routing.isPlan = true) ∧
    (policy = .allSucceeded → ∀ value, .ok value ∈ outcomes env progress ts.reduceOption → value.isServerError = false)

theorem covered_of_succeedsRightly (hneeds : policy.needsAll = true) {result : OperationResult}
    (hret : executeOnMultipleNodes env progress s cmd routing (some policy) = .ok result)
    (hright : SucceedsRightly env progress s cmd routing policy) : Covered env progress s cmd routing policy := by
  intro ts htgts hne hacc
  by_cases hplan : policy = .combineArrays ∧ routing.isPlan = true
  · refine ⟨.inr hplan, fun hall => ?_⟩
    rw [hplan.1] at hall
    cases hall
  have hempty : s.connections.entries.isEmpty = false :=
    Bool.eq_false_iff.2 fun hempty => hne (requests_eq_nil env hempty htgts)
  obtain ⟨results, hress⟩ := receivers_of_returns env hret htgts
  obtain ⟨values, hvals⟩ : ∃ values : List Value, outcomes env progress ts.reduceOption = values.map .ok :=
    ⟨_, eq_map_ok fun outcome hout => (hacc outcome hout).imp fun _ h => h.1⟩
  have hall : values.all policy.accepts = true := by
    refine all_eq_true.2 fun value hval => ?_
    obtain ⟨value', hok, hval'⟩ := hacc (.ok value) (hvals ▸ mem_map_of_mem hval)
    exact Except.ok.inj hok ▸ hval'
  have hresultsNe := (results_ne_nil env hress).2 hne
  have hvaluesOf := (outcomes_eq env hress).symm.trans hvals
  have hvaluesNe : values ≠ [] := fun hnil => by
    rw [hnil, map_nil, map_eq_nil_iff] at hvaluesOf
    exact hresultsNe hvaluesOf
  -- the run returns, so it returns a value
  have hrun := executeOnMultipleNodes_of_targets env (some policy) htgts hress hempty
  rw [hret, aggregateResults_of_all hneeds hresultsNe hvaluesOf] at hrun
  rcases hof : ofValues (env.keyOrder s.tick) routing values policy with p | r
  · rw [hof] at hrun
    cases hrun
  · have hisOk := ofValues_isOk hneeds hvaluesNe
      (fun hpol => Bool.eq_false_iff.2 fun hisPlan => hplan ⟨hpol, hisPlan⟩) hof
    rw [hall] at hisOk
    rcases r with e | v
    · cases hisOk
    · rw [hof] at hrun
      rw [hrun] at hret
      obtain ⟨requests, hreqs, hans⟩ := hright v hret
      have hts : ts = requests.map some := Except.ok.inj (htgts.symm.trans hreqs)
      refine ⟨.inl fun hnone => ?_, fun _ value hval => ?_⟩
      · rw [hts] at hnone
        obtain ⟨_, -, h⟩ := mem_map.1 hnone
        cases h
      · rw [hts, reduceOption_map_some] at hval
        rw [hts, reduceOption_map_some] at hress
        obtain ⟨request, hreq, hrecv⟩ := (mem_outcomes env hress).1 hval
        obtain ⟨value', hrecv', -, hval'⟩ := hans request hreq
        rw [hrecv] at hrecv'
        exact Except.ok.inj (Except.ok.inj hrecv') ▸ hval'

theorem succeedsRightly_of_covered (hneeds : policy.needsAll = true)
    (hcovered : Covered env progress s cmd routing policy) : SucceedsRightly env progress s cmd routing policy := by
  intro v hrun
  obtain ⟨ts, results, htgts, hress, hagg⟩ := executeOnMultipleNodes_eq_ok env hrun
  obtain ⟨hne, values, hvals⟩ := aggregateResults_eq_ok hneeds hagg
  rw [aggregateResults_of_all hneeds hne hvals] at hagg
  have hlen : values.length = ts.reduceOption.length := by
    rw [← length_results env hress, ← length_map (f := Except.ok (ε := RedisError)), ← hvals, length_map]
  have hrequestsNe : ts.reduceOption ≠ [] := (results_ne_nil env hress).1 hne
  have hvaluesNe : values ≠ [] := fun hnil => by
    rw [hnil] at hlen
    exact hrequestsNe (length_eq_zero_iff.1 hlen.symm)
  -- all values are accepted, and those of a plan of arrays are as many as its routes
  have hall : values.all policy.accepts = true ∧
      (policy = .combineArrays ∧ routing.isPlan = true → ts.reduceOption.length = ts.length) := by
    by_cases hplan : policy = .combineArrays ∧ routing.isPlan = true
    · obtain ⟨rfl, hplan⟩ := hplan
      obtain ⟨hcnt, hacc⟩ := ofValues_plan hplan hagg
      exact ⟨hacc, fun _ => by rw [← hlen, hcnt, length_targets env hplan htgts]⟩
    · refine ⟨(ofValues_isOk hneeds hvaluesNe (fun hpol => ?_) hagg).symm, fun h => absurd h hplan⟩
      exact Bool.eq_false_iff.2 fun hisPlan => hplan ⟨hpol, hisPlan⟩
  obtain ⟨hpresent, herrs⟩ := hcovered ts htgts hrequestsNe fun outcome hout => by
    rw [outcomes_eq env hress, hvals] at hout
    obtain ⟨value, hval, rfl⟩ := mem_map.1 hout
    exact ⟨value, rfl, all_eq_true.1 hall.1 value hval⟩
  have hnone : none ∉ ts := by
    rcases hpresent with hpresent | hplan
    · exact hpresent
    · intro hnone
      have hsome := reduceOption_length_eq_iff.1 (hall.2 hplan) none hnone
      cases hsome
  refine ⟨ts.reduceOption, htgts.trans (congrArg Except.ok (eq_map_some hnone)), fun request hreq => ?_⟩
  obtain ⟨result, hres, hrecv⟩ := Prog.exists_of_forall₂ (forall₂_receive env hress).flip hreq
  obtain ⟨value, hval, hok⟩ := mem_map.1 (hvals ▸ mem_map_of_mem hres)
  rw [← hok] at hrecv
  have hout := (mem_outcomes env hress).2 ⟨request, hreq, hrecv⟩
  have hmem : request.1 ∈ ts.reduceOption := fst_mem_of_mem_zipIdx hreq
  obtain ⟨-, hretry, hcmd⟩ := isFirst_of_mem_targets env htgts (reduceOption_mem_iff.1 hmem)
  refine ⟨value, hrecv, receive_ok hcmd (by rw [hretry]; exact Nat.zero_le _) hrecv, ?_⟩
  by_cases hpol : policy = .allSucceeded
  · exact herrs hpol value hout
  · exact ResponsePolicy.not_serverError_of_accepts hpol (all_eq_true.1 hall.1 value hval)

end Core

end AsyncCluster

/-- A fan-out with a policy that needs all answers succeeds only if every target was sent its command and answered it
with a value that is no error, exactly under these conditions. -/
theorem fan_out_success_iff (policy : ResponsePolicy) (hneeds : policy.needsAll = true) :
    (∀ (C : Type) [Connect C] (env : Cluster.ClusterEnv C) (input : Cluster.Input) (routing : MultipleNodeRoutingInfo)
      (s : Cluster.ClusterConnection C),
      Cluster.ClusterConnection.SucceedsRightly env input routing policy s ↔
        Cluster.ClusterConnection.PartsWithoutError env input routing policy s) ∧
    (∀ (C : Type) (env : AsyncCluster.CoreEnv C) (progress : AsyncCluster.Progress) (s : AsyncCluster.Core C) (cmd : Cmd)
      (routing : MultipleNodeRoutingInfo) (result : AsyncCluster.OperationResult),
      AsyncCluster.Core.executeOnMultipleNodes env progress s cmd routing (some policy) = .ok result →
      (AsyncCluster.Core.SucceedsRightly env progress s cmd routing policy ↔
        AsyncCluster.Core.Covered env progress s cmd routing policy)) := by
  refine ⟨fun C _ env input routing s => ?_, fun C env progress s cmd routing result hreturns => ?_⟩
  · exact Cluster.ClusterConnection.succeedsRightly_iff env input routing hneeds s
  · exact ⟨AsyncCluster.Core.covered_of_succeedsRightly env hneeds hreturns,
      AsyncCluster.Core.succeedsRightly_of_covered env hneeds⟩

namespace AsyncCluster

def plainCore (numberOfRetries : UInt32) : CoreEnv Unit where
  readRouting := false
  retryParams := { numberOfRetries }
  connect _ _ := .ok ()
  random _ := 0
  strategy := none
  order _ nodes := nodes
  order_perm _ nodes := .refl nodes
  keyOrder _ keys := keys
  keyOrder_perm _ keys := .refl keys

def connectedTo (nodes : List NodeAddress) : Core Unit where
  connections := nodes.foldl (fun connections addr => connections.insert addr (.connected ())) ∅
  slots := Cluster.halves
  attempts _ := 0
  tick := 0

def answered (values : Nat → Value) : Progress where
  handling i := .attempts fun _ => (.node Cluster.nodeA, .ok (values i))
  completion := List.range
  completion_perm _ := .refl _

end AsyncCluster

open Cluster AsyncCluster

def msetBarFoo : Cmd := Cmd.ofArgs [bytesOf "MSET", bytesOf "bar", bytesOf "1", bytesOf "foo", bytesOf "2"]

def barFooPlan : MultipleNodeRoutingInfo :=
  .multiSlot [(⟨5061, .master⟩, [0, 1]), (⟨12182, .master⟩, [2, 3])] .keyValuePairs

def oomReply : Value := .serverError (.extension "OOM" none)

theorem all_answered_success :
    ClusterConnection.SucceedsRightly (plainEnv 1) (.cmd msetBarFoo) barFooPlan .allSucceeded
      (twoNodes (answering [.value .okay]) (answering [.value .okay])) ∧
    Core.SucceedsRightly (plainCore 1) (answered fun _ => .okay) (connectedTo [nodeA, nodeB]) (cmd "FLUSHALL") .allMasters
      .allSucceeded := by
  obtain ⟨hsync, hasync⟩ := fan_out_success_iff .allSucceeded rfl
  constructor
  · refine (hsync NodeConnection (plainEnv 1) (.cmd msetBarFoo) barFooPlan _).2 fun _ _ answers hanswers => ?_
    have hnodes : (ClusterConnection.nodeResults (plainEnv 1) (.cmd msetBarFoo) barFooPlan
        (twoNodes (answering [.value .okay]) (answering [.value .okay]))).1 =
          .ok ([(nodeA, .okay), (nodeB, .okay)].map .ok) := rfl
    rw [hnodes] at hanswers
    rw [← ClusterConnection.map_ok_injective (Except.ok.inj hanswers)]
    intro answer hanswer
    rcases mem_pair.1 hanswer with rfl | rfl
    · rfl
    · rfl
  · refine (hasync Unit (plainCore 1) (answered fun _ => .okay) (connectedTo [nodeA, nodeB]) (cmd "FLUSHALL") .allMasters
      (.fanOut, .ok (.single .okay)) rfl).2 fun ts hts _ _ => ?_
    have htargets : Core.targets (plainCore 1) (connectedTo [nodeA, nodeB]) (cmd "FLUSHALL") .allMasters =
        .ok ([nodeA, nodeB].map fun addr => some (addr, ⟨0, .cmd (cmd "FLUSHALL") (.singleNode (.connection addr ()))⟩)) :=
      rfl
    rw [← Except.ok.inj (htargets.symm.trans hts)]
    refine ⟨.inl fun hnone => ?_, fun _ value hvalue => ?_⟩
    · rcases mem_pair.1 hnone with h | h
      · cases h
      · cases h
    · rcases mem_pair.1 hvalue with h | h
      · cases h
        rfl
      · cases h
        rfl

theorem partial_fan_out_succeeds :
    ¬ ClusterConnection.SucceedsRightly (plainEnv 1) (.cmd msetBarFoo) barFooPlan .allSucceeded
      (twoNodes (answering [.value oomReply]) (answering [.value .okay])) ∧
    ¬ Core.SucceedsRightly (plainCore 1) (answered fun _ => .okay) (connectedTo [nodeA]) (cmd "FLUSHALL") .allMasters
      .allSucceeded ∧
    ¬ Core.SucceedsRightly (plainCore 1) (answered fun i => if i = 0 then .serverError (.known .noPerm none) else .okay)
      (connectedTo [nodeA, nodeB]) (cmd "FLUSHALL") .allMasters .allSucceeded := by
  refine ⟨fun hright => ?_, fun hright => ?_, fun hright => ?_⟩
  · have hnodes : (ClusterConnection.nodeResults (plainEnv 1) (.cmd msetBarFoo) barFooPlan
        (twoNodes (answering [.value oomReply]) (answering [.value .okay]))).1 =
          .ok ([(nodeA, oomReply), (nodeB, .okay)].map .ok) := rfl
    obtain ⟨answers, -, hanswers, -, -, hvalues⟩ := hright .okay _ rfl
    rw [hnodes] at hanswers
    rw [← ClusterConnection.map_ok_injective (Except.ok.inj hanswers)] at hvalues
    cases hvalues (nodeA, oomReply) mem_cons_self
  · obtain ⟨requests, hrequests, -⟩ := hright .okay rfl
    have htargets : Core.targets (plainCore 1) (connectedTo [nodeA]) (cmd "FLUSHALL") .allMasters =
        .ok [some (nodeA, ⟨0, .cmd (cmd "FLUSHALL") (.singleNode (.connection nodeA ()))⟩), none] := rfl
    have hnone : none ∈ requests.map some := by
      rw [← Except.ok.inj (htargets.symm.trans hrequests)]
      exact mem_cons_of_mem _ mem_cons_self
    obtain ⟨_, -, h⟩ := mem_map.1 hnone
    cases h
  · obtain ⟨requests, hrequests, hanswers⟩ := hright .okay rfl
    have htargets : Core.targets (plainCore 1) (connectedTo [nodeA, nodeB]) (cmd "FLUSHALL") .allMasters =
        .ok ([nodeA, nodeB].map fun addr => some (addr, ⟨0, .cmd (cmd "FLUSHALL") (.singleNode (.connection addr ()))⟩)) :=
      rfl
    rcases requests with _ | ⟨request, requests⟩
    · cases htargets.symm.trans hrequests
    · obtain ⟨value, hreceive, -, hvalue⟩ := hanswers (request, 0) mem_cons_self
      cases (List.cons.inj (Except.ok.inj (htargets.symm.trans hrequests))).1
      cases hreceive
      cases hvalue

end RedisRs
