import RedisRs.AsyncFanOut

/-!
# Policies that need every answer
-/

namespace RedisRs

open List

def Value.isInt : Value → Bool
  | .int _ => true
  | _ => false

def isCounts : List Value → Bool
  | [] => true
  | .bulkString _ :: .int _ :: items => isCounts items
  | _ => false

namespace ResponsePolicy

def needsAll : ResponsePolicy → Bool
  | .allSucceeded | .aggregate _ | .aggregateLogical _ | .combineArrays | .combineMaps => true
  | .oneSucceeded | .firstSucceededNonEmptyOrAllEmpty | .special => false

def accepts : ResponsePolicy → Value → Bool
  | .allSucceeded, _ => true
  | .aggregate _, value => value.isInt
  | .aggregateLogical _, .array items => items.all Value.isInt
  | .combineArrays, .array _ => true
  | .combineMaps, .array items => isCounts items
  | _, _ => false

theorem not_serverError_of_accepts {policy : ResponsePolicy} {value : Value} (hne : policy ≠ .allSucceeded)
    (h : policy.accepts value = true) : value.isServerError = false := by
  rw [Bool.eq_false_iff]
  intro herr
  obtain ⟨err, rfl⟩ := Value.isServerError_iff.1 herr
  cases policy with
  | allSucceeded => exact hne rfl
  | _ => cases h

end ResponsePolicy

variable {values : List Value}

theorem aggregateFrom_isOk {op : AggregateOp} {acc : Int64} {r : RedisResult Value}
    (h : aggregateFrom op acc values = .ok r) : r.isOk = values.all Value.isInt := by
  induction values generalizing acc with
  | nil => cases h; rfl
  | cons value values ih =>
    cases value with
    | int n =>
      obtain ⟨acc', -, h⟩ := exists_of_bind_eq_ok h
      exact ih h
    | _ => cases h; rfl

variable {v : Value} {policy : ResponsePolicy} {items : List Value} {acc : List Bool}

theorem logicalAggregateItems_isOk {index : Nat} {r : RedisResult (List Bool)}
    (h : logicalAggregateItems acc index items = .ok r) : r.isOk = items.all Value.isInt := by
  induction items generalizing acc index with
  | nil => cases h; rfl
  | cons item items ih =>
    cases item with
    | int n =>
      rw [logicalAggregateItems] at h
      rcases hget : acc[index]? with _ | b
      · rw [hget] at h
        cases h
      · rw [hget] at h
        exact ih h
    | _ => cases h; rfl

theorem logicalAggregateFrom_isOk {r : RedisResult Value} (op : LogicalAggregateOp)
    (h : logicalAggregateFrom acc values = .ok r) :
    r.isOk = values.all (ResponsePolicy.accepts (.aggregateLogical op)) := by
  induction values generalizing acc with
  | nil => cases h; rfl
  | cons value values ih =>
    cases value with
    | array items =>
      obtain ⟨r', hitems, h⟩ := exists_of_bind_eq_ok h
      have hok := logicalAggregateItems_isOk hitems
      rcases r' with e | acc'
      · cases h
        simp only [all_cons, ResponsePolicy.accepts, ← hok]
        rfl
      · simp only [all_cons, ResponsePolicy.accepts, ← hok]
        exact ih h
    | _ => cases h; rfl

variable {r : RedisResult (AList fun _ : Bytes => Int64)} {map : AList fun _ : Bytes => Int64}

theorem combineMapItems_isOk (h : combineMapItems map items = .ok r) : r.isOk = isCounts items := by
  induction items using isCounts.induct generalizing map with
  | case1 => cases h; rfl
  | case2 key value items ih =>
    rw [combineMapItems] at h
    obtain ⟨sum, -, h⟩ := exists_of_bind_eq_ok h
    exact ih h
  | case3 items hnil hpair =>
    rcases items with _ | ⟨item, items⟩
    · exact absurd rfl hnil
    · cases item with
      | bulkString key =>
        rcases items with _ | ⟨value, items⟩
        · cases h; rfl
        · cases value with
          | int n => exact absurd rfl (hpair key n items)
          | _ => cases h; rfl
      | _ => cases h; rfl

theorem combineMapFrom_isOk (h : combineMapFrom map values = .ok r) :
    r.isOk = values.all (ResponsePolicy.accepts .combineMaps) := by
  induction values generalizing map with
  | nil => cases h; rfl
  | cons value values ih =>
    cases value with
    | array items =>
      obtain ⟨r', hitems, h⟩ := exists_of_bind_eq_ok h
      have hok := combineMapItems_isOk hitems
      rcases r' with e | map'
      · cases h
        simp only [all_cons, ResponsePolicy.accepts, ← hok]
        rfl
      · simp only [all_cons, ResponsePolicy.accepts, ← hok]
        exact ih h
    | _ => cases h; rfl

theorem combineMapResults_isOk {order : List Bytes → List Bytes} {r : RedisResult Value}
    (h : combineMapResults order values = .ok r) : r.isOk = values.all (ResponsePolicy.accepts .combineMaps) := by
  obtain ⟨r', hmap, h⟩ := exists_of_bind_eq_ok h
  have hok := combineMapFrom_isOk hmap
  rcases r' with e | map
  · cases h
    exact hok
  · cases h
    exact hok

theorem combineArrayFrom_isOk (results values : List Value) :
    (combineArrayFrom results values).isOk = values.all (ResponsePolicy.accepts .combineArrays) := by
  induction values generalizing results with
  | nil => rfl
  | cons value values ih =>
    cases value with
    | array items => exact ih (results ++ items)
    | _ => rfl

variable {routes : List (Route × List Nat)} {pattern : MultiSlotArgPattern} {indices : List (Ends (List Nat))}

theorem length_resultIndices (h : calculateMultiSlotResultIndices routes pattern = .ok indices) :
    indices.length = routes.length := by
  have hmap : ∀ (stepCount : Nat), (checkIndicesInput stepCount routes).map
      (fun _ => routes.map fun route => .ok (stepIndices stepCount route.2)) = .ok indices →
        indices.length = routes.length := by
    intro stepCount hmap
    obtain ⟨-, -, rfl⟩ := exists_of_map_eq_ok hmap
    exact length_map _
  cases pattern with
  | keysOnly =>
    cases h
    exact length_map _
  | keysAndLastArg =>
    cases h
    exact length_map _
  | keyWithTwoArgTriples => exact hmap 3 h
  | keyValuePairs => exact hmap 2 h

theorem placeResults_accepts {results : List Value} (hlen : values.length = indices.length)
    (h : placeResults results indices values = .ok (.ok v)) :
    values.all (ResponsePolicy.accepts .combineArrays) = true := by
  induction values generalizing results indices with
  | nil => rfl
  | cons value values ih =>
    rcases indices with _ | ⟨places, indices⟩
    · cases hlen
    · cases value with
      | array items =>
        obtain ⟨l, -, h⟩ := exists_of_bind_eq_ok h
        split_ifs at h
        obtain ⟨results', -, h⟩ := exists_of_bind_eq_ok h
        exact ih (Nat.succ.inj hlen) h
      | _ =>
        obtain ⟨-, -, h⟩ := exists_of_map_eq_ok h
        cases h

theorem combineAndSort_ok (h : combineAndSortArrayResults values routes pattern = .ok (.ok v)) :
    values.length = routes.length ∧ values.all (ResponsePolicy.accepts .combineArrays) = true := by
  rw [combineAndSortArrayResults] at h
  rcases hidx : calculateMultiSlotResultIndices routes pattern with e | indices <;> rw [hidx] at h
  · cases h
  · dsimp only at h
    split_ifs at h with hlen
    · cases h
    · have hlen := not_not.1 hlen
      exact ⟨hlen.trans (length_resultIndices hidx), placeResults_accepts hlen h⟩

def ofValues (keyOrder : List Bytes → List Bytes) (routing : MultipleNodeRoutingInfo) (values : List Value) :
    ResponsePolicy → Ends (RedisResult Value)
  | .allSucceeded => .ok (match values.getLast? with
    | some value => .ok value
    | none => .error Cluster.noResults)
  | .aggregate op => aggregate values op
  | .aggregateLogical op => logicalAggregate values op
  | .combineArrays => match routing with
    | .multiSlot routes pattern => combineAndSortArrayResults values routes pattern
    | _ => .ok (combineArrayResults values)
  | .combineMaps => combineMapResults keyOrder values
  | _ => .ok (.error Cluster.noResults)

def MultipleNodeRoutingInfo.isPlan : MultipleNodeRoutingInfo → Bool
  | .multiSlot _ _ => true
  | _ => false

def MultipleNodeRoutingInfo.numRoutes : MultipleNodeRoutingInfo → Nat
  | .multiSlot routes _ => routes.length
  | _ => 0

variable {keyOrder : List Bytes → List Bytes} {routing : MultipleNodeRoutingInfo}

theorem ofValues_isOk {r : RedisResult Value} (hneeds : policy.needsAll = true) (hne : values ≠ [])
    (hplan : policy = .combineArrays → routing.isPlan = false)
    (h : ofValues keyOrder routing values policy = .ok r) : r.isOk = values.all policy.accepts := by
  cases policy with
  | allSucceeded =>
    cases h
    rw [getLast?_eq_some_getLast hne]
    exact (all_eq_true.2 fun _ _ => rfl).symm
  | aggregate op => exact aggregateFrom_isOk h
  | aggregateLogical op => exact logicalAggregateFrom_isOk op h
  | combineArrays =>
    cases routing with
    | multiSlot routes pattern => cases hplan rfl
    | _ =>
      cases h
      exact combineArrayFrom_isOk [] values
  | combineMaps => exact combineMapResults_isOk h
  | _ => cases hneeds

theorem ofValues_plan (hplan : routing.isPlan = true)
    (h : ofValues keyOrder routing values .combineArrays = .ok (.ok v)) :
    values.length = routing.numRoutes ∧ values.all (ResponsePolicy.accepts .combineArrays) = true := by
  cases routing with
  | multiSlot routes pattern => exact combineAndSort_ok h
  | _ => cases hplan

theorem ofValues_ok (hneeds : policy.needsAll = true) (hall : policy ≠ .allSucceeded) (hne : values ≠ [])
    (h : ofValues keyOrder routing values policy = .ok (.ok v)) : ∀ value ∈ values, value.isServerError = false := by
  have hacc : values.all policy.accepts = true := by
    by_cases hplan : policy = .combineArrays ∧ routing.isPlan = true
    · obtain ⟨rfl, hplan⟩ := hplan
      exact (ofValues_plan hplan h).2
    · refine (ofValues_isOk hneeds hne (fun hpol => ?_) h).symm
      exact Bool.eq_false_iff.2 fun hisPlan => hplan ⟨hpol, hisPlan⟩
  exact fun value hval => ResponsePolicy.not_serverError_of_accepts hall (all_eq_true.1 hacc value hval)

theorem Cluster.allOk_eq_ok {α : Type} {results : List (RedisResult α)} {as : List α} :
    Cluster.allOk results = .ok as ↔ results = as.map .ok := by
  induction results generalizing as with
  | nil =>
    rcases as with _ | ⟨a, as⟩
    · exact ⟨fun _ => rfl, fun _ => rfl⟩
    · exact ⟨nofun, nofun⟩
  | cons result results ih =>
    rcases result with e | a
    · rcases as with _ | ⟨a, as⟩
      · exact ⟨nofun, nofun⟩
      · exact ⟨nofun, nofun⟩
    · rw [Cluster.allOk]
      constructor
      · intro h
        rcases hrest : Cluster.allOk results with e | rest
        · rw [hrest] at h
          cases h
        · rw [hrest] at h
          cases h
          rw [map_cons, ← ih.1 hrest]
      · intro h
        rcases as with _ | ⟨a', as⟩
        · cases h
        · obtain ⟨ha, hrest⟩ := List.cons.inj h
          cases ha
          rw [ih.2 hrest]
          rfl

namespace AsyncCluster

variable {α : Type}

theorem filterMap_range_getElem (l : List α) : (List.range l.length).filterMap (fun i => l[i]?) = l := by
  induction l with
  | nil => rfl
  | cons a l ih =>
    rw [length_cons, range_succ_eq_map, filterMap_cons, filterMap_map]
    exact congrArg (a :: ·) ih

variable {results : List (RedisResult α)} (progress : Progress)

theorem Progress.completed_perm (results : List α) : (progress.completed results).Perm results := by
  have hperm := (progress.completion_perm results.length).filterMap fun i => results[i]?
  rwa [filterMap_range_getElem] at hperm

theorem errorOf_eq_none {result : RedisResult α} : errorOf result = none ↔ ∃ a, result = .ok a := by
  rcases result with e | a
  · exact ⟨nofun, fun ⟨_, h⟩ => (by cases h)⟩
  · exact ⟨fun _ => ⟨a, rfl⟩, fun _ => rfl⟩

theorem eq_map_ok (h : ∀ result ∈ results, ∃ a, result = .ok a) :
    results = (results.filterMap Except.toOption).map .ok := by
  induction results with
  | nil => rfl
  | cons result results ih =>
    obtain ⟨a, rfl⟩ := h result mem_cons_self
    exact congrArg (.ok a :: ·) (ih fun result hr => h result (mem_cons_of_mem _ hr))

theorem Progress.tryJoinAll_eq_ok {as : List α} : progress.tryJoinAll results = .ok as ↔ results = as.map .ok := by
  have hnone : (progress.completed results).findSome? errorOf = none ↔ ∀ result ∈ results, ∃ a, result = .ok a := by
    rw [findSome?_eq_none_iff]
    exact ⟨fun h result hr => errorOf_eq_none.1 (h result ((progress.completed_perm results).mem_iff.2 hr)),
      fun h result hr => errorOf_eq_none.2 (h result ((progress.completed_perm results).mem_iff.1 hr))⟩
  constructor
  · intro h
    unfold tryJoinAll at h
    rcases hfind : (progress.completed results).findSome? errorOf with _ | e
    · rw [hfind] at h
      cases h
      exact eq_map_ok (hnone.1 hfind)
    · rw [hfind] at h
      cases h
  · rintro rfl
    have hfind := hnone.2 fun result hr => by
      obtain ⟨a, -, rfl⟩ := mem_map.1 hr
      exact ⟨a, rfl⟩
    unfold tryJoinAll
    rw [hfind, filterMap_map]
    exact congrArg Except.ok filterMap_some

end AsyncCluster

end RedisRs
