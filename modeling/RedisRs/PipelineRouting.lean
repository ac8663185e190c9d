import RedisRs.AggregateReturns
import RedisRs.ArgAccess
import RedisRs.RouteSpelling

/-!
# The route of a pipeline
-/

namespace RedisRs

open List RoutingInfo

namespace AsyncCluster

structure RouteEnv where
  order : Nat → RouteOrder
  order_perm : ∀ n routes, (order n routes).Perm routes
  newRandomPrimary : Nat → Route

variable (env : RouteEnv)

def routeForCommand [Crc16] (n : Nat) (c : Cmd) : Ends (Option Route) := do
  match ← forRoutable (env.order n) c with
  | some (.singleNode (.specificNode route)) => return some route
  | some (.singleNode .randomPrimary) => return some (env.newRandomPrimary n)
  | some (.singleNode .random) | some (.multiNode _ _) | some (.singleNode (.byAddress _ _)) | none => return none

def crossedSlots : RedisError := .general (.server .crossSlot) "Received crossed slots in pipeline" none

def chooseRoute : Option Route → Option Route → RedisResult (Option Route)
  | none, nextCmdRoute => .ok nextCmdRoute
  | some chosenRoute, none => .ok (some chosenRoute)
  | some chosenRoute, some nextCmdRoute =>
    if chosenRoute.slot ≠ nextCmdRoute.slot then .error crossedSlots
    else if chosenRoute.slotAddr ≠ .master then .ok (some nextCmdRoute)
    else .ok (some chosenRoute)

def routeFrom [Crc16] : Nat → Option Route → List Cmd → Ends (RedisResult (Option Route))
  | _, chosenRoute, [] => .ok (.ok chosenRoute)
  | n, chosenRoute, c :: cmds => do
    match chooseRoute chosenRoute (← routeForCommand env n c) with
    | .error e => return .error e
    | .ok chosenRoute => routeFrom (n + 1) chosenRoute cmds

def routeForPipeline [Crc16] (pipeline : Pipeline) : Ends (RedisResult (Option Route)) :=
  routeFrom env 0 none pipeline.commands

/-- No two of the routes have different slots. -/
def SameSlot (routes : List Route) : Prop := ∀ a ∈ routes, ∀ b ∈ routes, a.slot = b.slot

instance (routes : List Route) : Decidable (SameSlot routes) :=
  inferInstanceAs (Decidable (∀ a ∈ routes, ∀ b ∈ routes, a.slot = b.slot))

def commonAddr (routes : List Route) : SlotAddr :=
  if ∃ a ∈ routes, a.slotAddr = .master then .master else .replicaOptional

def commonRoute (routes : List Route) : Option Route := routes.head?.map fun route => ⟨route.slot, commonAddr routes⟩

def routeOf (routes : List Route) : RedisResult (Option Route) :=
  if SameSlot routes then .ok (commonRoute routes) else .error crossedSlots

section Routes

variable {routes routes' : List Route} {next : Route}

theorem SameSlot.of_perm (h : routes.Perm routes') : SameSlot routes ↔ SameSlot routes' := by
  constructor
  · intro hsame a ha b hb
    exact hsame a (h.mem_iff.2 ha) b (h.mem_iff.2 hb)
  · intro hsame a ha b hb
    exact hsame a (h.mem_iff.1 ha) b (h.mem_iff.1 hb)

theorem commonRoute_eq_of_perm (h : routes.Perm routes') (hsame : SameSlot routes) :
    commonRoute routes = commonRoute routes' := by
  have haddr : commonAddr routes = commonAddr routes' := by
    simp only [commonAddr, h.mem_iff]
  cases routes with
  | nil => rw [h.nil_eq]
  | cons route routes =>
    have hne : routes' ≠ [] := by
      rintro rfl
      cases h.length_eq
    obtain ⟨route', rest', rfl⟩ := exists_cons_of_ne_nil hne
    have hslot : route.slot = route'.slot := hsame route mem_cons_self route' (h.mem_iff.2 mem_cons_self)
    simp only [commonRoute, head?_cons, Option.map_some, hslot, haddr]

theorem routeOf_eq_of_perm (h : routes.Perm routes') : routeOf routes = routeOf routes' := by
  rw [routeOf, routeOf]
  by_cases hsame : SameSlot routes
  · rw [if_pos hsame, if_pos ((SameSlot.of_perm h).1 hsame), commonRoute_eq_of_perm h hsame]
  · rw [if_neg hsame, if_neg fun hsame' => hsame ((SameSlot.of_perm h).2 hsame')]

theorem SameSlot.left (h : SameSlot (routes ++ routes')) : SameSlot routes :=
  fun a ha b hb => h a (mem_append_left _ ha) b (mem_append_left _ hb)

theorem commonAddr_eq_master : commonAddr routes = .master ↔ ∃ a ∈ routes, a.slotAddr = .master := by
  rw [commonAddr]
  split_ifs with h
  · exact iff_of_true rfl h
  · exact iff_of_false (nofun) h

theorem commonAddr_append :
    commonAddr (routes ++ routes') = if commonAddr routes = .master then .master else commonAddr routes' := by
  simp only [commonAddr_eq_master]
  by_cases hmaster : ∃ a ∈ routes, a.slotAddr = .master
  · obtain ⟨a, ha, haddr⟩ := hmaster
    rw [if_pos ⟨a, ha, haddr⟩]
    exact commonAddr_eq_master.2 ⟨a, mem_append_left _ ha, haddr⟩
  · have hiff : (∃ a ∈ routes ++ routes', a.slotAddr = .master) ↔ ∃ a ∈ routes', a.slotAddr = .master := by
      simp only [mem_append, or_and_right, exists_or, hmaster, false_or]
    rw [if_neg hmaster, commonAddr, commonAddr]
    simp only [hiff]

theorem commonAddr_singleton (h : next.slotAddr ≠ .replicaRequired) : commonAddr [next] = next.slotAddr := by
  rcases next with ⟨slot, _ | _ | _⟩
  · rfl
  · rfl
  · exact absurd rfl h

theorem chooseRoute_same (hsame : SameSlot (routes ++ [next])) (hnext : next.slotAddr ≠ .replicaRequired) :
    chooseRoute (commonRoute routes) (some next) = .ok (commonRoute (routes ++ [next])) := by
  have haddr := commonAddr_singleton hnext
  cases routes with
  | nil =>
    rw [nil_append, commonRoute, commonRoute, head?_cons, Option.map_some, haddr]
    rfl
  | cons route rest =>
    have hslot : route.slot = next.slot := hsame route mem_cons_self next (mem_append_right _ mem_cons_self)
    rw [commonRoute, commonRoute, commonAddr_append, haddr]
    show (if route.slot ≠ next.slot then _ else _) = _
    rw [if_neg (not_not.2 hslot)]
    by_cases hmaster : commonAddr (route :: rest) = .master
    · rw [if_neg (not_not.2 hmaster), if_pos hmaster, hmaster]
      rfl
    · rw [if_pos hmaster, if_neg hmaster]
      show _ = Except.ok (some (Route.mk route.slot next.slotAddr))
      rw [hslot]

theorem chooseRoute_crossed (hsame : SameSlot routes) (hcrossed : ¬ SameSlot (routes ++ [next])) :
    chooseRoute (commonRoute routes) (some next) = .error crossedSlots := by
  cases routes with
  | nil =>
    refine absurd (fun a ha b hb => ?_) hcrossed
    rw [mem_singleton.1 ha, mem_singleton.1 hb]
  | cons route rest =>
    have hslot : route.slot ≠ next.slot := by
      intro hslot
      have hall : ∀ a ∈ route :: rest ++ [next], a.slot = route.slot := by
        intro a ha
        rcases mem_append.1 ha with ha | ha
        · exact hsame a ha route mem_cons_self
        · rw [mem_singleton.1 ha, hslot]
      exact hcrossed fun a ha b hb => (hall a ha).trans (hall b hb).symm
    exact if_pos hslot

end Routes

section Routable

variable {R : Type} [Routable R] {r : R} {order : RouteOrder}

open Routable

/-- What a command with a single node is routed to: a random node or the slot of its key. -/
def RoutedBySlot (info : SingleNodeRoutingInfo) : Prop :=
  info = .random ∨ ∃ route : Route, info = .specificNode route ∧ route.slotAddr ≠ .replicaRequired

theorem slotAddr_getRoute [Crc16] (isReadonly : Bool) (key : Bytes) :
    (getRoute isReadonly key).slotAddr ≠ .replicaRequired := by
  cases isReadonly <;> exact nofun

variable {cmd : Bytes} {info : SingleNodeRoutingInfo}

theorem multiShard_routed [Crc16] {pattern : MultiSlotArgPattern} (horder : ∀ routes, (order routes).Perm routes)
    (h : multiShard order r cmd 1 pattern = .ok (some (.singleNode info))) : RoutedBySlot info := by
  rw [multiShard] at h
  obtain ⟨found, hloop, h⟩ := exists_of_bind_eq_ok h
  rcases found with _ | routes
  · cases h
  have hrts := multiShardLoop_routes hloop
  rcases hord : order routes with _ | ⟨entry, _ | ⟨entry', rest⟩⟩ <;> simp only [hord] at h
  · cases h
  · cases h
    have hmem : entry ∈ order routes := by
      rw [hord]
      exact mem_cons_self
    obtain ⟨key, hkey⟩ := hrts entry ((horder routes).mem_iff.1 hmem)
    exact .inr ⟨entry.1, rfl, hkey ▸ slotAddr_getRoute _ key⟩
  · cases h

theorem routed_of_map_forKey [Crc16] {key : Option Bytes} (h : key.map (forKey cmd) = some (.singleNode info)) :
    RoutedBySlot info := by
  obtain ⟨key, -, heq⟩ := Option.map_eq_some_iff.1 h
  cases heq
  exact .inr ⟨_, rfl, slotAddr_getRoute _ key⟩

theorem forKeyAfterCount_routed [Crc16] {i : Nat} (h : forKeyAfterCount r cmd i = .ok (some (.singleNode info))) :
    RoutedBySlot info := by
  rw [forKeyAfterCount] at h
  obtain ⟨arg, -, h⟩ := exists_of_bind_eq_ok h
  rcases hcnt : (arg.bind fun x => (fromUtf8 x).bind (parseInt 0 (2 ^ 64 - 1))) with _ | keyCount
  · rw [hcnt] at h
    cases h
  · rw [hcnt] at h
    by_cases hzero : keyCount = 0
    · simp only [hzero, if_true] at h
      cases h
      exact .inl rfl
    · simp only [hzero, if_false] at h
      obtain ⟨key, -, h⟩ := exists_of_bind_eq_ok h
      exact routed_of_map_forKey (Except.ok.inj h)

theorem forCommand_routed [Crc16] (hord : ∀ routes, (order routes).Perm routes)
    (h : forCommand order r cmd = .ok (some (.singleNode info))) : RoutedBySlot info := by
  rw [forCommand] at h
  cases hbase : baseRouting cmd <;> simp only [hbase] at h
  case allNodes => cases h
  case allPrimaries => cases h
  case multiShard pattern => exact multiShard_routed hord h
  case random =>
    cases h
    exact .inl rfl
  case thirdArgAfterKeyCount => exact forKeyAfterCount_routed h
  case secondArg =>
    obtain ⟨key, -, h⟩ := exists_of_bind_eq_ok h
    exact routed_of_map_forKey (Except.ok.inj h)
  case secondArgAfterKeyCount => exact forKeyAfterCount_routed h
  case streamsIndex =>
    cases hpos : position r (bytesOf "STREAMS") with
    | none =>
      rw [hpos] at h
      cases h
    | some streamsPosition =>
      rw [hpos] at h
      obtain ⟨key, -, h⟩ := exists_of_bind_eq_ok h
      exact routed_of_map_forKey (Except.ok.inj h)
  case secondArgSlot =>
    obtain ⟨arg, -, h⟩ := exists_of_bind_eq_ok h
    obtain ⟨slot, -, heq⟩ := Option.map_eq_some_iff.1 (Except.ok.inj h)
    cases heq
    exact .inr ⟨_, rfl, fun h => by cases h⟩
  case firstKey =>
    obtain ⟨key, -, h⟩ := exists_of_bind_eq_ok h
    cases key with
    | none =>
      cases h
      exact .inl rfl
    | some key =>
      have hkey : (some key).map (forKey cmd) = some (.singleNode info) := Except.ok.inj h
      exact routed_of_map_forKey hkey
  case undefined => cases h

theorem forRoutable_routed [Crc16] (hord : ∀ routes, (order routes).Perm routes)
    (h : forRoutable order r = .ok (some (.singleNode info))) : RoutedBySlot info := by
  rw [forRoutable_eq] at h
  obtain ⟨cmd, -, h⟩ := exists_of_bind_eq_ok h
  cases cmd with
  | none => cases h
  | some cmd => exact forCommand_routed hord h

end Routable

section Commands

variable {env}

theorem sameRouting_cases {routing routing' : Ends (Option RoutingInfo)} (h : SameRouting routing routing') :
    routing = routing' ∨ ∃ plan policy plan' policy', routing = .ok (some (.multiNode plan policy)) ∧
      routing' = .ok (some (.multiNode plan' policy')) := by
  unfold SameRouting at h
  split at h
  · exact .inr ⟨_, _, _, _, rfl, rfl⟩
  · exact .inl h

theorem routeForCommand_eq [Crc16] (env env' : RouteEnv) (n n' : Nat) (c : Cmd) :
    routeForCommand env n c = routeForCommand env' n' c := by
  rcases sameRouting_cases (forRoutable_sameRouting (env.order_perm n) (env'.order_perm n') c) with
    heq | ⟨plan, policy, plan', policy', hplan, hplan'⟩
  · rw [routeForCommand, routeForCommand, ← heq]
    rcases hrout : forRoutable (env.order n) c with panic | _ | info | ⟨plan, policy⟩
    · rfl
    · rfl
    · rcases forRoutable_routed (env.order_perm n) hrout with rfl | ⟨route, rfl, -⟩
      · rfl
      · rfl
    · rfl
  · rw [routeForCommand, routeForCommand, hplan, hplan']
    rfl

theorem slotAddr_routeForCommand [Crc16] {n : Nat} {c : Cmd} {route : Route}
    (h : routeForCommand env n c = .ok (some route)) :
    route.slotAddr ≠ .replicaRequired := by
  rw [routeForCommand] at h
  obtain ⟨routing, hrout, h⟩ := exists_of_bind_eq_ok h
  rcases routing with _ | info | ⟨plan, policy⟩
  · cases h
  · rcases forRoutable_routed (env.order_perm n) hrout with rfl | ⟨route', rfl, haddr⟩
    · cases h
    · cases h
      exact haddr
  · cases h

theorem returns_routeForCommand_iff [Crc16] {n : Nat} {c : Cmd} :
    Returns (routeForCommand env n c) ↔ Returns (forRoutable (env.order n) c) := by
  rw [routeForCommand, returns_bind_iff]
  refine exists_congr fun routing => and_iff_left_of_imp fun _ => ?_
  rcases routing with _ | ⟨_ | _ | _ | _⟩ | ⟨plan, policy⟩ <;> exact returns_ok _

end Commands

def routesOf [Crc16] (cmds : List Cmd) : List Route := cmds.filterMap fun c => (routeForCommand env 0 c).toOption.join

section Fold

variable {env} {n : Nat} {c : Cmd} {cmds : List Cmd} {seen : List Route}

theorem routesOf_cons [Crc16] {route : Option Route} (h : routeForCommand env n c = .ok route) :
    routesOf env (c :: cmds) = route.toList ++ routesOf env cmds := by
  rw [routesOf, filterMap_cons, routeForCommand_eq env env 0 n, h]
  cases route <;> rfl

theorem chooseRoute_none (chosen : Option Route) : chooseRoute chosen none = .ok chosen := by
  cases chosen <;> rfl

theorem routeFrom_eq [Crc16] (hret : ∀ c ∈ cmds, Returns (routeForCommand env 0 c)) (hsame : SameSlot seen) :
    routeFrom env n (commonRoute seen) cmds = .ok (routeOf (seen ++ routesOf env cmds)) := by
  induction cmds generalizing n seen with
  | nil =>
    rw [show routesOf env [] = [] from rfl, append_nil, routeOf, if_pos hsame]
    rfl
  | cons c cmds ih =>
    have hrest : ∀ c ∈ cmds, Returns (routeForCommand env 0 c) := fun c hc => hret c (mem_cons_of_mem _ hc)
    obtain ⟨route, hroute⟩ := hret c mem_cons_self
    rw [routeForCommand_eq env env 0 n] at hroute
    rw [routesOf_cons hroute]
    cases route with
    | none =>
      simp only [routeFrom, hroute, bind, Except.bind, chooseRoute_none]
      exact ih hrest hsame
    | some next =>
      rw [Option.toList_some, ← append_assoc]
      by_cases hnext : SameSlot (seen ++ [next])
      · simp only [routeFrom, hroute, bind, Except.bind, chooseRoute_same hnext (slotAddr_routeForCommand hroute)]
        exact ih hrest hnext
      · rw [routeOf, if_neg fun h => hnext h.left]
        simp only [routeFrom, hroute, bind, Except.bind, chooseRoute_crossed hsame hnext]
        rfl

theorem routeForPipeline_eq [Crc16] {pipeline : Pipeline}
    (hret : ∀ c ∈ pipeline.commands, Returns (routeForCommand env 0 c)) :
    routeForPipeline env pipeline = .ok (routeOf (routesOf env pipeline.commands)) :=
  routeFrom_eq hret fun _ ha => absurd ha not_mem_nil

end Fold

/-- What the pipeline is sent to, and that this does not depend on the order of its commands. -/
structure RoutedTogether [Crc16] (pipeline : Pipeline) : Prop where
  result : ∃ result, routeForPipeline env pipeline = .ok result ∧
    ((∃ e, result = .error e) ↔
      ∃ a ∈ routesOf env pipeline.commands, ∃ b ∈ routesOf env pipeline.commands, a.slot ≠ b.slot) ∧
    (result = .ok none ↔ routesOf env pipeline.commands = []) ∧
    ∀ route, result = .ok (some route) → (∀ a ∈ routesOf env pipeline.commands, a.slot = route.slot) ∧
      (route.slotAddr = .master ↔ ∃ a ∈ routesOf env pipeline.commands, a.slotAddr = .master)
  perm : ∀ (env' : RouteEnv) (pipeline' : Pipeline), pipeline'.commands.Perm pipeline.commands →
    routeForPipeline env' pipeline' = routeForPipeline env pipeline

variable {routes : List Route} {pipeline : Pipeline}

theorem not_sameSlot_iff : ¬ SameSlot routes ↔ ∃ a ∈ routes, ∃ b ∈ routes, a.slot ≠ b.slot := by
  simp [SameSlot]

theorem routeOf_eq_error_iff : (∃ e, routeOf routes = .error e) ↔ ∃ a ∈ routes, ∃ b ∈ routes, a.slot ≠ b.slot := by
  rw [← not_sameSlot_iff, routeOf]
  by_cases hsame : SameSlot routes
  · rw [if_pos hsame]
    exact iff_of_false (fun ⟨e, he⟩ => (by cases he)) (not_not.2 hsame)
  · rw [if_neg hsame]
    exact iff_of_true ⟨_, rfl⟩ hsame

theorem routeOf_eq_none_iff : routeOf routes = .ok none ↔ routes = [] := by
  cases routes with
  | nil => exact iff_of_true rfl rfl
  | cons route rest =>
    refine iff_of_false (fun h => ?_) (cons_ne_nil _ _)
    rw [routeOf] at h
    by_cases hsame : SameSlot (route :: rest)
    · rw [if_pos hsame] at h
      cases h
    · rw [if_neg hsame] at h
      cases h

theorem routeOf_eq_some {route : Route} (h : routeOf routes = .ok (some route)) :
    (∀ a ∈ routes, a.slot = route.slot) ∧ (route.slotAddr = .master ↔ ∃ a ∈ routes, a.slotAddr = .master) := by
  rw [routeOf] at h
  by_cases hsame : SameSlot routes
  · rw [if_pos hsame] at h
    cases routes with
    | nil => cases h
    | cons first rest =>
      cases h
      exact ⟨fun a ha => hsame a ha first mem_cons_self, commonAddr_eq_master⟩
  · rw [if_neg hsame] at h
    cases h

theorem routesOf_perm [Crc16] (env env' : RouteEnv) {cmds cmds' : List Cmd} (h : cmds.Perm cmds') :
    (routesOf env cmds).Perm (routesOf env' cmds') := by
  have heq : routesOf env cmds = routesOf env' cmds := by
    simp only [routesOf, routeForCommand_eq env env' 0 0]
  rw [heq]
  exact h.filterMap _

theorem routedTogether_of_returns [Crc16] (h : ∀ c ∈ pipeline.commands, Returns (routeForCommand env 0 c)) :
    RoutedTogether env pipeline := by
  refine ⟨⟨_, routeForPipeline_eq h, routeOf_eq_error_iff, routeOf_eq_none_iff, fun route => routeOf_eq_some⟩, ?_⟩
  intro env' pipeline' hperm
  have h' : ∀ c ∈ pipeline'.commands, Returns (routeForCommand env' 0 c) := by
    intro c hc
    rw [routeForCommand_eq env' env 0 0]
    exact h c (hperm.mem_iff.1 hc)
  rw [routeForPipeline_eq h, routeForPipeline_eq h', routeOf_eq_of_perm (routesOf_perm env' env hperm)]

theorem returns_of_routedTogether [Crc16] (h : RoutedTogether env pipeline) {c : Cmd} (hc : c ∈ pipeline.commands) :
    Returns (routeForCommand env 0 c) := by
  obtain ⟨before, after, hcmds⟩ := append_of_mem hc
  obtain ⟨result, hres, -⟩ := h.result
  have hfirst := h.perm env { pipeline with commands := c :: (before ++ after) } (hcmds ▸ perm_middle.symm)
  rw [hres] at hfirst
  obtain ⟨route, hroute, -⟩ := exists_of_bind_eq_ok hfirst
  exact ⟨route, hroute⟩

section Returns

variable {R : Type} [Routable R] {r : R} (h : ∀ i, Returns (Routable.argIdx r i))

open Routable

include h

theorem returns_command : Returns (Routable.command r) := by
  refine (h 0).bind fun name => ?_
  cases name with
  | none => exact returns_ok _
  | some name =>
    by_cases htwo : (twoWordCommands.map bytesOf).contains (asciiUppercase name)
    · simp only [if_pos htwo]
      refine (h 1).bind fun secondary => ?_
      cases secondary <;> exact returns_ok _
    · simp only [if_neg htwo]
      exact returns_ok _

theorem returns_incrAddNextArg (indices : List Nat) (i : Nat) : Returns (incrAddNextArg r indices i) := by
  refine (h (i + 1)).bind fun arg => ?_
  cases arg <;> exact returns_ok _

theorem returns_multiShardLoop [Crc16] (isReadonly : Bool) (first : Nat) (pattern : MultiSlotArgPattern) (fuel : Nat)
    (m : AList fun _ : Route => List Nat) (k : Nat) : Returns (multiShardLoop r isReadonly first pattern fuel m k) := by
  induction fuel generalizing m k with
  | zero => exact returns_ok _
  | succ fuel ih =>
    rw [multiShardLoop]
    refine (h _).bind fun arg => ?_
    cases arg with
    | none => exact returns_ok _
    | some arg =>
      cases pattern with
      | keysOnly => exact ih _ _
      | keyValuePairs =>
        refine (returns_incrAddNextArg h _ _).bind fun next => ?_
        cases next with
        | none => exact returns_ok _
        | some next => exact ih _ _
      | keysAndLastArg =>
        refine (h _).bind fun last => ?_
        cases last with
        | none => exact returns_ok _
        | some last => exact ih _ _
      | keyWithTwoArgTriples =>
        refine (returns_incrAddNextArg h _ _).bind fun next => ?_
        cases next with
        | none => exact returns_ok _
        | some next =>
          refine (returns_incrAddNextArg h _ _).bind fun next' => ?_
          cases next' with
          | none => exact returns_ok _
          | some next' => exact ih _ _

theorem returns_multiShard [Crc16] (order : RouteOrder) (cmd : Bytes)
    (pattern : MultiSlotArgPattern) : Returns (multiShard order r cmd 1 pattern) := by
  refine (returns_multiShardLoop h _ _ _ _ _ _).bind fun found => ?_
  cases found with
  | none => exact returns_ok _
  | some routes =>
    rcases hord : order routes with _ | ⟨entry, _ | ⟨entry', rest⟩⟩ <;> simp only [hord] <;> exact returns_ok _

theorem returns_forKeyAfterCount [Crc16] (cmd : Bytes) (i : Nat) : Returns (forKeyAfterCount r cmd i) := by
  refine (h i).bind fun arg => ?_
  cases (arg.bind fun x => (fromUtf8 x).bind (parseInt 0 (2 ^ 64 - 1))) with
  | none => exact returns_ok _
  | some keyCount =>
    by_cases hzero : keyCount = 0
    · simp only [hzero, if_true]
      exact returns_ok _
    · simp only [hzero, if_false]
      exact (h (i + 1)).bind fun key => returns_ok _

theorem returns_forCommand [Crc16] (order : RouteOrder) (cmd : Bytes) :
    Returns (forCommand order r cmd) := by
  rw [forCommand]
  cases baseRouting cmd with
  | multiShard pattern => exact returns_multiShard h order cmd pattern
  | thirdArgAfterKeyCount => exact returns_forKeyAfterCount h cmd 2
  | secondArg => exact (h 2).bind fun key => returns_ok _
  | secondArgAfterKeyCount => exact returns_forKeyAfterCount h cmd 1
  | streamsIndex =>
    cases position r (bytesOf "STREAMS") with
    | none => exact returns_ok _
    | some streamsPosition => exact (h _).bind fun key => returns_ok _
  | secondArgSlot => exact (h 2).bind fun arg => returns_ok _
  | firstKey =>
    refine (h 1).bind fun key => ?_
    cases key <;> exact returns_ok _
  | _ => exact returns_ok _

theorem returns_forRoutable [Crc16] (order : RouteOrder) :
    Returns (forRoutable order r) := by
  rw [forRoutable_eq]
  refine (returns_command h).bind fun cmd => ?_
  cases cmd with
  | none => exact returns_ok _
  | some cmd => exact returns_forCommand h order cmd

end Returns

theorem returns_argIdx_of_noCursor {c : Cmd} (h : Arg.cursor ∉ c.argsIter) (i : Nat) : Returns (c.argIdx i) := by
  cases harg : c.argsIter[i]? with
  | none =>
    rw [Cmd.argIdx_outOfRange harg]
    exact returns_ok _
  | some arg =>
    cases arg with
    | simple val =>
      rw [Cmd.argIdx_simple harg]
      split_ifs <;> exact returns_ok _
    | cursor => exact absurd (mem_of_getElem? harg) h

/-- The route of a pipeline is what its commands agree on, in any order, exactly if the routing of none of them panics; it
does not if none has a cursor. -/
theorem routedTogether_iff [Crc16] (env : RouteEnv) (pipeline : Pipeline) :
    (RoutedTogether env pipeline ↔ ∀ c ∈ pipeline.commands, Returns (forRoutable (env.order 0) c)) ∧
    ((∀ c ∈ pipeline.commands, Arg.cursor ∉ c.argsIter) → RoutedTogether env pipeline) := by
  refine ⟨⟨fun h c hc => ?_, fun h => ?_⟩, fun h => ?_⟩
  · exact returns_routeForCommand_iff.1 (returns_of_routedTogether env h hc)
  · exact routedTogether_of_returns env fun c hc => returns_routeForCommand_iff.2 (h c hc)
  · refine routedTogether_of_returns env fun c hc => returns_routeForCommand_iff.2 ?_
    exact returns_forRoutable (returns_argIdx_of_noCursor (h c hc)) (env.order 0)

def reversedEnv : RouteEnv where
  order _ routes := routes.reverse
  order_perm _ routes := routes.reverse_perm
  newRandomPrimary _ := ⟨0, .master⟩

theorem routedTogether_iff_get :
    RoutedTogether reversedEnv ⟨[Cmd.ofArgs [bytesOf "GET", bytesOf "a"], Cmd.ofArgs [bytesOf "DEL", bytesOf "b"]],
      false, ∅, false⟩ := by
  refine (routedTogether_iff reversedEnv _).2 (forall_mem_cons.2 ⟨?_, forall_mem_singleton.2 ?_⟩)
  all_goals
    rw [Cmd.argsIter_ofArgs]
    decide

theorem cursor_panics_in_another_order :
    routeForPipeline reversedEnv ⟨[Cmd.ofArgs [bytesOf "GET", bytesOf "a"], Cmd.ofArgs [bytesOf "GET", bytesOf "b"],
      (cmd "GET").cursorArg 0], false, ∅, false⟩ = .ok (.error crossedSlots) ∧
    routeForPipeline reversedEnv ⟨[(cmd "GET").cursorArg 0, Cmd.ofArgs [bytesOf "GET", bytesOf "a"],
      Cmd.ofArgs [bytesOf "GET", bytesOf "b"]], false, ∅, false⟩ = .error .sliceIndex := by
  constructor
  · rfl
  · rfl

end AsyncCluster

end RedisRs
