import Mathlib.Data.List.Flatten
import RedisRs.AsyncCore
import RedisRs.SubscriptionTracker

/-!
# Subscribing again after a reconnection
-/

namespace RedisRs

open List

structure SetOrder where
  toList : Finset Bytes → List Bytes
  nodup : ∀ s, (toList s).Nodup
  mem_toList : ∀ s x, x ∈ toList s ↔ x ∈ s

namespace SetOrder

theorem nonempty : Nonempty SetOrder := ⟨Finset.toList, Finset.nodup_toList, fun _ _ => Finset.mem_toList⟩

variable (iter : SetOrder)

theorem toList_empty : iter.toList ∅ = [] := by
  refine eq_nil_iff_forall_not_mem.2 fun x hx => ?_
  exact absurd ((iter.mem_toList ∅ x).1 hx) (Finset.notMem_empty x)

theorem exists_cons {s : Finset Bytes} (h : s ≠ ∅) : ∃ first rest, iter.toList s = first :: rest := by
  refine exists_cons_of_ne_nil fun hnil => ?_
  obtain ⟨x, hx⟩ := Finset.nonempty_iff_ne_empty.2 h
  have hmem := (iter.mem_toList s x).2 hx
  rw [hnil] at hmem
  exact absurd hmem not_mem_nil

end SetOrder

namespace SubscriptionTracker

def subscribeAgain (iter : SetOrder) (name : String) (channels : Finset Bytes) : List Cmd :=
  if channels = ∅ then [] else [Cmd.ofArgs (bytesOf name :: iter.toList channels)]

def getSubscriptionPipeline (iter : SetOrder) (t : SubscriptionTracker) : Pipeline :=
  { Pipeline.new with
    commands := subscribeAgain iter "SUBSCRIBE" t.subscriptions ++ subscribeAgain iter "SSUBSCRIBE" t.sSubscriptions ++
      subscribeAgain iter "PSUBSCRIBE" t.pSubscriptions }

end SubscriptionTracker

namespace AsyncCluster

variable {C : Type}

def InternalSingleNodeRouting.ofInfo (randomPrimary : Route) : SingleNodeRoutingInfo → InternalSingleNodeRouting C
  | .random => .random
  | .specificNode route => .specificNode route
  | .byAddress host port => .byAddress ⟨host, port⟩
  | .randomPrimary => .specificNode randomPrimary

def InternalRoutingInfo.ofInfo (randomPrimary : Route) : RoutingInfo → InternalRoutingInfo C
  | .singleNode route => .singleNode (.ofInfo randomPrimary route)
  | .multiNode routing policy => .multiNode routing policy

structure ResubscribeEnv where
  iter : SetOrder
  order : RouteOrder
  randomPrimary : Route

variable (env : ResubscribeEnv)

def resubscribeRouting [Crc16] (c : Cmd) : Ends RoutingInfo := do
  return (← RoutingInfo.forRoutable env.order c).getD (.singleNode .random)

def resubscribeAll [Crc16] (tracker : Option SubscriptionTracker) : Ends (List (PendingRequest C)) :=
  match tracker with
  | none => .ok []
  | some t => (t.getSubscriptionPipeline env.iter).commands.mapM fun c => do
    let routing ← resubscribeRouting env c
    return ⟨0, .cmd c (.ofInfo env.randomPrimary routing)⟩

def otherNodesConnected (core : Core C) (reconnectedAddr : NodeAddress) : Bool :=
  core.connections.entries.any fun entry => entry.1 ≠ reconnectedAddr && match entry.2 with
    | .connected _ => true
    | _ => false

def sentToNode (guard : Option (Core C)) (pick : ReadPick) (reconnectedAddr : NodeAddress) : RoutingInfo → Bool
  | .singleNode (.specificNode route) =>
    (guard.bind fun core => core.slots.slotAddrForRoute route pick) = some reconnectedAddr
  | _ => ¬ (guard.any fun core => otherNodesConnected core reconnectedAddr)

def resubscribeNode [Crc16] (tracker : Option SubscriptionTracker) (guard : Option (Core C)) (pick : Cmd → ReadPick)
    (reconnectedAddr : NodeAddress) : Ends (List (PendingRequest C)) :=
  match tracker with
  | none => .ok []
  | some t => do
    let requests ← (t.getSubscriptionPipeline env.iter).commands.mapM fun c => do
      let routing ← resubscribeRouting env c
      return if sentToNode guard (pick c) reconnectedAddr routing then
        some ⟨0, .cmd c (.ofInfo env.randomPrimary routing)⟩ else none
    return requests.filterMap id

def shardChannels (c : Cmd) : List Bytes := if c.words.head? = some (bytesOf "SSUBSCRIBE") then c.words.tail else []

def PendingRequest.shardChannels (request : PendingRequest C) : List Bytes :=
  match request.cmd with
  | .cmd c _ => AsyncCluster.shardChannels c
  | _ => []

/-- The shard channels of the tracker are subscribed to again where they are served. -/
structure ResubscribesShards [Crc16] (C : Type) (t : SubscriptionTracker) : Prop where
  all : ∃ requests : List (PendingRequest C), resubscribeAll env (some t) = .ok requests ∧
    (requests.flatMap PendingRequest.shardChannels).Nodup ∧
    (∀ channel, channel ∈ requests.flatMap PendingRequest.shardChannels ↔ channel ∈ t.sSubscriptions) ∧
    ∀ request ∈ requests, ∀ channel ∈ request.shardChannels, ∃ c slotAddr,
      request.cmd = .cmd c (.singleNode (.specificNode ⟨(Slot.forKey channel).val, slotAddr⟩))
  node : ∀ (core : Core C) (pick : ReadPick) (addr : NodeAddress), ∃ requests : List (PendingRequest C),
    resubscribeNode env (some t) (some core) (fun _ => pick) addr = .ok requests ∧
      (requests.flatMap PendingRequest.shardChannels).Nodup ∧
      ∀ channel, channel ∈ requests.flatMap PendingRequest.shardChannels ↔
        channel ∈ t.sSubscriptions ∧ core.slots.slotAddrForRoute (getRoute true channel) pick = some addr

theorem words_ofArgs (words : List Bytes) : (Cmd.ofArgs words).words = words := by
  rw [Cmd.words, Cmd.argsIter_ofArgs, map_map]
  exact map_id words

section Routing

variable {name : String} (hname : name ∈ ["SUBSCRIBE", "SSUBSCRIBE", "PSUBSCRIBE"])

include hname

theorem forRoutable_subscribe [Crc16] (order : RouteOrder) (first : Bytes)
    (rest : List Bytes) :
    RoutingInfo.forRoutable order (Cmd.ofArgs (bytesOf name :: first :: rest)) =
      .ok (some (.singleNode (.specificNode (getRoute (isReadonlyCmd (bytesOf name)) first)))) := by
  have hall : ∀ name ∈ ["SUBSCRIBE", "SSUBSCRIBE", "PSUBSCRIBE"], bytesOf name ≠ [] ∧
      asciiUppercase (bytesOf name) = bytesOf name ∧ (twoWordCommands.map bytesOf).contains (bytesOf name) = false ∧
      baseRouting (bytesOf name) = .firstKey := by
    decide +kernel
  obtain ⟨hne, hupper, hwords, hroute⟩ := hall name hname
  have hzero : Routable.argIdx (Cmd.ofArgs (bytesOf name :: first :: rest)) 0 = .ok (some (bytesOf name)) :=
    Cmd.argIdx_ofArgs_zero hne
  have hone : Routable.argIdx (Cmd.ofArgs (bytesOf name :: first :: rest)) 1 = .ok (some first) :=
    Cmd.argIdx_ofArgs_one hne
  have hcmd : Routable.command (Cmd.ofArgs (bytesOf name :: first :: rest)) = .ok (some (bytesOf name)) := by
    rw [Routable.command, hzero]
    simp only [bind, Except.bind, hupper, hwords, Bool.false_eq_true, if_false]
    rfl
  rw [RoutingInfo.forRoutable, hcmd]
  simp only [bind, Except.bind, RoutingInfo.forCommand, hroute, hone, RoutingInfo.forKey]
  rfl

end Routing

def requestRoute [Crc16] (c : Cmd) : Route := getRoute (isReadonlyCmd (c.words.headD [])) (c.words.tail.headD [])

section Tracker

variable {t : SubscriptionTracker} {iter : SetOrder}

theorem mem_subscribeAgain {name : String} {s : Finset Bytes} {c : Cmd} :
    c ∈ SubscriptionTracker.subscribeAgain iter name s ↔ s ≠ ∅ ∧ c = Cmd.ofArgs (bytesOf name :: iter.toList s) := by
  unfold SubscriptionTracker.subscribeAgain
  split <;> rename_i hs <;> simp [hs]

theorem mem_pipeline {c : Cmd} (h : c ∈ (t.getSubscriptionPipeline iter).commands) :
    ∃ name ∈ ["SUBSCRIBE", "SSUBSCRIBE", "PSUBSCRIBE"], ∃ first rest, c = Cmd.ofArgs (bytesOf name :: first :: rest) ∧
      (name = "SSUBSCRIBE" → iter.toList t.sSubscriptions = first :: rest) := by
  simp only [SubscriptionTracker.getSubscriptionPipeline, mem_append, mem_subscribeAgain] at h
  rcases h with (⟨hs, rfl⟩ | ⟨hs, rfl⟩) | ⟨hs, rfl⟩ <;> obtain ⟨first, rest, hlist⟩ := iter.exists_cons hs
  · exact ⟨"SUBSCRIBE", by decide, first, rest, by rw [hlist], fun h => absurd h (by decide)⟩
  · exact ⟨"SSUBSCRIBE", by decide, first, rest, by rw [hlist], fun _ => hlist⟩
  · exact ⟨"PSUBSCRIBE", by decide, first, rest, by rw [hlist], fun h => absurd h (by decide)⟩

theorem resubscribeRouting_eq [Crc16] {c : Cmd} (h : c ∈ (t.getSubscriptionPipeline iter).commands) :
    resubscribeRouting env c = .ok (.singleNode (.specificNode (requestRoute c))) := by
  obtain ⟨name, hname, first, rest, rfl, -⟩ := mem_pipeline h
  rw [resubscribeRouting, forRoutable_subscribe hname, requestRoute, words_ofArgs]
  rfl

theorem flatMap_shardChannels :
    (t.getSubscriptionPipeline iter).commands.flatMap shardChannels = iter.toList t.sSubscriptions := by
  have hagain : ∀ name s, (SubscriptionTracker.subscribeAgain iter name s).flatMap shardChannels =
      if bytesOf name = bytesOf "SSUBSCRIBE" then iter.toList s else [] := by
    intro name s
    unfold SubscriptionTracker.subscribeAgain
    split
    · rename_i hs
      rw [hs, iter.toList_empty, ite_self]
      rfl
    · rw [flatMap_singleton, shardChannels, words_ofArgs]
      simp
  have hsub : bytesOf "SUBSCRIBE" ≠ bytesOf "SSUBSCRIBE" := by decide
  have hpsub : bytesOf "PSUBSCRIBE" ≠ bytesOf "SSUBSCRIBE" := by decide
  simp [SubscriptionTracker.getSubscriptionPipeline, hagain, if_neg hsub, if_neg hpsub]

theorem requestRoute_of_mem [Crc16] {c : Cmd} (h : c ∈ (t.getSubscriptionPipeline iter).commands) {channel : Bytes}
    (hchan : channel ∈ shardChannels c) : requestRoute c = getRoute true ((iter.toList t.sSubscriptions).headD []) := by
  obtain ⟨name, hname, first, rest, rfl, hlist⟩ := mem_pipeline h
  have hread : isReadonlyCmd (bytesOf "SSUBSCRIBE") = true := by decide +kernel
  rw [shardChannels, words_ofArgs] at hchan
  split at hchan
  · rename_i hhead
    have hbytes : bytesOf name = bytesOf "SSUBSCRIBE" := Option.some.inj hhead
    have hss : name = "SSUBSCRIBE" := by
      simp only [mem_cons, not_mem_nil, or_false] at hname
      rcases hname with rfl | rfl | rfl
      · exact absurd hbytes (by decide)
      · rfl
      · exact absurd hbytes (by decide)
    rw [hlist hss, requestRoute, words_ofArgs, hss]
    simp [hread]
  · exact absurd hchan not_mem_nil

end Tracker

section Shards

variable {env} {t : SubscriptionTracker}

def requestOf [Crc16] (c : Cmd) : PendingRequest C := ⟨0, .cmd c (.singleNode (.specificNode (requestRoute c)))⟩

theorem resubscribeAll_eq [Crc16] :
    resubscribeAll env (some t) = .ok ((t.getSubscriptionPipeline env.iter).commands.map (requestOf (C := C))) := by
  refine mapM_eq_ok_map fun c hc => ?_
  rw [resubscribeRouting_eq env hc]
  rfl

theorem resubscribeNode_eq [Crc16] (core : Core C) (pick : ReadPick) (addr : NodeAddress) :
    resubscribeNode env (some t) (some core) (fun _ => pick) addr =
      .ok (((t.getSubscriptionPipeline env.iter).commands.filter fun c =>
        core.slots.slotAddrForRoute (requestRoute c) pick = some addr).map requestOf) := by
  have hmap : ((t.getSubscriptionPipeline env.iter).commands.mapM fun c => do
      let routing ← resubscribeRouting env c
      return if sentToNode (some core) pick addr routing then
        some (⟨0, .cmd c (.ofInfo env.randomPrimary routing)⟩ : PendingRequest C) else none) =
      .ok ((t.getSubscriptionPipeline env.iter).commands.map fun c =>
        if core.slots.slotAddrForRoute (requestRoute c) pick = some addr then some (requestOf c) else none) := by
    refine mapM_eq_ok_map fun c hc => ?_
    rw [resubscribeRouting_eq env hc]
    show (Except.ok (if decide (core.slots.slotAddrForRoute (requestRoute c) pick = some addr) = true then _ else _) :
      Ends _) = _
    simp only [decide_eq_true_eq]
    rfl
  rw [resubscribeNode, hmap]
  refine congrArg Except.ok ?_
  rw [filterMap_map, ← filterMap_eq_map, filterMap_filter]
  refine filterMap_congr fun c _ => ?_
  simp

theorem flatMap_shardChannels_map [Crc16] (cmds : List Cmd) :
    (cmds.map (requestOf (C := C))).flatMap PendingRequest.shardChannels = cmds.flatMap shardChannels := by
  rw [flatMap_map]
  rfl

theorem requestRoute_of_oneSlot [Crc16] (hslot : ∀ a ∈ t.sSubscriptions, ∀ b ∈ t.sSubscriptions,
    Slot.forKey a = Slot.forKey b)
    {c : Cmd} (hc : c ∈ (t.getSubscriptionPipeline env.iter).commands) {channel : Bytes}
    (hchan : channel ∈ shardChannels c) : channel ∈ t.sSubscriptions ∧ requestRoute c = getRoute true channel := by
  have hin : channel ∈ (t.getSubscriptionPipeline env.iter).commands.flatMap shardChannels :=
    mem_flatMap.2 ⟨c, hc, hchan⟩
  rw [flatMap_shardChannels] at hin
  obtain ⟨first, rest, hlist⟩ := exists_cons_of_ne_nil (ne_nil_of_mem hin)
  have hfirst : first ∈ t.sSubscriptions := (env.iter.mem_toList _ _).1 (hlist ▸ mem_cons_self)
  have hchannelS := (env.iter.mem_toList _ _).1 hin
  refine ⟨hchannelS, ?_⟩
  rw [requestRoute_of_mem hc hchan, hlist, headD_cons]
  exact getRoute_eq_iff.2 (hslot first hfirst channel hchannelS)

theorem mem_node_requests_iff [Crc16]
    (hslot : ∀ a ∈ t.sSubscriptions, ∀ b ∈ t.sSubscriptions, Slot.forKey a = Slot.forKey b) (core : Core C)
    (pick : ReadPick) (addr : NodeAddress) (channel : Bytes) :
    channel ∈ ((t.getSubscriptionPipeline env.iter).commands.filter fun c =>
        core.slots.slotAddrForRoute (requestRoute c) pick = some addr).flatMap shardChannels ↔
      channel ∈ t.sSubscriptions ∧ core.slots.slotAddrForRoute (getRoute true channel) pick = some addr := by
  rw [mem_flatMap]
  constructor
  · rintro ⟨c, hc, hchan⟩
    obtain ⟨hc, haddr⟩ := mem_filter.1 hc
    obtain ⟨hin, hroute⟩ := requestRoute_of_oneSlot hslot hc hchan
    exact ⟨hin, hroute ▸ of_decide_eq_true haddr⟩
  · rintro ⟨hin, haddr⟩
    have hchans := (env.iter.mem_toList _ channel).2 hin
    rw [← flatMap_shardChannels] at hchans
    obtain ⟨c, hc, hchan⟩ := mem_flatMap.1 hchans
    refine ⟨c, mem_filter.2 ⟨hc, decide_eq_true ?_⟩, hchan⟩
    rw [(requestRoute_of_oneSlot hslot hc hchan).2]
    exact haddr

/-- All shard channels are reached exactly if they are in one slot. -/
theorem resubscribesShards_iff [Crc16] (C : Type) (env : ResubscribeEnv) (t : SubscriptionTracker) :
    ResubscribesShards env C t ↔
      ∀ a ∈ t.sSubscriptions, ∀ b ∈ t.sSubscriptions, Slot.forKey a = Slot.forKey b := by
  constructor
  · rintro ⟨⟨requests, hrequests, -, hmem, hroute⟩, -⟩
    rw [resubscribeAll_eq] at hrequests
    obtain rfl := Except.ok.inj hrequests
    have hfirst : ∀ a ∈ t.sSubscriptions,
        getRoute true a = getRoute true ((env.iter.toList t.sSubscriptions).headD []) := by
      intro a ha
      obtain ⟨request, hrequest, hchannel⟩ := mem_flatMap.1 ((hmem a).2 ha)
      obtain ⟨c, hc, rfl⟩ := mem_map.1 hrequest
      obtain ⟨c', slotAddr, hcmd⟩ := hroute _ hrequest a hchannel
      have hslot : requestRoute c = ⟨(Slot.forKey a).val, slotAddr⟩ := by
        injection hcmd with _ hrouting
        injection hrouting with hrouting
        injection hrouting
      refine getRoute_eq_of_slot ?_
      rw [← requestRoute_of_mem hc hchannel, hslot, getRoute_slot]
    intro a ha b hb
    exact getRoute_eq_iff.1 ((hfirst a ha).trans (hfirst b hb).symm)
  · intro hslot
    constructor
    · refine ⟨_, resubscribeAll_eq, ?_, fun channel => ?_, fun request hrequest channel hchannel => ?_⟩
      · rw [flatMap_shardChannels_map, flatMap_shardChannels]
        exact env.iter.nodup _
      · rw [flatMap_shardChannels_map, flatMap_shardChannels]
        exact env.iter.mem_toList _ _
      · obtain ⟨c, hc, rfl⟩ := mem_map.1 hrequest
        refine ⟨c, .replicaOptional, ?_⟩
        rw [requestOf, (requestRoute_of_oneSlot hslot hc hchannel).2]
        rfl
    · intro core pick addr
      refine ⟨_, resubscribeNode_eq core pick addr, ?_, fun channel => ?_⟩
      · have hsub := (filter_sublist (p := fun c =>
          decide (core.slots.slotAddrForRoute (requestRoute c) pick = some addr))
          (l := (t.getSubscriptionPipeline env.iter).commands)).flatMap shardChannels
        rw [flatMap_shardChannels] at hsub
        rw [flatMap_shardChannels_map]
        exact hsub.nodup (env.iter.nodup _)
      · rw [flatMap_shardChannels_map]
        exact mem_node_requests_iff hslot core pick addr channel

theorem shards_of_two_slots_in_one_request :
    Slot.forKey (bytesOf "a") ≠ Slot.forKey (bytesOf "b") ∧ ∀ env : ResubscribeEnv, ∃ request : PendingRequest Unit,
      resubscribeAll env (some ⟨∅, {bytesOf "a", bytesOf "b"}, ∅⟩) = .ok [request] ∧
        bytesOf "a" ∈ request.shardChannels ∧ bytesOf "b" ∈ request.shardChannels := by
  refine ⟨by decide +kernel, fun env => ?_⟩
  have hcommands : (SubscriptionTracker.getSubscriptionPipeline env.iter ⟨∅, {bytesOf "a", bytesOf "b"}, ∅⟩).commands =
      [Cmd.ofArgs (bytesOf "SSUBSCRIBE" :: env.iter.toList {bytesOf "a", bytesOf "b"})] := by
    simp [SubscriptionTracker.getSubscriptionPipeline, SubscriptionTracker.subscribeAgain]
  have hchannels : (requestOf (C := Unit) (Cmd.ofArgs (bytesOf "SSUBSCRIBE" :: env.iter.toList {bytesOf "a", bytesOf "b"}))
      ).shardChannels = env.iter.toList {bytesOf "a", bytesOf "b"} := by
    show shardChannels _ = _
    rw [shardChannels, words_ofArgs]
    simp
  refine ⟨_, by rw [resubscribeAll_eq, hcommands, map_singleton], ?_, ?_⟩ <;> rw [hchannels, env.iter.mem_toList] <;>
    simp

end Shards

end AsyncCluster

end RedisRs
