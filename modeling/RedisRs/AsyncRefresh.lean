import RedisRs.AsyncCore

/-!
# The refresh of the asynchronous connection
-/

namespace RedisRs

open Function List

namespace AsyncCluster

open AsyncConnectionLike

variable {C : Type} [AsyncConnectionLike C] (env : CoreEnv C)

def ConnState.asked (addr : NodeAddress) : ConnState C → ConnState C
  | connected conn => connected (askSlots conn addr).2
  | reconnecting conn => reconnecting conn
  | connecting => connecting

def ConnState.firstAsk (addr : NodeAddress) : ConnState C → Option (RedisResult (List SlotRange))
  | connected conn => some (askSlots conn addr).1
  | _ => none

def ConnState.repaired (addr : NodeAddress) (n : Nat) (state : ConnState C) : RedisResult C :=
  (getOrCreateConn env addr state.intoConn n).1

def ConnState.secondAsk (addr : NodeAddress) (n : Nat) (state : ConnState C) : RedisResult (List SlotRange) :=
  (state.repaired env addr n).bind fun conn => (askSlots conn addr).1

def ConnState.afterSecond (addr : NodeAddress) (n : Nat) (state : ConnState C) : ConnState C :=
  match state.repaired env addr n with
  | .ok conn => .connected (askSlots conn addr).2
  | .error _ => .connecting

namespace Core

def firstRanges (s : Core C) (addr : NodeAddress) : Option (List SlotRange) :=
  ((s.connections.lookup addr).bind (ConnState.firstAsk addr)).bind Except.toOption

def secondRanges (s : Core C) (addr : NodeAddress) : Option (List SlotRange) :=
  (s.connections.lookup addr).bind fun state => (state.secondAsk env addr (s.attempts addr)).toOption

/-- The slot map is as it was, and so is everything of a node that is not in the list. -/
structure Untouched (addrs : List NodeAddress) (s s' : Core C) : Prop where
  slots : s'.slots = s.slots
  lookup : ∀ a, a ∉ addrs → s'.connections.lookup a = s.connections.lookup a
  attempts : ∀ a, a ∉ addrs → s'.attempts a = s.attempts a

theorem querySlots_eq (conn : C) (addr : NodeAddress) (slots : SlotMap) :
    querySlots conn addr slots = ((askSlots conn addr).1.map fun _ => (), (askSlots conn addr).2,
      ((askSlots conn addr).1.toOption.map SlotMap.fromSlots).getD slots) := by
  unfold querySlots
  rcases askSlots conn addr with ⟨e | ranges, conn'⟩
  · rfl
  · rfl

namespace Untouched

variable {addrs addrs' : List NodeAddress} {s s' s'' : Core C}

omit [AsyncConnectionLike C] in
theorem refl (addrs : List NodeAddress) (s : Core C) : Untouched addrs s s := ⟨rfl, fun _ _ => rfl, fun _ _ => rfl⟩

omit [AsyncConnectionLike C] in
theorem cons {addr : NodeAddress} (h : Untouched [addr] s s') (h' : Untouched addrs s' s'') :
    Untouched (addr :: addrs) s s'' := by
  have hsplit : ∀ a, a ∉ addr :: addrs → a ∉ [addr] ∧ a ∉ addrs := fun a ha =>
    ⟨fun hm => ha (mem_cons.2 (.inl (mem_singleton.1 hm))), fun hm => ha (mem_cons_of_mem _ hm)⟩
  exact ⟨h'.slots.trans h.slots, fun a ha => (h'.lookup a (hsplit a ha).2).trans (h.lookup a (hsplit a ha).1),
    fun a ha => (h'.attempts a (hsplit a ha).2).trans (h.attempts a (hsplit a ha).1)⟩

omit [AsyncConnectionLike C] in
theorem insert (s : Core C) (addr : NodeAddress) (state : ConnState C) :
    Untouched [addr] s { s with connections := s.connections.insert addr state } :=
  ⟨rfl, fun _ ha => AList.lookup_insert_ne fun h => ha (mem_singleton.2 h), fun _ _ => rfl⟩

end Untouched

variable {addr a : NodeAddress} {addrs : List NodeAddress} {s : Core C} {ranges : List SlotRange}

/-- A pass goes on past a node that gives no ranges and ends at one that does; all it knows of a node is its state and
the count of the attempts to connect to it. -/
structure IsPass (pass : List NodeAddress → Option RedisError → Core C → (Bool × Option RedisError) × Core C)
    (ask : Core C → NodeAddress → Option (List SlotRange)) (after : NodeAddress → Nat → ConnState C → ConnState C) :
    Prop where
  done : ∀ lastErr s, pass [] lastErr s = ((false, lastErr), s)
  skip : ∀ {s addr}, ask s addr = none → ∀ addrs lastErr, ∃ e s', pass (addr :: addrs) lastErr s = pass addrs e s' ∧
    Untouched [addr] s s' ∧ s'.connections.lookup addr = (s.connections.lookup addr).map (after addr (s.attempts addr))
  hit : ∀ {s addr ranges}, ask s addr = some ranges → ∀ addrs lastErr,
    ∃ s', pass (addr :: addrs) lastErr s = ((true, lastErr), s') ∧ s'.slots = .fromSlots ranges
  asks : ∀ {s s' : Core C} {a}, s'.connections.lookup a = s.connections.lookup a → s'.attempts a = s.attempts a →
    ask s' a = ask s a

namespace IsPass

variable {pass : List NodeAddress → Option RedisError → Core C → (Bool × Option RedisError) × Core C}
  {ask : Core C → NodeAddress → Option (List SlotRange)} {after : NodeAddress → Nat → ConnState C → ConnState C}

omit [AsyncConnectionLike C] in
theorem skips (hp : IsPass pass ask after) (rest : List NodeAddress) (hnd : addrs.Nodup)
    (lastErr : Option RedisError) (h : ∀ a ∈ addrs, ask s a = none) :
    ∃ e s', pass (addrs ++ rest) lastErr s = pass rest e s' ∧ Untouched addrs s s' ∧
      ∀ a ∈ addrs, s'.connections.lookup a = (s.connections.lookup a).map (after a (s.attempts a)) := by
  induction addrs generalizing s lastErr with
  | nil => exact ⟨lastErr, s, rfl, .refl _ s, fun _ ha => absurd ha not_mem_nil⟩
  | cons addr addrs ih =>
    rw [nodup_cons] at hnd
    obtain ⟨e₁, s₁, hstep, hun₁, hlook₁⟩ := hp.skip (h addr mem_cons_self) (addrs ++ rest) lastErr
    have hother : ∀ a ∈ addrs, s₁.connections.lookup a = s.connections.lookup a ∧ s₁.attempts a = s.attempts a := by
      intro a ha
      have hne : a ∉ [addr] := fun hm => hnd.1 (mem_singleton.1 hm ▸ ha)
      exact ⟨hun₁.lookup a hne, hun₁.attempts a hne⟩
    obtain ⟨e₂, s₂, hrun, hun₂, hlook₂⟩ := ih hnd.2 (s := s₁) e₁ fun a ha =>
      (hp.asks (hother a ha).1 (hother a ha).2).trans (h a (mem_cons_of_mem _ ha))
    refine ⟨e₂, s₂, hstep.trans hrun, hun₁.cons hun₂, fun a ha => ?_⟩
    rcases mem_cons.1 ha with rfl | ha
    · exact (hun₂.lookup a hnd.1).trans hlook₁
    · rw [hlook₂ a ha, (hother a ha).1, (hother a ha).2]

omit [AsyncConnectionLike C] in
theorem fails (hp : IsPass pass ask after) (hnd : addrs.Nodup) (lastErr : Option RedisError)
    (hall : ∀ a, a ∉ addrs → s.connections.lookup a = none) (h : addrs.findSome? (ask s) = none) :
    ∃ e s', pass addrs lastErr s = ((false, e), s') ∧ s'.slots = s.slots ∧
      ∀ a, s'.connections.lookup a = (s.connections.lookup a).map (after a (s.attempts a)) := by
  obtain ⟨e, s', hrun, hun, hlook⟩ := hp.skips [] hnd lastErr (findSome?_eq_none_iff.1 h)
  rw [append_nil, hp.done] at hrun
  refine ⟨e, s', hrun, hun.slots, fun a => ?_⟩
  by_cases ha : a ∈ addrs
  · exact hlook a ha
  · rw [hun.lookup a ha, hall a ha]
    rfl

omit [AsyncConnectionLike C] in
theorem finds (hp : IsPass pass ask after) (hnd : addrs.Nodup) (lastErr : Option RedisError)
    (h : addrs.findSome? (ask s) = some ranges) :
    ∃ e s', pass addrs lastErr s = ((true, e), s') ∧ s'.slots = .fromSlots ranges := by
  obtain ⟨before, a, rest, rfl, ha, hbef⟩ := findSome?_eq_some_iff.1 h
  obtain ⟨hnd, -, hdisj⟩ := nodup_append'.1 hnd
  obtain ⟨e, s₁, hrun, hun, -⟩ := hp.skips (a :: rest) hnd lastErr hbef
  have hnot : a ∉ before := fun hm => hdisj hm mem_cons_self
  obtain ⟨s₂, hhit, hslots⟩ := hp.hit ((hp.asks (hun.lookup a hnot) (hun.attempts a hnot)).trans ha) rest e
  exact ⟨e, s₂, hrun.trans hhit, hslots⟩

end IsPass

theorem firstPass_skip (addrs : List NodeAddress) (lastErr : Option RedisError) (h : s.firstRanges addr = none) :
    ∃ e s', firstPass (addr :: addrs) lastErr s = firstPass addrs e s' ∧ Untouched [addr] s s' ∧
      s'.connections.lookup addr = (s.connections.lookup addr).map (ConnState.asked addr) := by
  rw [firstPass]
  rcases hlook : s.connections.lookup addr with _ | conn | conn | _
  · exact ⟨lastErr, s, rfl, .refl _ s, hlook⟩
  · simp only [firstRanges, hlook, Option.bind_some, ConnState.firstAsk] at h
    rcases hask : askSlots conn addr with ⟨e | ranges, conn'⟩
    · refine ⟨some e, { s with connections := s.connections.insert addr (.connected conn') }, ?_, .insert s addr _, ?_⟩
      · simp only [querySlots_eq, hask]
        rfl
      · simp [ConnState.asked, hask]
    · rw [hask] at h
      cases h
  · exact ⟨lastErr, s, rfl, .refl _ s, hlook⟩
  · exact ⟨lastErr, s, rfl, .refl _ s, hlook⟩

theorem firstPass_hit (addrs : List NodeAddress) (lastErr : Option RedisError) (h : s.firstRanges addr = some ranges) :
    ∃ s', firstPass (addr :: addrs) lastErr s = ((true, lastErr), s') ∧ s'.slots = .fromSlots ranges := by
  rw [firstPass]
  rcases hlook : s.connections.lookup addr with _ | conn | conn | _
  · simp only [firstRanges, hlook] at h
    cases h
  · simp only [firstRanges, hlook, Option.bind_some, ConnState.firstAsk] at h
    rcases hask : askSlots conn addr with ⟨e | ranges', conn'⟩
    · rw [hask] at h
      cases h
    · rw [hask] at h
      simp only [querySlots_eq, hask]
      exact ⟨_, rfl, congrArg SlotMap.fromSlots (Option.some.inj h)⟩
  · simp only [firstRanges, hlook] at h
    cases h
  · simp only [firstRanges, hlook] at h
    cases h

theorem isPass_firstPass : IsPass (C := C) firstPass firstRanges fun a _ => ConnState.asked a where
  done _ _ := rfl
  skip h addrs lastErr := firstPass_skip addrs lastErr h
  hit h addrs lastErr := firstPass_hit addrs lastErr h
  asks hlook _ := by rw [firstRanges, firstRanges, hlook]

theorem firstPass_attempts (addrs : List NodeAddress) (lastErr : Option RedisError) (s : Core C) :
    (firstPass addrs lastErr s).2.attempts = s.attempts := by
  induction addrs generalizing lastErr s with
  | nil => rfl
  | cons addr addrs ih =>
    rw [firstPass]
    rcases s.connections.lookup addr with _ | conn | conn | _
    · exact ih _ _
    · dsimp only
      rcases querySlots conn addr s.slots with ⟨_ | _, conn', slots⟩
      · exact ih _ _
      · rfl
    · exact ih _ _
    · exact ih _ _

theorem secondPass_skip (addrs : List NodeAddress) (lastErr : Option RedisError) (h : s.secondRanges env addr = none) :
    ∃ e s', secondPass env (addr :: addrs) lastErr s = secondPass env addrs e s' ∧ Untouched [addr] s s' ∧
      s'.connections.lookup addr =
        (s.connections.lookup addr).map (ConnState.afterSecond env addr (s.attempts addr)) := by
  have hatt : ∀ (n a : _), a ∉ [addr] → update s.attempts addr n a = s.attempts a :=
    fun n a ha => update_of_ne (fun h => ha (mem_singleton.2 h)) _ _
  have hins : ∀ (state : ConnState C) a, a ∉ [addr] →
      (s.connections.insert addr state).lookup a = s.connections.lookup a :=
    fun state a ha => AList.lookup_insert_ne fun h => ha (mem_singleton.2 h)
  rw [secondPass]
  rcases hlook : s.connections.lookup addr with _ | state
  · exact ⟨lastErr, s, rfl, .refl _ s, hlook⟩
  · simp only [secondRanges, hlook, Option.bind_some, ConnState.secondAsk, ConnState.repaired] at h
    simp only [Option.map_some, ConnState.afterSecond, ConnState.repaired]
    rcases hconn : getOrCreateConn env addr state.intoConn (s.attempts addr) with ⟨e | conn, n⟩
    · refine ⟨some e, { s with
        connections := s.connections.insert addr .connecting
        attempts := update s.attempts addr n }, rfl, ⟨rfl, hins _, hatt n⟩, ?_⟩
      simp
    · simp only [hconn, Except.bind] at h
      rcases hask : askSlots conn addr with ⟨e | ranges, conn'⟩
      · simp only [querySlots_eq, hask]
        refine ⟨some e, { s with
          connections := (s.connections.insert addr .connecting).insert addr (.connected conn')
          attempts := update s.attempts addr n }, rfl, ⟨rfl, fun a ha => ?_, hatt n⟩, ?_⟩
        · exact (AList.lookup_insert_ne fun h => ha (mem_singleton.2 h)).trans (hins _ a ha)
        · simp
      · rw [hask] at h
        cases h

theorem secondPass_hit (addrs : List NodeAddress) (lastErr : Option RedisError)
    (h : s.secondRanges env addr = some ranges) :
    ∃ s', secondPass env (addr :: addrs) lastErr s = ((true, lastErr), s') ∧ s'.slots = .fromSlots ranges := by
  rw [secondPass]
  rcases hlook : s.connections.lookup addr with _ | state
  · simp only [secondRanges, hlook] at h
    cases h
  · simp only [secondRanges, hlook, Option.bind_some, ConnState.secondAsk, ConnState.repaired] at h
    rcases hconn : getOrCreateConn env addr state.intoConn (s.attempts addr) with ⟨e | conn, n⟩
    · rw [hconn] at h
      cases h
    · simp only [hconn, Except.bind] at h
      rcases hask : askSlots conn addr with ⟨e | ranges', conn'⟩
      · rw [hask] at h
        cases h
      · rw [hask] at h
        refine ⟨{ s with
          connections := (s.connections.insert addr .connecting).insert addr (.connected conn')
          slots := .fromSlots ranges'
          attempts := update s.attempts addr n }, ?_, congrArg SlotMap.fromSlots (Option.some.inj h)⟩
        simp only [hconn, querySlots_eq, hask]
        rfl

theorem isPass_secondPass : IsPass (secondPass env) (secondRanges env) (ConnState.afterSecond env) where
  done _ _ := rfl
  skip h addrs lastErr := secondPass_skip env addrs lastErr h
  hit h addrs lastErr := secondPass_hit env addrs lastErr h
  asks hlook hatt := by rw [secondRanges, secondRanges, hlook, hatt]

def retryRanges (s : Core C) (addr : NodeAddress) : Option (List SlotRange) :=
  (s.connections.lookup addr).bind fun state => ((state.asked addr).secondAsk env addr (s.attempts addr)).toOption

def slotsOrder (s : Core C) : List NodeAddress := env.order s.tick s.connections.keys

omit [AsyncConnectionLike C] in
theorem nodup_slotsOrder (s : Core C) : (slotsOrder env s).Nodup :=
  (env.order_perm _ _).nodup_iff.2 s.connections.keys_nodup

omit [AsyncConnectionLike C] in
theorem lookup_eq_none_of_not_mem (h : a ∉ slotsOrder env s) : s.connections.lookup a = none := by
  rw [slotsOrder, (env.order_perm _ _).mem_iff] at h
  exact AList.lookup_eq_none.2 h

def foundRanges (s : Core C) : Option (List SlotRange) :=
  ((slotsOrder env s).findSome? s.firstRanges).or ((slotsOrder env s).findSome? (s.retryRanges env))

theorem firstPass_none (h : (slotsOrder env s).findSome? s.firstRanges = none) :
    ∃ e s', firstPass (slotsOrder env s) none { s with tick := s.tick + 1 } = ((false, e), s') ∧ s'.slots = s.slots ∧
      s.retryRanges env = s'.secondRanges env ∧ s'.attempts = s.attempts ∧
      ∀ a, s'.connections.lookup a = (s.connections.lookup a).map (ConnState.asked a) := by
  obtain ⟨e, s', hrun, hslots, hlook⟩ := isPass_firstPass.fails (s := { s with tick := s.tick + 1 })
    (nodup_slotsOrder env s) none (fun a => lookup_eq_none_of_not_mem env) h
  have hatt : s'.attempts = s.attempts := by
    rw [← firstPass_attempts (slotsOrder env s) none { s with tick := s.tick + 1 }, hrun]
  refine ⟨e, s', hrun, hslots, funext fun a => ?_, hatt, hlook⟩
  rw [secondRanges, retryRanges, hlook, hatt, Option.bind_map]
  rfl

theorem findSlots_of_some (h : foundRanges env s = some ranges) :
    ∃ e s', findSlots env s = ((true, e), s') ∧ s'.slots = .fromSlots ranges := by
  rw [findSlots, ← slotsOrder]
  rcases Option.or_eq_some_iff.1 h with hfirst | ⟨hfirst, hretry⟩
  · obtain ⟨e, s₁, hrun, hslots⟩ := isPass_firstPass.finds (s := { s with tick := s.tick + 1 })
      (nodup_slotsOrder env s) none hfirst
    exact ⟨e, s₁, by rw [hrun], hslots⟩
  · obtain ⟨e, s₁, hrun, -, hsecond, -⟩ := firstPass_none env hfirst
    obtain ⟨e₂, s₂, hrun₂, hslots⟩ := (isPass_secondPass env).finds (s := s₁) (nodup_slotsOrder env s) e
      (hsecond ▸ hretry)
    exact ⟨e₂, s₂, by rw [hrun]; exact hrun₂, hslots⟩

theorem findSlots_of_none (h : foundRanges env s = none) :
    ∃ e s', findSlots env s = ((false, e), s') ∧ s'.slots = s.slots ∧
      ∀ a, s'.connections.lookup a =
        (s.connections.lookup a).map fun state => (state.asked a).afterSecond env a (s.attempts a) := by
  obtain ⟨hfirst, hretry⟩ := Option.or_eq_none_iff.1 h
  obtain ⟨e, s₁, hrun, hslots₁, hsecond, hatt, hlook₁⟩ := firstPass_none env hfirst
  have hall : ∀ a, a ∉ slotsOrder env s → s₁.connections.lookup a = none := fun a ha => by
    rw [hlook₁, lookup_eq_none_of_not_mem env ha]
    rfl
  obtain ⟨e₂, s₂, hrun₂, hslots₂, hlook₂⟩ := (isPass_secondPass env).fails (nodup_slotsOrder env s) e hall
    (hsecond ▸ hretry)
  refine ⟨e₂, s₂, ?_, hslots₂.trans hslots₁, fun a => ?_⟩
  · rw [findSlots, ← slotsOrder, hrun]
    exact hrun₂
  · rw [hlook₂, hlook₁, hatt, Option.map_map]
    rfl

theorem refreshConnectionsLocked_slots (nodes : List NodeAddress) (s : Core C) :
    (refreshConnectionsLocked env nodes s).slots = s.slots := by
  have hstep : ∀ (s : Core C) node, (refreshConnection env s node).slots = s.slots := by
    intro s node
    unfold refreshConnection
    rcases getOrCreateConn env node.1 node.2 (s.attempts node.1) with ⟨e | conn, n⟩
    · rfl
    · rfl
  have hrun : ∀ (taken : List (NodeAddress × Option C)) (s : Core C),
      (taken.foldl (refreshConnection env) s).slots = s.slots := by
    intro taken
    induction taken with
    | nil => exact fun _ => rfl
    | cons node taken ih => exact fun s => (ih _).trans (hstep s node)
  exact hrun _ _

theorem refreshSlots_of_some (h : foundRanges env s = some ranges) :
    (refreshSlots env s).1 = .ok () ∧ (refreshSlots env s).2.slots = .fromSlots ranges := by
  obtain ⟨e, s₁, hfind, hslots⟩ := findSlots_of_some env h
  rw [refreshSlots, hfind]
  exact ⟨rfl, (refreshConnectionsLocked_slots env _ _).trans hslots⟩

theorem refreshSlots_of_none (h : foundRanges env s = none) :
    (∃ e, (refreshSlots env s).1 = .error e) ∧ (refreshSlots env s).2.slots = s.slots ∧
      ∀ a, (refreshSlots env s).2.connections.lookup a =
        (s.connections.lookup a).map fun state => (state.asked a).afterSecond env a (s.attempts a) := by
  obtain ⟨e, s₁, hfind, hslots, hlook⟩ := findSlots_of_none env h
  rw [refreshSlots, hfind]
  exact ⟨⟨_, rfl⟩, hslots, hlook⟩

/-- A node answers with at least one range, when it is asked first or after its connection was repaired. -/
def Gives (s : Core C) (a : NodeAddress) (ranges : List SlotRange) : Prop :=
  (s.firstRanges a = some ranges ∨ s.retryRanges env a = some ranges) ∧ ranges ≠ []

/-- There is a connection to the node, whatever its state. -/
def HasConn (s : Core C) (a : NodeAddress) : Prop :=
  ∃ conn, (s.connections.lookup a).bind ConnState.intoConn = some conn

/-- A refresh succeeds only with the ranges of some node, and otherwise leaves the slot map and the connections. -/
structure KeepsTopology (s : Core C) : Prop where
  installed : (refreshSlots env s).1 = .ok () →
    (refreshSlots env s).2.slots.Nonempty ∧
    ∃ a ranges, Gives env s a ranges ∧ (refreshSlots env s).2.slots = .fromSlots ranges
  kept : (¬ ∃ a ranges, Gives env s a ranges) → (∃ e, (refreshSlots env s).1 = .error e) ∧
    (refreshSlots env s).2.slots = s.slots ∧ ∀ a, HasConn s a → HasConn (refreshSlots env s).2 a

/-- The first reply that is no error has ranges; without one every connection is good or can be repaired. -/
structure Recoverable (s : Core C) : Prop where
  ranges : foundRanges env s ≠ some []
  repaired : foundRanges env s = none → ∀ a state, s.connections.lookup a = some state →
    state.intoConn ≠ none → ((state.asked a).repaired env a (s.attempts a)).isOk

theorem gives_of_found (h : foundRanges env s = some ranges) (hne : ranges ≠ []) : ∃ a, Gives env s a ranges := by
  rcases Option.or_eq_some_iff.1 h with h | ⟨-, h⟩
  · obtain ⟨a, -, ha⟩ := exists_of_findSome?_eq_some h
    exact ⟨a, .inl ha, hne⟩
  · obtain ⟨a, -, ha⟩ := exists_of_findSome?_eq_some h
    exact ⟨a, .inr ha, hne⟩

theorem not_gives_of_none (h : foundRanges env s = none) : ¬ ∃ a ranges, Gives env s a ranges := by
  obtain ⟨hfirst, hretry⟩ := Option.or_eq_none_iff.1 h
  rintro ⟨a, ranges, hgives, -⟩
  by_cases ha : a ∈ slotsOrder env s
  · rw [findSome?_eq_none_iff.1 hfirst a ha, findSome?_eq_none_iff.1 hretry a ha] at hgives
    exact hgives.elim nofun nofun
  · rw [firstRanges, retryRanges, lookup_eq_none_of_not_mem env ha] at hgives
    exact hgives.elim nofun nofun

theorem intoConn_afterSecond (a : NodeAddress) (n : Nat) (state : ConnState C) :
    (∃ conn, (state.afterSecond env a n).intoConn = some conn) ↔ (state.repaired env a n).isOk := by
  unfold ConnState.afterSecond
  rcases state.repaired env a n with e | conn
  · exact ⟨fun ⟨_, h⟩ => (by cases h), nofun⟩
  · exact ⟨fun _ => rfl, fun _ => ⟨_, rfl⟩⟩

/-- A refresh keeps the last good topology exactly if the first reply that is no error has ranges, or there is none
and no connection is beyond repair. -/
theorem keeps_topology_iff (s : Core C) : KeepsTopology env s ↔ Recoverable env s := by
  rcases hfound : foundRanges env s with _ | ranges
  · obtain ⟨⟨e, herr⟩, hslots, hlook⟩ := refreshSlots_of_none env hfound
    have hafter : ∀ a state, s.connections.lookup a = some state →
        (HasConn (refreshSlots env s).2 a ↔ ((state.asked a).repaired env a (s.attempts a)).isOk) := by
      intro a state ha
      rw [← intoConn_afterSecond, HasConn, hlook, ha]
      rfl
    constructor
    · intro hkeeps
      refine ⟨fun h => (by rw [hfound] at h; cases h), fun _ a state ha hconn => ?_⟩
      obtain ⟨conn, hconn⟩ := Option.ne_none_iff_exists'.1 hconn
      have hhas : HasConn s a := ⟨conn, by rw [ha]; exact hconn⟩
      exact (hafter a state ha).1 ((hkeeps.kept (not_gives_of_none env hfound)).2.2 a hhas)
    · intro hrec
      refine ⟨fun hok => (by rw [herr] at hok; cases hok), fun _ => ⟨⟨e, herr⟩, hslots, fun a ⟨conn, hconn⟩ => ?_⟩⟩
      obtain ⟨state, ha, hstate⟩ := Option.bind_eq_some_iff.1 hconn
      exact (hafter a state ha).2 (hrec.repaired hfound a state ha (by rw [hstate]; exact Option.some_ne_none _))
  · obtain ⟨hok, hslots⟩ := refreshSlots_of_some env hfound
    constructor
    · intro hkeeps
      refine ⟨fun h => ?_, fun h => (by rw [hfound] at h; cases h)⟩
      have hnonempty := (hkeeps.installed hok).1
      rw [hslots, SlotMap.nonempty_fromSlots_iff] at hnonempty
      exact hnonempty (Option.some.inj (hfound.symm.trans h))
    · intro hrec
      have hne : ranges ≠ [] := fun hnil => hrec.ranges (hfound.trans (congrArg some hnil))
      obtain ⟨a, hgives⟩ := gives_of_found env hfound hne
      refine ⟨fun _ => ⟨?_, a, ranges, hgives, hslots⟩, fun hnone => absurd ⟨a, ranges, hgives⟩ hnone⟩
      rw [hslots]
      exact SlotMap.nonempty_fromSlots hne

structure Steady where
  answer : RedisResult Value

instance : AsyncConnectionLike Steady where
  reqPackedCommand _ conn := (conn.answer, conn)

def refusedEnv : CoreEnv Steady where
  readRouting := false
  retryParams := {}
  connect _ _ := .error closedConnectionError
  random _ := 0
  strategy := none
  order _ nodes := nodes
  order_perm _ nodes := .refl nodes
  keyOrder _ keys := keys
  keyOrder_perm _ keys := .refl keys

def oneNode (answer : RedisResult Value) : Core Steady where
  connections := (∅ : ConnectionMap Steady).insert ⟨"a", 7000⟩ (.connected ⟨answer⟩)
  slots := .fromSlots [⟨0, 16383, ⟨"a", 7000⟩, []⟩]
  attempts _ := 0
  tick := 0

theorem empty_reply_or_refused_connection_loses_topology :
    ¬ KeepsTopology refusedEnv (oneNode (.ok (.array []))) ∧
    ¬ KeepsTopology refusedEnv (oneNode (.error closedConnectionError)) := by
  constructor
  · intro hkeeps
    exact (hkeeps.installed rfl).1 rfl
  · intro hkeeps
    have hnone : foundRanges refusedEnv (oneNode (.error closedConnectionError)) = none := rfl
    obtain ⟨conn, hconn⟩ := (hkeeps.kept (not_gives_of_none refusedEnv hnone)).2.2 ⟨"a", 7000⟩ ⟨_, rfl⟩
    cases hconn

end Core

end AsyncCluster

end RedisRs
