import RedisRs.ClusterFrame

/-!
# What every request keeps
-/

namespace RedisRs.Cluster

open ConnectionLike Connect

variable {C : Type} {α : Type}

/-- The cells are borrowed as `c` and `l`, all connections have `P`, and at least `n` refreshes were made. -/
structure Held (P : Link C → Prop) (c l : Borrow) (n : Nat) (s : ClusterConnection C) : Prop where
  connections : s.connections.borrow = c
  slots : s.slots.borrow = l
  links : ∀ addr link, s.connections.value.lookup addr = some link → P link
  refreshes : n ≤ s.refreshes

namespace Held

variable {P : Link C → Prop} {c l : Borrow} {n : Nat} {s : ClusterConnection C}

theorem insert (h : Held P c l n s) {addr : NodeAddress} {link : Link C} (hlink : P link) :
    Held P c l n { s with connections.value := s.connections.value.insert addr link } where
  connections := h.connections
  slots := h.slots
  links addr' link' hl := by
    rcases lookup_insert_cases hl with ⟨-, rfl⟩ | ⟨-, hl⟩
    · exact hlink
    · exact h.links addr' link' hl
  refreshes := h.refreshes

theorem erase (h : Held P c l n s) (addr : NodeAddress) :
    Held P c l n { s with connections.value := s.connections.value.erase addr } where
  connections := h.connections
  slots := h.slots
  links addr' link' hl := by
    rcases eq_or_ne addr' addr with rfl | hne
    · rw [AList.lookup_erase] at hl
      cases hl
    · rw [AList.lookup_erase_ne hne] at hl
      exact h.links addr' link' hl
  refreshes := h.refreshes

theorem collect (h : Held P c l n s) {entries : List (NodeAddress × Link C)} (hents : ∀ e ∈ entries, P e.2) :
    Held P c l n { s with connections.value := entries.foldl (fun m entry => m.insert entry.1 entry.2) ∅ } := by
  suffices hfold : ∀ m : Connections C, (∀ addr link, m.lookup addr = some link → P link) →
      ∀ addr link, (entries.foldl (fun m entry => m.insert entry.1 entry.2) m).lookup addr = some link → P link by
    refine ⟨h.connections, h.slots, hfold ∅ ?_, h.refreshes⟩
    intro addr link hl
    rw [AList.lookup_empty] at hl
    cases hl
  induction entries with
  | nil => exact fun m hm => hm
  | cons entry entries ih =>
    intro m hm
    refine ih (fun e he => hents e (List.mem_cons_of_mem _ he)) (m.insert entry.1 entry.2) ?_
    intro addr link hl
    rcases lookup_insert_cases hl with ⟨-, rfl⟩ | ⟨-, hl⟩
    · exact hents entry List.mem_cons_self
    · exact hm addr link hl

end Held

abbrev KeepsHeld (P : Link C → Prop) (c l : Borrow) (n : Nat) (E : Abort → Prop) (m : ClusterM C α) : Prop :=
  Prog.Keeps (Held P c l n) E (fun _ => True) m

namespace ClusterConnection

section Rules

variable {P : Link C → Prop} {c l : Borrow} {n : Nat} {E : Abort → Prop} {Q : α → Prop}

theorem record_keeps (event : ClusterEvent) : KeepsHeld P c l n E (record event : ClusterM C Unit) :=
  .modify fun _ hs => ⟨hs.connections, hs.slots, hs.links, hs.refreshes⟩

theorem ends_keeps (hE : ∀ p, E (.panicked p)) (r : Ends α) : KeepsHeld P c l n E (ends r : ClusterM C α) := by
  refine .ofExcept ?_
  rcases r with p | a
  · exact hE p
  · trivial

theorem holdConnections_keeps {body : ClusterM C α} (h : Prog.Keeps (Held P .mutable l n) E Q body) :
    Prog.Keeps (Held P .free l n) E Q (holdConnections body) := by
  refine .of_run fun s hs => ?_
  have hheld : Held P .mutable l n { s with connections.borrow := .mutable } := ⟨rfl, hs.slots, hs.links, hs.refreshes⟩
  have hbody := h.inv _ hheld
  rw [holdConnections_of_free hs.connections]
  exact ⟨⟨rfl, hbody.slots, hbody.links, hbody.refreshes⟩, h.ends hheld⟩

theorem holdSlots_keeps (hl : l = .free ∨ E .alreadyBorrowed) {body : ClusterM C α}
    (h : Prog.Keeps (Held P c .mutable n) E Q body) : Prog.Keeps (Held P c l n) E Q (holdSlots body) := by
  refine .of_run fun s hs => ?_
  have hheld : Held P c .mutable n { s with slots.borrow := .mutable } := ⟨hs.connections, rfl, hs.links, hs.refreshes⟩
  have hbody := h.inv _ hheld
  unfold holdSlots
  split_ifs with hfree
  · exact ⟨⟨hbody.connections, hfree.symm.trans hs.slots, hbody.links, hbody.refreshes⟩, h.ends hheld⟩
  · exact ⟨hs, hl.resolve_left fun hl => hfree (hs.slots.trans hl)⟩

theorem shareSlots_keeps (hl : l = .free ∨ E .alreadyBorrowed) {body : SlotMap → ClusterM C α}
    (h : ∀ slots k, Prog.Keeps (Held P c (.shared k) n) E Q (body slots)) :
    Prog.Keeps (Held P c l n) E Q (shareSlots body) := by
  refine .of_run fun s hs => ?_
  -- the body runs while the slot map is borrowed `k` times
  have hshared : ∀ k, Held P c l n { (body s.slots.value { s with slots.borrow := .shared k }).2 with slots.borrow := l } ∧
      Prog.EndsIn E Q (body s.slots.value { s with slots.borrow := .shared k }).1 := fun k => by
    have hheld : Held P c (.shared k) n { s with slots.borrow := .shared k } :=
      ⟨hs.connections, rfl, hs.links, hs.refreshes⟩
    have hbody := (h s.slots.value k).inv _ hheld
    exact ⟨⟨hbody.connections, rfl, hbody.links, hbody.refreshes⟩, (h s.slots.value k).ends hheld⟩
  rcases hb : s.slots.borrow with _ | k | _ <;> simp only [shareSlots, hb] <;> obtain rfl := hb.symm.trans hs.slots
  · exact hshared 1
  · exact hshared (k + 1)
  · exact ⟨hs, hl.resolve_left nofun⟩

theorem connInv_held (hP : LinkInv P) : ConnInv P (Held P c l n) where
  toLinkInv := hP
  links _ hs := hs.links
  attempts _ _ hs := ⟨hs.connections, hs.slots, hs.links, hs.refreshes⟩
  tick _ _ hs := ⟨hs.connections, hs.slots, hs.links, hs.refreshes⟩
  insert _ _ _ hlink hs := hs.insert hlink
  erase _ addr hs := hs.erase addr
  collect _ _ hents hs := hs.collect hents

theorem cellInv_held (hP : LinkInv P) : CellInv E P fun c l => Held P c l n where
  conn _ _ := connInv_held hP
  slots _ _ _ _ hs := ⟨hs.connections, hs.slots, hs.links, hs.refreshes⟩
  refreshes _ _ _ hs := ⟨hs.connections, hs.slots, hs.links, Nat.le_succ_of_le hs.refreshes⟩
  holdConnections := holdConnections_keeps
  holdSlots hl hbody := holdSlots_keeps hl hbody

end Rules

variable [Connect C] (env : ClusterEnv C)

section Functions

variable {P : Link C → Prop} {c l : Borrow} {n : Nat} {E : Abort → Prop} (hP : LinkInv P)
include hP

omit [Connect C] in
theorem readPick_keeps : KeepsHeld P c l n E (readPick env) :=
  .bind (choice_keeps (connInv_held hP)) fun _ _ => .pure trivial

omit [Connect C] in
theorem getRandomConnectionOrError_keeps :
    Prog.Keeps (Held P c l n) E (fun r => OfLink P r.2) (getRandomConnectionOrError env) := by
  refine .bind (choice_keeps (connInv_held hP)) fun k _ => .bind .get fun s hs => ?_
  rcases hent : s.connections.value.entries[env.random k % s.connections.value.entries.length]? with _ | entry
  · simp only [hent]
    exact .pure (.error _)
  · have hmem : entry ∈ s.connections.value.entries := List.mem_of_getElem? hent
    have hlook : s.connections.value.lookup entry.1 = some entry.2 :=
      AList.mem_lookup_iff.2 hmem
    simp only [hent]
    exact .pure (.ok (hs.links entry.1 entry.2 hlook))

theorem getConnection_keeps (hl : l = .free ∨ E .alreadyBorrowed) (route : Route) :
    Prog.Keeps (Held P c l n) E (fun r => OfLink P r.2) (getConnection env route) := by
  refine shareSlots_keeps hl fun slots k => .bind (readPick_keeps env hP) fun pick _ => ?_
  rcases slots.slotAddrForRoute route pick with _ | addr
  · exact getRandomConnectionOrError_keeps env hP
  · exact .bind (getConnectionByAddr_keeps (connInv_held hP) env addr) fun r hr => .pure hr.1

theorem getTarget_keeps (hl : l = .free ∨ E .alreadyBorrowed) (routing : SingleNodeRoutingInfo)
    (redirected : Option Redirect) :
    Prog.Keeps (Held P c l n) E (fun r => OfLink P r.2) (getTarget env routing redirected) := by
  rcases redirected with _ | redirect
  · rcases routing with _ | _ | route | ⟨host, port⟩
    · exact getRandomConnectionOrError_keeps env hP
    · exact .bind (choice_keeps (connInv_held hP)) fun _ _ => getConnection_keeps env hP hl _
    · exact getConnection_keeps env hP hl route
    · exact .bind (getConnectionByAddr_keeps (connInv_held hP) env _) fun r hr => .pure hr.1
  · exact getRedirected_keeps (connInv_held hP) env redirect

variable (hE : ∀ p, E (.panicked p))
include hE

omit env in
theorem sendInput_keeps (input : Input) (addr : NodeAddress) {r : RedisResult (Link C)} (hr : OfLink P r) :
    KeepsHeld P c l n E (sendInput input addr r) := by
  rcases r with e | link
  · exact .pure trivial
  · unfold sendInput
    refine .bind (setLink_keeps (connInv_held hP) (hP.use link _ (hr link rfl))) fun _ _ => ?_
    exact .bind (ends_keeps hE _) fun _ _ => .bind (record_keeps _) fun _ _ => .pure trivial

theorem attempt_keeps (hl : l = .free ∨ E .alreadyBorrowed) (input : Input) (routing : SingleNodeRoutingInfo)
    (redirected : Option Redirect) :
    KeepsHeld P .free l n E (attempt env input routing redirected) :=
  holdConnections_keeps (.bind (getTarget_keeps env hP hl routing redirected) fun r hr =>
    .bind (sendInput_keeps hP hE input r.1 hr) fun _ _ => .pure trivial)

omit hE in
theorem afterAttempt_keeps (hl : l = .free ∨ E .alreadyBorrowed) {input : Input} {routing : SingleNodeRoutingInfo}
    {retries : Nat}
    (h : ∀ addr err, KeepsHeld P .free l n E (requestAgain env input routing addr err retries))
    (r : NodeAddress × RedisResult Output) :
    KeepsHeld P .free l n E (afterAttempt env input routing retries r) := by
  rcases r with ⟨addr, err | output⟩
  · refine .bind (reconnectInitial_keeps env (cellInv_held hP) hl err) fun r _ => ?_
    rcases r with e | _
    · exact .pure trivial
    · exact h addr err
  · exact .pure trivial

theorem requestLoop_keeps (hl : l = .free ∨ E .alreadyBorrowed) (input : Input) (routing : SingleNodeRoutingInfo)
    (retries : Nat) (redirected : Option Redirect) :
    KeepsHeld P .free l n E (requestLoop env input routing retries redirected) := by
  induction retries generalizing redirected with
  | zero =>
    rw [requestLoop_eq]
    refine .bind (attempt_keeps env hP hE hl input routing redirected) fun r _ => ?_
    exact afterAttempt_keeps env hP hl (fun _ _ => .pure trivial) r
  | succ retries ih =>
    rw [requestLoop_eq]
    refine .bind (attempt_keeps env hP hE hl input routing redirected) fun r _ => ?_
    refine afterAttempt_keeps env hP hl (fun addr err => ?_) r
    refine .bind (recover_keeps env (cellInv_held hP) hl hE _ addr err) fun r _ => ?_
    rcases r with e | redirected
    · exact .pure trivial
    · exact ih redirected

theorem requestSingleNode_keeps (hl : l = .free ∨ E .alreadyBorrowed) (input : Input)
    (routing : SingleNodeRoutingInfo) :
    KeepsHeld P .free l n E (requestSingleNode env input routing) :=
  requestLoop_keeps env hP hE hl input routing env.numberOfRetries none

theorem executeOnAll_keeps (hl : l = .free ∨ E .alreadyBorrowed) (input : Input) (addresses : List NodeAddress) :
    KeepsHeld P .free l n E (executeOnAll env input addresses) := by
  refine .bind (choice_keeps (connInv_held hP)) fun k _ => ?_
  refine .mono (.forEach (R := fun _ => True) fun addr _ => ?_) fun _ _ => trivial
  exact .bind (requestSingleNode_keeps env hP hE hl input _) fun _ _ => .pure trivial

theorem executePart_keeps (input : Input) (slots : SlotMap) (route : Route × List Nat) :
    KeepsHeld P c l n E (executePart env input slots route) := by
  refine .bind (readPick_keeps env hP) fun pick _ => ?_
  rcases slots.slotAddrForRoute route.1 pick with _ | addr
  · exact .pure trivial
  · refine .bind (getConnectionByAddr_keeps (connInv_held hP) env addr) fun r hr => ?_
    rcases r with e | link
    · exact .pure trivial
    · refine .bind (ends_keeps hE _) fun part _ => ?_
      refine .bind (setLink_keeps (connInv_held hP) (hP.use link _ (hr.1 link rfl))) fun _ _ => ?_
      exact .bind (record_keeps _) fun _ _ => .pure trivial

theorem executeOnAllOf_keeps (hE' : E .alreadyBorrowed) (input : Input) (addresses : SlotMap → List NodeAddress) :
    KeepsHeld P .free l n E (executeOnAllOf env input addresses) := by
  refine .bind (Q := fun _ => True) (holdConnections_keeps (.pure trivial)) fun _ _ => ?_
  exact holdSlots_keeps (.inr hE') (.bind .get fun s _ => executeOnAll_keeps env hP hE (.inr hE') input _)

theorem nodeResults_keeps (hl : l = .free ∨ E .alreadyBorrowed) (input : Input) (routing : MultipleNodeRoutingInfo)
    (hrout : (∃ routes pattern, routing = .multiSlot routes pattern) ∨ E .alreadyBorrowed) :
    KeepsHeld P .free l n E (nodeResults env input routing) := by
  have hall : (∀ routes pattern, routing ≠ .multiSlot routes pattern) → E .alreadyBorrowed := by
    intro hne
    rcases hrout with ⟨routes, pattern, h⟩ | h
    · exact absurd h (hne routes pattern)
    · exact h
  rcases routing with _ | _ | ⟨routes, pattern⟩
  · exact executeOnAllOf_keeps env hP hE (hall nofun) input _
  · exact executeOnAllOf_keeps env hP hE (hall nofun) input _
  · unfold nodeResults
    refine holdConnections_keeps (holdSlots_keeps hl (.bind .get fun s _ => ?_))
    exact .mono (.forEach (R := fun _ => True) fun route _ => executePart_keeps env hP hE input _ route)
      fun _ _ => trivial

theorem request_keeps (hl : l = .free ∨ E .alreadyBorrowed) (input : Input) (routing : Option RoutingInfo)
    (hrout : ∀ info policy, routing = some (.multiNode info policy) →
      (∃ routes pattern, info = .multiSlot routes pattern) ∨ E .alreadyBorrowed) :
    KeepsHeld P .free l n E (request env input routing) := by
  rcases routing with _ | routing | ⟨info, policy⟩
  · exact .pure trivial
  · exact requestSingleNode_keeps env hP hE hl input routing
  · refine .bind (Q := fun _ => True) ?_ fun _ _ => .pure trivial
    refine .bind (nodeResults_keeps env hP hE hl input info (hrout info policy rfl)) fun results _ => ?_
    exact .bind (choice_keeps (connInv_held hP)) fun _ _ => ends_keeps hE _

end Functions

end ClusterConnection

end RedisRs.Cluster