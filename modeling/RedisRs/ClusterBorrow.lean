import RedisRs.ClusterInvariant
import RedisRs.NodeConnection

/-!
# Borrows of the slot map
-/

namespace RedisRs.Cluster

open ConnectionLike Connect

variable {C : Type} {α β : Type}

namespace ClusterConnection

def borrowSlots (s : ClusterConnection C) : ClusterConnection C := { s with slots.borrow := .mutable }

/-- Borrowing the slots changes what a computation does only where it calls `refresh_slots`. -/
abbrev TripsOnRefresh (c : Borrow) (m : ClusterM C α) : Prop :=
  Prog.Trips borrowSlots (fun s => s.refreshes) .alreadyBorrowed
    (fun s => s.connections.borrow = c ∧ s.slots.borrow = .free) m

section Rules

variable {c : Borrow}

theorem choice_trips : TripsOnRefresh c (choice : ClusterM C Nat) :=
  .of_same (fun _ hs => hs) (fun _ => rfl) fun _ => rfl

theorem record_trips (event : ClusterEvent) : TripsOnRefresh c (record event : ClusterM C Unit) :=
  .of_same (fun _ hs => hs) (fun _ => rfl) fun _ => rfl

theorem ends_trips (r : Ends α) : TripsOnRefresh c (ends r : ClusterM C α) := .ofExcept _

theorem setLink_trips (addr : NodeAddress) (link : Link C) : TripsOnRefresh c (setLink addr link) :=
  .of_same (fun _ hs => hs) (fun _ => rfl) fun _ => rfl

theorem holdConnections_trips {body : ClusterM C α} (h : TripsOnRefresh .mutable body) :
    TripsOnRefresh .free (holdConnections body) := by
  have hborrowed : ∀ s : ClusterConnection C, s.connections.borrow = .free →
      (borrowSlots s).connections.borrow = .free := fun _ hs => hs
  constructor
  · intro s hs
    rw [holdConnections_of_free hs.1]
    exact ⟨rfl, (h.dom { s with connections.borrow := .mutable } ⟨rfl, hs.2⟩).2⟩
  · intro s hs
    rw [holdConnections_of_free hs.1]
    exact h.le { s with connections.borrow := .mutable } ⟨rfl, hs.2⟩
  · intro s hs hmark
    rw [holdConnections_of_free hs.1] at hmark ⊢
    have hbody : body { borrowSlots s with connections.borrow := .mutable } = _ :=
      h.same { s with connections.borrow := .mutable } ⟨rfl, hs.2⟩ hmark
    rw [holdConnections_of_free (hborrowed s hs.1), hbody]
    rfl
  · intro s hs hlt
    rw [holdConnections_of_free hs.1] at hlt
    rw [holdConnections_of_free (hborrowed s hs.1)]
    exact h.trip { s with connections.borrow := .mutable } ⟨rfl, hs.2⟩ hlt

end Rules

variable [Connect C] (env : ClusterEnv C)

theorem refreshSlots_trips : TripsOnRefresh .free (refreshSlots env) := by
  have hP : LinkInv fun _ : Link C => True := ⟨fun _ => trivial, fun _ _ _ => trivial⟩
  have hheld : ∀ s : ClusterConnection C, s.connections.borrow = .free ∧ s.slots.borrow = .free →
      Held (fun _ => True) .free .free (s.refreshes + 1) (refreshSlots env s).2 := by
    intro s hs
    -- the first step counts the call
    exact (replaceSlots_keeps env (cellInv_held hP (E := fun _ => True)) (.inl rfl)).inv
      { s with refreshes := s.refreshes + 1 } ⟨hs.1, hs.2, fun _ _ _ => trivial, le_rfl⟩
  constructor
  · exact fun s hs => ⟨(hheld s hs).connections, (hheld s hs).slots⟩
  · exact fun s hs => Nat.le_of_succ_le (hheld s hs).refreshes
  · exact fun s hs hmark => absurd (hheld s hs).refreshes (by rw [hmark]; exact Nat.not_succ_le_self _)
  · intro s hs _
    rfl

variable (input : Input) (host : String) (port : UInt16) (addr : NodeAddress) (e : RedisError)

variable {c : Borrow} (retries : Nat) (redirected : Option Redirect)

theorem connect_trips : TripsOnRefresh c (connect env addr) :=
  .of_same (fun _ hs => hs) (fun _ => rfl) fun _ => rfl

theorem connectAndCheck_trips : TripsOnRefresh c (connectAndCheck env addr) := by
  refine .bind (connect_trips env addr) fun r => ?_
  rcases r with e | con
  · exact .pure _
  · exact .pure _

theorem connectAndInsert_trips : TripsOnRefresh .free (connectAndInsert env addr) := by
  refine .bind (connectAndCheck_trips env addr) fun con => ?_
  rcases con with _ | con
  · exact .pure _
  · exact holdConnections_trips (setLink_trips addr _)

theorem connectInitialNodes_trips (nodes : List ConnectionAddr) :
    TripsOnRefresh .free (connectInitialNodes env nodes) := by
  induction nodes with
  | nil => exact .pure _
  | cons node nodes ih =>
    unfold connectInitialNodes
    rcases NodeAddress.tryFromAddr node with e | addr
    · exact .pure _
    · exact .bind (connectAndInsert_trips env addr) fun _ => ih

theorem reconnectInitial_trips : TripsOnRefresh .free (reconnectInitial env e) := by
  unfold reconnectInitial
  split_ifs with h
  · refine .bind (connectInitialNodes_trips env _) fun r => ?_
    rcases r with e | _
    · exact .pure _
    · exact refreshSlots_trips env
  · exact .pure _

theorem getConnectionByAddr_trips : TripsOnRefresh c (getConnectionByAddr env addr) := by
  refine .get_bind (fun _ => rfl) fun s => ?_
  rcases s.connections.value.lookup addr with _ | link
  · refine .bind (connect_trips env addr) fun r => ?_
    rcases r with e | con
    · exact .pure _
    · exact .bind (setLink_trips addr _) fun _ => .pure _
  · exact .pure _

theorem getRedirected_trips (redirect : Redirect) : TripsOnRefresh c (getRedirected env redirect) := by
  rcases redirect with addr | addr
  · exact .bind (getConnectionByAddr_trips env addr) fun _ => .pure _
  · refine .bind (getConnectionByAddr_trips env addr) fun r => ?_
    rcases r with e | link
    · exact .pure _
    · exact .bind (setLink_trips addr _) fun _ => .pure _

omit env in
theorem sendInput_trips (r : RedisResult (Link C)) : TripsOnRefresh c (sendInput input addr r) := by
  rcases r with e | link
  · exact .pure _
  · unfold sendInput
    exact .bind (setLink_trips addr _) fun _ => .bind (ends_trips _) fun _ => .bind (record_trips _) fun _ => .pure _

omit [Connect C] in
theorem sleep_trips : TripsOnRefresh .free (sleep env retries) :=
  .bind choice_trips fun _ => .bind (ends_trips _) fun _ => .pure _

theorem recover_trips : TripsOnRefresh .free (recover env retries addr e) := by
  unfold recover
  split
  · exact .pure _
  · exact .bind (refreshSlots_trips env) fun _ => .pure _
  · exact .bind (sleep_trips env retries) fun _ => .pure _
  · exact .pure _
  · exact .bind (sleep_trips env retries) fun _ => .bind (refreshSlots_trips env) fun _ => .pure _
  · split_ifs with hauto
    · refine .bind (holdConnections_trips ?_) fun _ => .bind (connectAndInsert_trips env addr) fun _ => .pure _
      exact .of_same (fun _ hs => hs) (fun _ => rfl) fun _ => rfl
    · exact .pure _
  · exact .pure _
  · split_ifs with hauto
    · exact .bind (connectAndInsert_trips env addr) fun _ => .pure _
    · exact .pure _

theorem attempt_trips : TripsOnRefresh .free (attempt env input (.byAddress host port) redirected) := by
  refine holdConnections_trips (.bind ?_ fun r => .bind (sendInput_trips input r.1 r.2) fun _ => .pure _)
  rcases redirected with _ | redirect
  · exact .bind (getConnectionByAddr_trips env _) fun _ => .pure _
  · exact getRedirected_trips env redirect

theorem afterAttempt_trips {input : Input} {routing : SingleNodeRoutingInfo} {retries : Nat}
    (h : ∀ addr err, TripsOnRefresh .free (requestAgain env input routing addr err retries))
    (r : NodeAddress × RedisResult Output) : TripsOnRefresh .free (afterAttempt env input routing retries r) := by
  rcases r with ⟨addr, err | output⟩
  · refine .bind (reconnectInitial_trips env err) fun r => ?_
    rcases r with e | _
    · exact .pure _
    · exact h addr err
  · exact .pure _

theorem requestLoop_trips :
    TripsOnRefresh .free (requestLoop env input (.byAddress host port) retries redirected) := by
  induction retries generalizing redirected with
  | zero =>
    rw [requestLoop_eq]
    exact .bind (attempt_trips env input host port redirected) (afterAttempt_trips env fun _ _ => .pure _)
  | succ retries ih =>
    rw [requestLoop_eq]
    refine .bind (attempt_trips env input host port redirected) (afterAttempt_trips env fun addr err => ?_)
    refine .bind (recover_trips env addr err _) fun r => ?_
    rcases r with e | redirected
    · exact .pure _
    · exact ih redirected

theorem executeOnAll_trips (addresses : List NodeAddress) :
    TripsOnRefresh .free (executeOnAll env input addresses) := by
  refine .bind choice_trips fun n => .forEach (fun addr => ?_) _
  exact .bind (requestLoop_trips env input addr.host addr.port _ none) fun _ => .pure _

theorem executeOnAllOf_borrowed (addresses : SlotMap → List NodeAddress) (s : ClusterConnection C)
    (hc : s.connections.borrow = .free) (hl : s.slots.borrow = .free) :
    (executeOnAllOf env input addresses s).1 = .error .alreadyBorrowed ↔
      (executeOnAll env input (addresses s.slots.value) s).2.refreshes ≠ s.refreshes := by
  have hP : LinkInv fun _ : Link C => True := ⟨fun _ => trivial, fun _ _ _ => trivial⟩
  have htrips := executeOnAll_trips env input (addresses s.slots.value)
  have hrun : (executeOnAllOf env input addresses s).1 =
      (executeOnAll env input (addresses s.slots.value) (borrowSlots s)).1 := by
    have hhold : holdConnections (pure ()) s = (.ok (), s) := by
      rw [holdConnections_of_free hc, ← hc]
      rfl
    unfold executeOnAllOf
    rw [Prog.bind_of_ok hhold, holdSlots_of_free hl]
    rfl
  rw [hrun]
  constructor
  · intro herr hsame
    -- with no refresh the run is that on the free slot map, which panics nowhere
    rw [htrips.same s ⟨hc, hl⟩ hsame] at herr
    exact (executeOnAll_keeps env hP (E := (· ≠ .alreadyBorrowed)) (fun _ h => by cases h) (.inl rfl) input _).error
      s ⟨hc, hl, fun _ _ _ => trivial, Nat.zero_le _⟩ .alreadyBorrowed herr rfl
  · intro hne
    exact htrips.trip s ⟨hc, hl⟩ (Nat.lt_of_le_of_ne (htrips.le s ⟨hc, hl⟩) (Ne.symm hne))

def fanOut : Option RoutingInfo → Option (SlotMap → List NodeAddress)
  | some (.multiNode .allNodes _) => some SlotMap.addressesForAllNodes
  | some (.multiNode .allMasters _) => some SlotMap.addressesForAllPrimaries
  | _ => none

theorem request_of_fanOut (routing : Option RoutingInfo) {addresses : SlotMap → List NodeAddress}
    (h : fanOut routing = some addresses) (s : ClusterConnection C) :
    (request env input routing s).1 = .error .alreadyBorrowed ↔
      (executeOnAllOf env input addresses s).1 = .error .alreadyBorrowed := by
  have hends : ∀ {β : Type} (r : Ends β) (t : ClusterConnection C), (ends r t).1 ≠ .error .alreadyBorrowed := by
    intro β r t ht
    rcases r with p | b
    · cases ht
    · cases ht
  have hmulti : ∀ info policy, (request env input (some (.multiNode info policy)) s).1 = .error .alreadyBorrowed ↔
      (nodeResults env input info s).1 = .error .alreadyBorrowed := by
    intro info policy
    have houter := Prog.bind_error_iff (m := executeOnMultipleNodes env input info policy) (e := .alreadyBorrowed)
      (f := fun r => pure (r.map Output.single)) (fun _ _ h => by cases h) s
    have hinner := Prog.bind_error_iff (m := nodeResults env input info) (e := .alreadyBorrowed)
      (f := fun results => do ends (combine (env.keyOrder (← choice)) info results policy)) (fun _ t => hends _ _) s
    exact houter.trans hinner
  rcases routing with _ | routing | ⟨_ | _ | ⟨routes, pattern⟩, policy⟩
  · cases h
  · cases h
  · cases h
    exact hmulti .allNodes policy
  · cases h
    exact hmulti .allMasters policy
  · cases h

/-- A request panics with a borrow error exactly if it is a fan-out to all nodes or primaries and its single
requests, made one after the other from the same state, refresh the slots. -/
theorem request_not_alreadyBorrowed (input : Input) (routing : Option RoutingInfo) (s : ClusterConnection C)
    (hc : s.connections.borrow = .free) (hl : s.slots.borrow = .free) :
    (request env input routing s).1 ≠ .error .alreadyBorrowed ↔
      ∀ addresses, fanOut routing = some addresses →
        (executeOnAll env input (addresses s.slots.value) s).2.refreshes = s.refreshes := by
  have hP : LinkInv fun _ : Link C => True := ⟨fun _ => trivial, fun _ _ _ => trivial⟩
  rcases hfan : fanOut routing with _ | addresses
  · -- nothing is sent while the slot map is borrowed
    refine ⟨fun _ _ h => (by cases h), fun _ herror => ?_⟩
    refine (request_keeps env hP (E := (· ≠ .alreadyBorrowed)) (fun _ h => by cases h) (.inl rfl) input routing ?_).error
      s ⟨hc, hl, fun _ _ _ => trivial, Nat.zero_le _⟩ .alreadyBorrowed herror rfl
    rintro (_ | _ | ⟨routes, pattern⟩) policy rfl
    · cases hfan
    · cases hfan
    · exact .inl ⟨routes, pattern, rfl⟩
  · rw [Ne, request_of_fanOut env input routing hfan, executeOnAllOf_borrowed env input addresses s hc hl, not_not]
    constructor
    · intro h addresses' haddresses
      exact Option.some.inj haddresses ▸ h
    · exact fun h => h addresses rfl

def flushAll : Option RoutingInfo := some (.multiNode .allMasters (some .allSucceeded))

theorem flushAll_not_alreadyBorrowed :
    (request (plainEnv 1) (.cmd (cmd "FLUSHALL")) flushAll
      (twoNodes (answering [.value .okay]) (answering [.value .okay]))).1 ≠ .error .alreadyBorrowed := by
  refine (request_not_alreadyBorrowed (plainEnv 1) _ flushAll _ rfl rfl).2 fun addresses haddresses => ?_
  rw [← Option.some.inj haddresses]
  decide +kernel

theorem readOnly_flushAll_alreadyBorrowed :
    (request (plainEnv 1) (.cmd (cmd "FLUSHALL")) flushAll
      (twoNodes (answering [.value .okay]) (answering [.value (.serverError (.known .readOnly none))]))).1 =
      .error .alreadyBorrowed := by
  rw [request_of_fanOut (plainEnv 1) _ flushAll rfl, executeOnAllOf_borrowed (plainEnv 1) _ _ _ rfl rfl]
  decide +kernel

end ClusterConnection

end RedisRs.Cluster
