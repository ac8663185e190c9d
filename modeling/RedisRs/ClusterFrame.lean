import RedisRs.ClusterFanOut

/-!
# What connecting and refreshing keep
-/

namespace RedisRs.Cluster

open ConnectionLike Connect

variable {C : Type} {α : Type}

/-- A property of connections that a new one has and that using one keeps. -/
structure LinkInv (P : Link C → Prop) : Prop where
  fresh : ∀ con, P ⟨con, 0, 0⟩
  use : ∀ link con, P link → P { link with con := con }

/-- An invariant that keeps `P` of all connections and survives changes of the connections and of the counters. -/
structure ConnInv (P : Link C → Prop) (I : ClusterConnection C → Prop) : Prop extends LinkInv P where
  links : ∀ s, I s → ∀ addr link, s.connections.value.lookup addr = some link → P link
  attempts : ∀ s attempts, I s → I { s with attempts := attempts }
  tick : ∀ s tick, I s → I { s with tick := tick }
  insert : ∀ s addr link, P link → I s → I { s with connections.value := s.connections.value.insert addr link }
  erase : ∀ s addr, I s → I { s with connections.value := s.connections.value.erase addr }
  collect : ∀ s (entries : List (NodeAddress × Link C)), (∀ entry ∈ entries, P entry.2) → I s →
    I { s with connections.value := entries.foldl (fun m entry => m.insert entry.1 entry.2) ∅ }

/-- `J c l` holds while the connections are borrowed as `c` and the slot map as `l`; `E` allows a double borrow. -/
structure CellInv (E : Abort → Prop) (P : Link C → Prop) (J : Borrow → Borrow → ClusterConnection C → Prop) : Prop where
  conn : ∀ c l, ConnInv P (J c l)
  slots : ∀ c l s slots, J c l s → J c l { s with slots.value := slots }
  refreshes : ∀ c l s, J c l s → J c l { s with refreshes := s.refreshes + 1 }
  holdConnections : ∀ {α : Type} {Q : α → Prop} {l : Borrow} {body : ClusterM C α},
    Prog.Keeps (J .mutable l) E Q body → Prog.Keeps (J .free l) E Q (ClusterConnection.holdConnections body)
  holdSlots : ∀ {α : Type} {Q : α → Prop} {c l : Borrow} {body : ClusterM C α}, l = .free ∨ E .alreadyBorrowed →
    Prog.Keeps (J c .mutable) E Q body → Prog.Keeps (J c l) E Q (ClusterConnection.holdSlots body)

def OfLink (P : Link C → Prop) (r : RedisResult (Link C)) : Prop := ∀ link, r = .ok link → P link

theorem OfLink.ok {P : Link C → Prop} {link : Link C} (h : P link) : OfLink P (.ok link) := by
  rintro _ ⟨⟩
  exact h

theorem OfLink.error {P : Link C → Prop} (e : RedisError) : OfLink P (.error e : RedisResult (Link C)) := nofun

namespace ClusterConnection

/-- An error is that of an attempt to connect to the node. -/
def ConnectFailed [Connect C] (env : ClusterEnv C) (addr : NodeAddress) (r : RedisResult α) : Prop :=
  ∀ e, r = .error e → ∃ n, connectNode env addr n = .error e

variable {P : Link C → Prop} {E : Abort → Prop}

section ConnInv

variable {I : ClusterConnection C → Prop} (hI : ConnInv P I)
include hI

theorem choice_keeps : Prog.Keeps I E (fun _ => True) (choice : ClusterM C Nat) :=
  .of_run fun s hs => ⟨hI.tick s _ hs, trivial⟩

theorem setLink_keeps {addr : NodeAddress} {link : Link C} (h : P link) :
    Prog.Keeps I E (fun _ => True) (setLink addr link) :=
  .modify fun s hs => hI.insert s addr link h hs

variable [Connect C] (env : ClusterEnv C)

variable (addr : NodeAddress)

theorem connect_keeps : Prog.Keeps I E (ConnectFailed env addr) (connect env addr) :=
  .of_run fun s hs => ⟨hI.attempts s _ hs, fun _ he => ⟨s.attempts addr, he⟩⟩

theorem connectAndCheck_keeps : Prog.Keeps I E (fun _ => True) (connectAndCheck env addr) := by
  refine .bind (connect_keeps hI env addr) fun r _ => ?_
  rcases r with e | con
  · exact .pure trivial
  · exact .pure trivial

theorem getConnectionByAddr_keeps :
    Prog.Keeps I E (fun r => OfLink P r ∧ ConnectFailed env addr r) (getConnectionByAddr env addr) := by
  refine .bind .get fun s hs => ?_
  rcases hlook : s.connections.value.lookup addr with _ | link
  · refine .bind (connect_keeps hI env addr) fun r hr => ?_
    rcases r with e | con
    · refine .pure ⟨.error e, fun e' he => ?_⟩
      cases he
      exact hr e rfl
    · have hfresh := hI.fresh con
      exact .bind (setLink_keeps hI hfresh) fun _ _ => .pure ⟨.ok hfresh, fun _ he => Prog.elim_ok he⟩
  · exact .pure ⟨.ok (hI.links s hs addr link hlook), fun _ he => Prog.elim_ok he⟩

theorem getRedirected_keeps (redirect : Redirect) :
    Prog.Keeps I E (fun r => OfLink P r.2) (getRedirected env redirect) := by
  rcases redirect with addr | addr
  · exact .bind (getConnectionByAddr_keeps hI env addr) fun r hr => .pure hr.1
  · refine .bind (getConnectionByAddr_keeps hI env addr) fun r hr => ?_
    rcases r with e | link
    · exact .pure (.error e)
    · dsimp only
      rcases reqPackedCommand asking link.con with ⟨reply, con⟩
      have hlink : P { link with con := con } := hI.use link con (hr.1 link rfl)
      refine .bind (setLink_keeps hI hlink) fun _ _ => .pure ?_
      rcases reply.bind Value.extractError with e | value
      · exact .error e
      · exact .ok hlink

theorem keepOrConnect_keeps :
    Prog.Keeps I E (fun r => ∀ entry, r = some entry → P entry.2) (keepOrConnect env addr) := by
  have hconnect : Prog.Keeps I E (fun r => ∀ entry, r = some entry → P entry.2)
      (do return (← connectAndCheck env addr).map fun con => (addr, (⟨con, 0, 0⟩ : Link C))) := by
    refine .bind (connectAndCheck_keeps hI env addr) fun con _ => .pure fun entry hent => ?_
    obtain ⟨con, -, rfl⟩ := Option.map_eq_some_iff.1 hent
    exact hI.fresh con
  refine .bind .get fun s hs => .bind (.modify fun s hs => hI.erase s addr hs) fun _ _ => ?_
  rcases hlook : s.connections.value.lookup addr with _ | link
  · exact hconnect
  · rcases hcheck : checkConnection link.con with ⟨_ | _, con⟩
    · simp only [Option.map_some, hcheck]
      exact hconnect
    · simp only [Option.map_some, hcheck]
      refine .pure fun entry hent => ?_
      have hent' : (addr, ({ link with con := con } : Link C)) = entry := Option.some.inj hent
      exact hent' ▸ hI.use link con (hI.links s hs addr link hlook)

omit env in
theorem createNewSlotsFrom_keeps (addrs : List NodeAddress) :
    Prog.Keeps I E (fun _ => True) (createNewSlotsFrom addrs : ClusterM C _) := by
  induction addrs with
  | nil => exact .pure trivial
  | cons addr addrs ih =>
    refine .bind .get fun s hs => ?_
    rcases hlook : s.connections.value.lookup addr with _ | link
    · exact ih
    · have hlink := fun con => hI.use link con (hI.links s hs addr link hlook)
      dsimp only
      rcases reqCommand slotCmd link.con with ⟨e | value, con⟩
      · exact .bind (setLink_keeps hI (hlink con)) fun _ _ => .pure trivial
      · refine .bind (setLink_keeps hI (hlink con)) fun _ _ => ?_
        dsimp only
        rcases parseSlots value addr.host with e | slotsData
        · exact ih
        · exact .pure trivial

end ConnInv

section CellInv

variable {J : Borrow → Borrow → ClusterConnection C → Prop} {l : Borrow} [Connect C] (env : ClusterEnv C)
  (hJ : CellInv E P J)
include hJ

theorem createNewSlots_keeps : Prog.Keeps (J .free l) E (fun _ => True) (createNewSlots env) :=
  hJ.holdConnections (.bind (choice_keeps (hJ.conn _ _)) fun _ _ => .bind .get fun _ _ =>
    createNewSlotsFrom_keeps (hJ.conn _ _) _)

theorem replaceConnections_keeps (newSlots : SlotMap) :
    Prog.Keeps (J .free l) E (fun _ => True) (replaceConnections env newSlots) := by
  refine hJ.holdConnections (.bind (.forEach fun addr _ => keepOrConnect_keeps (hJ.conn _ _) env addr)
    fun kept hkept => .modify fun s hs => ?_)
  refine (hJ.conn _ _).collect s _ (fun entry hent => ?_) hs
  obtain ⟨r, hr, hent⟩ := List.mem_filterMap.1 hent
  exact hkept r hr entry hent

theorem connectAndInsert_keeps (addr : NodeAddress) :
    Prog.Keeps (J .free l) E (fun _ => True) (connectAndInsert env addr) := by
  refine .bind (connectAndCheck_keeps (hJ.conn _ _) env addr) fun con _ => ?_
  rcases con with _ | con
  · exact .pure trivial
  · exact hJ.holdConnections (setLink_keeps (hJ.conn _ _) ((hJ.conn .free l).fresh con))

theorem connectInitialNodes_keeps (nodes : List ConnectionAddr) :
    Prog.Keeps (J .free l) E (fun _ => True) (connectInitialNodes env nodes) := by
  induction nodes with
  | nil => exact .pure trivial
  | cons node nodes ih =>
    unfold connectInitialNodes
    rcases NodeAddress.tryFromAddr node with e | addr
    · exact .pure trivial
    · exact .bind (connectAndInsert_keeps env hJ addr) fun _ _ => ih

variable (hl : l = .free ∨ E .alreadyBorrowed)
include hl

theorem replaceSlots_keeps : Prog.Keeps (J .free l) E (fun _ => True) (replaceSlots env) := by
  refine hJ.holdSlots hl (.bind (createNewSlots_keeps env hJ) fun r _ => ?_)
  rcases r with e | newSlots
  · exact .pure trivial
  · refine .bind (.modify fun s hs => hJ.slots _ _ s _ hs) fun _ _ => ?_
    exact .bind (replaceConnections_keeps env hJ newSlots) fun _ _ => .pure trivial

theorem refreshSlots_keeps : Prog.Keeps (J .free l) E (fun _ => True) (refreshSlots env) :=
  .bind (.modify fun s hs => hJ.refreshes _ _ s hs) fun _ _ => replaceSlots_keeps env hJ hl

theorem reconnectInitial_keeps (e : RedisError) :
    Prog.Keeps (J .free l) E (fun _ => True) (reconnectInitial env e) := by
  unfold reconnectInitial
  split_ifs
  · refine .bind (connectInitialNodes_keeps env hJ _) fun r _ => ?_
    rcases r with e | _
    · exact .pure trivial
    · exact refreshSlots_keeps env hJ hl
  · exact .pure trivial

omit [Connect C] hl in
theorem sleep_keeps (hE : ∀ p, E (.panicked p)) (retries : Nat) :
    Prog.Keeps (J .free l) E (fun _ => True) (sleep env retries) := by
  refine .bind (choice_keeps (hJ.conn _ _)) fun n _ => .bind (Q := fun _ => True) (.ofExcept ?_) fun _ _ => .pure trivial
  rcases env.retryParams.waitTimeForRetry (.ofNat retries) (env.random n) with p | ms
  · exact hE p
  · trivial

theorem recover_keeps (hE : ∀ p, E (.panicked p)) (retries : Nat) (addr : NodeAddress) (e : RedisError) :
    Prog.Keeps (J .free l) E (fun r => ∀ redirect, r = .ok (some redirect) → redirectAddr e ≠ none)
      (recover env retries addr e) := by
  have hnone : ∀ redirect, (.ok none : RedisResult (Option Redirect)) = .ok (some redirect) → redirectAddr e ≠ none :=
    nofun
  have hmap : ∀ (f : NodeAddress → Redirect) (r : RedisResult Unit) redirect,
      r.map (fun _ => (redirectAddr e).map f) = .ok (some redirect) → redirectAddr e ≠ none := by
    intro f r redirect hr hredir
    rw [hredir] at hr
    rcases r with e | _ <;> cases hr
  unfold recover
  split
  · exact .pure (hmap .ask (.ok ()))
  · exact .bind (refreshSlots_keeps env hJ hl) fun r _ => .pure (hmap .moved r)
  · exact .bind (sleep_keeps env hJ hE retries) fun _ _ => .pure hnone
  · exact .pure hnone
  · refine .bind (sleep_keeps env hJ hE retries) fun _ _ => ?_
    refine .bind (refreshSlots_keeps env hJ hl) fun r _ => .pure fun _ hr => ?_
    rcases r with e | _ <;> cases hr
  · split_ifs
    · refine .bind (Q := fun _ => True)
        (hJ.holdConnections (.modify fun s hs => (hJ.conn _ _).erase s addr hs)) fun _ _ => ?_
      exact .bind (connectAndInsert_keeps env hJ addr) fun _ _ => .pure hnone
    · exact .pure hnone
  · exact .pure nofun
  · split_ifs
    · exact .bind (connectAndInsert_keeps env hJ addr) fun _ _ => .pure hnone
    · exact .pure hnone

end CellInv

end ClusterConnection

/-- An invariant that neither the connections nor the counters matter to. -/
structure Stable (I : ClusterConnection C → Prop) : Prop where
  connections : ∀ s connections, I s → I { s with connections := connections }
  attempts : ∀ s attempts, I s → I { s with attempts := attempts }
  tick : ∀ s tick, I s → I { s with tick := tick }

/-- The slot map does not matter to it either. -/
structure StableSlots (I : ClusterConnection C → Prop) : Prop extends Stable I where
  slots : ∀ s slots, I s → I { s with slots := slots }
  refreshes : ∀ s refreshes, I s → I { s with refreshes := refreshes }

variable {I : ClusterConnection C → Prop}

theorem Stable.connInv (h : Stable I) : ConnInv (fun _ => True) I where
  fresh _ := trivial
  use _ _ _ := trivial
  links _ _ _ _ _ := trivial
  attempts := h.attempts
  tick := h.tick
  insert s _ _ _ := h.connections s _
  erase s _ := h.connections s _
  collect s _ _ := h.connections s _

theorem StableSlots.cellInv {E : Abort → Prop} (h : StableSlots I) (hE : E .alreadyBorrowed) :
    CellInv E (fun _ => True) fun _ _ => I where
  conn _ _ := h.connInv
  slots _ _ s _ := h.slots s _
  refreshes _ _ s := h.refreshes s _
  holdConnections hbody := .of_run fun s hs => by
    have hborrowed := h.connections s { s.connections with borrow := .mutable } hs
    unfold ClusterConnection.holdConnections
    split_ifs
    · exact ⟨h.connections _ _ (hbody.inv _ hborrowed), hbody.ends hborrowed⟩
    · exact ⟨hs, hE⟩
  holdSlots _ hbody := .of_run fun s hs => by
    have hborrowed := h.slots s { s.slots with borrow := .mutable } hs
    unfold ClusterConnection.holdSlots
    split_ifs
    · exact ⟨h.slots _ _ (hbody.inv _ hborrowed), hbody.ends hborrowed⟩
    · exact ⟨hs, hE⟩

end RedisRs.Cluster
