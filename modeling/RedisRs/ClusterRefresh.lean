import RedisRs.ClusterInvariant
import RedisRs.NodeConnection

/-!
# Refreshing the slots
-/

namespace RedisRs.Cluster

open ConnectionLike Connect

variable {C : Type} [Connect C] (env : ClusterEnv C)

namespace ClusterConnection

def slotsReply (s : ClusterConnection C) (a : NodeAddress) : Option (RedisResult Value) :=
  (s.connections.value.lookup a).map fun link => (reqCommand slotCmd link.con).1

/-- The node would answer with these ranges, at least one. -/
def AnswersSlots (s : ClusterConnection C) (a : NodeAddress) (ranges : List SlotRange) : Prop :=
  ∃ value, slotsReply s a = some (.ok value) ∧ parseSlots value a.host = .ok ranges ∧ ranges ≠ []

/-- The same connections; one that was asked has sent `CLUSTER SLOTS` and read the reply. -/
def SameConnections (s s' : ClusterConnection C) : Prop :=
  ∀ a, s'.connections.value.lookup a = s.connections.value.lookup a ∨
    ∃ link, s.connections.value.lookup a = some link ∧
      s'.connections.value.lookup a = some { link with con := (reqCommand slotCmd link.con).2 }

/-- The new slot map is that of some node that answers with ranges; without one the call fails and changes nothing. -/
structure AllOrNothing (s : ClusterConnection C) : Prop where
  all : (∃ a ranges, AnswersSlots s a ranges) → (refreshSlots env s).1 = .ok (.ok ()) ∧
    ∃ a ranges, AnswersSlots s a ranges ∧ (refreshSlots env s).2.slots.value = .fromSlots ranges
  nothing : (¬ ∃ a ranges, AnswersSlots s a ranges) → (∃ e, (refreshSlots env s).1 = .ok (.error e)) ∧
    (refreshSlots env s).2.slots.value = s.slots.value ∧ SameConnections s (refreshSlots env s).2
  never_empty : (refreshSlots env s).2.slots.value = s.slots.value ∨ (refreshSlots env s).2.slots.value.Nonempty

def slotsOrder (s : ClusterConnection C) : List NodeAddress := env.order s.tick s.connections.value.keys

variable {s : ClusterConnection C} {a : NodeAddress}

omit [Connect C] in
theorem mem_slotsOrder : a ∈ slotsOrder env s ↔ ∃ link, s.connections.value.lookup a = some link := by
  rw [slotsOrder, (env.order_perm _ _).mem_iff, ← Option.isSome_iff_exists]
  exact AList.lookup_isSome.symm

theorem replaceConnections_run (map : SlotMap) (hc : s.connections.borrow = .free) :
    ∃ s', replaceConnections env map s = (.ok (), s') ∧ s'.slots = s.slots := by
  have hslots : Stable fun t : ClusterConnection C => t.slots = s.slots :=
    ⟨fun _ _ h => h, fun _ _ h => h, fun _ _ h => h⟩
  have hloop : Prog.Keeps (fun t => t.slots = s.slots) (fun _ => False) (fun _ => True)
      (Prog.forEach (keepOrConnect env) (sortedNodes map)) :=
    .mono (.forEach fun addr _ => keepOrConnect_keeps hslots.connInv env addr) fun _ _ => trivial
  have hinv := hloop.inv { s with connections.borrow := .mutable } rfl
  have herr := hloop.error { s with connections.borrow := .mutable } rfl
  unfold replaceConnections
  rw [holdConnections_of_free hc]
  rcases hrun : Prog.forEach (keepOrConnect env) (sortedNodes map) { s with connections.borrow := .mutable }
    with ⟨e | kept, s'⟩
  · rw [hrun] at herr
    exact (herr e rfl).elim
  · rw [hrun] at hinv
    rw [Prog.bind_of_ok hrun]
    exact ⟨_, rfl, hinv⟩

def refreshing (s : ClusterConnection C) : ClusterConnection C :=
  { s with refreshes := s.refreshes + 1, slots.borrow := .mutable }

theorem refreshSlots_eq (s : ClusterConnection C) :
    refreshSlots env s = replaceSlots env { s with refreshes := s.refreshes + 1 } := rfl

variable {s₁ : ClusterConnection C}

theorem refreshSlots_of_ok (hc : s.connections.borrow = .free) (hl : s.slots.borrow = .free) {map : SlotMap}
    (h : createNewSlots env (refreshing s) = (.ok (.ok map), s₁)) :
    (refreshSlots env s).1 = .ok (.ok ()) ∧ (refreshSlots env s).2.slots.value = map := by
  have hP : LinkInv fun _ : Link C => True := ⟨fun _ => trivial, fun _ _ _ => trivial⟩
  have hc₁ : s₁.connections.borrow = .free := by
    have hheld := (createNewSlots_keeps env (cellInv_held hP (n := 0) (E := fun _ => True)) (l := .mutable)).inv (refreshing s)
      ⟨hc, rfl, fun _ _ _ => trivial, Nat.zero_le _⟩
    rw [h] at hheld
    exact hheld.connections
  obtain ⟨s₂, hrun, hslots⟩ := replaceConnections_run env map (s := { s₁ with slots.value := map }) hc₁
  have hinstall : (createNewSlots env >>= installSlots env) (refreshing s) = (.ok (.ok ()), s₂) :=
    (Prog.bind_of_ok h).trans (Prog.bind_of_ok hrun)
  have hbody : refreshSlots env s = (.ok (.ok ()), { s₂ with slots.borrow := .free }) := by
    rw [refreshSlots_eq, replaceSlots, holdSlots_of_free (s := { s with refreshes := s.refreshes + 1 }) hl]
    exact congrArg (fun p : Except Abort (RedisResult Unit) × ClusterConnection C =>
      (p.1, { p.2 with slots.borrow := .free })) hinstall
  rw [hbody]
  exact ⟨rfl, congrArg RefCell.value hslots⟩

variable {rest : List NodeAddress} {e : RedisError} {link : Link C}

theorem refreshSlots_of_error (hl : s.slots.borrow = .free)
    (h : createNewSlots env (refreshing s) = (.ok (.error e), s₁)) :
    refreshSlots env s = (.ok (.error e), { s₁ with slots.borrow := .free }) := by
  have hinstall : (createNewSlots env >>= installSlots env) (refreshing s) = (.ok (.error e), s₁) :=
    Prog.bind_of_ok h
  rw [refreshSlots_eq, replaceSlots, holdSlots_of_free (s := { s with refreshes := s.refreshes + 1 }) hl]
  exact congrArg (fun p : Except Abort (RedisResult Unit) × ClusterConnection C =>
    (p.1, { p.2 with slots.borrow := .free })) hinstall

theorem parseSlots_ok (value : Value) (host : String) : ∃ ranges, parseSlots value host = .ok ranges := by
  unfold parseSlots
  split
  · exact ⟨_, rfl⟩
  · exact ⟨_, rfl⟩

theorem createNewSlots_eq {s' : ClusterConnection C} (hc : s.connections.borrow = .free) {r : RedisResult SlotMap}
    (h : createNewSlotsFrom (slotsOrder env s) { s with connections.borrow := .mutable, tick := s.tick + 1 } =
      (.ok r, s')) :
    createNewSlots env s = (.ok r, { s' with connections.borrow := .free }) := by
  unfold createNewSlots
  rw [holdConnections_of_free hc]
  exact congrArg (fun p : Except Abort (RedisResult SlotMap) × ClusterConnection C =>
    (p.1, { p.2 with connections.borrow := .free })) h

def asked (s : ClusterConnection C) (a : NodeAddress) (link : Link C) : ClusterConnection C :=
  { s with
    tick := s.tick + 1
    connections.value := s.connections.value.insert a { link with con := (reqCommand slotCmd link.con).2 } }

theorem sameConnections_asked (hlook : s.connections.value.lookup a = some link) :
    SameConnections s (asked s a link) := by
  intro b
  rcases eq_or_ne b a with rfl | hne
  · exact .inr ⟨link, hlook, AList.lookup_insert _⟩
  · exact .inl (AList.lookup_insert_ne hne)

theorem createNewSlots_of_cons (hc : s.connections.borrow = .free) (hord : slotsOrder env s = a :: rest)
    (hlook : s.connections.value.lookup a = some link) : createNewSlots env s =
      (.ok ((reqCommand slotCmd link.con).1.bind fun value => (parseSlots value a.host).map SlotMap.fromSlots),
        asked s a link) := by
  have hfrom : createNewSlotsFrom (slotsOrder env s) { s with connections.borrow := .mutable, tick := s.tick + 1 } =
      (.ok ((reqCommand slotCmd link.con).1.bind fun value => (parseSlots value a.host).map SlotMap.fromSlots),
        { asked s a link with connections.borrow := .mutable }) := by
    rw [hord, createNewSlotsFrom, Prog.bind_of_ok (Prog.get_apply _)]
    rcases hreq : reqCommand slotCmd link.con with ⟨e | value, con⟩
    · simp only [hlook, hreq]
      simp only [asked, hreq]
      rfl
    · obtain ⟨ranges, hparse⟩ := parseSlots_ok value a.host
      simp only [hlook, hreq]
      simp only [asked, hreq, Except.bind, hparse]
      rfl
  rw [createNewSlots_eq env hc hfrom, asked, ← hc]

theorem createNewSlots_of_nil (hc : s.connections.borrow = .free) (hord : slotsOrder env s = []) :
    createNewSlots env s = (.ok (.error noSlots), { s with tick := s.tick + 1 }) := by
  have hfrom : createNewSlotsFrom (slotsOrder env s) { s with connections.borrow := .mutable, tick := s.tick + 1 } =
      (.ok (.error noSlots), { s with connections.borrow := .mutable, tick := s.tick + 1 }) := by
    rw [hord]
    rfl
  rw [createNewSlots_eq env hc hfrom, ← hc]

theorem allOrNothing_of_error (hl : s.slots.borrow = .free)
    (h : createNewSlots env (refreshing s) = (.ok (.error e), s₁)) (hslots : s₁.slots.value = s.slots.value)
    (hsame : SameConnections s s₁) : AllOrNothing env s ↔ ¬ ∃ a ranges, AnswersSlots s a ranges := by
  have hrun := refreshSlots_of_error env hl h
  constructor
  · intro hall hsome
    have hok := (hall.all hsome).1
    rw [hrun] at hok
    cases hok
  · intro hnone
    refine ⟨fun h => absurd h hnone, fun _ => ?_, .inl ?_⟩
    · rw [hrun]
      exact ⟨⟨e, rfl⟩, hslots, hsame⟩
    · rw [hrun]
      exact hslots

theorem allOrNothing_of_ok (hc : s.connections.borrow = .free) (hl : s.slots.borrow = .free) {value : Value}
    {ranges : List SlotRange} (h : createNewSlots env (refreshing s) = (.ok (.ok (.fromSlots ranges)), s₁))
    (hrep : slotsReply s a = some (.ok value)) (hparse : parseSlots value a.host = .ok ranges) :
    AllOrNothing env s ↔ ranges ≠ [] := by
  obtain ⟨hok, hslots⟩ := refreshSlots_of_ok env hc hl h
  constructor
  · intro hall hnil
    -- an empty map is not that of ranges some node answered
    by_cases hsome : ∃ b ranges, AnswersSlots s b ranges
    · obtain ⟨b, ranges', ⟨-, -, -, hne⟩, heq⟩ := (hall.all hsome).2
      rw [hslots, hnil] at heq
      exact SlotMap.nonempty_fromSlots_iff.1 (heq ▸ SlotMap.nonempty_fromSlots hne) rfl
    · obtain ⟨⟨e, he⟩, -⟩ := hall.nothing hsome
      rw [hok] at he
      cases he
  · intro hne
    have hans : AnswersSlots s a ranges := ⟨value, hrep, hparse, hne⟩
    refine ⟨fun _ => ⟨hok, a, ranges, hans, hslots⟩, fun h => absurd ⟨a, ranges, hans⟩ h, .inr ?_⟩
    rw [hslots]
    exact SlotMap.nonempty_fromSlots hne

/-- The first node answers with ranges, or it fails and no other would answer with ranges either. -/
def FirstDecides (s : ClusterConnection C) : Prop :=
  ∀ a, (slotsOrder env s).head? = some a →
    (∀ value, slotsReply s a = some (.ok value) → parseSlots value a.host ≠ .ok []) ∧
    (∀ e, slotsReply s a = some (.error e) → ¬ ∃ b ranges, AnswersSlots s b ranges)

theorem firstDecides_of_cons (hord : slotsOrder env s = a :: rest) : FirstDecides env s ↔
      (∀ value, slotsReply s a = some (.ok value) → parseSlots value a.host ≠ .ok []) ∧
      (∀ e, slotsReply s a = some (.error e) → ¬ ∃ b ranges, AnswersSlots s b ranges) := by
  unfold FirstDecides
  rw [hord]
  exact ⟨fun h => h a rfl, fun h b hb => Option.some.inj hb ▸ h⟩

/-- A refresh of the slots is all or nothing exactly if the first node asked decides it rightly. -/
theorem refresh_all_or_nothing_iff (s : ClusterConnection C) (hc : s.connections.borrow = .free)
    (hl : s.slots.borrow = .free) : AllOrNothing env s ↔ FirstDecides env s := by
  have hc' : (refreshing s).connections.borrow = .free := hc
  rcases horder : slotsOrder env s with _ | ⟨a, rest⟩
  · -- no connection
    have hnone : ¬ ∃ a ranges, AnswersSlots s a ranges := by
      rintro ⟨a, ranges, value, hreply, -⟩
      obtain ⟨link, hlook, -⟩ := Option.map_eq_some_iff.1 hreply
      have hmem := (mem_slotsOrder env).2 ⟨link, hlook⟩
      rw [horder] at hmem
      cases hmem
    rw [allOrNothing_of_error env hl (createNewSlots_of_nil env hc' horder) rfl fun _ => .inl rfl]
    refine ⟨fun _ a ha => ?_, fun _ => hnone⟩
    rw [horder] at ha
    cases ha
  · obtain ⟨link, hlook⟩ := (mem_slotsOrder env).1 (horder ▸ List.mem_cons_self : a ∈ slotsOrder env s)
    have hreply : slotsReply s a = some (reqCommand slotCmd link.con).1 := by rw [slotsReply, hlook]; rfl
    have hcreate := createNewSlots_of_cons env hc' (a := a) horder hlook
    rw [firstDecides_of_cons env horder]
    rcases hr : (reqCommand slotCmd link.con).1 with e | value
    · -- an error ends the call
      rw [hr] at hcreate hreply
      rw [allOrNothing_of_error env hl hcreate rfl (sameConnections_asked hlook)]
      refine ⟨fun hnone => ⟨fun value hv => ?_, fun _ _ => hnone⟩, fun h => h.2 e hreply⟩
      rw [hreply] at hv
      cases hv
    · -- whatever it answers is installed
      obtain ⟨ranges, hparse⟩ := parseSlots_ok value a.host
      rw [hr] at hcreate hreply
      have hmap : createNewSlots env (refreshing s) = (.ok (.ok (.fromSlots ranges)), asked (refreshing s) a link) := by
        rw [hcreate]
        simp only [Except.bind, hparse]
        rfl
      rw [allOrNothing_of_ok env hc hl hmap hreply hparse]
      refine ⟨fun hne => ⟨fun value' hv hnil => ?_, fun e he => ?_⟩, fun h hnil => ?_⟩
      · rw [hreply] at hv
        rw [← Except.ok.inj (Option.some.inj hv), hparse] at hnil
        exact hne (Except.ok.inj hnil)
      · rw [hreply] at he
        cases he
      · exact h.1 value hreply (hnil ▸ hparse)

def oneRange : Value :=
  .array [.array [.int 0, .int 16383, .array [.bulkString (bytesOf "a"), .int 7000]]]

theorem one_range_all_or_nothing :
    AllOrNothing (plainEnv 1) (twoNodes (answering [.value oneRange]) (answering [])) := by
  refine (refresh_all_or_nothing_iff (plainEnv 1) _ rfl rfl).2 fun a ha => ?_
  have hA : nodeA = a := Option.some.inj ha
  subst hA
  have hreply : slotsReply (twoNodes (answering [.value oneRange]) (answering [])) nodeA = some (.ok oneRange) := rfl
  have hparse : parseSlots oneRange nodeA.host = .ok [⟨0, 16383, nodeA, []⟩] := rfl
  refine ⟨fun value hv hnil => ?_, fun e he => ?_⟩
  · rw [hreply] at hv
    rw [← Except.ok.inj (Option.some.inj hv), hparse] at hnil
    cases hnil
  · rw [hreply] at he
    cases he

theorem empty_reply_empties_slots :
    (∃ ranges, AnswersSlots (twoNodes (answering [.value (.array [])]) (answering [.value oneRange])) nodeB ranges) ∧
    (refreshSlots (plainEnv 1)
      (twoNodes (answering [.value (.array [])]) (answering [.value oneRange]))).2.slots.value.values = [] ∧
    (refreshSlots (plainEnv 1)
      (twoNodes (answering [.value (.array [])]) (answering [.value oneRange]))).2.connections.value.keys = [] ∧
    ¬ AllOrNothing (plainEnv 1) (twoNodes (answering [.value (.array [])]) (answering [.value oneRange])) := by
  have hvalues : (refreshSlots (plainEnv 1)
      (twoNodes (answering [.value (.array [])]) (answering [.value oneRange]))).2.slots.value.values = [] := by
    decide +kernel
  refine ⟨⟨[⟨0, 16383, nodeA, []⟩], oneRange, rfl, rfl, List.cons_ne_nil _ _⟩, hvalues, by decide +kernel, ?_⟩
  intro h
  rcases h.never_empty with hsame | hne
  · rw [hsame] at hvalues
    have hhalves : halves.values ≠ [] := by decide +kernel
    exact hhalves hvalues
  · rw [SlotMap.values, SlotRangeMap.values, List.map_eq_nil_iff] at hvalues
    exact hne hvalues

end ClusterConnection

end RedisRs.Cluster
