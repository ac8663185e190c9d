import RedisRs.ClusterFrame

/-!
# What a fan-out sends
-/

namespace RedisRs.Cluster

open ConnectionLike Connect

variable {C α : Type}

namespace ClusterConnection

variable (l : List ClusterEvent)

theorem stableSlots_log : StableSlots fun s : ClusterConnection C => s.log = l where
  connections _ _ h := h
  attempts _ _ h := h
  tick _ _ h := h
  slots _ _ h := h
  refreshes _ _ h := h

theorem connInv_log : ConnInv (fun _ => True) fun s : ClusterConnection C => s.log = l :=
  (stableSlots_log l).connInv

theorem cellInv_log : CellInv (fun _ => True) (fun _ => True) fun _ _ (s : ClusterConnection C) => s.log = l :=
  (stableSlots_log l).cellInv trivial

/-- The events a computation logs, related to its value. -/
abbrev Logs (R : α → List ClusterEvent → Prop) (m : ClusterM C α) : Prop := Prog.Appends ClusterConnection.log R m

section Rules

variable {R : α → List ClusterEvent → Prop}

theorem holdConnections_logs {body : ClusterM C α} (h : Logs R body) : Logs R (holdConnections body) := by
  intro s a s' hrun
  unfold holdConnections at hrun
  split_ifs at hrun
  · rcases hbody : body { s with connections.borrow := .mutable } with ⟨r, s₁⟩
    rw [hbody] at hrun
    cases hrun
    exact h { s with connections.borrow := .mutable } a s₁ hbody
  · cases hrun

theorem holdSlots_logs {body : ClusterM C α} (h : Logs R body) : Logs R (holdSlots body) := by
  intro s a s' hrun
  unfold holdSlots at hrun
  split_ifs at hrun
  · rcases hbody : body { s with slots.borrow := .mutable } with ⟨r, s₁⟩
    rw [hbody] at hrun
    cases hrun
    exact h { s with slots.borrow := .mutable } a s₁ hbody
  · cases hrun

theorem logs_of_quiet {β : Type} {m : ClusterM C α} {f : α → ClusterM C β} {Q : α → Prop}
    {S : β → List ClusterEvent → Prop}
    (hm : ∀ l, Prog.Keeps (fun s : ClusterConnection C => s.log = l) (fun _ => True) Q m)
    (hf : ∀ a, Q a → Logs S (f a)) : Logs S (m >>= f) := by
  refine .bind (.of_keeps hm) ?_
  rintro a xs ⟨rfl, ha⟩
  exact hf a ha

theorem ends_quiet (r : Ends α) (l : List ClusterEvent) :
    Prog.Keeps (fun s : ClusterConnection C => s.log = l) (fun _ => True) (fun a => r = .ok a) (ends r) := by
  refine .ofExcept ?_
  rcases r with p | a
  · trivial
  · rfl

end Rules

variable [Connect C] (env : ClusterEnv C)

variable {input : Input}

theorem send_not_serverError {con : C} {output : Output} (h : (input.send con).1 = .ok (.ok output)) :
    output.toValue.isServerError = false := by
  have hsing : ∀ r : RedisResult Value, (r.bind fun value => value.extractError.map .single) = .ok output →
      output.toValue.isServerError = false := by
    intro r hr
    obtain ⟨value, -, hr⟩ := exists_of_bind_eq_ok hr
    obtain ⟨value', hval, rfl⟩ := exists_of_map_eq_ok hr
    exact Value.extractError_not_serverError hval
  rcases input with ⟨bytes, routable⟩ | cmd | ⟨bytes, offset, count⟩
  · exact hsing _ (Except.ok.inj h)
  · exact hsing _ (Except.ok.inj h)
  · obtain ⟨r, -, hr⟩ := exists_of_map_eq_ok h
    obtain ⟨values, -, hr⟩ := exists_of_bind_eq_ok hr
    obtain ⟨values', -, rfl⟩ := exists_of_map_eq_ok hr
    rfl

/-- One request is logged, and what it returns is no server error. -/
def AttemptLog (input : Input) (addr : NodeAddress) (result : RedisResult Output) (events : List ClusterEvent) : Prop :=
  events = [.request addr input result] ∧ ∀ output, result = .ok output → output.toValue.isServerError = false

theorem sendInput_logs (input : Input) (addr : NodeAddress) (r : RedisResult (Link C)) :
    Logs (fun result events => AttemptLog input addr result events ∨
      events = [] ∧ ∃ e, r = .error e ∧ result = .error e) (sendInput input addr r) := by
  rcases r with e | link
  · exact .pure (.inr ⟨rfl, e, rfl, rfl⟩)
  · unfold sendInput
    refine logs_of_quiet (fun l => setLink_keeps (connInv_log l) trivial) fun _ _ => ?_
    refine logs_of_quiet (ends_quiet (input.send link.con).1) fun result hres => ?_
    refine .bind (.modify fun s => rfl) ?_
    rintro _ xs rfl
    refine .pure (.inl ⟨rfl, fun output hout => ?_⟩)
    exact send_not_serverError (hres.trans (congrArg _ hout))

def Attempted (input : Input) (node : NodeAddress) (redirected : Option Redirect)
    (r : NodeAddress × RedisResult Output) (events : List ClusterEvent) : Prop :=
  (redirected = none → r.1 = node) ∧
    (AttemptLog input r.1 r.2 events ∨
      events = [] ∧ ∃ e, r.2 = .error e ∧ (redirected = none → ∃ n, connectNode env node n = .error e))

theorem attempt_logs (input : Input) (host : String) (port : UInt16) (redirected : Option Redirect) :
    Logs (Attempted env input ⟨host, port⟩ redirected) (attempt env input (.byAddress host port) redirected) := by
  have htarget : ∀ l, Prog.Keeps (fun s : ClusterConnection C => s.log = l) (fun _ => True)
      (fun r => redirected = none → r.1 = ⟨host, port⟩ ∧ ConnectFailed env ⟨host, port⟩ r.2)
      (getTarget env (.byAddress host port) redirected) := by
    intro l
    rcases redirected with _ | redirect
    · exact .bind (getConnectionByAddr_keeps (connInv_log l) env _) fun r hr => .pure fun _ => ⟨rfl, hr.2⟩
    · exact .mono (getRedirected_keeps (connInv_log l) env redirect) nofun
  refine holdConnections_logs (logs_of_quiet htarget fun r hr => ?_)
  refine .bind (sendInput_logs input r.1 r.2) fun result xs hlog => .pure ⟨fun h => (hr h).1, ?_⟩
  rw [List.append_nil]
  rcases hlog with hlog | ⟨hnil, e, he, hres⟩
  · exact .inl hlog
  · exact .inr ⟨hnil, e, hres, fun h => (hr h).2 e he⟩

/-- The input is sent to the node first, unless connecting to it ended in a redirection. -/
def SentFirst (input : Input) (addr : NodeAddress) (events : List ClusterEvent) : Prop :=
  (∃ result, events.head? = some (.request addr input result)) ∨
    ∃ n e, connectNode env addr n = .error e ∧ redirectAddr e ≠ none

/-- The last event is the request that gives the output. -/
def AnsweredLast (input : Input) (output : Output) (events : List ClusterEvent) : Prop :=
  (∃ a, events.getLast? = some (.request a input (.ok output))) ∧ output.toValue.isServerError = false

variable {node : NodeAddress} {redirected : Option Redirect} {xs : List ClusterEvent}

theorem answered_of_attempt {addr : NodeAddress} {rv : Output}
    (hr : Attempted env input node redirected (addr, .ok rv) xs) (output : Output)
    (hout : (.ok rv : RedisResult Output) = .ok output) :
    (redirected = none → SentFirst env input node (xs ++ [])) ∧ AnsweredLast input output (xs ++ []) := by
  cases hout
  obtain ⟨haddr, ⟨rfl, hval⟩ | ⟨-, e, he, -⟩⟩ := hr
  · exact ⟨fun h => haddr h ▸ .inl ⟨_, rfl⟩, ⟨addr, rfl⟩, hval rv rfl⟩
  · cases he

theorem afterAttempt_logs {retries : Nat} {routing : SingleNodeRoutingInfo} {r : NodeAddress × RedisResult Output}
    (hr : Attempted env input node redirected r xs)
    (h : ∀ addr err, Attempted env input node redirected (addr, .error err) xs →
      Logs (fun r events => ∀ output, r = .ok output →
        (redirected = none → SentFirst env input node (xs ++ events)) ∧ AnsweredLast input output (xs ++ events))
        (requestAgain env input routing addr err retries)) :
    Logs (fun r events => ∀ output, r = .ok output →
        (redirected = none → SentFirst env input node (xs ++ events)) ∧ AnsweredLast input output (xs ++ events))
      (afterAttempt env input routing retries r) := by
  rcases r with ⟨addr, err | rv⟩
  · refine logs_of_quiet (fun l => reconnectInitial_keeps env (cellInv_log l) (.inl rfl) err) fun r _ => ?_
    rcases r with e | _
    · exact .pure nofun
    · exact h addr err hr
  · exact .pure (answered_of_attempt env hr)

theorem requestLoop_logs (input : Input) (host : String) (port : UInt16) (retries : Nat)
    (redirected : Option Redirect) :
    Logs (fun r events => ∀ output, r = .ok output →
        (redirected = none → SentFirst env input ⟨host, port⟩ events) ∧ AnsweredLast input output events)
      (requestLoop env input (.byAddress host port) retries redirected) := by
  induction retries generalizing redirected with
  | zero =>
    rw [requestLoop_eq]
    refine .bind (attempt_logs env input host port redirected) fun r xs hr => ?_
    exact afterAttempt_logs env hr fun _ _ _ => .pure nofun
  | succ retries ih =>
    rw [requestLoop_eq]
    refine .bind (attempt_logs env input host port redirected) fun r xs hr => ?_
    refine afterAttempt_logs env hr fun addr err hr => ?_
    refine logs_of_quiet (fun l => recover_keeps env (cellInv_log l) (.inl rfl) (fun _ => trivial) _ addr err) fun r hredir => ?_
    rcases r with e | redirected'
    · exact .pure nofun
    · refine .mono (ih redirected') fun r ys hys output hout => ?_
      obtain ⟨hsent, ⟨a, hlast⟩, hval⟩ := hys output hout
      refine ⟨fun hnone => ?_, ⟨a, by rw [List.getLast?_append, hlast, Option.some_or]⟩, hval⟩
      -- the first attempt was sent, or its error decides where the next one goes
      rcases hr.2 with ⟨rfl, -⟩ | ⟨rfl, e, he, hconnect⟩
      · have haddr : addr = ⟨host, port⟩ := hr.1 hnone
        subst haddr
        exact .inl ⟨.error err, rfl⟩
      · obtain ⟨n, hn⟩ := hconnect hnone
        cases he
        rcases redirected' with _ | redirect
        · exact hsent rfl
        · exact .inr ⟨n, err, hn, hredir redirect rfl⟩

/-- The input is sent to the node first, and the value is the answer to the last request. -/
def Reached (input : Input) (addr : NodeAddress) (value : Value) (events : List ClusterEvent) : Prop :=
  SentFirst env input addr events ∧ ∃ output, value = output.toValue ∧ AnsweredLast input output events

/-- The part of a plan: it was sent to the node, and answered with this value. -/
def ReachedPart (input : Input) (route : Route × List Nat) (result : NodeAddress × Value)
    (events : List ClusterEvent) : Prop :=
  ∃ part, commandForMultiSlotIndices input route.2 = .ok part ∧ events = [.part result.1 part (.ok result.2)]

/-- The results of the targets one after the other, with the events of each. -/
def Accounted {τ : Type} (T : τ → NodeAddress × Value → List ClusterEvent → Prop) (targets : List τ)
    (results : List (RedisResult (NodeAddress × Value))) (events : List ClusterEvent) : Prop :=
  ∃ parts : List (RedisResult (NodeAddress × Value) × List ClusterEvent), results = parts.map Prod.fst ∧
    events = (parts.map Prod.snd).flatten ∧
    List.Forall₂ (fun target part => ∀ result, part.1 = .ok result → T target result part.2) targets parts

variable {results : List (RedisResult (NodeAddress × Value))}

variable {events : List ClusterEvent} {result : NodeAddress × Value}

omit [Connect C] in
theorem Accounted.of_mem {τ : Type} {T : τ → NodeAddress × Value → List ClusterEvent → Prop} {targets : List τ}
    (h : Accounted T targets results events) (hmem : .ok result ∈ results) : ∃ target part, T target result part := by
  obtain ⟨parts, rfl, -, hparts⟩ := h
  obtain ⟨part, hpart, hres⟩ := List.mem_map.1 hmem
  obtain ⟨target, -, htarget⟩ := Prog.exists_of_forall₂ hparts hpart
  exact ⟨target, part.2, htarget result hres⟩

def ReachedNode (input : Input) (addr : NodeAddress) (result : NodeAddress × Value) (events : List ClusterEvent) :
    Prop :=
  result.1 = addr ∧ Reached env input addr result.2 events

theorem executeOnAll_logs (input : Input) (addresses : List NodeAddress) :
    Logs (fun results events => ∃ order : List NodeAddress, order.Perm addresses ∧
      Accounted (ReachedNode env input) order results events) (executeOnAll env input addresses) := by
  refine logs_of_quiet (fun l => choice_keeps (connInv_log l)) fun n _ => ?_
  refine .mono (.forEach (T := fun addr (result : RedisResult (NodeAddress × Value)) events =>
      ∀ p, result = .ok p → ReachedNode env input addr p events) fun addr _ => ?_)
    fun results events h => ⟨env.order n addresses, env.order_perm n addresses, h⟩
  refine .bind (requestLoop_logs env input addr.host addr.port env.numberOfRetries none) fun r xs hr => .pure ?_
  intro p hp
  obtain ⟨output, hout, rfl⟩ := exists_of_map_eq_ok hp
  obtain ⟨hsent, hans⟩ := hr output hout
  rw [List.append_nil]
  exact ⟨rfl, hsent rfl, output, rfl, hans⟩

variable {s s' : ClusterConnection C}

theorem executeOnAllOf_logs (input : Input) (addresses : SlotMap → List NodeAddress)
    (h : executeOnAllOf env input addresses s = (.ok results, s')) :
    ∃ events, s'.log = s.log ++ events ∧ ∃ order : List NodeAddress, order.Perm (addresses s.slots.value) ∧
      Accounted (ReachedNode env input) order results events := by
  have hlogs := holdSlots_logs (executeOnAll_logs env input (addresses s.slots.value))
  unfold executeOnAllOf at h
  by_cases hc : s.connections.borrow = .free
  · have hhold : holdConnections (pure ()) s = (.ok (), s) := by
      rw [holdConnections_of_free hc, ← hc]
      rfl
    rw [Prog.bind_of_ok hhold] at h
    exact hlogs s results s' h
  · have hhold : holdConnections (pure ()) s = (.error .alreadyBorrowed, s) := if_neg hc
    rw [Prog.bind_of_error hhold] at h
    cases h

theorem executePart_logs (input : Input) (slots : SlotMap) (route : Route × List Nat) :
    Logs (fun result events => ∀ p, result = .ok p → ReachedPart input route p events)
      (executePart env input slots route) := by
  have hpick : ∀ l, Prog.Keeps (fun s : ClusterConnection C => s.log = l) (fun _ => True) (fun _ => True)
      (readPick env) := fun l => .bind (choice_keeps (connInv_log l)) fun _ _ => .pure trivial
  refine logs_of_quiet hpick fun pick _ => ?_
  rcases slots.slotAddrForRoute route.1 pick with _ | addr
  · exact .pure nofun
  · refine logs_of_quiet (fun l => getConnectionByAddr_keeps (connInv_log l) env addr) fun r _ => ?_
    rcases r with e | link
    · exact .pure nofun
    · refine logs_of_quiet (ends_quiet (commandForMultiSlotIndices input route.2)) fun part hpart => ?_
      refine logs_of_quiet (fun l => setLink_keeps (connInv_log l) trivial) fun _ _ => ?_
      refine .bind (.modify fun s => rfl) ?_
      rintro _ xs rfl
      refine .pure fun p hp => ⟨part, hpart, ?_⟩
      obtain ⟨value, hval, rfl⟩ := exists_of_map_eq_ok hp
      exact congrArg (fun r => [ClusterEvent.part addr part r]) hval

/-- The results are those of the targets of the routing, each with its events. -/
def NodesAccounted (input : Input) (routing : MultipleNodeRoutingInfo) (slots : SlotMap)
    (results : List (RedisResult (NodeAddress × Value))) (events : List ClusterEvent) : Prop :=
  match routing with
  | .multiSlot routes _ => Accounted (ReachedPart input) routes results events
  | .allMasters => ∃ order : List NodeAddress, order.Perm slots.addressesForAllPrimaries ∧
    Accounted (ReachedNode env input) order results events
  | .allNodes => ∃ order : List NodeAddress, order.Perm slots.addressesForAllNodes ∧
    Accounted (ReachedNode env input) order results events

theorem NodesAccounted.not_serverError {routing : MultipleNodeRoutingInfo} {slots : SlotMap}
    (h : NodesAccounted env input routing slots results events)
    (hrout : ∀ routes pattern, routing ≠ .multiSlot routes pattern) (hmem : .ok result ∈ results) :
    result.2.isServerError = false := by
  have hnodes : ∃ order, Accounted (ReachedNode env input) order results events := by
    rcases routing with _ | _ | ⟨routes, pattern⟩
    · exact h.imp fun _ h => h.2
    · exact h.imp fun _ h => h.2
    · exact absurd rfl (hrout routes pattern)
  obtain ⟨order, hnodes⟩ := hnodes
  obtain ⟨addr, part, -, -, output, hval, -, hout⟩ := hnodes.of_mem hmem
  rw [hval]
  exact hout

theorem nodeResults_logs (input : Input) (routing : MultipleNodeRoutingInfo)
    (h : nodeResults env input routing s = (.ok results, s')) :
    ∃ events, s'.log = s.log ++ events ∧ NodesAccounted env input routing s.slots.value results events := by
  rcases routing with _ | _ | ⟨routes, pattern⟩
  · exact executeOnAllOf_logs env input _ h
  · exact executeOnAllOf_logs env input _ h
  · have hbody : Logs (Accounted (ReachedPart input) routes)
        (Prog.get >>= fun t => executeMultiSlot env input t.slots.value routes) :=
      .get_bind fun t => .forEach fun route _ => executePart_logs env input t.slots.value route
    exact holdConnections_logs (holdSlots_logs hbody) s results s' h

end ClusterConnection

end RedisRs.Cluster
