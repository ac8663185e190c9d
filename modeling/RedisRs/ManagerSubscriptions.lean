import RedisRs.ManagerSwaps

/-!
# Subscriptions across reconnections
-/

namespace RedisRs

open Function List Run ConnectionManager

theorem serverCommand_name (action : SubscriptionAction) (channels : List Bytes) :
    serverCommand (bytesOf action.name :: channels) = action.serverCommand channels := by
  cases action <;> rfl

namespace ManagerRequest

def Names (kind : SubscriptionKind) (x : Bytes) : ManagerRequest → Prop
  | command => False
  | subscription action channels => action.kind = kind ∧ x ∈ channels

/-- The call is on the channel or pattern: it names it, or it unsubscribes from all. -/
def Touches (kind : SubscriptionKind) (x : Bytes) : ManagerRequest → Prop
  | command => False
  | subscription action channels => action.kind = kind ∧ (x ∈ channels ∨ channels = [] ∧ action.additive = false)

def additive : ManagerRequest → Bool
  | command => false
  | subscription action _ => action.additive

instance (kind : SubscriptionKind) (x : Bytes) : DecidablePred (Names kind x)
  | command => inferInstanceAs (Decidable False)
  | subscription action channels => inferInstanceAs (Decidable (action.kind = kind ∧ x ∈ channels))

instance (kind : SubscriptionKind) (x : Bytes) : DecidablePred (Touches kind x)
  | command => inferInstanceAs (Decidable False)
  | subscription action channels =>
    inferInstanceAs (Decidable (action.kind = kind ∧ (x ∈ channels ∨ channels = [] ∧ action.additive = false)))

variable {kind : SubscriptionKind} {x : Bytes} {request : ManagerRequest} {subscribed subscribed' : ServerSubscriptions}

theorem Names.touches (h : request.Names kind x) : request.Touches kind x := by
  cases request with
  | command => exact h
  | subscription action channels => exact ⟨h.1, .inl h.2⟩

theorem apply_subscription (action : SubscriptionAction) (channels : List Bytes) :
    (subscription action channels).apply subscribed = subscribed.apply (action.serverCommand channels) := by
  rw [apply, AsyncCluster.words_ofArgs, serverCommand_name]

theorem mem_of_apply (h : request.apply subscribed = some subscribed') :
    x ∈ subscribed' kind ↔ if request.Touches kind x then request.additive = true else x ∈ subscribed kind := by
  cases request with
  | command =>
    cases h
    exact (if_neg id ▸ Iff.rfl)
  | subscription action channels =>
    rw [apply_subscription, SubscriptionAction.serverCommand] at h
    by_cases hkind : action.kind = kind
    · subst hkind
      cases hadd : action.additive <;> rw [hadd] at h <;> rcases channels with _ | ⟨c, channels⟩ <;> cases h
      · simp [Touches, additive, hadd]
      · simp [Touches, additive, hadd]
        tauto
      · simp [Touches, additive, hadd]
        tauto
    · have htouch : ¬ (subscription action channels).Touches kind x := fun ht => hkind ht.1
      rw [if_neg htouch]
      cases hadd : action.additive <;> rw [hadd] at h <;> rcases channels with _ | ⟨c, channels⟩ <;> cases h <;>
        rw [update_of_ne (Ne.symm hkind)]

end ManagerRequest

section Tracker

variable {kind : SubscriptionKind} {x : Bytes}

variable (iter : SetOrder) (t : SubscriptionTracker) (action : SubscriptionAction)

theorem SubscriptionTracker.mem_updateWithRequest (channels : List Bytes) :
    x ∈ (t.updateWithRequest action channels).set kind ↔
      if (ManagerRequest.subscription action channels).Names kind x then action.additive = true else x ∈ t.set kind := by
  rw [set_updateWithRequest]
  by_cases hkind : action.kind = kind
  · subst hkind
    rw [update_self]
    by_cases hx : x ∈ channels <;> cases hadd : action.additive <;> simp [ManagerRequest.Names, hx]
  · have hnames : ¬ (ManagerRequest.subscription action channels).Names kind x := fun h => hkind h.1
    rw [if_neg hnames, update_of_ne (Ne.symm hkind)]

theorem resubscribed_subscribeAgain (hadd : action.additive = true) (s : Finset Bytes)
    (subscribed : ServerSubscriptions) : (SubscriptionTracker.subscribeAgain iter action.name s).foldl
        (fun subscribed c => (subscribed.apply (serverCommand c.words)).getD subscribed) subscribed =
      update subscribed action.kind (subscribed action.kind ∪ s) := by
  rw [SubscriptionTracker.subscribeAgain]
  split
  · rename_i hs
    rw [hs, Finset.union_empty, update_eq_self]
    rfl
  · rename_i hs
    obtain ⟨c, channels, hlist⟩ := iter.exists_cons hs
    have hset : (c :: channels).toFinset = s := by
      ext x
      rw [← hlist, mem_toFinset, iter.mem_toList]
    rw [foldl_cons, foldl_nil, AsyncCluster.words_ofArgs, serverCommand_name, hlist,
      SubscriptionAction.serverCommand, if_pos hadd]
    show update subscribed action.kind (subscribed action.kind ∪ (c :: channels).toFinset) = _
    rw [hset]

theorem mem_resubscribed : x ∈ resubscribed (fun _ => ∅) (t.getSubscriptionPipeline iter) kind ↔ x ∈ t.set kind := by
  have hsub := resubscribed_subscribeAgain iter .subscribe rfl t.subscriptions
  have hssub := resubscribed_subscribeAgain iter .sSubscribe rfl t.sSubscriptions
  have hpsub := resubscribed_subscribeAgain iter .pSubscribe rfl t.pSubscriptions
  simp only [SubscriptionAction.name] at hsub hssub hpsub
  rw [resubscribed, SubscriptionTracker.getSubscriptionPipeline, foldl_append,
    foldl_append, hsub, hssub, hpsub]
  cases kind <;> simp [SubscriptionAction.kind, SubscriptionTracker.set]

end Tracker

def lastCall (p : CallResult → Prop) [DecidablePred p] (log : List CallResult) : Option CallResult :=
  (log.filter p).getLast?

def lastAsked (p : CallResult → Prop) [DecidablePred p] (before : Bool) (log : List CallResult) : Bool :=
  ((lastCall p log).map fun e => e.request.additive).getD before

section LastCall

variable {p : CallResult → Prop} [DecidablePred p] {log : List CallResult} {e : CallResult}

theorem lastCall_concat : lastCall p (log ++ [e]) = if p e then some e else lastCall p log := by
  by_cases he : p e <;> simp [lastCall, he]

theorem lastAsked_concat (before : Bool) :
    lastAsked p before (log ++ [e]) = if p e then e.request.additive else lastAsked p before log := by
  rw [lastAsked, lastCall_concat]
  split <;> rfl

theorem lastCall_eq_none (h : ∀ e ∈ log, ¬ p e) : lastCall p log = none := by
  rw [lastCall, getLast?_eq_none_iff, filter_eq_nil_iff]
  intro e he
  simp [h e he]

theorem mem_of_lastCall (h : lastCall p log = some e) : e ∈ log ∧ p e := by
  have hmem := mem_of_getLast? h
  simpa using hmem

end LastCall

structure ObservedManager where
  manager : ConnectionManager
  log : List CallResult
  seen : Nat → List CallResult

namespace ObservedManager

def seenAfter (s : ObservedManager) : ManagerStep → Nat → List CallResult
  | .snapshot i _ =>
    if ((s.manager.futures[i]?).map (·.stage.readsTracker)).getD false then update s.seen i s.log else s.seen
  | _ => s.seen

def step (s : ObservedManager) (a : ManagerStep) : Option (Option CallResult × ObservedManager) := do
  let (out, manager) ← s.manager.step a
  return (out, ⟨manager, s.log ++ out.toList, s.seenAfter a⟩)

def start : ObservedManager := ⟨.newLazy true true, [], fun _ => []⟩

/-- A call is on no channel or pattern that a call in progress is on. -/
def NoOverlap (s : ObservedManager) : ManagerStep → Prop
  | .load _ request => ∀ k call, s.manager.calls k = some call → ∀ kind x,
    ¬ (call.request.Touches kind x ∧ request.Touches kind x)
  | _ => True

/-- No call is in progress, and the current connection is there and was not lost. -/
structure Quiet (s : ObservedManager) : Prop where
  calls : ∀ k, s.manager.calls k = none
  healthy : ∃ future, s.manager.futures[s.manager.connection]? = some future ∧ future.stage = .ready ∧
    future.lost = false

def subscribed (s : ObservedManager) : ServerSubscriptions :=
  ((s.manager.futures[s.manager.connection]?).map (·.subscribed)).getD fun _ => ∅

/-- No call on the channel has returned an error. -/
def Untroubled (s : ObservedManager) (kind : SubscriptionKind) (x : Bytes) : Prop :=
  ∀ e ∈ s.log, e.ok = false → ¬ e.request.Touches kind x

def lastOn (s : ObservedManager) (kind : SubscriptionKind) (x : Bytes) : Option CallResult :=
  lastCall (fun e => e.request.Touches kind x) s.log

def tracked (log : List CallResult) (kind : SubscriptionKind) (x : Bytes) : Bool :=
  lastAsked (fun e => e.ok = true ∧ e.request.Names kind x) false log

/-- The last call on the channel ran on an earlier connection, and the current one was set up without it. -/
def Missed (s : ObservedManager) (kind : SubscriptionKind) (x : Bytes) : Prop :=
  ∃ e, s.lastOn kind x = some e ∧ e.guard ≠ s.manager.connection ∧
    tracked (s.seen s.manager.connection) kind x ≠ e.request.additive

/-- Calls on the same channel that come later have loaded no earlier future. -/
structure Ordered (s : ObservedManager) : Prop where
  current : s.manager.CurrentIsLast
  guards : ∀ {k call}, s.manager.calls k = some call → call.guard ≤ s.manager.connection
  logGuards : ∀ e ∈ s.log, e.guard ≤ s.manager.connection
  disjoint : ∀ {k k' call call'}, k ≠ k' → s.manager.calls k = some call → s.manager.calls k' = some call' →
    ∀ kind x, ¬ (call.request.Touches kind x ∧ call'.request.Touches kind x)
  before : ∀ {k call}, s.manager.calls k = some call → ∀ e ∈ s.log, ∀ kind x, e.request.Touches kind x →
    call.request.Touches kind x → e.guard ≤ call.guard
  log : s.log.Pairwise fun e e' => ∀ kind x, e.request.Touches kind x → e'.request.Touches kind x → e.guard ≤ e'.guard

section Steps

variable {s : ObservedManager} {m m' : ConnectionManager} {a : ManagerStep} {out : Option CallResult}

theorem calls_of_moves (hm : m.Moves a out m') {k : Nat} {call' : ManagerCall} (hk : m'.calls k = some call') :
    (∃ call, m.calls k = some call ∧ call'.request = call.request ∧ call'.guard = call.guard) ∨
      ∃ request, a = .load k request ∧ call' = ⟨request, m.connection, .loaded⟩ := by
  rcases call_of_moves hm hk with hold | hnew | ⟨call, phase, hold, -, -, -, rfl⟩
  · exact .inl ⟨call', hold, rfl, rfl⟩
  · exact .inr hnew
  · exact .inl ⟨call, hold, rfl, rfl⟩

theorem returned_of_moves (hm : m.Moves a out m') {e : CallResult} (he : e ∈ out.toList) :
    ∃ j call, m.calls j = some call ∧ m'.calls j = none ∧ e.request = call.request ∧ e.guard = call.guard ∧
      call.phase ≠ .loaded := by
  rw [Option.mem_toList] at he
  rcases calls_cases hm with ⟨-, rfl⟩ | ⟨j, request, -, -, -, rfl⟩ |
    ⟨j, call, phase, -, -, -, -, -, rfl⟩ | ⟨j, call, hj, hcalls, ⟨-, rfl, hphase⟩ | ⟨rfl, err, hphase⟩⟩ <;> cases he
  · refine ⟨j, call, hj, by rw [hcalls, update_self], rfl, rfl, ?_⟩
    rw [hphase]
    exact nofun
  · refine ⟨j, call, hj, by rw [hcalls, update_self], rfl, rfl, ?_⟩
    rcases hphase with hphase | hphase <;> rw [hphase] <;> exact nofun

theorem connection_le_of_moves (h : m.CurrentIsLast) (hm : m.Moves a out m') : m.connection ≤ m'.connection := by
  rcases connection_of_moves hm with heq | ⟨heq, -⟩
  · exact heq.ge
  · rw [heq, h]
    exact Nat.le_succ _

def after (s : ObservedManager) (a : ManagerStep) (out : Option CallResult) (m' : ConnectionManager) : ObservedManager :=
  ⟨m', s.log ++ out.toList, s.seenAfter a⟩

theorem Ordered.after (h : s.Ordered) (hover : s.NoOverlap a) (hm : s.manager.Moves a out m') :
    (s.after a out m').Ordered := by
  have hle := connection_le_of_moves h.current hm
  constructor
  case current => exact h.current.moves hm
  case guards =>
    intro k call' hk
    rcases calls_of_moves hm hk with ⟨call, hcall, -, hguard⟩ | ⟨request, -, rfl⟩
    · rw [hguard]
      exact (h.guards hcall).trans hle
    · exact hle
  case logGuards =>
    intro e he
    rcases mem_append.1 he with he | he
    · exact (h.logGuards e he).trans hle
    · obtain ⟨j, call, hj, -, -, hguard, -⟩ := returned_of_moves hm he
      rw [hguard]
      exact (h.guards hj).trans hle
  case disjoint =>
    intro k k' call call' hkk' hk hk' kind x
    rcases calls_of_moves hm hk with ⟨old, hold, hreq, -⟩ | ⟨request, rfl, rfl⟩ <;>
      rcases calls_of_moves hm hk' with ⟨old', hold', hreq', -⟩ | ⟨request', heq, rfl⟩
    · rw [hreq, hreq']
      exact h.disjoint hkk' hold hold' kind x
    · subst heq
      rw [hreq]
      exact hover k old hold kind x
    · rw [hreq', and_comm]
      exact hover k' old' hold' kind x
    · cases heq
      exact absurd rfl hkk'
  case before =>
    intro k call' hk e he kind x htouches htouches'
    rcases mem_append.1 he with he | he
    · rcases calls_of_moves hm hk with ⟨call, hcall, hreq, hguard⟩ | ⟨request, -, rfl⟩
      · rw [hguard]
        rw [hreq] at htouches'
        exact h.before hcall e he kind x htouches htouches'
      · exact h.logGuards e he
    · -- a call that has returned was disjoint from the others
      obtain ⟨j, call, hj, hnone, hreq, -, -⟩ := returned_of_moves hm he
      have hkj : j ≠ k := by
        rintro rfl
        cases hnone.symm.trans hk
      rw [hreq] at htouches
      rcases calls_of_moves hm hk with ⟨old, hold, hreq', -⟩ | ⟨request, rfl, rfl⟩
      · rw [hreq'] at htouches'
        exact absurd ⟨htouches, htouches'⟩ (h.disjoint hkj hj hold kind x)
      · exact absurd ⟨htouches, htouches'⟩ (hover j call hj kind x)
  case log =>
    refine pairwise_append.2 ⟨h.log, ?_, fun e he e' he' kind x htouches htouches' => ?_⟩
    · rcases out with _ | e
      · exact List.Pairwise.nil
      · exact pairwise_singleton _ _
    · obtain ⟨j, call, hj, -, hreq, hguard, -⟩ := returned_of_moves hm he'
      rw [hguard]
      rw [hreq] at htouches'
      exact h.before hj e he kind x htouches htouches'

/-- The tracker holds what the calls that have returned asked for. -/
def TrackerInv (s : ObservedManager) : Prop :=
  ∃ t, s.manager.subscriptionTracker = some t ∧ ∀ kind x, x ∈ t.set kind ↔ tracked s.log kind x = true

theorem TrackerInv.after (h : s.TrackerInv) (hm : s.manager.Moves a out m') : (s.after a out m').TrackerInv := by
  obtain ⟨t, ht, hmem⟩ := h
  -- only a subscription that has succeeded changes the tracker
  have hkept : m'.subscriptionTracker = s.manager.subscriptionTracker →
      (∀ e, out = some e → ∀ kind x, ¬ (e.ok = true ∧ e.request.Names kind x)) → (s.after a out m').TrackerInv := by
    refine fun htracker hout => ⟨t, htracker.trans ht, fun kind x => ?_⟩
    show _ ↔ tracked (s.log ++ out.toList) kind x = true
    rcases out with _ | e
    · rw [Option.toList_none, append_nil, hmem]
    · rw [Option.toList_some, tracked, lastAsked_concat, if_neg (hout e rfl kind x), hmem]
      rfl
  cases hm with
  | reconnectOnPush hhand => exact hkept (reconnect_subscriptionTracker _ _) nofun
  | updateTracker hj hphase =>
    rename_i j call
    rcases hreq : call.request with _ | ⟨action, channels⟩
    · rw [hreq] at hkept
      refine hkept rfl fun e he kind x hnames => ?_
      cases he
      exact hnames.2
    · refine ⟨t.updateWithRequest action channels, ?_, fun kind x => ?_⟩
      · show s.manager.subscriptionTracker.map _ = _
        rw [ht]
        rfl
      · show _ ↔ tracked (s.log ++ [_]) kind x = true
        rw [SubscriptionTracker.mem_updateWithRequest, tracked, lastAsked_concat]
        by_cases hnames : (ManagerRequest.subscription action channels).Names kind x
        · rw [if_pos hnames, if_pos ⟨rfl, hnames⟩]
          rfl
        · rw [if_neg hnames, if_neg fun h => hnames h.2, hmem]
          rfl
  | giveUp hj hphase =>
    refine hkept ?_ fun e he kind x hnames => ?_
    · split
      · exact reconnect_subscriptionTracker _ _
      · rfl
    · cases he
      cases hnames.1
  | _ => exact hkept rfl nofun

theorem seenAfter_eq_or (s : ObservedManager) (a : ManagerStep) (i : Nat) :
    s.seenAfter a i = s.seen i ∨ ∃ iter future, a = .snapshot i iter ∧ s.manager.futures[i]? = some future ∧
      future.stage.readsTracker = true ∧ s.seenAfter a i = s.log := by
  cases a with
  | snapshot k iter =>
    by_cases hreads : ((s.manager.futures[k]?).map (·.stage.readsTracker)).getD false = true
    · rw [seenAfter, if_pos hreads]
      by_cases hik : i = k
      · subst hik
        rcases hfut : s.manager.futures[i]? with _ | future <;> rw [hfut] at hreads
        · cases hreads
        · exact .inr ⟨iter, future, rfl, rfl, hreads, update_self ..⟩
      · exact .inl (update_of_ne hik ..)
    · rw [seenAfter, if_neg hreads]
      exact .inl rfl
  | _ => exact .inl rfl

def Resolved (m : ConnectionManager) (i : Nat) : Prop :=
  ∃ future, m.futures[i]? = some future ∧ future.stage.isResolved = true

theorem Resolved.moves {i : Nat} (h : Resolved m i) (hm : m.Moves a out m') : Resolved m' i := by
  obtain ⟨future, hi, hresolved⟩ := h
  obtain ⟨future', hi', hstage, -⟩ := future_of_moves hm hi
  exact ⟨future', hi', by rw [hstage hresolved, hresolved]⟩

/-- Calls go on once their future has resolved, and the tracker is read before that. -/
structure Timely (s : ObservedManager) : Prop where
  calls : ∀ {k call}, s.manager.calls k = some call → call.phase ≠ .loaded → Resolved s.manager call.guard
  log : ∀ e ∈ s.log, Resolved s.manager e.guard
  unseen : ∀ i, s.manager.futures.length ≤ i → s.seen i = []
  seen : ∀ i, ∀ e ∈ s.seen i, e ∈ s.log

theorem length_futures_le_of_moves (hm : m.Moves a out m') : m.futures.length ≤ m'.futures.length := by
  by_contra hlt
  obtain ⟨future', hi, -⟩ := future_of_moves hm
    (getElem?_eq_getElem (show m'.futures.length < m.futures.length by omega))
  have hlt' := (List.getElem?_eq_some_iff.1 hi).1
  omega

theorem Timely.after (h : s.Timely) (hm : s.manager.Moves a out m') : (s.after a out m').Timely := by
  constructor
  case calls =>
    intro k call' hk hphase
    rcases call_of_moves hm hk with hk | ⟨request, -, rfl⟩ | ⟨call, phase, -, -, -, hresolved, rfl⟩
    · exact (h.calls hk hphase).moves hm
    · exact absurd rfl hphase
    · exact Resolved.moves hresolved hm
  case log =>
    intro e he
    rcases mem_append.1 he with he | he
    · exact (h.log e he).moves hm
    · obtain ⟨j, call, hj, -, -, hguard, hphase⟩ := returned_of_moves hm he
      rw [hguard]
      exact (h.calls hj hphase).moves hm
  case unseen =>
    intro i hi
    have hlen := length_futures_le_of_moves hm
    rcases seenAfter_eq_or s a i with hseen | ⟨iter, future, -, hfut, -, -⟩
    · exact hseen.trans (h.unseen i (hlen.trans hi))
    · have hlt := (List.getElem?_eq_some_iff.1 hfut).1
      have hge : m'.futures.length ≤ i := hi
      omega
  case seen =>
    intro i e he
    refine mem_append_left _ ?_
    rcases seenAfter_eq_or s a i with hseen | ⟨iter, future, -, -, -, hseen⟩
    · exact h.seen i e (hseen ▸ he)
    · exact hseen ▸ he

/-- The call was answered on the connection of this future and has not updated the tracker yet. -/
structure Runs (calls : Nat → Option ManagerCall) (i : Nat) (kind : SubscriptionKind) (x : Bytes) (k : Nat)
    (call : ManagerCall) : Prop where
  calls : calls k = some call
  phase : call.phase = .ran
  guard : call.guard = i
  touches : call.request.Touches kind x

/-- No call on the channel has failed. -/
structure NoFailure (s : ObservedManager) (kind : SubscriptionKind) (x : Bytes) : Prop where
  log : s.Untroubled kind x
  calls : ∀ {k call err}, s.manager.calls k = some call → call.phase = .failing err → ¬ call.request.Touches kind x

/-- The server has what the call that runs on the connection asked for, or else what was asked for last. -/
structure Served (s : ObservedManager) (i : Nat) (subscribed : ServerSubscriptions) (kind : SubscriptionKind)
    (x : Bytes) : Prop where
  running : ∀ {k call}, Runs s.manager.calls i kind x k call → (x ∈ subscribed kind ↔ call.request.additive = true)
  settled : (∀ k call, ¬ Runs s.manager.calls i kind x k call) → (x ∈ subscribed kind ↔
    lastAsked (fun e => e.guard = i ∧ e.request.Touches kind x) (tracked (s.seen i) kind x) s.log = true)

/-- What a future has subscribed to and what was seen for it, at each stage. -/
def FutureInv (s : ObservedManager) (i : Nat) (future : ConnectionFuture) : Prop :=
  match future.stage with
  | .created _ | .connecting none => future.subscribed = (fun _ => ∅) ∧ s.seen i = []
  | .connecting (some pipeline) | .resubscribing pipeline => future.subscribed = (fun _ => ∅) ∧
    ∀ kind x, x ∈ resubscribed (fun _ => ∅) pipeline kind ↔ tracked (s.seen i) kind x = true
  | .ready => future.lost = false → ∀ kind x, s.NoFailure kind x → s.Served i future.subscribed kind x
  | .failed _ => True

section Stages

variable {i : Nat} {future : ConnectionFuture} {pipeline : Pipeline}

theorem FutureInv.unseen (h : s.FutureInv i future)
    (hstage : (∃ first, future.stage = .created first) ∨ future.stage = .connecting none) :
    future.subscribed = (fun _ => ∅) ∧ s.seen i = [] := by
  unfold FutureInv at h
  rcases hstage with ⟨first, hstage⟩ | hstage <;> rwa [hstage] at h

theorem FutureInv.resubscribing (h : s.FutureInv i future)
    (hstage : future.stage = .connecting (some pipeline) ∨ future.stage = .resubscribing pipeline) :
    future.subscribed = (fun _ => ∅) ∧
      ∀ kind x, x ∈ resubscribed (fun _ => ∅) pipeline kind ↔ tracked (s.seen i) kind x = true := by
  unfold FutureInv at h
  rcases hstage with hstage | hstage <;> rwa [hstage] at h

theorem FutureInv.ready (h : s.FutureInv i future) (hstage : future.stage = .ready) (hlost : future.lost = false)
    {kind : SubscriptionKind} {x : Bytes} (hno : s.NoFailure kind x) : s.Served i future.subscribed kind x := by
  unfold FutureInv at h
  rw [hstage] at h
  exact h hlost kind x hno

theorem futureInv_of_ready (hstage : future.stage = .ready)
    (h : future.lost = false → ∀ kind x, s.NoFailure kind x → s.Served i future.subscribed kind x) :
    s.FutureInv i future := by
  unfold FutureInv
  rwa [hstage]

end Stages

section Served

variable {kind : SubscriptionKind} {x : Bytes} {i : Nat} {subscribed : ServerSubscriptions}

theorem NoFailure.of_after (h : (s.after a out m').NoFailure kind x) (hm : s.manager.Moves a out m') :
    s.NoFailure kind x := by
  refine ⟨fun e he => h.log e (mem_append_left _ he), fun {k call err} hk hphase => ?_⟩
  rcases call_after_moves hm hk with hk' | hload | ⟨-, -, hran⟩ | ⟨rfl, -⟩
  · exact h.calls (k := k) hk' hphase
  · cases hphase.symm.trans hload
  · cases hphase.symm.trans hran
  · exact h.log ⟨call.request, call.guard, false⟩ (mem_append_right _ mem_cons_self) rfl

variable {future : ConnectionFuture} {s' : ObservedManager}

theorem Served.congr (h : s.Served i subscribed kind x)
    (hruns : ∀ k call, Runs s'.manager.calls i kind x k call ↔ Runs s.manager.calls i kind x k call)
    (hseen : s'.seen i = s.seen i)
    (hlog : ∀ before, lastAsked (fun e => e.guard = i ∧ e.request.Touches kind x) before s'.log =
      lastAsked (fun e => e.guard = i ∧ e.request.Touches kind x) before s.log) :
    s'.Served i subscribed kind x := by
  refine ⟨fun hrun => h.running ((hruns _ _).1 hrun), fun hnone => ?_⟩
  rw [hseen, hlog]
  exact h.settled fun k call hrun => hnone k call ((hruns k call).2 hrun)

theorem Served.of_mem_iff {subscribed' : ServerSubscriptions} (h : s.Served i subscribed kind x)
    (hmem : x ∈ subscribed' kind ↔ x ∈ subscribed kind) : s.Served i subscribed' kind x :=
  ⟨fun hrun => hmem.trans (h.running hrun), fun hnone => hmem.trans (h.settled hnone)⟩

theorem served_of_unresolved (htimely : s.Timely) (hi : s.manager.futures[i]? = some future)
    (hopen : future.stage.isResolved = false) (hmem : x ∈ subscribed kind ↔ tracked (s.seen i) kind x = true) :
    s.Served i subscribed kind x := by
  have hunresolved : ¬ Resolved s.manager i := by
    rintro ⟨future', hi', hresolved⟩
    cases hi.symm.trans hi'
    cases hopen.symm.trans hresolved
  constructor
  · intro k call hrun
    have hresolved := htimely.calls hrun.calls (by rw [hrun.phase]; exact nofun)
    rw [hrun.guard] at hresolved
    exact absurd hresolved hunresolved
  · intro _
    have hnone : ∀ e ∈ s.log, ¬ (e.guard = i ∧ e.request.Touches kind x) := fun e he h =>
      hunresolved (h.1 ▸ htimely.log e he)
    rw [lastAsked, lastCall_eq_none hnone]
    exact hmem

def keepsRuns : ManagerStep → Bool
  | .answer _ | .updateTracker _ => false
  | _ => true

theorem runs_iff_of_moves (hkeeps : keepsRuns a = true) (hm : m.Moves a out m') (k : Nat) (call : ManagerCall) :
    Runs m'.calls i kind x k call ↔ Runs m.calls i kind x k call := by
  constructor
  · intro hrun
    rcases call_of_moves hm hrun.calls with hold | ⟨request, -, rfl⟩ | ⟨old, phase, -, -, hran, -, rfl⟩
    · exact ⟨hold, hrun.phase, hrun.guard, hrun.touches⟩
    · cases hrun.phase
    · rw [hran hrun.phase] at hkeeps
      cases hkeeps
  · intro hrun
    rcases call_after_moves hm hrun.calls with hnew | hload | ⟨rfl, -⟩ | ⟨-, err, hphase⟩
    · exact ⟨hnew, hrun.phase, hrun.guard, hrun.touches⟩
    · cases hrun.phase.symm.trans hload
    · cases hkeeps
    · rcases hphase with hphase | hphase <;> cases hrun.phase.symm.trans hphase

theorem Served.after (h : s.Served i subscribed kind x) (hkeeps : keepsRuns a = true) (hm : s.manager.Moves a out m')
    (hno : (s.after a out m').NoFailure kind x) (hseen : s.seenAfter a i = s.seen i) :
    (s.after a out m').Served i subscribed kind x := by
  refine h.congr (runs_iff_of_moves hkeeps hm) hseen fun before => ?_
  show lastAsked _ before (s.log ++ out.toList) = _
  rcases calls_cases hm with ⟨-, rfl⟩ | ⟨j, request, -, -, -, rfl⟩ |
    ⟨j, call, phase, -, -, -, -, -, rfl⟩ | ⟨j, call, hj, -, ⟨rfl, -, -⟩ | ⟨rfl, -⟩⟩
  · exact congrArg _ (append_nil _)
  · exact congrArg _ (append_nil _)
  · exact congrArg _ (append_nil _)
  · cases hkeeps
  · have huntouched := hno.log ⟨call.request, call.guard, false⟩ (mem_append_right _ mem_cons_self) rfl
    exact (lastAsked_concat before).trans (if_neg fun htouched => huntouched htouched.2)

theorem FutureInv.congr (h : s.FutureInv i future) (hseen : s'.seen i = s.seen i)
    (hserved : ∀ {kind x}, s'.NoFailure kind x → s.NoFailure kind x ∧
      (s.Served i future.subscribed kind x → s'.Served i future.subscribed kind x)) : s'.FutureInv i future := by
  unfold FutureInv at h ⊢
  rcases hstage : future.stage with first | _ | _ | _ | _ <;> rw [hstage] at h <;> simp only at h ⊢
  · rwa [hseen]
  · rename_i commands
    rcases commands with _ | pipeline <;> simp only at h ⊢ <;> rwa [hseen]
  · rwa [hseen]
  · intro hlost kind x hno
    exact (hserved hno).2 (h hlost kind x (hserved hno).1)

end Served

/-- The tracker and the server of each future are in step with the calls. -/
structure Inv (s : ObservedManager) : Prop where
  ordered : s.Ordered
  timely : s.Timely
  tracker : s.TrackerInv
  futures : ∀ {i future}, s.manager.futures[i]? = some future → s.FutureInv i future

section Futures

variable {i : Nat} {future' : ConnectionFuture}

theorem FutureInv.after (h : s.FutureInv i future') (hkeeps : keepsRuns a = true) (hm : s.manager.Moves a out m')
    (hseen : s.seenAfter a i = s.seen i) : (s.after a out m').FutureInv i future' :=
  h.congr hseen fun hno => ⟨hno.of_after hm, fun hserved => hserved.after hkeeps hm hno hseen⟩

variable {future : ConnectionFuture}

theorem futureInv_snapshot (h : s.Inv) {iter : SetOrder} {first : Bool} (hi : s.manager.futures[i]? = some future)
    (hstage : future.stage = .created first) :
    (s.after (.snapshot i iter) out m').FutureInv i { future with
      stage := .connecting (if first then none else s.manager.subscriptionTracker.map (·.getSubscriptionPipeline iter)) } := by
  obtain ⟨hempty, hunseen⟩ := (h.futures hi).unseen (.inl ⟨first, hstage⟩)
  have hreads : ((s.manager.futures[i]?).map (·.stage.readsTracker)).getD false = !first := by
    rw [hi, Option.map_some, hstage]
    rfl
  cases first with
  | true =>
    refine ⟨hempty, ?_⟩
    show s.seenAfter (.snapshot i iter) i = []
    rw [seenAfter, if_neg (by rw [hreads]; decide), hunseen]
  | false =>
    obtain ⟨t, ht, htracked⟩ := h.tracker
    have hseen : s.seenAfter (.snapshot i iter) i = s.log := by
      rw [seenAfter, if_pos (by rw [hreads]; rfl), update_self]
    rw [ht]
    refine ⟨hempty, fun kind x => ?_⟩
    show _ ↔ tracked (s.seenAfter (.snapshot i iter) i) kind x = true
    rw [hseen, ← htracked, mem_resubscribed]

theorem getElem?_reconnect {current : Nat} (hi : (m.reconnect current).futures[i]? = some future') :
    m.futures[i]? = some future' ∨ i = m.futures.length ∧ future' = .new false := by
  unfold reconnect at hi
  split at hi
  · rcases Nat.lt_or_ge i m.futures.length with hlt | hge
    · rw [getElem?_append_left hlt] at hi
      exact .inl hi
    · rw [getElem?_append_right hge, getElem?_singleton, Option.ite_none_right_eq_some] at hi
      exact .inr ⟨by omega, (Option.some.inj hi.2).symm⟩
  · exact .inl hi

variable {j : Nat} {call : ManagerCall}

theorem runs_update_iff {calls : Nat → Option ManagerCall} {kind : SubscriptionKind} {x : Bytes}
    {new : Option ManagerCall} (hj : calls j = some call) (hother : ¬ (call.guard = i ∧ call.request.Touches kind x))
    (hnew : ∀ c, new = some c → c.guard = call.guard ∧ c.request = call.request) (k : Nat) (c : ManagerCall) :
    Runs (update calls j new) i kind x k c ↔ Runs calls i kind x k c := by
  by_cases hkj : k = j
  · subst hkj
    constructor
    · intro hrun
      obtain ⟨hguard, hreq⟩ := hnew c (by rw [← hrun.calls, update_self])
      exact absurd ⟨hguard ▸ hrun.guard, hreq ▸ hrun.touches⟩ hother
    · intro hrun
      cases hj.symm.trans hrun.calls
      exact absurd ⟨hrun.guard, hrun.touches⟩ hother
  · have hcalls : update calls j new k = calls k := update_of_ne hkj ..
    exact ⟨fun hrun => ⟨hcalls.symm.trans hrun.calls, hrun.phase, hrun.guard, hrun.touches⟩,
      fun hrun => ⟨hcalls.trans hrun.calls, hrun.phase, hrun.guard, hrun.touches⟩⟩

theorem futureInv_answer (h : s.Inv) {subscribed : ServerSubscriptions} (hj : s.manager.calls j = some call)
    (hphase : call.phase = .loaded) (hi : s.manager.futures[call.guard]? = some future)
    (hstage : future.stage = .ready) (hlost : future.lost = false)
    (happly : call.request.apply future.subscribed = some subscribed)
    (hm' : m' = (s.manager.setFuture call.guard { future with subscribed }).setCall j { call with phase := .ran })
    (hfut' : m'.futures[i]? = some future') : (s.after (.answer j) none m').FutureInv i future' := by
  have hm : s.manager.Moves (.answer j) none m' := hm' ▸ .answer hj hphase hi hstage hlost happly
  have hlog : (s.after (.answer j) none m').log = s.log := append_nil _
  have hother : ∀ {l kind x subs}, ¬ (call.guard = l ∧ call.request.Touches kind x) → s.Served l subs kind x →
      (s.after (.answer j) none m').Served l subs kind x := by
    intro l kind x subs hnot hserved
    refine hserved.congr (fun k c => ?_) rfl fun before => by rw [hlog]
    rw [after, hm']
    exact runs_update_iff hj hnot (by rintro _ ⟨⟩; exact ⟨rfl, rfl⟩) k c
  rw [hm'] at hfut'
  have hfuts : (s.manager.setFuture call.guard { future with subscribed }).futures[i]? = some future' := hfut'
  rcases of_setFuture_eq_some hi hfuts with ⟨rfl, rfl⟩ | ⟨hig, hfuts⟩
  · refine futureInv_of_ready hstage fun _ kind x hno => ?_
    have hserved := (h.futures hi).ready hstage hlost (hno.of_after hm)
    have hmem : x ∈ subscribed kind ↔ _ := ManagerRequest.mem_of_apply happly
    by_cases htouches : call.request.Touches kind x
    · rw [if_pos htouches] at hmem
      have hrun : Runs m'.calls call.guard kind x j { call with phase := .ran } := by
        refine ⟨?_, rfl, rfl, htouches⟩
        rw [hm']
        exact update_self ..
      refine ⟨fun {k c} hrun' => ?_, fun hnone => absurd hrun (hnone _ _)⟩
      rw [hmem]
      by_cases hkj : k = j
      · subst hkj
        cases hrun.calls.symm.trans hrun'.calls
        rfl
      · have hover : s.NoOverlap (.answer j) := trivial
        have hdisj := (h.ordered.after hover hm).disjoint hkj hrun'.calls hrun.calls kind x
        exact absurd ⟨hrun'.touches, hrun.touches⟩ hdisj
    · rw [if_neg htouches] at hmem
      exact (hother (fun hboth => htouches hboth.2) hserved).of_mem_iff hmem
  · exact (h.futures hfuts).congr rfl fun hno => ⟨hno.of_after hm, hother fun hboth => hig hboth.1⟩

theorem futureInv_updateTracker (h : s.Inv) (hj : s.manager.calls j = some call) (hphase : call.phase = .ran)
    (hm' : m' = (s.manager.updateSubscriptionTracker call.request).endCall j)
    (hfut' : m'.futures[i]? = some future') :
    (s.after (.updateTracker j) (some ⟨call.request, call.guard, true⟩) m').FutureInv i future' := by
  have hm : s.manager.Moves (.updateTracker j) (some ⟨call.request, call.guard, true⟩) m' :=
    hm' ▸ .updateTracker hj hphase
  have hcalls : m'.calls = update s.manager.calls j none := by
    rw [hm', endCall, updateSubscriptionTracker_calls]
  have hfuts : s.manager.futures[i]? = some future' := by
    rw [hm', endCall, updateSubscriptionTracker_futures] at hfut'
    exact hfut'
  refine (h.futures hfuts).congr rfl fun {kind x} hno => ⟨hno.of_after hm, fun hserved => ?_⟩
  by_cases hmine : call.guard = i ∧ call.request.Touches kind x
  · have hrun : Runs s.manager.calls i kind x j call := ⟨hj, hphase, hmine.1, hmine.2⟩
    constructor
    · -- a call that still runs is another one
      intro k c hrun'
      have hk : update s.manager.calls j none k = some c := hcalls ▸ hrun'.calls
      rcases eq_or_ne k j with rfl | hkj
      · cases (update_self ..).symm.trans hk
      · rw [update_of_ne hkj] at hk
        exact absurd ⟨hrun'.touches, hrun.touches⟩ (h.ordered.disjoint hkj hk hj kind x)
    · intro _
      rw [hserved.running hrun]
      show _ ↔ lastAsked _ _ (s.log ++ [_]) = true
      rw [lastAsked_concat, if_pos hmine]
  · refine hserved.congr (fun k c => ?_) rfl fun before => ?_
    · rw [after, hcalls]
      exact runs_update_iff hj hmine (fun _ h => by cases h) k c
    · show lastAsked _ before (s.log ++ [_]) = _
      rw [lastAsked_concat, if_neg hmine]

theorem futureInv_fail (h : s.Inv) {err : RedisError} {applied : Bool} (hj : s.manager.calls j = some call)
    (hphase : call.phase = .loaded) (hi : s.manager.futures[call.guard]? = some future)
    (hstage : future.stage = .ready)
    (hm' : m' = (s.manager.setFuture call.guard { future with
      subscribed := if applied then (call.request.apply future.subscribed).getD future.subscribed
        else future.subscribed }).setCall j { call with phase := .failing err })
    (hfut' : m'.futures[i]? = some future') : (s.after (.fail j err applied) none m').FutureInv i future' := by
  have hm : s.manager.Moves (.fail j err applied) none m' := hm' ▸ .fail err applied hj hphase hi hstage
  have hcall : m'.calls j = some { call with phase := .failing err } := by
    rw [hm']
    exact update_self ..
  have hkeep : ∀ {l f}, s.manager.futures[l]? = some f → (s.after (.fail j err applied) none m').FutureInv l f :=
    fun hl => (h.futures hl).after rfl hm rfl
  rw [hm'] at hfut'
  have hfuts : (s.manager.setFuture call.guard _).futures[i]? = some future' := hfut'
  rcases of_setFuture_eq_some hi hfuts with ⟨rfl, rfl⟩ | ⟨-, hfuts⟩
  · refine futureInv_of_ready hstage fun hlost kind x hno => ?_
    refine ((hkeep hi).ready hstage hlost hno).of_mem_iff ?_
    have huntouched : ¬ call.request.Touches kind x := by
      have hfailing := hno.calls (k := j) hcall rfl
      exact hfailing
    cases applied with
    | false => exact Iff.rfl
    | true =>
      rcases happly : call.request.apply future.subscribed with _ | subscribed
      · exact Iff.rfl
      · exact (ManagerRequest.mem_of_apply happly).trans (by rw [if_neg huntouched])
  · exact hkeep hfuts

theorem futureInv_setFuture (h : s.Inv) {k : Nat} {old new : ConnectionFuture} (hkeeps : keepsRuns a = true)
    (hm : s.manager.Moves a out m') (hseen : s.seenAfter a = s.seen) (hk : s.manager.futures[k]? = some old)
    (hnew : s.FutureInv k new) (hfuts : m'.futures = (s.manager.setFuture k new).futures)
    (hfut' : m'.futures[i]? = some future') : (s.after a out m').FutureInv i future' := by
  rw [hfuts] at hfut'
  rcases of_setFuture_eq_some hk hfut' with ⟨rfl, rfl⟩ | ⟨-, hold⟩
  · exact hnew.after hkeeps hm (by rw [hseen])
  · exact (h.futures hold).after hkeeps hm (by rw [hseen])

theorem futureInv_reconnect (h : s.Inv) {current : Nat} (hm : s.manager.Moves a out m') (hkeeps : keepsRuns a = true)
    (hseen : s.seenAfter a = s.seen) (heq : m.futures = s.manager.futures)
    (hi : (m.reconnect current).futures[i]? = some future') : (s.after a out m').FutureInv i future' := by
  rcases getElem?_reconnect hi with hi | ⟨rfl, rfl⟩
  · exact (h.futures (heq ▸ hi)).after hkeeps hm (by rw [hseen])
  · refine ⟨rfl, ?_⟩
    show s.seenAfter a m.futures.length = []
    rw [hseen, heq]
    exact h.timely.unseen _ (le_rfl)

theorem FutureInv.lose (h : s.FutureInv i future) : s.FutureInv i { future with lost := true } := by
  unfold FutureInv at h ⊢
  rcases hstage : future.stage with _ | (_ | _) | _ | _ | _ <;> simp only [hstage] at h ⊢
  iterate 4 exact h
  exact nofun

theorem futureInv_after (h : s.Inv) (hm : s.manager.Moves a out m') (hi' : m'.futures[i]? = some future') :
    (s.after a out m').FutureInv i future' := by
  have hmoves := hm
  cases hm with
  | load request hj => exact (h.futures hi').after rfl hmoves rfl
  | readPush hpush => exact (h.futures hi').after rfl hmoves rfl
  | refuse hj hphase hi hstage => exact (h.futures hi').after rfl hmoves rfl
  | answer hj hphase hi hstage hlost happly => exact futureInv_answer h hj hphase hi hstage hlost happly rfl hi'
  | fail err applied hj hphase hi hstage => exact futureInv_fail h hj hphase hi hstage rfl hi'
  | updateTracker hj hphase => exact futureInv_updateTracker h hj hphase rfl hi'
  | reconnectOnPush hhand => exact futureInv_reconnect h hmoves rfl rfl rfl hi'
  | @giveUp j call err hj hphase =>
    by_cases hreconnects : call.phase.reconnects = true
    · rw [if_pos hreconnects] at hi'
      refine futureInv_reconnect h hmoves rfl rfl ?_ hi'
      rfl
    · rw [if_neg hreconnects] at hi'
      exact (h.futures hi').after rfl hmoves rfl
  | @snapshot k iter future first hk hstage =>
    rcases of_setFuture_eq_some hk hi' with ⟨rfl, rfl⟩ | ⟨hki, hold⟩
    · exact futureInv_snapshot h hk hstage
    · refine (h.futures hold).after rfl hmoves ?_
      rcases seenAfter_eq_or s (.snapshot k iter) i with heq | ⟨_, _, heq, _⟩
      · exact heq
      · cases heq
        exact absurd rfl hki
  | connectFails err hk hstage =>
    refine futureInv_setFuture h rfl hmoves rfl hk ?_ rfl hi'
    exact trivial
  | connected hk hstage =>
    obtain ⟨hempty, hunseen⟩ := (h.futures hk).unseen (.inr hstage)
    refine futureInv_setFuture h rfl hmoves rfl hk (futureInv_of_ready rfl fun _ kind x _ => ?_) rfl hi'
    refine served_of_unresolved h.timely hk (by rw [hstage]; rfl) ?_
    rw [hempty, hunseen]
    simp [tracked, lastAsked, lastCall]
  | connectedFirst hk hstage =>
    refine futureInv_setFuture h rfl hmoves rfl hk ?_ rfl hi'
    exact (h.futures hk).resubscribing (.inl hstage)
  | @resubscribe k future pipeline hk hstage =>
    obtain ⟨hempty, hmem⟩ := (h.futures hk).resubscribing (.inr hstage)
    refine futureInv_setFuture h rfl hmoves rfl hk (futureInv_of_ready rfl fun hlost kind x _ => ?_) rfl hi'
    have hlost : future.lost = false := hlost
    refine served_of_unresolved h.timely hk (by rw [hstage]; rfl) ?_
    simp only [hlost, hempty]
    exact hmem kind x
  | lose hk => exact futureInv_setFuture h rfl hmoves rfl hk (h.futures hk).lose rfl hi'
  | notify hk hlost =>
    have hold := h.futures hk
    refine futureInv_setFuture h rfl hmoves rfl hk ?_ rfl hi'
    exact hold

end Futures

theorem Inv.after (h : s.Inv) (hover : s.NoOverlap a) (hm : s.manager.Moves a out m') : (s.after a out m').Inv :=
  ⟨h.ordered.after hover hm, h.timely.after hm, h.tracker.after hm, futureInv_after h hm⟩

end Steps

theorem start_inv : start.Inv where
  ordered :=
    { current := rfl
      guards := nofun
      logGuards := nofun
      disjoint := nofun
      before := nofun
      log := List.Pairwise.nil }
  timely :=
    { calls := nofun
      log := nofun
      unseen := fun _ _ => rfl
      seen := fun _ e he => by cases he }
  tracker := ⟨.new, rfl, fun kind x => by cases kind <;> simp [SubscriptionTracker.set, SubscriptionTracker.new, tracked,
    start, lastAsked, lastCall]⟩
  futures := by
    intro i future hi
    rcases i with _ | i
    · cases hi
      exact ⟨rfl, rfl⟩
    · cases hi

theorem moves_of_step {s s' : ObservedManager} {a : ManagerStep} {out : Option CallResult}
    (h : s.step a = some (out, s')) : ∃ m', s.manager.Moves a out m' ∧ s' = s.after a out m' := by
  obtain ⟨⟨out', m'⟩, hstep, heq⟩ := Option.bind_eq_some_iff.1 h
  cases heq
  exact ⟨m', ConnectionManager.moves_of_step hstep, rfl⟩

theorem inv_of_run {s : ObservedManager} {steps : List ManagerStep} {outs : List (Option CallResult)}
    (hover : Along step (fun s a _ _ => s.NoOverlap a) start steps) (hrun : run step start steps = some (outs, s)) :
    s.Inv :=
  run_inv_of_along (fun _ _ _ _ hinv hover hstep => by
    obtain ⟨m', hm, rfl⟩ := moves_of_step hstep
    exact hinv.after hover hm) start_inv hover hrun

section Quiet

variable {s : ObservedManager} {kind : SubscriptionKind} {x : Bytes}

theorem Inv.mem_subscribed (h : s.Inv) (hquiet : s.Quiet) (hx : s.Untroubled kind x) :
    x ∈ s.subscribed kind ↔ lastAsked (fun e => e.guard = s.manager.connection ∧ e.request.Touches kind x)
      (tracked (s.seen s.manager.connection) kind x) s.log = true := by
  obtain ⟨future, hfut, hstage, hlost⟩ := hquiet.healthy
  have hidle : s.NoFailure kind x := ⟨hx, fun {k} _ _ hk => by cases (hquiet.calls k).symm.trans hk⟩
  rw [subscribed, hfut]
  exact ((h.futures hfut).ready hstage hlost hidle).settled fun k call hruns => by
    cases (hquiet.calls k).symm.trans hruns.calls

theorem tracked_eq_false {log : List CallResult} (h : ∀ e ∈ log, ¬ e.request.Touches kind x) :
    tracked log kind x = false := by
  rw [tracked, lastAsked, lastCall_eq_none fun e he hp => h e he hp.2.touches]
  rfl

theorem Ordered.lastCall_guard (h : s.Ordered) {e : CallResult} (hlast : s.lastOn kind x = some e) :
    lastCall (fun e => e.guard = s.manager.connection ∧ e.request.Touches kind x) s.log =
      if e.guard = s.manager.connection then some e else none := by
  obtain ⟨es, hes⟩ := getLast?_eq_some_iff.1 hlast
  have hfilter : lastCall (fun e => e.guard = s.manager.connection ∧ e.request.Touches kind x) s.log =
      ((es ++ [e]).filter fun e => e.guard = s.manager.connection).getLast? := by
    rw [lastCall, ← hes, filter_filter]
    simp
  rw [hfilter]
  by_cases hguard : e.guard = s.manager.connection
  · rw [if_pos hguard]
    simp [hguard]
  · rw [if_neg hguard, getLast?_eq_none_iff, filter_eq_nil_iff]
    have hlt : e.guard < s.manager.connection :=
      Nat.lt_of_le_of_ne (h.logGuards e (mem_of_lastCall hlast).1) hguard
    have hsort := h.log.filter fun e => e.request.Touches kind x
    rw [hes] at hsort
    have htouches : ∀ e' ∈ es ++ [e], e'.request.Touches kind x := fun e' he' => by
      rw [← hes] at he'
      exact of_decide_eq_true (mem_filter.1 he').2
    intro e' he' heq
    rw [decide_eq_true_eq] at heq
    rcases mem_append.1 he' with he'' | he''
    · have hle := (pairwise_append.1 hsort).2.2 e' he'' e mem_cons_self kind x (htouches e' he')
        (htouches e (mem_append_right _ mem_cons_self))
      omega
    · cases mem_singleton.1 he''
      exact hguard heq

theorem Inv.mem_subscribed_iff (h : s.Inv) (hquiet : s.Quiet) (hx : s.Untroubled kind x) :
    (x ∈ s.subscribed kind ↔ ∃ e, s.lastOn kind x = some e ∧ e.request.additive = true) ↔ ¬ s.Missed kind x := by
  rw [h.mem_subscribed hquiet hx, lastAsked]
  rcases hlast : s.lastOn kind x with _ | e
  · -- nothing was asked for, so nothing was in the tracker
    have huntouched : ∀ e ∈ s.log, ¬ e.request.Touches kind x := by
      intro e he htouches
      have hnil := filter_eq_nil_iff.1 (getLast?_eq_none_iff.1 hlast) e he
      exact hnil (decide_eq_true htouches)
    rw [lastCall_eq_none fun e he hp => huntouched e he hp.2,
      tracked_eq_false fun e he => huntouched e (h.timely.seen _ e he)]
    simp [Missed, hlast]
  · rw [h.ordered.lastCall_guard hlast]
    by_cases hguard : e.guard = s.manager.connection
    · simp [Missed, hlast, hguard]
    · have hmissed : s.Missed kind x ↔ tracked (s.seen s.manager.connection) kind x ≠ e.request.additive := by
        simp [Missed, hlast, hguard]
      rw [hmissed, not_not, if_neg hguard, Bool.eq_iff_iff]
      simp

end Quiet

/-- When no call is in progress and the current connection is healthy, the server has of a channel what the last call on
it asked for, exactly if the call was not missed. -/
theorem subscriptions_kept_iff {steps : List ManagerStep} {outs : List (Option CallResult)} {s : ObservedManager}
    (hover : Along step (fun s a _ _ => s.NoOverlap a) start steps) (hrun : run step start steps = some (outs, s))
    (hquiet : s.Quiet) {kind : SubscriptionKind} {x : Bytes} (hx : s.Untroubled kind x) :
    (x ∈ s.subscribed kind ↔ ∃ e, s.lastOn kind x = some e ∧ e.request.additive = true) ↔ ¬ s.Missed kind x :=
  (inv_of_run hover hrun).mem_subscribed_iff hquiet hx

def keptSteps (iter : SetOrder) : List ManagerStep :=
  [.snapshot 0 iter, .connect 0 (.ok ()), .load 0 (.subscription .subscribe [[99]]), .answer 0, .lose 0,
    .load 1 .command, .fail 1 closedConnectionError false, .giveUp 1, .updateTracker 0, .snapshot 1 iter,
    .connect 1 (.ok ()), .resubscribe 1]

theorem along_noOverlap_of_subscribe (iter : SetOrder) {steps : List ManagerStep}
    (h : ∀ a ∈ steps, ∀ s : ObservedManager, s.NoOverlap a) :
    Along step (fun s a _ _ => s.NoOverlap a) start ([.snapshot 0 iter, .connect 0 (.ok ()),
      .load 0 (.subscription .subscribe [[99]]), .answer 0, .lose 0, .load 1 .command] ++ steps) := by
  have hrest : ∀ s, Along step (fun s a _ _ => s.NoOverlap a) s steps := fun s =>
    along_mono (I := fun _ => True) (fun s a _ _ _ _ hall => ⟨hall s, trivial⟩) trivial (along_of_forall h s)
  refine along_cons rfl trivial (along_cons rfl trivial (along_cons rfl (fun k call hk => ?_) ?_))
  · cases hk
  exact along_cons rfl trivial (along_cons rfl trivial (along_cons rfl (fun _ _ _ _ _ h => h.2) (hrest _)))

theorem keptSteps_keep_subscription :
    Nonempty SetOrder ∧ ∀ iter, ∃ outs s, run step start (keptSteps iter) = some (outs, s) ∧ s.Quiet ∧
      [99] ∈ s.subscribed .channel := by
  refine ⟨SetOrder.nonempty, fun iter => ?_⟩
  obtain ⟨outs, s, hrun, hlog, hseen, hconnection, hquiet⟩ : ∃ outs s, run step start (keptSteps iter) = some (outs, s) ∧
      s.log = [⟨.command, 0, false⟩, ⟨.subscription .subscribe [[99]], 0, true⟩] ∧
      s.seen 1 = [⟨.command, 0, false⟩, ⟨.subscription .subscribe [[99]], 0, true⟩] ∧ s.manager.connection = 1 ∧
      s.Quiet :=
    ⟨_, _, rfl, rfl, rfl, rfl, fun k => by rcases k with _ | _ | k <;> rfl, _, rfl, rfl, rfl⟩
  have hover : Along step (fun s a _ _ => s.NoOverlap a) start (keptSteps iter) :=
    along_noOverlap_of_subscribe iter (by simp [NoOverlap])
  have hlast : s.lastOn .channel [99] = some ⟨.subscription .subscribe [[99]], 0, true⟩ := by
    rw [lastOn, hlog]
    rfl
  have hx : s.Untroubled .channel [99] := by
    rw [Untroubled, hlog]
    decide
  have hmissed : ¬ s.Missed .channel [99] := by
    rintro ⟨e, he, -, hne⟩
    rw [hlast] at he
    cases he
    rw [hconnection, hseen] at hne
    exact hne (by decide)
  exact ⟨outs, s, hrun, hquiet, ((subscriptions_kept_iff hover hrun hquiet hx).2 hmissed).2 ⟨_, hlast, rfl⟩⟩

theorem tracker_read_early_loses_subscription :
    Nonempty SetOrder ∧ ∀ iter, ∃ steps outs s,
      steps = [.snapshot 0 iter, .connect 0 (.ok ()), .load 0 (.subscription .subscribe [[99]]), .answer 0, .lose 0,
        .load 1 .command, .fail 1 closedConnectionError false, .giveUp 1, .snapshot 1 iter, .updateTracker 0,
        .connect 1 (.ok ()), .resubscribe 1] ∧
      Along step (fun s a _ _ => s.NoOverlap a) start steps ∧ run step start steps = some (outs, s) ∧ s.Quiet ∧
      s.manager.handling = none ∧ s.Untroubled .channel [99] ∧
      s.lastOn .channel [99] = some ⟨.subscription .subscribe [[99]], 0, true⟩ ∧ [99] ∉ s.subscribed .channel := by
  refine ⟨SetOrder.nonempty, fun iter => ⟨_, _, _, rfl, ?_, rfl,
    ⟨fun k => (by rcases k with _ | _ | k <;> rfl), _, rfl, rfl, rfl⟩, rfl, ?_, ?_, ?_⟩⟩
  · exact along_noOverlap_of_subscribe iter (by simp [NoOverlap])
  · show ∀ e ∈ [CallResult.mk .command 0 false, CallResult.mk (.subscription .subscribe [[99]]) 0 true], _
    decide
  · rfl
  · exact Finset.notMem_empty _

end ObservedManager

end RedisRs
