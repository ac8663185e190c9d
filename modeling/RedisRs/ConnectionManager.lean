import RedisRs.Resubscribe

/-!
# The connection manager

Clones share a future of one connection, which is swapped in the background when it fails.
-/

namespace RedisRs

open Function

def SubscriptionAction.name : SubscriptionAction → String
  | subscribe => "SUBSCRIBE"
  | unsubscribe => "UNSUBSCRIBE"
  | pSubscribe => "PSUBSCRIBE"
  | pUnsubscribe => "PUNSUBSCRIBE"
  | sSubscribe => "SSUBSCRIBE"
  | sunsubscribe => "SUNSUBSCRIBE"

inductive ManagerRequest
  /-- `send_packed_command` or `send_packed_commands`, of commands that change no subscription. -/
  | command
  /-- `subscribe`, `unsubscribe`, `psubscribe` or `punsubscribe`. -/
  | subscription (action : SubscriptionAction) (channels : List Bytes)

def ManagerRequest.apply (subscribed : ServerSubscriptions) : ManagerRequest → Option ServerSubscriptions
  | command => some subscribed
  | subscription action channels =>
    subscribed.apply (serverCommand (Cmd.ofArgs (bytesOf action.name :: channels)).words)

inductive FutureStage
  /-- Not polled yet. The first future of a manager does not look at the tracker. -/
  | created (first : Bool)
  | connecting (additionalCommands : Option Pipeline)
  | resubscribing (pipeline : Pipeline)
  | ready
  | failed (err : RedisError)

def FutureStage.isResolved : FutureStage → Bool
  | ready | failed _ => true
  | _ => false

def FutureStage.readsTracker : FutureStage → Bool
  | created first => !first
  | _ => false

structure ConnectionFuture where
  stage : FutureStage
  lost : Bool
  notified : Bool
  subscribed : ServerSubscriptions

def ConnectionFuture.new (first : Bool) : ConnectionFuture := ⟨.created first, false, false, fun _ => ∅⟩

inductive CallPhase
  | loaded
  | ran
  | refused (err : RedisError)
  | failing (err : RedisError)

def CallPhase.reconnects : CallPhase → Bool
  | refused err => err.isIoError
  | failing err => err.isUnrecoverableError
  | _ => false

structure ManagerCall where
  request : ManagerRequest
  guard : Nat
  phase : CallPhase

structure CallResult where
  request : ManagerRequest
  guard : Nat
  ok : Bool

structure ConnectionManager where
  futures : List ConnectionFuture
  connection : Nat
  subscriptionTracker : Option SubscriptionTracker
  pushSender : Bool
  /-- The `Disconnection` pushes that were not read yet. What the source does not know: whose they are. -/
  pushes : List Nat
  handling : Option Nat
  calls : Nat → Option ManagerCall

inductive ManagerStep
  | load (j : Nat) (request : ManagerRequest)
  | snapshot (i : Nat) (iter : SetOrder)
  | connect (i : Nat) (result : RedisResult Unit)
  | resubscribe (i : Nat)
  | lose (i : Nat)
  | notify (i : Nat)
  | readPush
  | reconnectOnPush
  | refuse (j : Nat)
  | answer (j : Nat)
  /-- The command may have reached the server all the same. -/
  | fail (j : Nat) (err : RedisError) (applied : Bool)
  | updateTracker (j : Nat)
  | giveUp (j : Nat)

namespace ConnectionManager

def newLazy (resubscribeAutomatically pushSender : Bool) : ConnectionManager where
  futures := [.new true]
  connection := 0
  subscriptionTracker := if resubscribeAutomatically then some .new else none
  pushSender := pushSender
  pushes := []
  handling := none
  calls := fun _ => none

def setFuture (m : ConnectionManager) (i : Nat) (future : ConnectionFuture) : ConnectionManager :=
  { m with futures := m.futures.set i future }

def setCall (m : ConnectionManager) (j : Nat) (call : ManagerCall) : ConnectionManager :=
  { m with calls := update m.calls j (some call) }

def endCall (m : ConnectionManager) (j : Nat) : ConnectionManager := { m with calls := update m.calls j none }

def reconnect (m : ConnectionManager) (current : Nat) : ConnectionManager :=
  if m.connection = current then { m with futures := m.futures ++ [.new false], connection := m.futures.length } else m

def resubscribed (subscribed : ServerSubscriptions) (pipeline : Pipeline) : ServerSubscriptions :=
  pipeline.commands.foldl (fun subscribed c => (subscribed.apply (serverCommand c.words)).getD subscribed) subscribed

def updateSubscriptionTracker (m : ConnectionManager) : ManagerRequest → ConnectionManager
  | .command => m
  | .subscription action channels =>
    { m with subscriptionTracker := m.subscriptionTracker.map (·.updateWithRequest action channels) }

def step (m : ConnectionManager) : ManagerStep → Option (Option CallResult × ConnectionManager)
  | .load j request =>
    match m.calls j with
    | none => some (none, m.setCall j ⟨request, m.connection, .loaded⟩)
    | some _ => none
  | .snapshot i iter => do
    let future ← m.futures[i]?
    let .created first := future.stage | none
    let additionalCommands := if first then none else m.subscriptionTracker.map (·.getSubscriptionPipeline iter)
    return (none, m.setFuture i { future with stage := .connecting additionalCommands })
  | .connect i result => do
    let future ← m.futures[i]?
    let .connecting additionalCommands := future.stage | none
    let stage := match result, additionalCommands with
      | .error err, _ => .failed err
      | .ok _, some pipeline => .resubscribing pipeline
      | .ok _, none => .ready
    return (none, m.setFuture i { future with stage })
  | .resubscribe i => do
    let future ← m.futures[i]?
    let .resubscribing pipeline := future.stage | none
    -- a failure is ignored
    let subscribed := if future.lost then future.subscribed else resubscribed future.subscribed pipeline
    return (none, m.setFuture i { future with stage := .ready, subscribed })
  | .lose i => do
    let future ← m.futures[i]?
    match future.stage with
    | .resubscribing _ | .ready => return (none, m.setFuture i { future with lost := true })
    | _ => none
  | .notify i => do
    let future ← m.futures[i]?
    if m.pushSender && future.lost && !future.notified then
      return (none, { m.setFuture i { future with notified := true } with pushes := m.pushes ++ [i] })
    else none
  | .readPush =>
    match m.handling, m.pushes with
    | none, _ :: pushes => some (none, { m with pushes, handling := some m.connection })
    | _, _ => none
  | .reconnectOnPush => do
    let current ← m.handling
    return (none, { m.reconnect current with handling := none })
  | .refuse j => do
    let call ← m.calls j
    let future ← m.futures[call.guard]?
    match call.phase, future.stage with
    | .loaded, .failed err => return (none, m.setCall j { call with phase := .refused err })
    | _, _ => none
  | .answer j => do
    let call ← m.calls j
    let future ← m.futures[call.guard]?
    match call.phase, future.stage, future.lost with
    | .loaded, .ready, false =>
      let subscribed ← call.request.apply future.subscribed
      return (none, (m.setFuture call.guard { future with subscribed }).setCall j { call with phase := .ran })
    | _, _, _ => none
  | .fail j err applied => do
    let call ← m.calls j
    let future ← m.futures[call.guard]?
    match call.phase, future.stage with
    | .loaded, .ready =>
      let subscribed :=
        if applied then (call.request.apply future.subscribed).getD future.subscribed else future.subscribed
      return (none, (m.setFuture call.guard { future with subscribed }).setCall j { call with phase := .failing err })
    | _, _ => none
  | .updateTracker j => do
    let call ← m.calls j
    match call.phase with
    | .ran =>
      return (some ⟨call.request, call.guard, true⟩, (m.updateSubscriptionTracker call.request).endCall j)
    | _ => none
  | .giveUp j => do
    let call ← m.calls j
    match call.phase with
    | .refused _ | .failing _ =>
      return (some ⟨call.request, call.guard, false⟩,
        if call.phase.reconnects then (m.endCall j).reconnect call.guard else m.endCall j)
    | _ => none

section Fields

variable (m : ConnectionManager) (current : Nat) (request : ManagerRequest)

@[simp] theorem reconnect_calls : (m.reconnect current).calls = m.calls := by
  unfold reconnect
  split <;> rfl

@[simp] theorem reconnect_handling : (m.reconnect current).handling = m.handling := by
  unfold reconnect
  split <;> rfl

@[simp] theorem reconnect_subscriptionTracker :
    (m.reconnect current).subscriptionTracker = m.subscriptionTracker := by
  unfold reconnect
  split <;> rfl

theorem reconnect_connection :
    (m.reconnect current).connection = if m.connection = current then m.futures.length else m.connection := by
  unfold reconnect
  split <;> rfl

@[simp] theorem updateSubscriptionTracker_calls : (m.updateSubscriptionTracker request).calls = m.calls := by
  cases request <;> rfl

@[simp] theorem updateSubscriptionTracker_handling :
    (m.updateSubscriptionTracker request).handling = m.handling := by
  cases request <;> rfl

@[simp] theorem updateSubscriptionTracker_futures :
    (m.updateSubscriptionTracker request).futures = m.futures := by
  cases request <;> rfl

@[simp] theorem updateSubscriptionTracker_connection :
    (m.updateSubscriptionTracker request).connection = m.connection := by
  cases request <;> rfl

end Fields

theorem of_update_eq_some {calls : Nat → Option ManagerCall} {j k : Nat} {new : Option ManagerCall} {call : ManagerCall}
    (h : update calls j new k = some call) : k = j ∧ new = some call ∨ calls k = some call := by
  by_cases hkj : k = j
  · rw [hkj, update_self] at h
    exact .inl ⟨hkj, h⟩
  · rw [update_of_ne hkj] at h
    exact .inr h

/-- The steps one by one: when they can be taken, what is returned, and the state after them. -/
inductive Moves (m : ConnectionManager) : ManagerStep → Option CallResult → ConnectionManager → Prop
  | load {j : Nat} (request : ManagerRequest) (hj : m.calls j = none) :
    Moves m (.load j request) none (m.setCall j ⟨request, m.connection, .loaded⟩)
  | snapshot {i : Nat} (iter : SetOrder) {future : ConnectionFuture} {first : Bool} (hi : m.futures[i]? = some future)
    (hstage : future.stage = .created first) :
    Moves m (.snapshot i iter) none (m.setFuture i { future with
      stage := .connecting (if first then none else m.subscriptionTracker.map (·.getSubscriptionPipeline iter)) })
  | connectFails {i : Nat} (err : RedisError) {future : ConnectionFuture} {commands : Option Pipeline}
    (hi : m.futures[i]? = some future) (hstage : future.stage = .connecting commands) :
    Moves m (.connect i (.error err)) none (m.setFuture i { future with stage := .failed err })
  | connected {i : Nat} {future : ConnectionFuture} (hi : m.futures[i]? = some future)
    (hstage : future.stage = .connecting none) :
    Moves m (.connect i (.ok ())) none (m.setFuture i { future with stage := .ready })
  | connectedFirst {i : Nat} {future : ConnectionFuture} {pipeline : Pipeline} (hi : m.futures[i]? = some future)
    (hstage : future.stage = .connecting (some pipeline)) :
    Moves m (.connect i (.ok ())) none (m.setFuture i { future with stage := .resubscribing pipeline })
  | resubscribe {i : Nat} {future : ConnectionFuture} {pipeline : Pipeline} (hi : m.futures[i]? = some future)
    (hstage : future.stage = .resubscribing pipeline) :
    Moves m (.resubscribe i) none (m.setFuture i { future with
      stage := .ready
      subscribed := if future.lost then future.subscribed else resubscribed future.subscribed pipeline })
  | lose {i : Nat} {future : ConnectionFuture} (hi : m.futures[i]? = some future) :
    Moves m (.lose i) none (m.setFuture i { future with lost := true })
  | notify {i : Nat} {future : ConnectionFuture} (hi : m.futures[i]? = some future) (hlost : future.lost = true) :
    Moves m (.notify i) none { m.setFuture i { future with notified := true } with pushes := m.pushes ++ [i] }
  | readPush {push : Nat} {pushes : List Nat} (hpushes : m.pushes = push :: pushes) :
    Moves m .readPush none { m with pushes, handling := some m.connection }
  | reconnectOnPush {current : Nat} (hhandling : m.handling = some current) :
    Moves m .reconnectOnPush none { m.reconnect current with handling := none }
  | refuse {j : Nat} {call : ManagerCall} {future : ConnectionFuture} {err : RedisError} (hj : m.calls j = some call)
    (hphase : call.phase = .loaded) (hi : m.futures[call.guard]? = some future) (hstage : future.stage = .failed err) :
    Moves m (.refuse j) none (m.setCall j { call with phase := .refused err })
  | answer {j : Nat} {call : ManagerCall} {future : ConnectionFuture} {subscribed : ServerSubscriptions}
    (hj : m.calls j = some call) (hphase : call.phase = .loaded) (hi : m.futures[call.guard]? = some future)
    (hstage : future.stage = .ready) (hlost : future.lost = false)
    (happly : call.request.apply future.subscribed = some subscribed) :
    Moves m (.answer j) none
      ((m.setFuture call.guard { future with subscribed }).setCall j { call with phase := .ran })
  | fail {j : Nat} (err : RedisError) (applied : Bool) {call : ManagerCall} {future : ConnectionFuture}
    (hj : m.calls j = some call) (hphase : call.phase = .loaded) (hi : m.futures[call.guard]? = some future)
    (hstage : future.stage = .ready) :
    Moves m (.fail j err applied) none
      ((m.setFuture call.guard { future with
        subscribed := if applied then (call.request.apply future.subscribed).getD future.subscribed
          else future.subscribed }).setCall j { call with phase := .failing err })
  | updateTracker {j : Nat} {call : ManagerCall} (hj : m.calls j = some call) (hphase : call.phase = .ran) :
    Moves m (.updateTracker j) (some ⟨call.request, call.guard, true⟩)
      ((m.updateSubscriptionTracker call.request).endCall j)
  | giveUp {j : Nat} {call : ManagerCall} {err : RedisError} (hj : m.calls j = some call)
    (hphase : call.phase = .refused err ∨ call.phase = .failing err) :
    Moves m (.giveUp j) (some ⟨call.request, call.guard, false⟩)
      (if call.phase.reconnects then (m.endCall j).reconnect call.guard else m.endCall j)

variable {m m' : ConnectionManager} {a : ManagerStep} {out : Option CallResult}

theorem moves_of_step (h : m.step a = some (out, m')) : m.Moves a out m' := by
  cases a with
  | load j request =>
    rcases hj : m.calls j with _ | call <;> simp only [step, hj] at h <;> cases h
    exact .load request hj
  | snapshot i iter =>
    obtain ⟨future, hi, h⟩ := Option.bind_eq_some_iff.1 h
    rcases hstage : future.stage with first | _ | _ | _ | _ <;> rw [hstage] at h <;> cases h
    exact .snapshot iter hi hstage
  | connect i result =>
    obtain ⟨future, hi, h⟩ := Option.bind_eq_some_iff.1 h
    rcases hstage : future.stage with _ | commands | _ | _ | _ <;> rw [hstage] at h <;> try cases h
    rcases result with err | _
    · exact .connectFails err hi hstage
    · rcases commands with _ | pipeline
      · exact .connected hi hstage
      · exact .connectedFirst hi hstage
  | resubscribe i =>
    obtain ⟨future, hi, h⟩ := Option.bind_eq_some_iff.1 h
    rcases hstage : future.stage with _ | _ | pipeline | _ | _ <;> rw [hstage] at h <;> cases h
    exact .resubscribe hi hstage
  | lose i =>
    obtain ⟨future, hi, h⟩ := Option.bind_eq_some_iff.1 h
    split at h <;> cases h <;> exact .lose hi
  | notify i =>
    obtain ⟨future, hi, h⟩ := Option.bind_eq_some_iff.1 h
    split at h
    · rename_i hcond
      cases h
      simp only [Bool.and_eq_true] at hcond
      exact .notify hi hcond.1.2
    · cases h
  | readPush =>
    rcases hpushes : m.pushes with _ | ⟨push, pushes⟩ <;> rcases hhandling : m.handling with _ | _ <;>
      simp only [step, hpushes, hhandling] at h <;> cases h
    exact .readPush hpushes
  | reconnectOnPush =>
    obtain ⟨current, hhandling, h⟩ := Option.bind_eq_some_iff.1 h
    cases h
    exact .reconnectOnPush hhandling
  | refuse j =>
    obtain ⟨call, hj, h⟩ := Option.bind_eq_some_iff.1 h
    obtain ⟨future, hi, h⟩ := Option.bind_eq_some_iff.1 h
    split at h
    · rename_i hphase hstage
      cases h
      exact .refuse hj hphase hi hstage
    · cases h
  | answer j =>
    obtain ⟨call, hj, h⟩ := Option.bind_eq_some_iff.1 h
    obtain ⟨future, hi, h⟩ := Option.bind_eq_some_iff.1 h
    split at h
    · rename_i hphase hstage hlost
      obtain ⟨subscribed, happly, h⟩ := Option.bind_eq_some_iff.1 h
      cases h
      exact .answer hj hphase hi hstage hlost happly
    · cases h
  | fail j err applied =>
    obtain ⟨call, hj, h⟩ := Option.bind_eq_some_iff.1 h
    obtain ⟨future, hi, h⟩ := Option.bind_eq_some_iff.1 h
    split at h
    · rename_i hphase hstage
      cases h
      exact .fail err applied hj hphase hi hstage
    · cases h
  | updateTracker j =>
    obtain ⟨call, hj, h⟩ := Option.bind_eq_some_iff.1 h
    split at h
    · rename_i hphase
      cases h
      exact .updateTracker hj hphase
    · cases h
  | giveUp j =>
    obtain ⟨call, hj, h⟩ := Option.bind_eq_some_iff.1 h
    split at h
    · rename_i err hphase
      cases h
      exact .giveUp hj (.inl hphase)
    · rename_i err hphase
      cases h
      exact .giveUp hj (.inr hphase)
    · cases h

theorem calls_cases (hm : m.Moves a out m') :
    (m'.calls = m.calls ∧ out = none) ∨
    (∃ j request, a = .load j request ∧ m.calls j = none ∧
      m'.calls = update m.calls j (some ⟨request, m.connection, .loaded⟩) ∧ out = none) ∨
    (∃ j call phase, m.calls j = some call ∧ call.phase = .loaded ∧ (phase = .ran → a = .answer j) ∧
      (∃ future, m.futures[call.guard]? = some future ∧ future.stage.isResolved = true) ∧
      m'.calls = update m.calls j (some { call with phase }) ∧ out = none) ∨
    ∃ j call, m.calls j = some call ∧ m'.calls = update m.calls j none ∧
      ((a = .updateTracker j ∧ out = some ⟨call.request, call.guard, true⟩ ∧ call.phase = .ran) ∨
        (out = some ⟨call.request, call.guard, false⟩ ∧ ∃ err, call.phase = .refused err ∨
          call.phase = .failing err)) := by
  cases hm with
  | load request hj => exact .inr (.inl ⟨_, request, rfl, hj, rfl, rfl⟩)
  | reconnectOnPush hhandling => exact .inl ⟨reconnect_calls m _, rfl⟩
  | refuse hj hphase hi hstage =>
    exact .inr (.inr (.inl ⟨_, _, _, hj, hphase, fun h => (by cases h), ⟨_, hi, by rw [hstage]; rfl⟩, rfl, rfl⟩))
  | answer hj hphase hi hstage hlost happly =>
    exact .inr (.inr (.inl ⟨_, _, _, hj, hphase, fun _ => rfl, ⟨_, hi, by rw [hstage]; rfl⟩, rfl, rfl⟩))
  | fail err applied hj hphase hi hstage =>
    exact .inr (.inr (.inl ⟨_, _, _, hj, hphase, fun h => (by cases h), ⟨_, hi, by rw [hstage]; rfl⟩, rfl, rfl⟩))
  | updateTracker hj hphase =>
    refine .inr (.inr (.inr ⟨_, _, hj, ?_, .inl ⟨rfl, rfl, hphase⟩⟩))
    rw [endCall, updateSubscriptionTracker_calls]
  | giveUp hj hphase =>
    refine .inr (.inr (.inr ⟨_, _, hj, ?_, .inr ⟨rfl, _, hphase⟩⟩))
    split
    · exact reconnect_calls _ _
    · rfl
  | _ => exact .inl ⟨rfl, rfl⟩

theorem call_of_moves (hm : m.Moves a out m') {k : Nat} {call' : ManagerCall} (hk : m'.calls k = some call') :
    m.calls k = some call' ∨
    (∃ request, a = .load k request ∧ call' = ⟨request, m.connection, .loaded⟩) ∨
    ∃ call phase, m.calls k = some call ∧ call.phase = .loaded ∧ (phase = .ran → a = .answer k) ∧
      (∃ future, m.futures[call.guard]? = some future ∧ future.stage.isResolved = true) ∧
      call' = { call with phase } := by
  rcases calls_cases hm with ⟨hcalls, -⟩ | ⟨j, request, rfl, -, hcalls, -⟩ |
    ⟨j, call, phase, hj, hload, hran, hresolved, hcalls, -⟩ | ⟨j, call, -, hcalls, -⟩ <;> rw [hcalls] at hk
  · exact .inl hk
  all_goals rcases of_update_eq_some hk with ⟨rfl, hnew⟩ | hk
  · cases hnew
    exact .inr (.inl ⟨request, rfl, rfl⟩)
  · exact .inl hk
  · cases hnew
    exact .inr (.inr ⟨call, phase, hj, hload, hran, hresolved, rfl⟩)
  · exact .inl hk
  · cases hnew
  · exact .inl hk

theorem call_after_moves (hm : m.Moves a out m') {k : Nat} {call : ManagerCall} (hk : m.calls k = some call) :
    m'.calls k = some call ∨ call.phase = .loaded ∨
    (a = .updateTracker k ∧ out = some ⟨call.request, call.guard, true⟩ ∧ call.phase = .ran) ∨
    (out = some ⟨call.request, call.guard, false⟩ ∧ ∃ err, call.phase = .refused err ∨ call.phase = .failing err) := by
  rcases calls_cases hm with ⟨hcalls, -⟩ | ⟨j, request, rfl, hj, hcalls, -⟩ |
    ⟨j, call, phase, hj, hload, -, -, hcalls, -⟩ | ⟨j, call, hj, hcalls, hout⟩ <;> rw [hcalls]
  · exact .inl hk
  all_goals by_cases hkj : k = j
  all_goals first | (rw [hkj, hj] at hk; cases hk) | rw [update_of_ne hkj]
  · exact .inl hk
  · exact .inr (.inl hload)
  · exact .inl hk
  · rw [hkj]
    exact .inr (.inr hout)
  · exact .inl hk

theorem getElem?_setFuture {i k : Nat} {future future' : ConnectionFuture} (hk : m.futures[k]? = some future) :
    (m.setFuture k future').futures[i]? = if k = i then some future' else m.futures[i]? := by
  have hlt := (List.getElem?_eq_some_iff.1 hk).1
  rw [setFuture]
  by_cases hki : k = i
  · rw [if_pos hki, ← hki, List.getElem?_set_self hlt]
  · rw [if_neg hki, List.getElem?_set_ne hki]

theorem of_setFuture_eq_some {i k : Nat} {future new future' : ConnectionFuture} (hk : m.futures[k]? = some future)
    (h : (m.setFuture k new).futures[i]? = some future') :
    i = k ∧ future' = new ∨ k ≠ i ∧ m.futures[i]? = some future' := by
  rw [getElem?_setFuture hk] at h
  by_cases hki : k = i
  · rw [if_pos hki] at h
    exact .inl ⟨hki.symm, (Option.some.inj h).symm⟩
  · rw [if_neg hki] at h
    exact .inr ⟨hki, h⟩

theorem future_of_moves (hm : m.Moves a out m') {i : Nat} {future : ConnectionFuture}
    (hi : m.futures[i]? = some future) :
    ∃ future', m'.futures[i]? = some future' ∧ (future.stage.isResolved = true → future'.stage = future.stage) ∧
      (future.lost = true → future'.lost = true) := by
  have hsame : ∃ future', m.futures[i]? = some future' ∧
      (future.stage.isResolved = true → future'.stage = future.stage) ∧ (future.lost = true → future'.lost = true) :=
    ⟨future, hi, fun _ => rfl, id⟩
  have hset : ∀ {k old new}, m.futures[k]? = some old → (old.stage.isResolved = true → new.stage = old.stage) →
      (old.lost = true → new.lost = true) →
      ∃ future', (m.setFuture k new).futures[i]? = some future' ∧
        (future.stage.isResolved = true → future'.stage = future.stage) ∧ (future.lost = true → future'.lost = true) := by
    intro k old new hk hstage hlost
    rw [getElem?_setFuture hk]
    by_cases hki : k = i
    · rw [hki, hi] at hk
      cases hk
      exact ⟨new, if_pos hki, hstage, hlost⟩
    · rw [if_neg hki]
      exact hsame
  have hrec : ∀ current, ∃ future', (m.reconnect current).futures[i]? = some future' ∧
      (future.stage.isResolved = true → future'.stage = future.stage) ∧ (future.lost = true → future'.lost = true) := by
    intro current
    unfold reconnect
    split
    · refine ⟨future, ?_, fun _ => rfl, id⟩
      rw [List.getElem?_append_left (List.getElem?_eq_some_iff.1 hi).1, hi]
    · exact hsame
  have hopen : ∀ {stage stage' : FutureStage}, stage.isResolved = false → stage.isResolved = true → stage' = stage :=
    fun hfalse htrue => by rw [hfalse] at htrue; cases htrue
  cases hm with
  | load request hj => exact hsame
  | snapshot iter hk hstage => exact hset hk (hopen (by rw [hstage]; rfl)) id
  | connectFails err hk hstage => exact hset hk (hopen (by rw [hstage]; rfl)) id
  | connected hk hstage => exact hset hk (hopen (by rw [hstage]; rfl)) id
  | connectedFirst hk hstage => exact hset hk (hopen (by rw [hstage]; rfl)) id
  | resubscribe hk hstage => exact hset hk (hopen (by rw [hstage]; rfl)) id
  | lose hk => exact hset hk (fun _ => rfl) fun _ => rfl
  | notify hk hlost => exact hset hk (fun _ => rfl) id
  | readPush hpushes => exact hsame
  | reconnectOnPush hhandling => exact hrec _
  | refuse hj hphase hk hstage => exact hsame
  | answer hj hphase hk hstage hlost happly => exact hset hk (fun _ => rfl) id
  | fail err applied hj hphase hk hstage => exact hset hk (fun _ => rfl) id
  | updateTracker hj hphase =>
    rename_i j call
    rw [endCall, updateSubscriptionTracker_futures]
    exact hsame
  | giveUp hj hphase =>
    rename_i j call err
    split
    · have hsplit : ((m.endCall j).reconnect call.guard).futures = (m.reconnect call.guard).futures := by
        unfold reconnect endCall
        split <;> rfl
      rw [hsplit]
      exact hrec _
    · exact hsame

end ConnectionManager

end RedisRs
