import RedisRs.ClusterInner
import RedisRs.Run

/-!
# Flushing the requests of the asynchronous cluster connection
-/

namespace RedisRs.AsyncCluster

variable {C : Type}

inductive ConnectionState
  | pollComplete
  | recoverSlots
  | reconnectInitial
deriving DecidableEq

def PollFlushAction.changeState : PollFlushAction → PollFlushAction → PollFlushAction
  | .none, nextState => nextState
  | nextState, .none => nextState
  | .reconnectFromInitialConnections, _ => .reconnectFromInitialConnections
  | _, .reconnectFromInitialConnections => .reconnectFromInitialConnections
  | .rebuildSlots, _ => .rebuildSlots
  | _, .rebuildSlots => .rebuildSlots
  | .reconnect addrs, .reconnect newAddrs => .reconnect (addrs ++ newAddrs.filter (· ∉ addrs))

@[simp] theorem PollFlushAction.changeState_eq_none {action nextState : PollFlushAction} :
    action.changeState nextState = .none ↔ action = .none ∧ nextState = .none := by
  cases action <;> cases nextState <;> simp [changeState]

def CmdArg.isFanOut : CmdArg C → Bool
  | .cmd _ (.multiNode _ _) => true
  | _ => false

structure Turn (C : Type) where
  index : Nat
  queued : List (CmdArg C)
  outcome : Option OperationResult

namespace ClusterConnInner

def pushAll (inner : ClusterConnInner C) (external : Bool) (cmds : List (CmdArg C)) : ClusterConnInner C :=
  cmds.foldl (fun inner cmd => inner.push external cmd) inner

def running (inner : ClusterConnInner C) (i : Nat) : Option (QueuedRequest C × RetryParams) :=
  inner.inFlightRequests[i]?.bind fun r =>
    match r.request, r.state with
    | some request, .future =>
      if inner.callers.isClosed request.sender then none else some (request, r.retryParams)
    | _, _ => none

def runFuture (inner : ClusterConnInner C) (turn : Turn C) : ClusterConnInner C :=
  if (inner.running turn.index).any (·.1.cmd.isFanOut) then inner.pushAll true turn.queued else inner

def isReady (inner : ClusterConnInner C) (turn : Turn C) : Bool :=
  turn.outcome.isSome || (inner.inFlightRequests[turn.index]?.bind (·.request)).all (inner.callers.isClosed ·.sender)

end ClusterConnInner

structure Polling (C : Type) where
  inner : ClusterConnInner C
  action : PollFlushAction
  polled : Nat
  woken : Bool

namespace Polling

def start (inner : ClusterConnInner C) : Polling C := ⟨inner, .none, 0, false⟩

def step (p : Polling C) (turn : Turn C) : Option (Unit × Polling C) :=
  if p.woken then none
  else (((p.inner.runFuture turn).pollRequest turn.index turn.outcome).bind Except.toOption).map fun (next, inner) =>
    if p.inner.isReady turn then ((), ⟨inner, p.action.changeState next, 0, false⟩)
    else ((), ⟨inner, p.action, p.polled + 1, p.polled + 1 == p.inner.inFlightRequests.length⟩)

end Polling

inductive Flushed
  | ready
  | pending
deriving DecidableEq

structure Flushing (C : Type) extends ClusterConnInner C where
  state : ConnectionState
  woken : Bool
  flushing : Bool

structure Round (C : Type) where
  reconnected : List (CmdArg C)
  recover : Option (RedisResult Unit)
  resubscribed : List (CmdArg C)
  turns : List (Turn C)
  woken : Bool

namespace Flushing

def new (retryParams : RetryParams) (random : Nat → Nat) : Flushing C :=
  ⟨.new retryParams random, .pollComplete, false, false⟩

def pollRecover (s : Flushing C) (round : Round C) : Option (RedisResult Unit) × Flushing C :=
  match s.state, round.recover with
  | .pollComplete, _ => (some (.ok ()), s)
  | _, none => (none, s)
  | .recoverSlots, some (.error err) => (some (.error err), s)
  | _, some _ =>
    (some (.ok ()),
      { s with toClusterConnInner := s.pushAll false round.resubscribed, state := .pollComplete })

def beginRound (s : Flushing C) (round : Round C) : Ends (Option (RedisResult Unit) × Flushing C) := do
  let inner ← s.sendRefreshError
  return pollRecover { s with
    toClusterConnInner := inner.pushAll false round.reconnected
    woken := s.flushing && s.woken || round.woken } round

def endRound (s : Flushing C) (p : Polling C) : Option Flushed × Flushing C :=
  let s := { s with toClusterConnInner := p.inner, woken := s.woken || p.woken }
  match p.action with
  | .none => (some (if p.inner.inFlightRequests.isEmpty then .ready else .pending), s)
  | .rebuildSlots => (none, { s with state := .recoverSlots })
  | .reconnect _ => (none, s)
  | .reconnectFromInitialConnections => (none, { s with state := .reconnectInitial })

def pollRound (s : Flushing C) (round : Round C) : Option (Option Flushed × Flushing C) :=
  match s.beginRound round with
  | .error _ => none
  | .ok (none, s) => some (some .pending, s)
  | .ok (some (.error err), s) => some (some .pending, { s with refreshError := some err, woken := true })
  | .ok (some (.ok _), s) => (Run.run Polling.step (.start s.dispatchPending) round.turns).map fun (_, p) => s.endRound p

inductive Event (C : Type)
  | startSend (external : Bool) (cmd : CmdArg C)
  | dropReceiver (sender : Nat)
  | round (round : Round C)

def step (s : Flushing C) : Event C → Option (Option Flushed × Flushing C)
  | .startSend external cmd =>
    if s.flushing then none else some (none, { s with toClusterConnInner := s.push external cmd })
  | .dropReceiver sender =>
    some (none, { s with callers := { s.callers with dropped := sender :: s.callers.dropped } })
  | .round round => (s.pollRound round).map fun (flushed, s) => (flushed, { s with flushing := flushed.isNone })

end Flushing

/-- A node answered with an error that makes the request be tried again at once, such as a timeout. -/
def RetriesAtOnce (result : OperationResult) (request : PendingRequest C) (numberOfRetries : Nat) : Prop :=
  request.cmd.isReconnect = false ∧ request.retry < numberOfRetries ∧ (∃ address, result.1 = .node address) ∧
    ∃ err, OperationResult.errorToActOn result = some err ∧ err.retryMethod = .retryImmediately

/-- The future that is polled puts a request into the queue. -/
def ClusterConnInner.Refills (inner : ClusterConnInner C) (turn : Turn C) : Prop :=
  ∃ request retryParams, inner.running turn.index = some (request, retryParams) ∧
    (request.cmd.isFanOut = true ∧ turn.queued ≠ [] ∨
      ∃ result, turn.outcome = some result ∧ RetriesAtOnce result request.toPendingRequest retryParams.limit)

namespace Flushing

/-- `poll_flush` has returned, and nothing will call it again but what happens later. -/
def Asleep (s : Flushing C) (flushed : Option Flushed) : Prop :=
  flushed.isSome = true ∧ s.state = .pollComplete ∧ s.woken = false

/-- No future that is polled in the round puts a request into the queue. -/
def Quiet (s : Flushing C) : Event C → Prop
  | .round round => ∀ recovered s', s.beginRound round = .ok (recovered, s') →
    Run.Along Polling.step (fun p turn _ _ => ¬ p.inner.Refills turn) (.start s'.dispatchPending) round.turns
  | _ => True

end Flushing

section RetryOrSend

variable {request : PendingRequest C} {n : Nat} {err : RedisError} {retryFunc : PendingRequest C → Retry C}
  {action : PollFlushAction}

theorem retryOrSend_action : (retryOrSend request n err retryFunc action).action = action := by
  unfold retryOrSend
  split_ifs <;> rfl

theorem retryOrSend_retry_iff {again : Retry C} :
    (retryOrSend request n err retryFunc action).retry = some again ↔
      request.retry < n ∧ retryFunc { request with retry := request.retry + 1 } = again := by
  unfold retryOrSend
  split_ifs with hlt
  · rw [Option.some_inj, and_iff_right hlt]
  · exact iff_of_false nofun fun h => hlt h.1

end RetryOrSend

theorem chooseRetry_moveToPending_iff (target : OperationTarget) (err : RedisError) (request : PendingRequest C)
    (n ms : Nat) :
    (chooseRetry target err request n ms).action = .none ∧
        (∃ again, (chooseRetry target err request n ms).retry = some (.moveToPending again)) ↔
      request.retry < n ∧ (∃ address, target = .node address) ∧ err.retryMethod = .retryImmediately := by
  have hnode : (∃ address, target = .node address) ↔ target ≠ .fanOut ∧ target ≠ .notFound := by
    cases target <;> simp
  rw [hnode]
  unfold chooseRetry
  split <;> simp_all [retryOrSend_action, retryOrSend_retry_iff]

variable {result : OperationResult} {request : PendingRequest C}

theorem chooseResponse_moveToPending_iff {p : RetryParams} {pick : Nat} {choice : Choice C}
    (hchoice : chooseResponse result request p pick = .ok choice) (h : choice.action = .none) :
    (∃ again, choice.retry = some (.moveToPending again)) ↔ RetriesAtOnce result request p.limit := by
  rw [RetriesAtOnce]
  rcases chooseResponse_inv hchoice with ⟨address, -, rfl⟩ | ⟨hcmd, ⟨item, -, herr, rfl⟩ | ⟨err, ms, herr, rfl⟩⟩
  · cases h
  · simp [herr]
  · rw [← and_iff_right (b := ∃ again, _) h, chooseRetry_moveToPending_iff]
    simp [hcmd, herr]

namespace ClusterConnInner

variable {inner inner' : ClusterConnInner C} {next : PollFlushAction}

theorem handleRetries_pending_iff (inner : ClusterConnInner C) (sender : ResultExpectation) (retry : Option (Retry C)) :
    (inner.handleRetries sender retry).pendingRequests = [] ↔
      inner.pendingRequests = [] ∧ ¬ ∃ again, retry = some (.moveToPending again) := by
  rcases retry with _ | request | request | request <;> simp [handleRetries, start]

theorem settle_pending_iff {result : OperationResult} {request : QueuedRequest C} {p : RetryParams}
    (h : inner.settle result request p = .ok (.none, inner')) :
    inner'.pendingRequests = [] ↔
      inner.pendingRequests = [] ∧ ¬ RetriesAtOnce result request.toPendingRequest p.limit := by
  obtain ⟨choice, hchoice, h⟩ := exists_of_bind_eq_ok h
  obtain ⟨hact, rfl⟩ := Prod.mk.inj (Except.ok.inj h)
  rw [← chooseResponse_moveToPending_iff hchoice hact]
  exact handleRetries_pending_iff _ _ _

theorem pollRequest_pending_iff {i : Nat} {outcome : Option OperationResult}
    (hpoll : inner.pollRequest i outcome = some (.ok (.none, inner'))) :
    inner'.pendingRequests = [] ↔ inner.pendingRequests = [] ∧
      ¬ ∃ request p, inner.running i = some (request, p) ∧
        ∃ result, outcome = some result ∧ RetriesAtOnce result request.toPendingRequest p.limit := by
  rw [pollRequest, Option.map_eq_some_iff] at hpoll
  obtain ⟨r, hr, hpoll⟩ := hpoll
  rw [running, hr, Option.bind_some]
  rcases r with ⟨retryParams, _ | request, state⟩
  · cases hpoll
    simp
  · dsimp only at hpoll ⊢
    split_ifs at hpoll with hclosed
    · cases hpoll
      cases state <;> simp [hclosed]
    · rcases outcome with _ | result
      · cases hpoll
        simp
      · cases state with
        | future =>
          rw [settle_pending_iff hpoll]
          simp [hclosed]
        | sleep =>
          cases hpoll
          rw [handleRetries_pending_iff]
          simp

theorem pollRequest_none {i : Nat} (hpoll : inner.pollRequest i none = some (.ok (next, inner'))) : next = .none := by
  rw [pollRequest, Option.map_eq_some_iff] at hpoll
  obtain ⟨⟨retryParams, _ | request, state⟩, -, hpoll⟩ := hpoll
  · cases hpoll
    rfl
  · dsimp only at hpoll
    split_ifs at hpoll <;> cases hpoll <;> rfl

theorem pushAll_spec (inner : ClusterConnInner C) (external : Bool) (cmds : List (CmdArg C)) :
    (inner.pushAll external cmds).inFlightRequests = inner.inFlightRequests ∧
      (inner.pushAll external cmds).callers.dropped = inner.callers.dropped ∧
      ((inner.pushAll external cmds).pendingRequests = [] ↔ inner.pendingRequests = [] ∧ cmds = []) := by
  induction cmds generalizing inner with
  | nil => exact ⟨rfl, rfl, (and_iff_left rfl).symm⟩
  | cons cmd cmds ih =>
    obtain ⟨hflight, hdrop, hpend⟩ := ih (inner.push external cmd)
    refine ⟨hflight.trans ?_, hdrop.trans ?_, hpend.trans ?_⟩ <;> cases external <;> simp [push]

theorem running_congr (hflight : inner'.inFlightRequests = inner.inFlightRequests)
    (hdrop : inner'.callers.dropped = inner.callers.dropped) (i : Nat) : inner'.running i = inner.running i := by
  have hclosed : ∀ sender, inner'.callers.isClosed sender = inner.callers.isClosed sender := by
    intro sender
    cases sender with
    | external sender => rw [Callers.isClosed, hdrop, Callers.isClosed]
    | internal => rfl
  simp only [running, hflight, hclosed]

theorem runFuture_spec (inner : ClusterConnInner C) (turn : Turn C) :
    (inner.runFuture turn).running turn.index = inner.running turn.index ∧
      ((inner.runFuture turn).pendingRequests = [] ↔ inner.pendingRequests = [] ∧
        ¬ ∃ request p, inner.running turn.index = some (request, p) ∧ request.cmd.isFanOut = true ∧
          turn.queued ≠ []) := by
  by_cases hfan : (inner.running turn.index).any (·.1.cmd.isFanOut) = true
  · obtain ⟨hflight, hdrop, hpend⟩ := inner.pushAll_spec true turn.queued
    obtain ⟨⟨request, n⟩, hrun, hcmd⟩ := (Option.any_eq_true _ _).1 hfan
    rw [runFuture, if_pos hfan]
    refine ⟨running_congr hflight hdrop _, ?_⟩
    rw [hpend, hrun]
    simp [hcmd]
  · rw [runFuture, if_neg hfan]
    refine ⟨rfl, (and_iff_left ?_).symm⟩
    rintro ⟨request, n, hrun, hcmd, -⟩
    exact hfan (by rw [hrun]; exact hcmd)

theorem dispatch_pendingRequests (inner : ClusterConnInner C) (request : QueuedRequest C) :
    (inner.dispatch request).pendingRequests = inner.pendingRequests := by
  rw [dispatch]
  split_ifs <;> rfl

theorem dispatchPending_pendingRequests (inner : ClusterConnInner C) : inner.dispatchPending.pendingRequests = [] := by
  have hfold : ∀ (requests : List (QueuedRequest C)) (inner : ClusterConnInner C),
      (requests.foldl dispatch inner).pendingRequests = inner.pendingRequests := by
    intro requests
    induction requests with
    | nil => exact fun _ => rfl
    | cons request requests ih => exact fun inner => (ih _).trans (inner.dispatch_pendingRequests request)
  exact hfold _ _

end ClusterConnInner

theorem Polling.step_pending_iff {p p' : Polling C} {turn : Turn C} {b : Unit} (hstep : p.step turn = some (b, p'))
    (hact : p'.action = .none) : p.action = .none ∧
      (p'.inner.pendingRequests = [] ↔ p.inner.pendingRequests = [] ∧ ¬ p.inner.Refills turn) := by
  have hwoken : ¬ p.woken = true := by
    intro hwoken
    rw [step, if_pos hwoken] at hstep
    cases hstep
  rw [step, if_neg hwoken] at hstep
  obtain ⟨⟨next, inner'⟩, hpoll, heq⟩ := Option.map_eq_some_iff.1 hstep
  obtain ⟨_ | r, hpoll, hr⟩ := Option.bind_eq_some_iff.1 hpoll
  · cases hr
  cases hr
  have hnone : p.action = .none ∧ next = .none ∧ p'.inner = inner' := by
    dsimp only at heq
    split_ifs at heq with hready <;> obtain rfl := (Prod.mk.inj heq).2
    · obtain ⟨hact, hnext⟩ := PollFlushAction.changeState_eq_none.1 hact
      exact ⟨hact, hnext, rfl⟩
    · have hout : turn.outcome = none := by
        rw [ClusterConnInner.isReady, Bool.or_eq_true, not_or, Option.isSome_iff_ne_none, not_not] at hready
        exact hready.1
      rw [hout] at hpoll
      exact ⟨hact, ClusterConnInner.pollRequest_none hpoll, rfl⟩
  obtain ⟨hact, rfl, rfl⟩ := hnone
  obtain ⟨hrun, hpend⟩ := p.inner.runFuture_spec turn
  refine ⟨hact, ?_⟩
  rw [ClusterConnInner.pollRequest_pending_iff hpoll, hrun, hpend, and_assoc, ← not_or,
    ClusterConnInner.Refills]
  simp only [and_or_left, exists_or]

namespace Flushing

variable {s s' : Flushing C} {round : Round C} {flushed : Option Flushed}

theorem state_of_pollRecover (h : (s.pollRecover round).1 ≠ some (.ok ())) :
    (s.pollRecover round).2.state ≠ .pollComplete := by
  cases hst : s.state <;> rcases hrecover : round.recover with _ | err | ok <;>
    simp [pollRecover, hst, hrecover] at h ⊢

theorem endRound_pendingRequests (s : Flushing C) (p : Polling C) :
    (s.endRound p).2.pendingRequests = p.inner.pendingRequests := by
  rw [endRound]
  cases p.action <;> rfl

theorem action_of_endRound {p : Polling C} (h : (s.endRound p).1.isSome = true) : p.action = .none := by
  rw [endRound] at h
  cases hact : p.action with
  | none => rfl
  | _ =>
    rw [hact] at h
    cases h

theorem pollRound_pending_iff (hround : s.pollRound round = some (flushed, s')) (hasleep : s'.Asleep flushed) :
    s'.pendingRequests = [] ↔ s.Quiet (.round round) := by
  rw [pollRound] at hround
  have hst : ∀ {recovered s₁}, s.beginRound round = .ok (recovered, s₁) → recovered ≠ some (.ok ()) →
      s₁.state ≠ .pollComplete := by
    intro recovered s₁ hbegin hrecovered
    obtain ⟨inner, -, hbegin⟩ := exists_of_bind_eq_ok hbegin
    obtain ⟨rfl, rfl⟩ := Prod.mk.inj (Except.ok.inj hbegin)
    exact state_of_pollRecover hrecovered
  rcases hbegin : s.beginRound round with e | ⟨_ | err | ok, s₁⟩ <;> rw [hbegin] at hround <;> dsimp only at hround
  · cases hround
  · have hne := hst hbegin (by simp)
    cases hround
    exact absurd hasleep.2.1 hne
  · have hne := hst hbegin (by simp)
    cases hround
    exact absurd hasleep.2.1 hne
  · have hquiet : s.Quiet (.round round) ↔ Run.Along Polling.step (fun p turn _ _ => ¬ p.inner.Refills turn)
        (.start s₁.dispatchPending) round.turns := by
      simp [Quiet, hbegin]
    obtain ⟨⟨_, p⟩, hrun, hend⟩ := Option.map_eq_some_iff.1 hround
    dsimp only at hend
    have hact : p.action = .none := action_of_endRound (by rw [hend]; exact hasleep.1)
    have hsame : s'.pendingRequests = p.inner.pendingRequests := by
      rw [← endRound_pendingRequests s₁ p, hend]
    obtain ⟨-, hiff⟩ := Run.run_iff_along (R := fun p => p.action = .none) (I := fun p => p.inner.pendingRequests = [])
      (fun p turn b p' hstep hact => Polling.step_pending_iff hstep hact) hrun hact
    rw [hsame, hiff, hquiet]
    exact and_iff_right (s₁.dispatchPending_pendingRequests)

/-- The connection goes to sleep with an empty queue as long as, in the last round, no future puts anything into it. -/
theorem drains_along_iff (s : Flushing C) (events : List (Event C)) :
    Run.Along step (fun _ _ flushed s' => s'.Asleep flushed → s'.pendingRequests = []) s events ↔
      Run.Along step (fun s event flushed s' => s'.Asleep flushed → s.Quiet event) s events := by
  refine Run.along_iff (I := fun _ => True) (fun s event flushed s' _ hstep => ⟨?_, fun _ => trivial⟩) trivial events
  cases event with
  | startSend external cmd =>
    rw [step] at hstep
    split_ifs at hstep
    cases hstep
    exact ⟨fun _ _ => trivial, fun _ h => absurd h.1 Bool.false_ne_true⟩
  | dropReceiver sender =>
    cases hstep
    exact ⟨fun _ _ => trivial, fun _ h => absurd h.1 Bool.false_ne_true⟩
  | round round =>
    obtain ⟨⟨flushed, s'⟩, hround, heq⟩ := Option.map_eq_some_iff.1 hstep
    cases heq
    have hiff : s'.Asleep flushed → (s'.pendingRequests = [] ↔ s.Quiet (.round round)) := pollRound_pending_iff hround
    exact forall_congr' hiff

theorem timed_out_request_is_stranded :
    ∃ s' : Flushing Unit,
      let request : CmdArg Unit := .cmd (cmd "PING") (.singleNode .random)
      let round (turns : List (Turn Unit)) : Event Unit := .round ⟨[], none, [], turns, false⟩
      Run.run step (new {} fun _ => 0) [.startSend true request, round [⟨0, [], none⟩], round [],
        round [⟨0, [], some (.node ⟨"127.0.0.1", 6379⟩, .error (.ofIo .timedOut))⟩]] =
          some ([none, some .pending, some .pending, some .ready], s') ∧
      s'.Asleep (some .ready) ∧ s'.pendingRequests.map (·.sender) = [.external 0] :=
  ⟨_, rfl, ⟨rfl, rfl, rfl⟩, rfl⟩

end Flushing

end RedisRs.AsyncCluster
