import Mathlib.Algebra.BigOperators.Group.List.Basic
import RedisRs.ClusterInner
import RedisRs.Run
import RedisRs.Tickets

/-!
# Every request is answered once

The sender of a request is its ticket: who waits or is in flight holds it, and an answer redeems it.
-/

namespace RedisRs

open List

namespace AsyncCluster

open Tickets

variable {C : Type}

namespace ClusterConnInner

def inPending (inner : ClusterConnInner C) (sender : Nat) : Nat :=
  inner.pendingRequests.countP (·.sender = .external sender)

def inFlight (inner : ClusterConnInner C) (sender : Nat) : Nat :=
  inner.inFlightRequests.countP fun r => r.request.any (·.sender = .external sender)

end ClusterConnInner

def Callers.answered (callers : Callers) (sender : Nat) : Nat := callers.sent.countP (·.sender = sender)

def Callers.attempts (callers : Callers) (sender : Nat) : Nat := callers.started.count sender

/-- No retry was left out of an error that is sent and worth one, unless it is that of a fan-out. -/
def Sent.Final (numberOfRetries : Nat) (sent : Sent) : Prop :=
  ∀ err, sent.result = .error err → sent.retry < numberOfRetries → err.retryMethod = .noRetry ∨ sent.target = .fanOut

/-- Each caller that is still there is waiting, in flight or answered, and is answered at most once. -/
structure ClusterConnInner.AnswersOnce (inner : ClusterConnInner C) : Prop where
  atMostOnce : ∀ sender, inner.inPending sender + inner.inFlight sender + inner.callers.answered sender ≤ 1
  once : ∀ sender < inner.callers.opened, sender ∉ inner.callers.dropped →
    inner.inPending sender + inner.inFlight sender + inner.callers.answered sender = 1
  attempts : ∀ sender, inner.callers.attempts sender ≤ inner.numberOfRetries + 1
  final : ∀ sent ∈ inner.callers.sent, sent.Final inner.numberOfRetries

def Callers.book (callers : Callers) : Book Nat where
  issued := {sender | sender < callers.opened}
  closed := {sender | sender ∈ callers.dropped}
  redeemed := callers.answered
  attempts := callers.attempts

def ResultExpectation.ticket (retry : Nat) (ready : Bool) : ResultExpectation → Multiset (Ticket Nat)
  | .external sender => {⟨sender, retry, ready⟩}
  | .internal => 0

def QueuedRequest.ticket (ready : Bool) (request : QueuedRequest C) : Multiset (Ticket Nat) :=
  request.sender.ticket request.retry ready

def RequestState.ready : RequestState → Bool
  | .future => false
  | .sleep => true

def Request.ticket (r : Request C) : Multiset (Ticket Nat) := (r.request.map (·.ticket r.state.ready)).getD 0

def ClusterConnInner.tickets (inner : ClusterConnInner C) : Multiset (Ticket Nat) :=
  (inner.pendingRequests.map (·.ticket true)).sum + (inner.inFlightRequests.map Request.ticket).sum

/-- The request has been tried no more often than the parameters allow. -/
def Request.Within (p : RetryParams) (r : Request C) : Prop :=
  ∀ request, r.request = some request → r.retryParams = p ∧ request.retry ≤ p.limit

/-- The requests that wait or are in flight, with those in `hand`, hold the tickets that are out. -/
structure ClusterConnInner.Balances (p : RetryParams) (hand : Multiset (Ticket Nat)) (inner : ClusterConnInner C) :
    Prop where
  retries : inner.retryParams = p
  inFlightRetries : ∀ r ∈ inner.inFlightRequests, r.Within p
  pendingRetries : ∀ request ∈ inner.pendingRequests, request.retry ≤ p.limit
  balanced : Balanced p.limit (hand + inner.tickets) inner.callers.book
  final : ∀ sent ∈ inner.callers.sent, sent.Final p.limit

theorem holders_ticket (sender : ResultExpectation) (retry : Nat) (ready : Bool) (s : Nat) :
    holders (sender.ticket retry ready) s = if sender = .external s then 1 else 0 := by
  cases sender with
  | external sender =>
    rw [ResultExpectation.ticket, ← Multiset.cons_zero, holders_cons, holders_zero, Nat.zero_add]
    simp
  | internal => rfl

theorem holders_sum_map {α : Type} (f : α → Multiset (Ticket Nat)) (p : α → Bool) (s : Nat)
    (h : ∀ a, holders (f a) s = if p a then 1 else 0) (l : List α) : holders (l.map f).sum s = l.countP p := by
  induction l with
  | nil => rfl
  | cons a l ih => rw [map_cons, sum_cons, holders_add, h, ih, countP_cons, Nat.add_comm]

namespace ClusterConnInner

variable {p : RetryParams} {hand : Multiset (Ticket Nat)} {inner : ClusterConnInner C}

theorem holders_tickets (inner : ClusterConnInner C) (s : Nat) :
    holders inner.tickets s = inner.inPending s + inner.inFlight s := by
  rw [tickets, holders_add]
  congr 1
  · refine holders_sum_map _ _ s (fun request => ?_) _
    simp [QueuedRequest.ticket, holders_ticket]
  · refine holders_sum_map _ _ s (fun r => ?_) _
    rcases r with ⟨_, _ | request, state⟩
    · rfl
    · simp [Request.ticket, QueuedRequest.ticket, holders_ticket]

theorem Balances.answersOnce (h : inner.Balances p 0) : inner.AnswersOnce := by
  have hb := h.balanced
  rw [zero_add] at hb
  obtain rfl := h.retries
  refine ⟨fun s => ?_, fun s hs hopen => ?_, hb.bounded, h.final⟩
  · rw [← holders_tickets]
    exact hb.once s
  · rw [← holders_tickets]
    exact hb.kept s hs hopen

end ClusterConnInner

section Moves

variable {n retry : Nat} {ready ready' : Bool} {M : Multiset (Ticket Nat)} {callers : Callers}
    {sender : ResultExpectation}

theorem Callers.book_start (callers : Callers) (sender : Nat) :
    (callers.start (.external sender)).book = callers.book.attempt sender := by
  rw [Book.attempt, Callers.book, Book.mk.injEq]
  refine ⟨rfl, rfl, rfl, funext fun s => ?_⟩
  rw [update_succ_apply]
  simp [Callers.start, Callers.attempts, Callers.book, count_cons]

theorem Callers.book_send {sender : Nat} (h : sender ∉ callers.dropped) (result : RedisResult Response) (retry : Nat)
    (target : OperationTarget) :
    (callers.send result retry target (.external sender)).book = callers.book.redeem sender := by
  rw [Callers.send, if_neg h, Book.redeem, Callers.book, Book.mk.injEq]
  refine ⟨rfl, rfl, funext fun s => ?_, rfl⟩
  rw [update_succ_apply]
  simp [Callers.answered, Callers.book, countP_cons]

theorem Callers.book_open (callers : Callers) :
    Callers.book { callers with opened := callers.opened + 1 } = callers.book.issue callers.opened := by
  rw [Book.issue, Callers.book, Book.mk.injEq]
  refine ⟨Set.ext fun s => ?_, rfl, rfl, rfl⟩
  exact Nat.lt_succ_iff_lt_or_eq.trans Or.comm

theorem Callers.book_drop (callers : Callers) (sender : Nat) :
    Callers.book { callers with dropped := sender :: callers.dropped } = callers.book.close sender := by
  rw [Book.close, Callers.book, Book.mk.injEq]
  exact ⟨rfl, Set.ext fun s => mem_cons, rfl, rfl⟩

theorem balanced_start (h : Balanced n (sender.ticket retry true + M) callers.book) :
    Balanced n (sender.ticket retry false + M) (callers.start sender).book := by
  cases sender with
  | external sender =>
    rw [Callers.book_start]
    exact h.attempt
  | internal => exact h

theorem balanced_retry (h : Balanced n (sender.ticket retry ready + M) callers.book) (hretry : retry < n) :
    Balanced n (sender.ticket (retry + 1) ready' + M) callers.book := by
  cases sender with
  | external sender => exact h.retry hretry
  | internal => exact h

theorem balanced_discard (h : Balanced n (sender.ticket retry ready + M) callers.book)
    (hclosed : callers.isClosed sender = true) : Balanced n M callers.book := by
  cases sender with
  | external sender =>
    have hmem : sender ∈ callers.dropped := of_decide_eq_true hclosed
    exact h.discard hmem
  | internal => cases hclosed

theorem balanced_send (h : Balanced n (sender.ticket retry ready + M) callers.book) (result : RedisResult Response)
    (target : OperationTarget) : Balanced n M (callers.send result retry target sender).book := by
  cases sender with
  | external sender =>
    by_cases hclosed : sender ∈ callers.dropped
    · rw [Callers.send, if_pos hclosed]
      exact h.discard hclosed
    · rw [Callers.book_send hclosed]
      exact h.redeem
  | internal => exact (zero_add M) ▸ h

theorem Callers.final_send {result : RedisResult Response} {target : OperationTarget}
    (h : ∀ sent ∈ callers.sent, sent.Final n)
    (hfinal : ∀ err, result = .error err → retry < n → err.retryMethod = .noRetry ∨ target = .fanOut) :
    ∀ sent ∈ (callers.send result retry target sender).sent, sent.Final n := by
  cases sender with
  | external sender =>
    rw [Callers.send]
    split_ifs
    · exact h
    · rintro sent (_ | ⟨_, hsent⟩)
      · exact hfinal
      · exact h sent hsent
  | internal => exact h

end Moves

namespace ClusterConnInner

variable {p : RetryParams} {hand : Multiset (Ticket Nat)} {inner : ClusterConnInner C} {request : QueuedRequest C}

namespace Balances

theorem inHand {held : Multiset (Ticket Nat)} (h : inner.Balances p (held + hand)) :
    Balanced p.limit (held + (hand + inner.tickets)) inner.callers.book := by
  have hb := h.balanced
  rw [add_assoc] at hb
  exact hb

variable {i : Nat} {hand' : Multiset (Ticket Nat)} {r : Request C}

theorem exchange (h : inner.Balances p hand') (hb : Balanced p.limit (hand + inner.tickets) inner.callers.book) :
    inner.Balances p hand :=
  ⟨h.retries, h.inFlightRetries, h.pendingRetries, hb, h.final⟩

theorem redraw (h : inner.Balances p hand) (random : Nat → Nat) : Balances p hand { inner with random } :=
  ⟨h.retries, h.inFlightRetries, h.pendingRetries, h.balanced, h.final⟩

variable {ready : Bool} {callers : Callers}

theorem pushInFlight (h : inner.Balances p hand') (hr : r.Within p)
    (hcallers : Balanced p.limit (r.ticket + (hand + inner.tickets)) callers.book)
    (hsent : callers.sent = inner.callers.sent) :
    Balances p hand { inner with inFlightRequests := inner.inFlightRequests ++ [r], callers } := by
  refine ⟨h.retries, forall_mem_append.2 ⟨h.inFlightRetries, forall_mem_singleton.2 hr⟩, h.pendingRetries, ?_,
    fun sent hmem => h.final sent (hsent ▸ hmem)⟩
  · have htickets : tickets { inner with inFlightRequests := inner.inFlightRequests ++ [r], callers } =
        inner.tickets + r.ticket := by
      simp [tickets, add_assoc]
    rw [htickets, ← add_assoc, add_comm]
    exact hcallers

theorem pushPending (h : inner.Balances p hand') (hreq : request.retry ≤ p.limit)
    (hcallers : Balanced p.limit (request.ticket true + (hand + inner.tickets)) callers.book)
    (hsent : callers.sent = inner.callers.sent) :
    Balances p hand { inner with pendingRequests := inner.pendingRequests ++ [request], callers } := by
  refine ⟨h.retries, h.inFlightRetries, forall_mem_append.2 ⟨h.pendingRetries, forall_mem_singleton.2 hreq⟩, ?_,
    fun sent hmem => h.final sent (hsent ▸ hmem)⟩
  have htickets : tickets { inner with pendingRequests := inner.pendingRequests ++ [request], callers } =
      request.ticket true + inner.tickets := by
    simp only [tickets, map_append, sum_append, map_cons, map_nil, sum_cons, sum_nil, add_zero]
    ac_rfl
  rw [htickets, add_left_comm]
  exact hcallers

theorem start (h : inner.Balances p (request.ticket true + hand)) (hreq : request.retry ≤ p.limit) :
    (inner.start request).Balances p hand := by
  refine h.pushInFlight ?_ (balanced_start h.inHand) ?_
  · rintro _ ⟨⟩
    exact ⟨h.retries, hreq⟩
  · cases request.sender <;> rfl

theorem handleRetries {sender : ResultExpectation} {retry : Retry C}
    (h : inner.Balances p (sender.ticket retry.request.retry true + hand)) (hretry : retry.request.retry ≤ p.limit) :
    (inner.handleRetries sender (some retry)).Balances p hand := by
  cases retry with
  | immediately request =>
    have hreq : inner.Balances p (QueuedRequest.ticket true ⟨request, sender⟩ + hand) := h
    exact hreq.start hretry
  | moveToPending request =>
    have hreq : Balanced p.limit (QueuedRequest.ticket true ⟨request, sender⟩ + (hand + inner.tickets)) _ := h.inHand
    exact h.pushPending hretry hreq rfl
  | afterSleep request _ =>
    refine h.pushInFlight (r := ⟨_, some ⟨request, sender⟩, .sleep⟩) ?_ h.inHand rfl
    rintro _ ⟨⟩
    exact ⟨h.retries, hretry⟩

theorem discard (h : inner.Balances p (request.ticket ready + hand))
    (hclosed : inner.callers.isClosed request.sender = true) : inner.Balances p hand :=
  h.exchange (balanced_discard h.inHand hclosed)

theorem send {result : RedisResult Response} {target : OperationTarget}
    (h : inner.Balances p (request.ticket ready + hand))
    (hfinal : ∀ err, result = .error err → request.retry < p.limit → err.retryMethod = .noRetry ∨ target = .fanOut) :
    Balances p hand { inner with callers := inner.callers.send result request.retry target request.sender } :=
  ⟨h.retries, h.inFlightRetries, h.pendingRetries, balanced_send h.inHand result target,
    Callers.final_send h.final hfinal⟩

theorem dispatch (h : inner.Balances p (request.ticket true + hand)) (hreq : request.retry ≤ p.limit) :
    (inner.dispatch request).Balances p hand := by
  rw [ClusterConnInner.dispatch]
  split_ifs with hclosed
  · exact h.discard hclosed
  · exact h.start hreq

theorem settle (h : inner.Balances p (request.ticket ready + hand)) (hno : p.NoOverflow p.lastRetry)
    (hreq : request.retry ≤ p.limit) (result : OperationResult) :
    ∃ action inner', inner.settle result request p = .ok (action, inner') ∧ inner'.Balances p hand := by
  obtain ⟨choice, hchoice⟩ := chooseResponse_of_noOverflow (hno.of_last (nextRetry_le_lastRetry hreq)) result
    (inner.random 0)
  refine ⟨_, _, by rw [ClusterConnInner.settle, hchoice]; rfl, ?_⟩
  replace h := h.redraw fun n => inner.random (n + 1)
  rcases chooseResponse_cases hchoice with
    ⟨item, hsent, hretry, -⟩ | ⟨err, hsent, hretry, hlast⟩ | ⟨hsent, hlt, retry, hretry, hnext, -⟩
  · rw [hsent, hretry]
    exact h.send nofun
  · rw [hsent, hretry]
    refine h.send fun err' herr => ?_
    cases herr
    exact hlast
  · rw [hsent, hretry]
    have hagain : Balanced p.limit (request.sender.ticket retry.request.retry true + hand + inner.tickets)
        inner.callers.book := by
      rw [hnext, add_assoc]
      exact balanced_retry h.inHand hlt
    exact (h.exchange hagain).handleRetries (hnext ▸ hlt)

theorem foldl_dispatch (requests : List (QueuedRequest C))
    (h : inner.Balances p ((requests.map (·.ticket true)).sum + hand))
    (hreqs : ∀ request ∈ requests, request.retry ≤ p.limit) :
    (requests.foldl ClusterConnInner.dispatch inner).Balances p hand := by
  induction requests generalizing inner with
  | nil => simpa using h
  | cons request requests ih =>
    rw [map_cons, sum_cons, add_assoc] at h
    obtain ⟨hreq, hreqs⟩ := forall_mem_cons.1 hreqs
    exact ih (h.dispatch hreq) hreqs

theorem dispatchPending (h : inner.Balances p 0) : inner.dispatchPending.Balances p 0 := by
  refine foldl_dispatch _ ⟨h.retries, h.inFlightRetries, forall_mem_nil _, ?_, h.final⟩ h.pendingRetries
  have hb := h.balanced
  rw [zero_add] at hb
  simpa [tickets] using hb

theorem eraseIdx (h : inner.Balances p 0) (hr : inner.inFlightRequests[i]? = some r) :
    Balances p (r.ticket + 0) { inner with inFlightRequests := inner.inFlightRequests.eraseIdx i } := by
  refine ⟨h.retries, fun r' hr' => h.inFlightRetries r' (mem_of_mem_eraseIdx hr'), h.pendingRetries, ?_, h.final⟩
  obtain ⟨hi, rfl⟩ := List.getElem?_eq_some_iff.1 hr
  have hperm := ((getElem_cons_eraseIdx_perm hi).map Request.ticket).sum_eq
  have hb := h.balanced
  rw [zero_add, tickets, ← hperm, map_cons, sum_cons, add_left_comm] at hb
  rw [add_zero]
  exact hb

theorem pollRequest {outcome : Option OperationResult} {r : Ends (PollFlushAction × ClusterConnInner C)}
    (h : inner.Balances p 0) (hno : p.NoOverflow p.lastRetry) (hpoll : inner.pollRequest i outcome = some r) :
    ∃ action inner', r = .ok (action, inner') ∧ inner'.Balances p 0 := by
  rw [ClusterConnInner.pollRequest, Option.map_eq_some_iff] at hpoll
  obtain ⟨r, hr, rfl⟩ := hpoll
  have hrem := h.eraseIdx hr
  have hwithin := h.inFlightRetries r (mem_of_getElem? hr)
  rcases r with ⟨retryParams, _ | request, state⟩
  · exact ⟨_, _, rfl, hrem⟩
  · obtain ⟨rfl, hreq⟩ := hwithin request rfl
    dsimp only
    split_ifs with hclosed
    · exact ⟨_, _, rfl, hrem.discard hclosed⟩
    · rcases outcome with _ | result
      · exact ⟨_, _, rfl, h⟩
      · cases state with
        | future => exact hrem.settle hno hreq result
        | sleep => exact ⟨_, _, rfl, hrem.handleRetries hreq⟩

theorem failWith (h : inner.Balances p (request.ticket ready + hand)) (hno : p.NoOverflow p.lastRetry)
    (hreq : request.retry ≤ p.limit) (err : RedisError) :
    ∃ inner', inner.failWith err (request, p) = .ok inner' ∧ inner'.Balances p hand := by
  obtain ⟨action, inner', hsettle, h'⟩ := h.settle hno hreq (.notFound, .error err)
  exact ⟨inner', by rw [ClusterConnInner.failWith, hsettle]; rfl, h'⟩

theorem foldlM_failWith (hno : p.NoOverflow p.lastRetry) (err : RedisError) (rs : List (Request C))
    (h : inner.Balances p ((rs.map Request.ticket).sum + hand)) (hrs : ∀ r ∈ rs, r.Within p) :
    ∃ inner', (rs.filterMap fun r => r.request.map fun request => (request, r.retryParams)).foldlM
      (ClusterConnInner.failWith err) inner = .ok inner' ∧ inner'.Balances p hand := by
  induction rs generalizing inner with
  | nil => exact ⟨inner, rfl, by simpa using h⟩
  | cons r rs ih =>
    obtain ⟨hwithin, hrest⟩ := forall_mem_cons.1 hrs
    rw [map_cons, sum_cons, add_assoc] at h
    rcases r with ⟨retryParams, _ | request, state⟩
    · rw [Request.ticket, Option.map_none, Option.getD_none, zero_add] at h
      exact ih h hrest
    · obtain ⟨rfl, hreq⟩ := hwithin request rfl
      obtain ⟨inner₁, hfail, h₁⟩ := h.failWith hno hreq err
      obtain ⟨inner₂, hfold, h₂⟩ := ih h₁ hrest
      refine ⟨inner₂, ?_, h₂⟩
      show (inner.failWith err (request, _) >>= fun inner => foldlM _ inner _) = _
      rw [hfail]
      exact hfold

theorem take (h : inner.Balances p 0) : Balances p ((inner.inFlightRequests.map Request.ticket).sum + 0)
    { inner with refreshError := none, inFlightRequests := inner.inFlightRequests.map Request.take } := by
  have hnone : ∀ r ∈ inner.inFlightRequests.map Request.take, r.request = none := by
    intro r hr
    obtain ⟨⟨_, _ | request, _⟩, -, rfl⟩ := mem_map.1 hr <;> rfl
  have hzero : ((inner.inFlightRequests.map Request.take).map Request.ticket).sum = 0 := by
    refine sum_eq_zero fun ticket hticket => ?_
    obtain ⟨r, hr, rfl⟩ := mem_map.1 hticket
    rw [Request.ticket, hnone r hr]
    rfl
  have hb := h.balanced
  rw [zero_add, tickets, add_comm] at hb
  refine ⟨h.retries, fun r hr request hsome => ?_, h.pendingRetries, ?_, h.final⟩
  · rw [hnone r hr] at hsome
    cases hsome
  · rw [add_zero, tickets, hzero, add_zero]
    exact hb

theorem popPending {pendingRequests : List (QueuedRequest C)} (h : inner.Balances p hand)
    (hpend : inner.pendingRequests = request :: pendingRequests) :
    Balances p (request.ticket true + hand) { inner with pendingRequests } := by
  refine ⟨h.retries, h.inFlightRetries, (forall_mem_cons.1 (hpend ▸ h.pendingRetries)).2, ?_, h.final⟩
  have hb := h.balanced
  rw [tickets, hpend, map_cons, sum_cons, add_assoc, add_left_comm, ← add_assoc] at hb
  exact hb

theorem sendRefreshError (h : inner.Balances p 0) (hno : p.NoOverflow p.lastRetry) :
    ∃ inner', inner.sendRefreshError = .ok inner' ∧ inner'.Balances p 0 := by
  rw [ClusterConnInner.sendRefreshError]
  rcases inner.refreshError with _ | refreshError
  · exact ⟨inner, rfl, h⟩
  · have hfail := foldlM_failWith hno refreshError _ h.take h.inFlightRetries
    rw [← takenRequests] at hfail
    dsimp only
    rcases htaken : inner.takenRequests with _ | ⟨request, requests⟩ <;> rw [htaken] at hfail
    · obtain ⟨_, ⟨⟩, htaken⟩ := hfail
      rcases hpend : inner.pendingRequests with _ | ⟨request, pendingRequests⟩
      · rw [hpend] at htaken
        exact ⟨_, rfl, htaken⟩
      · obtain rfl := h.retries
        exact (htaken.popPending hpend).failWith hno (h.pendingRetries request (hpend ▸ mem_cons_self)) _
    · exact hfail

theorem push (h : inner.Balances p 0) (external : Bool) (cmd : CmdArg C) : (inner.push external cmd).Balances p 0 := by
  cases external with
  | false => exact h.pushPending (Nat.zero_le _) ((zero_add (0 + inner.tickets)).symm ▸ h.balanced) rfl
  | true =>
    refine h.pushPending (Nat.zero_le _) ?_ rfl
    rw [Callers.book_open]
    exact h.balanced.issue (Nat.lt_irrefl inner.callers.opened)

end Balances

variable {inner' : ClusterConnInner C} {action : PollFlushAction}

theorem step_balances {event : Event C} (hno : p.NoOverflow p.lastRetry) (h : inner.Balances p 0)
    (hstep : inner.step event = some (action, inner')) : inner'.Balances p 0 := by
  rw [step.eq_def] at hstep
  split_ifs at hstep
  cases event with
  | poll i outcome =>
    obtain ⟨r, hpoll, hr⟩ := Option.map_eq_some_iff.1 hstep
    obtain ⟨action₁, inner₁, rfl, h₁⟩ := h.pollRequest hno hpoll
    cases hr
    exact h₁
  | push external cmd =>
    cases hstep
    exact h.push external cmd
  | dispatchPending =>
    cases hstep
    exact h.dispatchPending
  | refreshFailed err =>
    cases hstep
    exact ⟨h.retries, h.inFlightRetries, h.pendingRetries, h.balanced, h.final⟩
  | sendRefreshError =>
    obtain ⟨inner₁, hsend, h₁⟩ := h.sendRefreshError hno
    rw [hsend] at hstep
    cases hstep
    exact h₁
  | dropReceiver sender =>
    cases hstep
    refine ⟨h.retries, h.inFlightRetries, h.pendingRetries, ?_, h.final⟩
    rw [Callers.book_drop]
    exact h.balanced.close sender

theorem new_balances (p : RetryParams) (random : Nat → Nat) : (new p random : ClusterConnInner C).Balances p 0 := by
  have hbook : (new p random : ClusterConnInner C).callers.book = ⟨∅, ∅, fun _ => 0, fun _ => 0⟩ := by
    rw [Callers.book, Book.mk.injEq]
    exact ⟨Set.ext fun s => iff_of_false (Nat.not_lt_zero s) (Set.notMem_empty s),
      Set.ext fun s => iff_of_false not_mem_nil (Set.notMem_empty s), rfl, rfl⟩
  refine ⟨rfl, forall_mem_nil _, forall_mem_nil _, ?_, forall_mem_nil _⟩
  rw [hbook]
  exact balanced_zero _

def lonely (retry : Nat) : QueuedRequest C := ⟨⟨retry, .cmd (cmd "PING") (.singleNode .random)⟩, .external 0⟩

def waiting (p : RetryParams) (random : Nat → Nat) (retry : Nat) (started : List Nat) : ClusterConnInner C :=
  ⟨p, [], [lonely retry], none, ⟨1, [], [], started⟩, random, false⟩

def brokenPipe : OperationResult := (.node ⟨"127.0.0.1", 6379⟩, .error (.ofIo .brokenPipe))

/-- The connection answers once in every run that begins here. -/
def KeepsAnswering (p : RetryParams) (inner : ClusterConnInner C) : Prop :=
  ∀ events, Run.Along step (fun _ _ _ inner => inner.retryParams = p ∧ inner.AnswersOnce) inner events

theorem KeepsAnswering.step (h : inner.KeepsAnswering p) (event : Event C)
    (hstep : inner.step event = some (action, inner')) : inner'.AnswersOnce ∧ inner'.KeepsAnswering p :=
  ⟨(h [event] _ _ hstep).1.2, fun events => (h (event :: events) _ _ hstep).2⟩

variable {random : Nat → Nat} {retry : Nat} {started : List Nat}

theorem waiting_fails (h : (waiting p random retry started : ClusterConnInner C).KeepsAnswering p) :
    p.NoOverflow (lonely retry : QueuedRequest C).nextRetry ∧ (retry < p.limit →
      (waiting p (fun n => random (n + 1)) (retry + 1) (0 :: started) : ClusterConnInner C).KeepsAnswering p) := by
  let removed : ClusterConnInner C := ⟨p, [], [], none, ⟨1, [], [], 0 :: started⟩, random, false⟩
  let running : ClusterConnInner C := { removed with inFlightRequests := [⟨p, some (lonely retry), .future⟩] }
  have hrun : running.KeepsAnswering p := (h.step .dispatchPending rfl).2
  have hpoll : running.step (.poll 0 (some brokenPipe)) =
    some (running.orPanicked (removed.settle brokenPipe (lonely retry) p)) := rfl
  have hchoice : chooseResponse brokenPipe (lonely retry : QueuedRequest C).toPendingRequest p (random 0) =
    (p.waitTimeForRetry (lonely retry : QueuedRequest C).nextRetry (random 0) >>= fun ms => pure
      (chooseRetry brokenPipe.1 (.ofIo .brokenPipe) (lonely retry).toPendingRequest p.limit ms)) := rfl
  rcases hwait : p.waitTimeForRetry (lonely retry : QueuedRequest C).nextRetry (random 0) with e | ms
  · rw [settle, hchoice, hwait] at hpoll
    -- the request has been dropped with the connection
    cases (hrun.step _ hpoll).1.once 0 Nat.zero_lt_one not_mem_nil
  · obtain ⟨upper, hupper, -⟩ := exists_of_bind_eq_ok hwait
    refine ⟨RetryParams.noOverflow_of_clampedWait hupper, fun hlt => ?_⟩
    have hretry : chooseResponse brokenPipe (lonely retry : QueuedRequest C).toPendingRequest p (random 0) =
        .ok ⟨none, some (.moveToPending (lonely (retry + 1)).toPendingRequest), .reconnect [⟨"127.0.0.1", 6379⟩]⟩ := by
      rw [hchoice, hwait]
      exact congrArg Except.ok (if_pos hlt)
    rw [settle, hretry] at hpoll
    exact (hrun.step _ hpoll).2

theorem noOverflow_of_waiting (hretry : retry ≤ p.limit)
    (h : (waiting p random retry started : ClusterConnInner C).KeepsAnswering p) : p.NoOverflow p.lastRetry := by
  induction hleft : p.limit - retry generalizing random retry started with
  | zero =>
    have hlast : retry = p.limit := by omega
    subst hlast
    exact (waiting_fails h).1
  | succ left ih => exact ih (by omega) ((waiting_fails h).2 (by omega)) (by omega)

/-- Whatever happens to a connection, no request is lost and none is answered twice, if and only if the wait before a
retry can be computed after every attempt. -/
theorem answersOnce_iff (C : Type) (p : RetryParams) :
    (∀ random events, (new p random : ClusterConnInner C).AnswersOnce ∧ Run.Along step
      (fun _ _ _ inner => inner.retryParams = p ∧ inner.AnswersOnce) (new p random : ClusterConnInner C) events) ↔
      p.NoOverflow p.lastRetry := by
  constructor
  · intro h
    have hnew : (new p (fun _ => 0) : ClusterConnInner C).KeepsAnswering p := fun events => (h _ events).2
    exact noOverflow_of_waiting (Nat.zero_le _)
      (hnew.step (.push true (.cmd (cmd "PING") (.singleNode .random))) rfl).2
  · intro hno random events
    have hnew : (new p random : ClusterConnInner C).Balances p 0 := new_balances p random
    refine ⟨hnew.answersOnce, Run.along_of_inv (fun _ _ _ _ hs hstep => ?_) hnew events⟩
    have h' := step_balances hno hs hstep
    exact ⟨⟨h'.retries, h'.answersOnce⟩, h'⟩

theorem request_lost_in_panic :
    (Run.run step (new { minWaitTime := 18446744073709551615 } fun _ => 0 : ClusterConnInner Unit)
      [.push true (.cmd (cmd "PING") (.singleNode .random)), .dispatchPending, .poll 0 (some brokenPipe)]).map
      (fun r => (r.2.panicked, r.2.callers.opened, r.2.callers.dropped, r.2.inPending 0 + r.2.inFlight 0 +
        r.2.callers.answered 0)) = some (true, 1, [], 0) := by
  decide

end ClusterConnInner

end AsyncCluster

end RedisRs
