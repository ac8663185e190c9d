import RedisRs.PackedReplies
import RedisRs.Run
import RedisRs.Sink

/-!
# Replies and requests on a multiplexed connection

A request brings along what the server is going to answer, so a run covers all callers and all servers.
-/

namespace RedisRs

open List

namespace ResponseAggregate

variable {skipped expected : Nat} {isTransaction : Bool}

def abortErrors (isTransaction : Bool) (skipped : Nat) (seen : List Value) : List (Nat × ServerError) :=
  if isTransaction then reportedErrors (refusals skipped 0 seen) else []

def seeing (skipped expected : Nat) (isTransaction : Bool) (seen : List Value) : ResponseAggregate :=
  pipeline (seen.drop skipped) (.errors (abortErrors isTransaction skipped seen))
    ⟨skipped - seen.length, expected, isTransaction, seen.length⟩

def pipelineResponse (skipped : Nat) (isTransaction : Bool) (seen : List Value) : RedisResult Value :=
  ErrorOrErrors.response (.errors (abortErrors isTransaction skipped seen)) (seen.drop skipped)

theorem new_eq_seeing (skipped expected : Nat) (isTransaction : Bool) :
    new (some ⟨skipped, expected, isTransaction, 0⟩) = seeing skipped expected isTransaction [] := by
  cases isTransaction <;> simp [new, seeing, abortErrors, refusals, reportedErrors]

theorem abortErrors_append (seen : List Value) (v : Value) :
    abortErrors isTransaction skipped (seen ++ [v]) =
      abortErrors isTransaction skipped seen ++
        if isTransaction then reportedErrors (refusals skipped seen.length [v]) else [] := by
  unfold abortErrors
  split
  · rw [refusals_append, reportedErrors, map_append, Nat.zero_add]
    rfl
  · rfl

theorem skip_errors {seen : List Value} {v : Value} (hlen : seen.length < skipped)
    (hv : isTransaction = true → seen = [] → v.isServerError = false) :
    ErrorOrErrors.skip isTransaction (seen.length + 1) (.errors (abortErrors isTransaction skipped seen)) (.ok v) =
      .ok (.errors (abortErrors isTransaction skipped (seen ++ [v]))) := by
  rw [abortErrors_append]
  cases isTransaction with
  | false => simp [ErrorOrErrors.skip, pure, Except.pure]
  | true =>
    cases v with
    | serverError err =>
      have hpos : 2 ≤ seen.length + 1 := by
        by_contra h
        cases hv rfl (eq_nil_of_length_eq_zero (by omega))
      simp [ErrorOrErrors.skip, refusals, reportedErrors, Value.serverError?, checkedSub, hlen, hpos, bind,
        Except.bind, pure, Except.pure]
    | _ => simp [ErrorOrErrors.skip, refusals, reportedErrors, Value.serverError?, pure, Except.pure]

theorem receive_seeing {seen : List Value} {v : Value}
    (hv : isTransaction = true → seen = [] → 0 < skipped → v.isServerError = false) :
    (seeing skipped expected isTransaction seen).receive (.ok v) =
      if seen.length < skipped ∨ seen.length + 1 < skipped + expected then
        .ok (.inl (seeing skipped expected isTransaction (seen ++ [v])))
      else .ok (.inr (pipelineResponse skipped isTransaction (seen ++ [v]))) := by
  by_cases hlen : seen.length < skipped
  · have hskip := skip_errors hlen fun ht hs => hv ht hs (by omega)
    have hdrop : (seen ++ [v]).drop skipped = seen.drop skipped := by
      rw [drop_eq_nil_of_le (by simp; omega), drop_eq_nil_of_le (by omega)]
    rw [if_pos (.inl hlen)]
    simp only [seeing, receive, hskip, hdrop, show 0 < skipped - seen.length by omega, if_true, bind,
      Except.bind, pure, Except.pure, length_append, length_singleton, Nat.sub_sub]
  · have hdrop : (seen ++ [v]).drop skipped = seen.drop skipped ++ [v] :=
      drop_append_of_le_length (by omega)
    have herr : abortErrors isTransaction skipped (seen ++ [v]) = abortErrors isTransaction skipped seen := by
      rw [abortErrors_append, refusals_eq_nil_of_le (by omega)]
      simp [reportedErrors]
    have hcnt : (seen.drop skipped ++ [v]).length < expected ↔ seen.length + 1 < skipped + expected := by
      rw [length_append, length_drop, length_singleton]
      omega
    simp only [seeing, receive, hdrop, herr, hcnt, hlen, show ¬ 0 < skipped - seen.length by omega,
      if_false, false_or, pipelineResponse]
    split
    · simp only [pure, Except.pure, length_append, length_singleton,
        show skipped - seen.length = 0 by omega, show skipped - (seen.length + 1) = 0 by omega]
    · rfl

end ResponseAggregate

namespace PipelineSink

variable {κ : Type} [HandlesPush κ]

def sendResults (sink : PipelineSink κ) : List Value → Ends (PipelineSink κ × List Completion)
  | [] => return (sink, [])
  | v :: vs => do
    let (sink, c) ← sink.sendResult (.ok v)
    let (sink, cs) ← sink.sendResults vs
    return (sink, c.toList ++ cs)

variable {sink : PipelineSink κ} {output : Option Output} {skipped expected : Nat} {isTransaction : Bool}

theorem sendResult_seeing {seen : List Value}
    (hq : sink.inFlight = [⟨output, .seeing skipped expected isTransaction seen⟩]) {v : Value}
    (hp : v.isPush = false)
    (hv : isTransaction = true → seen = [] → 0 < skipped → v.isServerError = false) :
    sink.sendResult (.ok v) =
      if seen.length < skipped ∨ seen.length + 1 < skipped + expected then
        .ok ({ sink with inFlight := [⟨output, .seeing skipped expected isTransaction (seen ++ [v])⟩] }, none)
      else .ok ({ sink with inFlight := [] },
        output.map (·, ResponseAggregate.pipelineResponse skipped isTransaction (seen ++ [v]))) := by
  have htake : sink.takePush (.ok v) = sink := by cases v <;> first | rfl | cases hp
  have hrep : v.isNonReplyPush = false := by cases v <;> first | rfl | cases hp
  rw [sendResult_reply hrep, htake, answer, hq]
  simp only [ResponseAggregate.receive_seeing hv]
  split <;> rfl

theorem sendResults_pipeline {seen replies : List Value}
    (hq : sink.inFlight = [⟨output, .seeing skipped expected isTransaction seen⟩]) (hkeeps : 1 ≤ expected)
    (hne : replies ≠ []) (hlen : seen.length + replies.length = skipped + expected)
    (hp : ∀ v ∈ replies, v.isPush = false)
    (hfirst : isTransaction = true → FirstAccepted skipped 0 (seen ++ replies)) :
    sink.sendResults replies = .ok ({ sink with inFlight := [] },
      (output.map (·, ResponseAggregate.pipelineResponse skipped isTransaction (seen ++ replies))).toList) := by
  induction replies generalizing sink seen with
  | nil => exact absurd rfl hne
  | cons v replies ih =>
    have hv : isTransaction = true → seen = [] → 0 < skipped → v.isServerError = false := by
      rintro ht rfl hpos
      exact hfirst ht rfl hpos v rfl
    rw [sendResults, sendResult_seeing hq (hp v mem_cons_self) hv]
    rw [length_cons] at hlen
    rcases eq_nil_or_concat' replies with rfl | ⟨init, last, hinit⟩
    · rw [if_neg (by simp only [length_nil] at hlen; omega)]
      simp [bind, Except.bind, sendResults, pure, Except.pure]
    · have hpos : 0 < replies.length := by rw [hinit]; simp
      rw [if_pos (by omega)]
      have hq' : ({ sink with
          inFlight := [⟨output, .seeing skipped expected isTransaction (seen ++ [v])⟩] } :
            PipelineSink κ).inFlight = [⟨output, .seeing skipped expected isTransaction (seen ++ [v])⟩] := rfl
      have ih := ih hq' (ne_nil_of_length_pos hpos)
        (by rw [length_append, length_singleton]; omega)
        (fun w hw => hp w (mem_cons_of_mem _ hw)) (by simpa using hfirst)
      simp only [bind, Except.bind, ih, pure, Except.pure, Option.toList_none, nil_append,
        append_assoc, cons_append]

end PipelineSink

inductive Exchange
  | ordinary (reply : Value) (h : reply.isPush = false)
  | subscription (channels : List PushInfo) (hne : channels ≠ []) (h : ∀ p ∈ channels, p.kind.hasReply = true)

namespace Exchange

def values : Exchange → List Value
  | ordinary reply _ => [reply]
  | subscription channels _ _ => channels.map fun p => .push p.kind p.data

def SingleChannel : Exchange → Prop
  | ordinary _ _ => True
  | subscription channels _ _ => channels.length = 1

def first (x : Exchange) : Value := x.values.headD .nil

theorem isNonReplyPush_eq_false (x : Exchange) : ∀ v ∈ x.values, v.isNonReplyPush = false := by
  intro v hv
  cases x with
  | ordinary reply h =>
    obtain rfl := mem_singleton.1 hv
    cases v <;> first | rfl | cases h
  | subscription channels hne h =>
    obtain ⟨p, hp, rfl⟩ := mem_map.1 hv
    simp [Value.isNonReplyPush, h p hp]

theorem SingleChannel.values_eq {x : Exchange} (h : x.SingleChannel) : x.values = [x.first] := by
  cases x with
  | ordinary reply _ => rfl
  | subscription channels _ _ =>
    obtain ⟨p, rfl⟩ := length_eq_one_iff.1 h
    rfl

end Exchange

structure Request where
  message : PipelineMessage
  exchanges : List Exchange
  counted : exchanges.length =
    match message.expectation with
    | none => 1
    | some e => e.skippedResponseCount + e.expectedResponseCount
  unseen : ∀ e ∈ message.expectation, e.seenResponses = 0

namespace Request

def values (req : Request) : List Value := req.exchanges.flatMap Exchange.values

def response (req : Request) : RedisResult Value :=
  match req.message.expectation with
  | none => .ok (req.values.headD .nil)
  | some e =>
    ErrorOrErrors.response
      (.errors (ResponseAggregate.abortErrors e.isTransaction e.skippedResponseCount
        (req.exchanges.map Exchange.first)))
      ((req.exchanges.drop e.skippedResponseCount).flatMap Exchange.values)

def completion (req : Request) : Option Completion := req.message.output.map (·, req.response)

/-- The requests the driver can tell the answers of. -/
structure Orderly (req : Request) : Prop where
  channels : ∀ x ∈ req.exchanges, x.SingleChannel
  keeps : ∀ e ∈ req.message.expectation, 1 ≤ e.expectedResponseCount
  multi : ∀ e ∈ req.message.expectation, e.isTransaction = true →
    FirstAccepted e.skippedResponseCount 0 req.values

def aggregate (req : Request) (seen : List Value) : ResponseAggregate :=
  match req.message.expectation with
  | none => .singleCommand
  | some e => .seeing e.skippedResponseCount e.expectedResponseCount e.isTransaction seen

def entry (req : Request) (seen : List Value) : InFlight := ⟨req.message.output, req.aggregate seen⟩

variable {req : Request}

theorem isNonReplyPush_eq_false (req : Request) : ∀ v ∈ req.values, v.isNonReplyPush = false := by
  intro v hv
  obtain ⟨x, -, hx⟩ := mem_flatMap.1 hv
  exact x.isNonReplyPush_eq_false v hx

theorem new_eq_entry (req : Request) :
    (⟨req.message.output, .new req.message.expectation⟩ : InFlight) = req.entry [] := by
  have hunseen := req.unseen
  unfold entry aggregate
  rcases he : req.message.expectation with _ | ⟨skipped, expected, isTransaction, seen⟩
  · rfl
  · obtain rfl : seen = 0 := hunseen _ he
    rw [ResponseAggregate.new_eq_seeing]

theorem Orderly.flatMap_values {xs : List Exchange} (h : ∀ x ∈ xs, x.SingleChannel) :
    xs.flatMap Exchange.values = xs.map Exchange.first := by
  induction xs with
  | nil => rfl
  | cons x xs ih =>
    rw [flatMap_cons, (h x mem_cons_self).values_eq, ih fun y hy => h y (mem_cons_of_mem _ hy)]
    rfl

theorem Orderly.values_eq (h : req.Orderly) : req.values = req.exchanges.map Exchange.first :=
  flatMap_values h.channels

theorem Orderly.length_values (h : req.Orderly) : req.values.length = req.exchanges.length := by
  rw [h.values_eq, length_map]

theorem Orderly.values_ne_nil (h : req.Orderly) : req.values ≠ [] := by
  have hcnt := req.counted
  rw [← h.length_values] at hcnt
  intro hnil
  rw [hnil] at hcnt
  cases he : req.message.expectation with
  | none => simp [he] at hcnt
  | some e =>
    have := h.keeps e he
    simp [he] at hcnt
    omega

theorem Orderly.response_eq (h : req.Orderly) {e : PipelineResponseExpectation}
    (he : req.message.expectation = some e) :
    req.response = ResponseAggregate.pipelineResponse e.skippedResponseCount e.isTransaction req.values := by
  have hkept : (req.exchanges.drop e.skippedResponseCount).flatMap Exchange.values =
      req.values.drop e.skippedResponseCount := by
    rw [flatMap_values fun x hx => h.channels x (mem_of_mem_drop hx), h.values_eq, map_drop]
  unfold response
  rw [he]
  simp only [hkept, ← h.values_eq]
  rfl

theorem Orderly.receive (h : req.Orderly) {seen more : List Value} {v : Value}
    (hv : seen ++ v :: more = req.values) :
    (req.aggregate seen).receive (.ok v) =
      .ok (if more = [] then .inr req.response else .inl (req.aggregate (seen ++ [v]))) := by
  have hcnt := req.counted
  have hlen := congrArg List.length hv
  rw [← h.length_values] at hcnt
  rw [length_append, length_cons] at hlen
  unfold aggregate
  cases he : req.message.expectation with
  | none =>
    rw [he] at hcnt
    obtain rfl : seen = [] := eq_nil_of_length_eq_zero (by simp only at hcnt; omega)
    obtain rfl : more = [] := eq_nil_of_length_eq_zero (by simp only at hcnt; omega)
    rw [if_pos rfl, response, he, ← hv]
    rfl
  | some e =>
    rw [he] at hcnt
    simp only at hcnt ⊢
    have hkeeps := h.keeps e he
    have hmore : more = [] ↔ more.length = 0 := length_eq_zero_iff.symm
    rw [ResponseAggregate.receive_seeing]
    · by_cases hlast : more = []
      · subst hlast
        rw [if_neg (by simp only [length_nil] at hlen; omega), if_pos rfl, h.response_eq he, hv]
      · rw [hmore] at hlast
        rw [if_pos (by omega), if_neg (by rw [hmore]; exact hlast)]
    · rintro ht rfl hpos
      refine h.multi e he ht rfl hpos v ?_
      rw [← hv]
      rfl

end Request

structure Multiplexed (κ : Type) where
  sink : PipelineSink κ
  wire : List Value
  dropped : List Output
  sent : List Request
  read : Nat
  done : List Completion

inductive Traffic
  | send (req : Request)
  | drop (output : Output)
  | recv
  | push (kind : PushKind) (data : List Value)

namespace Multiplexed

variable {κ : Type}

def start (pushSender : Option (List PushInfo)) (cacheManager : Option κ) : Multiplexed κ where
  sink := .new pushSender cacheManager
  wire := []
  dropped := []
  sent := []
  read := 0
  done := []

def isClosed (s : Multiplexed κ) (output : Output) : Bool := s.dropped.contains output

def abandoned (s : Multiplexed κ) (req : Request) : Bool :=
  (req.message.output.map s.isClosed).getD false

def deliver [HandlesPush κ] (s : Multiplexed κ) (v : Value) (wire : List Value) (read : Nat) :
    Ends Unit × Multiplexed κ :=
  match s.sink.sendResult (.ok v) with
  | .error panic => (.error panic, s)
  | .ok (sink, c) => (.ok (), { s with sink, wire, read, done := s.done ++ c.toList })

def step [HandlesPush κ] (s : Multiplexed κ) : Traffic → Option (Ends Unit × Multiplexed κ)
  | .send req =>
    let (_, sink, c) := s.sink.startSend s.isClosed req.message
    -- the server answers what was written
    let wire := if s.sink.written.length < sink.written.length then s.wire ++ req.values else s.wire
    let sent := if s.abandoned req then s.sent else s.sent ++ [req]
    some (.ok (), { s with sink, wire, sent, done := s.done ++ c.toList })
  | .drop output => some (.ok (), { s with dropped := output :: s.dropped })
  | .recv =>
    match s.wire with
    | [] => none
    | v :: wire => some (s.deliver v wire (s.read + 1))
  | .push kind data =>
    if kind.hasReply then none else some (s.deliver (.push kind data) s.wire s.read)

def answeredBy : Nat → List Request → List Request
  | _, [] => []
  | n, req :: reqs =>
    if req.values.length ≤ n then req :: answeredBy (n - req.values.length) reqs else []

/-- Exactly the requests whose answers are read are completed, in order and with their own answers. -/
def Matched (s : Multiplexed κ) : Prop := s.done = (answeredBy s.read s.sent).filterMap Request.completion

def entries (seen : List Value) : List Request → List InFlight
  | [] => []
  | req :: reqs => req.entry seen :: reqs.map (·.entry [])

/-- `finished` are the completed requests, `pending` those in the queue, and `seen` what the first of these has seen. -/
structure Aligned (s : Multiplexed κ) (finished pending : List Request) (seen : List Value) : Prop where
  sound : s.sink.Sound
  sent : s.sent = finished ++ pending
  orderly : ∀ req ∈ s.sent, req.Orderly
  queue : s.sink.inFlight = entries seen pending
  wire : seen ++ s.wire = pending.flatMap Request.values
  waits : ∀ req ∈ pending.head?, seen.length < req.values.length
  done : s.done = finished.filterMap Request.completion
  read : s.read = (finished.flatMap Request.values).length + seen.length

/-- The queue is aligned with what was sent and read. -/
def Inv (s : Multiplexed κ) : Prop := ∃ finished pending seen, s.Aligned finished pending seen

variable {s s' : Multiplexed κ} {finished pending : List Request} {seen : List Value}

theorem start_inv (pushSender : Option (List PushInfo)) (cacheManager : Option κ) :
    (start pushSender cacheManager).Inv :=
  ⟨[], [], [], PipelineSink.new_sound _ _, rfl, nofun, rfl, rfl, nofun, rfl, rfl⟩

theorem answeredBy_append (finished : List Request) (n : Nat) (reqs : List Request) :
    answeredBy ((finished.flatMap Request.values).length + n) (finished ++ reqs) =
      finished ++ answeredBy n reqs := by
  induction finished with
  | nil => simp
  | cons req finished ih =>
    rw [flatMap_cons, length_append, cons_append, answeredBy, if_pos (by omega)]
    rw [show req.values.length + (finished.flatMap Request.values).length + n - req.values.length =
      (finished.flatMap Request.values).length + n by omega, ih]
    rfl

theorem Aligned.matched (h : s.Aligned finished pending seen) : s.Matched := by
  have hnone : answeredBy seen.length pending = [] := by
    cases pending with
    | nil => rfl
    | cons req pending => exact if_neg (Nat.not_le_of_lt (h.waits req rfl))
  rw [Matched, h.sent, h.read, answeredBy_append, hnone, append_nil, h.done]

theorem entries_append (seen : List Value) (pending : List Request) (req : Request) :
    entries seen pending ++ [req.entry []] =
      entries (if pending = [] then [] else seen) (pending ++ [req]) := by
  cases pending with
  | nil => rfl
  | cons first pending => simp [entries]

theorem Aligned.seen_eq (h : s.Aligned finished pending seen) (hp : pending = []) : seen = [] := by
  have := h.wire
  rw [hp, flatMap_nil, append_eq_nil_iff] at this
  exact this.1

theorem Aligned.next (h : s.Aligned finished pending seen) {v : Value} {wire : List Value}
    (hw : s.wire = v :: wire) : ∃ req later more, pending = req :: later ∧ seen ++ v :: more = req.values ∧
      wire = more ++ later.flatMap Request.values := by
  have hwire := h.wire
  rw [hw] at hwire
  rcases pending with _ | ⟨req, pending⟩
  · simp at hwire
  rw [flatMap_cons] at hwire
  have hlt := h.waits req rfl
  rcases append_eq_append_iff.1 hwire with ⟨rest, hreq, hrest⟩ | ⟨rest, hseen, hrest⟩
  · cases rest with
    | nil =>
      rw [hreq, append_nil] at hlt
      exact absurd hlt (Nat.lt_irrefl _)
    | cons w rest =>
      obtain ⟨rfl, rfl⟩ := cons_eq_cons.1 hrest
      exact ⟨req, pending, rest, rfl, hreq.symm, rfl⟩
  · rw [hseen, length_append] at hlt
    omega

variable [HandlesPush κ]

variable {out : Ends Unit}

theorem Aligned.send (h : s.Aligned finished pending seen) {req : Request}
    (ho : s.abandoned req = false → req.Orderly) (hstep : s.step (.send req) = some (out, s')) :
    out = .ok () ∧ s'.Inv := by
  cases hclosed : s.abandoned req with
  | true =>
    simp only [step, PipelineSink.startSend_closed hclosed, hclosed, Nat.lt_irrefl, if_true, if_false,
      Option.toList_none, append_nil, Option.some.injEq, Prod.mk.injEq] at hstep
    obtain ⟨rfl, rfl⟩ := hstep
    exact ⟨rfl, finished, pending, seen, h⟩
  | false =>
    have hreq := ho hclosed
    simp only [step, PipelineSink.startSend_open h.sound hclosed, hclosed, length_append,
      length_singleton, Nat.lt_succ_self, if_true, Bool.false_eq_true, if_false,
      Option.toList_none, append_nil, Option.some.injEq, Prod.mk.injEq] at hstep
    obtain ⟨rfl, rfl⟩ := hstep
    have hseen : (if pending = [] then [] else seen) = seen := by
      split
      · exact (h.seen_eq ‹_›).symm
      · rfl
    refine ⟨rfl, finished, pending ++ [req], seen, ⟨h.sound.error, h.sound.writeError⟩, ?_, ?_, ?_, ?_, ?_,
      h.done, h.read⟩
    · rw [h.sent, append_assoc]
    · intro r hr
      rcases mem_append.1 hr with hr | hr
      · exact h.orderly r hr
      · rw [mem_singleton.1 hr]
        exact hreq
    · rw [h.queue, Request.new_eq_entry, entries_append, hseen]
    · rw [← append_assoc, h.wire, flatMap_append, flatMap_singleton]
    · intro r hr
      cases pending with
      | nil =>
        obtain rfl : req = r := Option.some.inj hr
        rw [h.seen_eq rfl]
        exact length_pos_iff.2 hreq.values_ne_nil
      | cons first pending => exact h.waits r hr

theorem Aligned.takePush (h : s.Aligned finished pending seen) (r : RedisResult Value) :
    (s.sink.takePush r).Sound ∧ (s.sink.takePush r).inFlight = entries seen pending := by
  obtain ⟨-, hqueue, hsound⟩ := PipelineSink.takePush_frame s.sink r
  exact ⟨hsound.2 h.sound, hqueue.trans h.queue⟩

theorem Aligned.push (h : s.Aligned finished pending seen) {kind : PushKind} {data : List Value}
    (hstep : s.step (.push kind data) = some (out, s')) : out = .ok () ∧ s'.Inv := by
  cases hk : kind.hasReply with
  | true => simp [step, hk] at hstep
  | false =>
    have hv : (Value.push kind data).isNonReplyPush = true := by simp [Value.isNonReplyPush, hk]
    simp only [step, hk, Bool.false_eq_true, if_false, deliver, PipelineSink.sendResult_push hv,
      Option.toList_none, append_nil, Option.some.injEq, Prod.mk.injEq] at hstep
    obtain ⟨rfl, rfl⟩ := hstep
    obtain ⟨hsound, hqueue⟩ := h.takePush (.ok (.push kind data))
    exact ⟨rfl, finished, pending, seen, hsound, h.sent, h.orderly, hqueue, h.wire, h.waits, h.done, h.read⟩

theorem Aligned.recv (h : s.Aligned finished pending seen) (hstep : s.step .recv = some (out, s')) :
    out = .ok () ∧ s'.Inv := by
  rcases hw : s.wire with _ | ⟨v, wire⟩
  · simp [step, hw] at hstep
  obtain ⟨req, pending, more, rfl, hvals, hmore⟩ := h.next hw
  have hord : req.Orderly := h.orderly req (by rw [h.sent]; simp)
  have hv : v.isNonReplyPush = false :=
    req.isNonReplyPush_eq_false v (by rw [← hvals]; simp)
  obtain ⟨hsound, hqueue⟩ := h.takePush (.ok v)
  have hrecv : (req.entry seen).responseAggregate.receive (.ok v) = _ := hord.receive hvals
  simp only [step, hw, deliver, PipelineSink.sendResult_reply hv, PipelineSink.answer, hqueue, entries,
    hrecv, bind, Except.bind, Option.some.injEq] at hstep
  by_cases hlast : more = []
  · -- it was the last answer: the request is completed
    subst hlast
    simp only [if_true, pure, Except.pure, Prod.mk.injEq] at hstep
    obtain ⟨rfl, rfl⟩ := hstep
    refine ⟨rfl, finished ++ [req], pending, [], ⟨hsound.error, hsound.writeError⟩, ?_, h.orderly, ?_, hmore,
      ?_, ?_, ?_⟩
    · rw [h.sent, append_assoc]
      rfl
    · cases pending <;> rfl
    · intro r hr
      refine length_pos_iff.2 (h.orderly r ?_).values_ne_nil
      rw [h.sent]
      simp [mem_of_mem_head? hr]
    · rw [h.done, filterMap_append]
      rfl
    · show s.read + 1 = _
      rw [h.read, flatMap_append, length_append, flatMap_singleton, ← hvals]
      simp
      omega
  · simp only [hlast, if_false, pure, Except.pure, Prod.mk.injEq, Option.toList_none, append_nil] at hstep
    obtain ⟨rfl, rfl⟩ := hstep
    refine ⟨rfl, finished, req :: pending, seen ++ [v], ⟨hsound.error, hsound.writeError⟩, h.sent, h.orderly,
      rfl, ?_, ?_, h.done, ?_⟩
    · show seen ++ [v] ++ wire = _
      rw [flatMap_cons, ← hvals, hmore]
      simp
    · intro r hr
      obtain rfl : req = r := Option.some.inj hr
      have := length_pos_iff.2 hlast
      rw [← hvals]
      simp
      omega
    · show s.read + 1 = _
      rw [h.read, length_append, length_singleton, Nat.add_assoc]

/-- The request of a step, if it is written, is orderly. -/
def OrderlyStep (s : Multiplexed κ) : Traffic → Prop
  | .send req => s.abandoned req = false → req.Orderly
  | _ => True

theorem step_inv (h : s.Inv) {t : Traffic} (ho : s.OrderlyStep t) (hstep : s.step t = some (out, s')) :
    out = .ok () ∧ s'.Inv := by
  obtain ⟨finished, pending, seen, h⟩ := h
  cases t with
  | send req => exact h.send ho hstep
  | drop output =>
    cases hstep
    exact ⟨rfl, finished, pending, seen, h.sound, h.sent, h.orderly, h.queue, h.wire, h.waits, h.done, h.read⟩
  | recv => exact h.recv hstep
  | push kind data => exact h.push hstep

/-- In a run all of whose requests are orderly the driver never panics, and in every state that is
reached the requests and the responses match. -/
theorem multiplexed_matched (pushSender : Option (List PushInfo)) (cacheManager : Option κ)
    (traffic : List Traffic)
    (h : Run.Along step (fun s t _ _ => OrderlyStep s t) (start pushSender cacheManager) traffic) :
    Run.Along step (fun _ _ out s' => out = .ok () ∧ s'.Matched) (start pushSender cacheManager) traffic := by
  refine Run.along_mono (I := Inv) ?_ (start_inv pushSender cacheManager) h
  intro s t out s' hinv hstep ho
  obtain ⟨hout, hinv'⟩ := step_inv hinv ho hstep
  obtain ⟨finished, pending, seen, ha⟩ := hinv'
  exact ⟨⟨hout, ha.matched⟩, finished, pending, seen, ha⟩

def getRequest : Request where
  message := ⟨(Cmd.ofArgs [bytesOf "GET", bytesOf "key"]).getPackedCommand, some 1, none⟩
  exchanges := [.ordinary (.bulkString (bytesOf "value")) rfl]
  counted := rfl
  unseen := nofun

def subscribeRequest : Request where
  message := ⟨(Cmd.ofArgs [bytesOf "SUBSCRIBE", bytesOf "a", bytesOf "b"]).getPackedCommand, some 0, none⟩
  exchanges := [.subscription
    [⟨.subscribe, [.bulkString (bytesOf "a"), .int 1]⟩, ⟨.subscribe, [.bulkString (bytesOf "b"), .int 2]⟩]
    nofun (by decide)]
  counted := rfl
  unseen := nofun

theorem get_matched :
    Run.Along step (fun _ _ out s' => out = .ok () ∧ s'.Matched) (start none none : Multiplexed Unit)
      [.send getRequest, .push .message [], .recv] := by
  refine multiplexed_matched none none _ ?_
  have horderly : getRequest.Orderly := by
    refine ⟨?_, nofun, nofun⟩
    intro x hx
    obtain rfl := mem_singleton.1 hx
    trivial
  intro _ _ _
  refine ⟨fun _ => horderly, ?_⟩
  intro _ _ _
  refine ⟨trivial, ?_⟩
  intro _ _ _
  exact ⟨trivial, trivial⟩

theorem second_channel_answers_next_request :
    ∃ s : Multiplexed Unit, Run.run step (start none none)
        [.send subscribeRequest, .send getRequest, .recv, .recv, .recv] =
      some ([.ok (), .ok (), .ok (), .ok (), .ok ()], s) ∧
    s.done = [(0, .ok (.push .subscribe [.bulkString (bytesOf "a"), .int 1])),
      (1, .ok (.push .subscribe [.bulkString (bytesOf "b"), .int 2]))] ∧ ¬ s.Matched := by
  refine ⟨_, rfl, rfl, ?_⟩
  intro h
  injection h with _ h
  injection h with h _
  cases h

end Multiplexed

end RedisRs
