import RedisRs.AsyncPubSub

/-!
# Matching and delivery by the asynchronous `PubSub`
-/

namespace RedisRs

open List Run FromRedisValue Message

theorem Reply.eq_error_of_value {protocol : ProtocolVersion} {r : Reply} {err : ServerError}
    (h : r.value protocol = .serverError err) : r = .error err := by
  rcases r with ⟨kind, channel, count⟩ | (_ | message) | message | err'
  · cases protocol <;> cases h
  all_goals cases h
  rfl

namespace AsyncPubSub

namespace PipelineSink

variable (sink : PipelineSink) (protocol : ProtocolVersion)

theorem handleMessage_reply (r : Reply) :
    ∃ okIfNone, sink.handleMessage (.ok (r.value protocol)) = sink.answerFirst (.ok (r.value protocol)) okIfNone ∧
      (r.isConfirmation = true → okIfNone = true) := by
  rcases r with ⟨kind, channel, count⟩ | (_ | message) | message | err
  · refine ⟨true, ?_, fun _ => rfl⟩
    cases protocol <;> cases kind <;> rfl
  · exact ⟨false, rfl, fun h => by cases h⟩
  · exact ⟨false, rfl, fun h => by cases h⟩
  · exact ⟨true, rfl, fun _ => rfl⟩
  · exact ⟨false, rfl, fun h => by cases h⟩

theorem handleMessage_message (m : Message) :
    sink.handleMessage (.ok (m.value protocol)) = ⟨{ sink with sender := sink.sender ++ [m.msg] }, none, true⟩ := by
  rcases m with ⟨_ | pattern, channel, payload⟩ <;> cases protocol <;> rfl

theorem handleMessage_error (err : RedisError) :
    (sink.handleMessage (.error err)).sink.sender = sink.sender ∧
      ∀ entry ∈ (sink.handleMessage (.error err)).answered, entry.2 = .error err := by
  rw [handleMessage]
  split
  · exact ⟨rfl, fun _ h => by cases h⟩
  · rw [answerFirst]
    split
    · exact ⟨rfl, fun _ h => by cases h⟩
    · refine ⟨rfl, fun entry h => ?_⟩
      cases h
      rfl

end PipelineSink

theorem filter_first_owedReplies {replies : List Reply} (h : replies ≠ []) (i : Nat) :
    ((owedReplies i replies).filter (·.first)).map (·.request) = [i] := by
  obtain ⟨r, rs, rfl⟩ := exists_cons_of_ne_nil h
  simp [owedReplies, filter_map]

theorem mem_owedReplies {i : Nat} {replies : List Reply} {o : OwedReply} (h : o ∈ owedReplies i replies) :
    o.request = i ∧ (o.first = false → o.reply ∈ replies.tail) := by
  cases replies with
  | nil => cases h
  | cons r rs =>
    rcases mem_cons.1 h with rfl | h
    · exact ⟨rfl, fun h => by cases h⟩
    · obtain ⟨r', hr', rfl⟩ := mem_map.1 h
      exact ⟨rfl, fun _ => hr'⟩

theorem pairwise_owedReplies (i : Nat) (replies : List Reply) :
    (owedReplies i replies).Pairwise fun o o' => o'.first = true → o.request < o'.request := by
  cases replies with
  | nil => exact List.Pairwise.nil
  | cons r rs =>
    refine pairwise_cons.2 ⟨fun o ho hfirst => ?_, pairwise_map.2 (pairwise_of_forall fun _ _ h => ?_)⟩
    · obtain ⟨r', -, rfl⟩ := mem_map.1 ho
      cases hfirst
    · cases h

/-- A request has a reply, and all but the first are confirmations. -/
def Confirms (replies : List Reply) : Prop :=
  replies ≠ [] ∧ ∀ r ∈ replies.tail, r.isConfirmation = true

theorem confirms_confirmEach (kind : ConfirmationKind) (change : Subscriptions → Bytes → Subscriptions)
    (subs : Subscriptions) {channels : List Bytes} (h : channels ≠ []) :
    Confirms (subs.confirmEach kind change channels).1 := by
  have hall : ∀ (channels : List Bytes) (subs : Subscriptions),
      ∀ r ∈ (subs.confirmEach kind change channels).1, r.isConfirmation = true := by
    intro channels
    induction channels with
    | nil => exact fun _ r hr => by cases hr
    | cons channel channels ih =>
      intro subs r hr
      rcases mem_cons.1 hr with rfl | hr
      · rfl
      · exact ih _ r hr
  obtain ⟨channel, channels, rfl⟩ := exists_cons_of_ne_nil h
  exact ⟨cons_ne_nil _ _, fun r hr => hall _ _ r hr⟩

theorem confirms_singleton (r : Reply) : Confirms [r] := ⟨cons_ne_nil _ _, fun _ h => by cases h⟩

theorem confirms_answer (protocol : ProtocolVersion) (subs : Subscriptions) (request : PubSubRequest) :
    Confirms (subs.answer protocol request).1 := by
  cases request with
  | subscribe channels =>
    rcases channels with _ | ⟨channel, channels⟩
    · exact confirms_singleton _
    · exact confirms_confirmEach _ _ _ (cons_ne_nil _ _)
  | pSubscribe patterns =>
    rcases patterns with _ | ⟨pattern, patterns⟩
    · exact confirms_singleton _
    · exact confirms_confirmEach _ _ _ (cons_ne_nil _ _)
  | unsubscribe channels =>
    rcases channels with _ | ⟨channel, channels⟩
    · rw [Subscriptions.answer, Subscriptions.dropAllChannels]
      split
      · exact confirms_singleton _
      · exact confirms_confirmEach _ _ _ (by assumption)
    · exact confirms_confirmEach _ _ _ (cons_ne_nil _ _)
  | pUnsubscribe patterns =>
    rcases patterns with _ | ⟨pattern, patterns⟩
    · rw [Subscriptions.answer, Subscriptions.dropAllPatterns]
      split
      · exact confirms_singleton _
      · exact confirms_confirmEach _ _ _ (by assumption)
    · exact confirms_confirmEach _ _ _ (cons_ne_nil _ _)
  | ping message =>
    rcases message with _ | ⟨text, _ | ⟨text', message⟩⟩ <;> simp only [Subscriptions.answer]
    · split <;> exact confirms_singleton _
    · split <;> exact confirms_singleton _
    · exact confirms_singleton _

theorem confirms_serve (s : AsyncPubSub) (request : PubSubRequest) (refusal : Option ServerError) :
    Confirms (s.serve request refusal).1 := by
  cases refusal with
  | none => exact confirms_answer _ _ _
  | some err => exact confirms_singleton _

/-- Each value goes to its own request, and the `PubSubStream` gets all messages in order. -/
structure Right (α : Type) [FromRedisValue α] (answers : List Answer) (s' : AsyncPubSub) : Prop where
  matched : ∀ a ∈ answers, a.heard = true → ∀ v, a.result = .ok v → a.producedFor = some a.request
  told : ∀ a ∈ answers, a.heard = true → ∀ request, s'.requests[a.request]? = some request →
    request.isSubUnsub = true → ∀ err, a.result = .ok (.serverError err) →
    ∃ e, returned α request a.result = .unit (.error e)
  delivered : s'.sink.sender = s'.sent.map msg

/-- No further reply is read while a request is in flight, and no request to subscribe is refused. -/
def Orderly (s : AsyncPubSub) : AsyncPubSubStep → Prop
  | .reply => ∀ next ∈ s.owed.head?, (next.first = false → s.sink.inFlight = []) ∧
    ∀ err, next.reply = .error err → ∀ request, s.requests[next.request]? = some request → request.isSubUnsub = false
  | _ => True

/-- The requests in flight are those that the replies still owed begin with. -/
structure Aligned (s : AsyncPubSub) : Prop where
  running : s.running = s.connected
  inFlight : s.running = true → s.sink.inFlight = (s.owed.filter (·.first)).map (·.request)
  confirms : ∀ o ∈ s.owed, o.first = false → o.reply.isConfirmation = true
  order : s.owed.Pairwise fun o o' => o'.first = true → o.request < o'.request
  before : ∀ o ∈ s.owed, ∀ m ∈ s.queue, o.request < m.output
  queue : s.queue.Pairwise fun m m' => m.output < m'.output
  owedNumbers : ∀ o ∈ s.owed, o.request < s.requests.length
  queueNumbers : ∀ m ∈ s.queue, m.output < s.requests.length
  delivered : s.sink.sender = s.sent.map msg

section Steps

variable {s s' : AsyncPubSub} {a : AsyncPubSubStep} {answers : List Answer} {α : Type} [FromRedisValue α]

theorem delivered_concat (h : s.sink.sender = s.sent.map msg) (m : Message) :
    s.sink.sender ++ [m.msg] = (s.sent ++ [m]).map msg := by
  rw [map_append, ← h]
  rfl

theorem Right.of_errors (h : ∀ a ∈ answers, ∃ e, a.result = .error e) (hd : s'.sink.sender = s'.sent.map msg) :
    Right α answers s' := by
  refine ⟨fun a ha _ v hv => ?_, fun a ha _ _ _ _ err hv => ?_, hd⟩ <;> obtain ⟨e, he⟩ := h a ha <;>
    cases he.symm.trans hv

theorem Right.of_nil (hd : s'.sink.sender = s'.sent.map msg) : Right α [] s' :=
  .of_errors (fun _ h => by cases h) hd

theorem stop_errors (s : AsyncPubSub) : ∀ a ∈ s.stop.1, ∃ e, a.result = .error e := by
  intro a ha
  obtain ⟨i, -, rfl⟩ := mem_map.1 ha
  exact ⟨_, rfl⟩

theorem Aligned.stop (h : s.Aligned) {t : AsyncPubSub} (hconn : t.connected = false) (howed : t.owed = s.owed)
    (hreqs : t.requests = s.requests) (hsender : t.sink.sender = s.sink.sender) (hsent : t.sent = s.sent) :
    t.stop.2.Aligned where
  running := hconn.symm
  inFlight h := by cases h
  confirms := howed ▸ h.confirms
  order := howed ▸ h.order
  before _ _ _ h := by cases h
  queue := List.Pairwise.nil
  owedNumbers := howed ▸ hreqs ▸ h.owedNumbers
  queueNumbers _ h := by cases h
  delivered := (hsender.trans h.delivered).trans (by rw [← hsent]; rfl)

theorem handle_error (s : AsyncPubSub) (err : RedisError) :
    (∀ a ∈ (s.handle none (.error err)).1, ∃ e, a.result = .error e) ∧
      (s.handle none (.error err)).2.owed = s.owed ∧ (s.handle none (.error err)).2.requests = s.requests ∧
      (s.handle none (.error err)).2.sink.sender = s.sink.sender ∧ (s.handle none (.error err)).2.sent = s.sent := by
  obtain ⟨hsender, hans⟩ := s.sink.handleMessage_error err
  have herrs : ∀ a ∈ (s.sink.handleMessage (.error err)).answered.toList.map (s.answer none),
      ∃ e, a.result = .error e := by
    intro a ha
    obtain ⟨entry, hent, rfl⟩ := mem_map.1 ha
    exact ⟨err, hans entry (Option.mem_toList.1 hent)⟩
  dsimp only [handle]
  split
  · exact ⟨herrs, rfl, rfl, hsender, rfl⟩
  · refine ⟨fun a ha => ?_, rfl, rfl, hsender, rfl⟩
    exact (mem_append.1 ha).elim (herrs a) (stop_errors _ a)

theorem Aligned.call (h : s.Aligned) (request : PubSubRequest) (input : Bytes) :
    ({ s with
      requests := s.requests ++ [request]
      queue := s.queue ++ [⟨input, s.requests.length⟩] } : AsyncPubSub).Aligned where
  running := h.running
  inFlight := h.inFlight
  confirms := h.confirms
  order := h.order
  before o ho m hm := by
    rcases mem_append.1 hm with hm | hm
    · exact h.before o ho m hm
    · cases mem_singleton.1 hm
      exact h.owedNumbers o ho
  queue := by
    refine pairwise_append.2 ⟨h.queue, pairwise_singleton _ _, fun m hm m' hm' => ?_⟩
    cases mem_singleton.1 hm'
    exact h.queueNumbers m hm
  owedNumbers o ho := by
    rw [length_append]
    exact Nat.lt_add_right _ (h.owedNumbers o ho)
  queueNumbers m hm := by
    rw [length_append, length_singleton]
    rcases mem_append.1 hm with hm | hm
    · exact Nat.lt_add_right _ (h.queueNumbers m hm)
    · cases mem_singleton.1 hm
      exact Nat.lt_succ_self _
  delivered := h.delivered

theorem Aligned.startSend (h : s.Aligned) {message : PipelineMessage} {queue : List PipelineMessage}
    (hqueue : s.queue = message :: queue) {replies : List Reply} (hconfirms : Confirms replies) (subs : Subscriptions) :
    ({ s with
      queue
      sink := s.sink.startSend message
      subs
      owed := s.owed ++ owedReplies message.output replies } : AsyncPubSub).Aligned := by
  have hmsg : message ∈ s.queue := hqueue ▸ mem_cons_self
  have htail : ∀ m ∈ queue, m ∈ s.queue := fun m hm => hqueue ▸ mem_cons_of_mem _ hm
  have hsort := h.queue
  rw [hqueue, pairwise_cons] at hsort
  constructor
  case running => exact h.running
  case inFlight =>
    intro hrun
    show s.sink.inFlight ++ [message.output] = _
    rw [filter_append, map_append, filter_first_owedReplies hconfirms.1, h.inFlight hrun]
  case confirms =>
    intro o ho hfirst
    rcases mem_append.1 ho with ho | ho
    · exact h.confirms o ho hfirst
    · exact hconfirms.2 _ ((mem_owedReplies ho).2 hfirst)
  case order =>
    refine pairwise_append.2 ⟨h.order, pairwise_owedReplies _ _, fun o ho o' ho' _ => ?_⟩
    rw [(mem_owedReplies ho').1]
    exact h.before o ho message hmsg
  case before =>
    intro o ho m hm
    rcases mem_append.1 ho with ho | ho
    · exact h.before o ho m (htail m hm)
    · rw [(mem_owedReplies ho).1]
      exact hsort.1 m hm
  case queue => exact hsort.2
  case owedNumbers =>
    intro o ho
    rcases mem_append.1 ho with ho | ho
    · exact h.owedNumbers o ho
    · rw [(mem_owedReplies ho).1]
      exact h.queueNumbers message hmsg
  case queueNumbers => exact fun m hm => h.queueNumbers m (htail m hm)
  case delivered => exact h.delivered

variable {next : OwedReply} {owed : List OwedReply}

theorem Aligned.inFlight_of_first (h : s.Aligned) (hrun : s.running = true) (howed : s.owed = next :: owed)
    (hfirst : next.first = true) : s.sink.inFlight = next.request :: (owed.filter (·.first)).map (·.request) := by
  rw [h.inFlight hrun, howed, filter_cons, if_pos hfirst, map_cons]

theorem Aligned.inFlight_of_further (h : s.Aligned) (hrun : s.running = true) (howed : s.owed = next :: owed)
    (hfirst : next.first = false) : s.sink.inFlight = (owed.filter (·.first)).map (·.request) := by
  rw [h.inFlight hrun, howed, filter_cons, if_neg (by rw [hfirst]; exact Bool.false_ne_true)]

theorem Aligned.reply (h : s.Aligned) (howed : s.owed = next :: owed) {inFlight : List Nat}
    (hinFlight : s.running = true → inFlight = (owed.filter (·.first)).map (·.request)) :
    ({ s with owed, sink := { s.sink with inFlight } } : AsyncPubSub).Aligned where
  running := h.running
  inFlight := hinFlight
  confirms o ho := h.confirms o (howed ▸ mem_cons_of_mem _ ho)
  order := (pairwise_cons.1 (howed ▸ h.order)).2
  before o ho := h.before o (howed ▸ mem_cons_of_mem _ ho)
  queue := h.queue
  owedNumbers o ho := h.owedNumbers o (howed ▸ mem_cons_of_mem _ ho)
  queueNumbers := h.queueNumbers
  delivered := h.delivered

theorem handle_cons {entry : Nat} {rest : List Nat} (hinFlight : s.sink.inFlight = entry :: rest) :
    s.handle (some next.request) (.ok (next.reply.value s.protocol)) =
      ([s.answer (some next.request) (entry, .ok (next.reply.value s.protocol))],
        { s with sink := { s.sink with inFlight := rest } }) := by
  obtain ⟨okIfNone, hhdl, -⟩ := s.sink.handleMessage_reply s.protocol next.reply
  simp only [handle, hhdl, PipelineSink.answerFirst, hinFlight]
  rfl

theorem handle_nil (hconf : next.reply.isConfirmation = true) (hinFlight : s.sink.inFlight = []) :
    s.handle (some next.request) (.ok (next.reply.value s.protocol)) = ([], s) := by
  obtain ⟨okIfNone, hhdl, hok⟩ := s.sink.handleMessage_reply s.protocol next.reply
  simp only [handle, hhdl, PipelineSink.answerFirst, hinFlight, hok hconf]
  rfl

theorem Aligned.handle_next (h : s.Aligned) (hrun : s.running = true) (howed : s.owed = next :: owed)
    (hord : s.Orderly .reply)
    (hhdl : ({ s with owed } : AsyncPubSub).handle (some next.request) (.ok (next.reply.value s.protocol)) =
      (answers, s')) :
    Right α answers s' ∧ s'.Aligned := by
  obtain ⟨hfurther, href⟩ := hord next (by rw [howed]; rfl)
  cases hfirst : next.first with
  | true =>
    have hinFlight := h.inFlight_of_first hrun howed hfirst
    rw [handle_cons (s := { s with owed }) hinFlight] at hhdl
    cases hhdl
    refine ⟨⟨fun a ha _ _ _ => ?_, fun a ha _ request hreq hsub err hres => ?_, h.delivered⟩,
      h.reply howed fun _ => rfl⟩
    · cases mem_singleton.1 ha
      rfl
    · cases mem_singleton.1 ha
      have herr : next.reply = .error err := Reply.eq_error_of_value (Except.ok.inj hres)
      cases hsub.symm.trans (href err herr request hreq)
  | false =>
    have hempty := hfurther hfirst
    have hconf : next.reply.isConfirmation = true := h.confirms next (howed ▸ mem_cons_self) hfirst
    rw [handle_nil (s := { s with owed }) hconf hempty] at hhdl
    cases hhdl
    exact ⟨.of_nil h.delivered, h.reply howed fun _ => h.inFlight_of_further hrun howed hfirst⟩

theorem Aligned.moves (h : s.Aligned) (hord : s.Orderly a) (hm : s.Moves a answers s') :
    Right α answers s' ∧ s'.Aligned := by
  cases hm with
  | call request hrun => exact ⟨.of_nil h.delivered, h.call _ _⟩
  | callClosed request hrun =>
    refine ⟨.of_errors (fun a ha => ?_) h.delivered, ?_⟩
    · cases mem_singleton.1 ha
      exact ⟨_, rfl⟩
    · exact { h with
        owedNumbers := fun o ho => (by rw [length_append]; exact Nat.lt_add_right _ (h.owedNumbers o ho))
        queueNumbers := fun m hm => (by rw [length_append]; exact Nat.lt_add_right _ (h.queueNumbers m hm)) }
  | cancel i => exact ⟨.of_nil h.delivered, { h with }⟩
  | startSend refusal hqueue hreq =>
    exact ⟨.of_nil h.delivered, h.startSend hqueue (confirms_serve s _ refusal) _⟩
  | @sendFails err message queue hqueue =>
    have halign := h.stop (t := { s with queue, connected := false }) rfl rfl rfl rfl rfl
    refine ⟨.of_errors (fun a ha => ?_) halign.delivered, halign⟩
    rcases mem_cons.1 ha with rfl | ha
    · exact ⟨err, rfl⟩
    · exact stop_errors _ a ha
  | reply hconn howed hrun => exact h.handle_next hrun howed hord rfl
  | unreadReply hconn howed hrun => cases hrun.symm.trans (h.running.trans hconn)
  | message m hconn hrun =>
    have hdelivered := delivered_concat h.delivered m
    simp only [handle, PipelineSink.handleMessage_message]
    exact ⟨.of_nil hdelivered, { h with delivered := hdelivered }⟩
  | unreadMessage m hconn hrun => cases hrun.symm.trans (h.running.trans hconn)
  | fails err hrun =>
    obtain ⟨herrs, howed, hreqs, hsender, hsent⟩ := s.handle_error err
    have halign := h.stop (t := { (s.handle none (.error err)).2 with connected := false }) rfl howed hreqs
      hsender hsent
    refine ⟨.of_errors (fun a ha => ?_) halign.delivered, halign⟩
    exact (mem_append.1 ha).elim (herrs a) (stop_errors _ a)
  | disconnect =>
    have halign := h.stop (t := { s with connected := false }) rfl rfl rfl rfl rfl
    exact ⟨.of_errors (stop_errors _) halign.delivered, halign⟩

theorem Aligned.orderly_of_right (h : s.Aligned) (hwaiting : s.cancelled = []) (hm : s.Moves a answers s')
    (hright : Right α answers s') : s.Orderly a := by
  cases hm with
  | unreadReply hconn howed hrun => cases hrun.symm.trans (h.running.trans hconn)
  | @reply next owed hconn howed hrun =>
    intro next' hnext
    rw [howed] at hnext
    cases hnext
    have hmem : next ∈ s.owed := howed ▸ mem_cons_self
    rcases hinFlight : s.sink.inFlight with _ | ⟨entry, rest⟩
    · refine ⟨fun _ => rfl, fun err herr request hreq => ?_⟩
      cases hfirst : next.first with
      | true => cases hinFlight.symm.trans (h.inFlight_of_first hrun howed hfirst)
      | false =>
        have hconf := h.confirms next hmem hfirst
        rw [herr] at hconf
        cases hconf
    · rw [handle_cons (s := { s with owed }) hinFlight] at hright
      have hheard : (!s.cancelled.contains entry) = true := by rw [hwaiting]; rfl
      have hent : next.request = entry :=
        Option.some.inj (hright.matched _ mem_cons_self hheard _ rfl)
      refine ⟨fun hfirst => ?_, fun err herr request hreq => ?_⟩
      · -- the request in flight comes after the one the reply is for
        have hlater : entry ∈ (owed.filter (·.first)).map (·.request) := by
          rw [← h.inFlight_of_further hrun howed hfirst, hinFlight]
          exact mem_cons_self
        obtain ⟨o, ho, hreq⟩ := mem_map.1 hlater
        obtain ⟨ho, hofirst⟩ := mem_filter.1 ho
        have hord := h.order
        rw [howed, pairwise_cons] at hord
        have hlt := hord.1 o ho hofirst
        omega
      · by_contra hsub
        obtain ⟨e, he⟩ := hright.told _ mem_cons_self hheard request (hent ▸ hreq)
          (Bool.eq_true_of_not_eq_false hsub) err (by rw [herr]; rfl)
        rw [returned, if_pos (Bool.eq_true_of_not_eq_false hsub)] at he
        cases he
  | _ => exact trivial

theorem handle_cancelled (s : AsyncPubSub) (producedFor : Option Nat) (result : RedisResult Value) :
    (s.handle producedFor result).2.cancelled = s.cancelled := by
  dsimp only [handle]
  split <;> rfl

theorem cancelled_of_moves (hm : s.Moves a answers s') (ha : a.isCancel = false) : s'.cancelled = s.cancelled := by
  cases hm with
  | cancel i => cases ha
  | reply hconn howed hrun => exact handle_cancelled _ _ _
  | message m hconn hrun => exact handle_cancelled _ _ _
  | fails err hrun => exact handle_cancelled _ _ _
  | _ => rfl

/-- The `PubSubStream` has the first messages of the server in order, and all of them until the driver gives up. -/
structure InOrder (s : AsyncPubSub) : Prop where
  all : s.running = true → s.sink.sender = s.sent.map msg
  first : s.sink.sender <+: s.sent.map msg

theorem handle_reply (s : AsyncPubSub) (producedFor : Option Nat) (r : Reply) :
    (s.handle producedFor (.ok (r.value s.protocol))).2.sink.sender = s.sink.sender ∧
      (s.handle producedFor (.ok (r.value s.protocol))).2.sent = s.sent := by
  obtain ⟨okIfNone, hhdl, -⟩ := s.sink.handleMessage_reply s.protocol r
  dsimp only [handle]
  rw [hhdl, PipelineSink.answerFirst]
  split <;> split <;> exact ⟨rfl, rfl⟩

theorem InOrder.of_eq (h : s.InOrder) (hsender : s'.sink.sender = s.sink.sender) (hsent : s'.sent = s.sent)
    (hrun : s'.running = true → s.running = true) : s'.InOrder := by
  constructor
  · intro hr
    rw [hsender, hsent]
    exact h.all (hrun hr)
  · rw [hsender, hsent]
    exact h.first

theorem InOrder.moves (h : s.InOrder) (hm : s.Moves a answers s') : s'.InOrder := by
  have hstopped : ∀ {t : AsyncPubSub}, t.sink.sender = s.sink.sender → t.sent = s.sent → t.stop.2.InOrder :=
    fun hsender hsent => h.of_eq hsender hsent fun hrun => by cases hrun
  cases hm with
  | reply hconn howed hrun =>
    obtain ⟨hsender, hsent⟩ := AsyncPubSub.handle_reply ({ s with owed := _ } : AsyncPubSub) (some _) _
    exact h.of_eq hsender hsent fun _ => hrun
  | message m hconn hrun =>
    have hdelivered := delivered_concat (h.all hrun) m
    simp only [handle, PipelineSink.handleMessage_message]
    exact ⟨fun _ => hdelivered, hdelivered ▸ prefix_rfl⟩
  | unreadMessage m hconn hrun =>
    refine ⟨fun hr => ?_, ?_⟩
    · cases hrun.symm.trans hr
    · show s.sink.sender <+: (s.sent ++ [m]).map msg
      rw [map_append]
      exact h.first.trans (prefix_append _ _)
  | fails err hrun =>
    obtain ⟨-, -, -, hsender, hsent⟩ := s.handle_error err
    exact hstopped hsender hsent
  | sendFails err hqueue => exact hstopped rfl rfl
  | disconnect => exact hstopped rfl rfl
  | _ => exact h.of_eq rfl rfl id

end Steps

theorem start_aligned (protocol : ProtocolVersion) : (start protocol).Aligned where
  running := rfl
  inFlight _ := rfl
  confirms _ h := by cases h
  order := List.Pairwise.nil
  before _ h := by cases h
  queue := List.Pairwise.nil
  owedNumbers _ h := by cases h
  queueNumbers _ h := by cases h
  delivered := rfl

theorem start_inOrder (protocol : ProtocolVersion) : (start protocol).InOrder := ⟨fun _ => rfl, prefix_rfl⟩

/-- An orderly run is right at each step, and if no caller is cancelled then no other run is. In every run the
`PubSubStream` gets the first messages of the server, in order. -/
theorem matching_and_delivery (α : Type) [FromRedisValue α] (protocol : ProtocolVersion) (steps : List AsyncPubSubStep) :
    (Along step (fun s a _ _ => s.Orderly a) (start protocol) steps →
      Along step (fun _ _ answers s' => Right α answers s') (start protocol) steps) ∧
    ((∀ a ∈ steps, a.isCancel = false) →
      (Along step (fun _ _ answers s' => Right α answers s') (start protocol) steps ↔
        Along step (fun s a _ _ => s.Orderly a) (start protocol) steps)) ∧
    ∀ outs s, run step (start protocol) steps = some (outs, s) → s.sink.sender <+: s.sent.map msg := by
  refine ⟨?_, fun hwaiting => ?_, fun outs s hrun => ?_⟩
  · exact along_mono (fun s a answers s' h hs horderly => h.moves horderly (moves_of_step hs)) (start_aligned protocol)
  · refine along_iff_of_forall (I := fun s => s.Aligned ∧ s.cancelled = []) (fun s a answers s' h ha hs => ?_)
      ⟨start_aligned protocol, rfl⟩ hwaiting
    have hm := moves_of_step hs
    have horderly := h.1.orderly_of_right (α := α) h.2 hm
    exact ⟨⟨horderly, fun horderly => (h.1.moves horderly hm).1⟩, fun hright =>
      ⟨(h.1.moves (α := α) (horderly hright) hm).2, (cancelled_of_moves hm ha).trans h.2⟩⟩
  · have hinOrder : s.InOrder := run_inv (C := fun _ => True) (fun _ _ _ _ h _ hs => h.moves (moves_of_step hs))
      (start_inOrder protocol) (fun _ _ => trivial) hrun
    exact hinOrder.first

def orderlySteps : List AsyncPubSubStep :=
  [.call (.subscribe [[97]]), .call (.ping []), .startSend none, .startSend none, .reply, .message ⟨none, [97], [104]⟩,
    .reply]

theorem orderlySteps_right :
    (run step (start .resp3) orderlySteps).isSome = true ∧
      Along step (fun _ _ answers s' => Right Value answers s') (start .resp3) orderlySteps := by
  refine ⟨rfl, (matching_and_delivery Value .resp3 orderlySteps).1 ?_⟩
  refine along_cons rfl trivial (along_cons rfl trivial (along_cons rfl trivial (along_cons rfl trivial
    (along_cons rfl (fun next hnext => ?_) (along_cons rfl trivial (along_cons rfl (fun next hnext => ?_) trivial))))))
  · cases hnext
    exact ⟨fun h => (by cases h), fun err herr => by cases herr⟩
  · cases hnext
    exact ⟨fun h => (by cases h), fun err herr => by cases herr⟩

theorem second_confirmation_answers_ping :
    (∃ outs s answer s', run step (start .resp3)
        [.call (.subscribe [[97], [98]]), .call (.ping []), .startSend none, .startSend none, .reply] = some (outs, s) ∧
      s.step .reply = some ([answer], s') ∧ answer.request = 1 ∧ answer.producedFor = some 0 ∧ answer.heard = true ∧
      answer.result = .ok (.push .subscribe [.bulkString [98], .int 2]) ∧
      ∃ outs' s'', run step s' [.reply, .message ⟨none, [97], [104]⟩] = some (outs', s'') ∧ s''.connected = true ∧
        s''.sent = [⟨none, [97], [104]⟩] ∧ s''.sink.sender = []) ∧
    ∀ err, ∃ outs s answer s',
      run step (start .resp3) [.call (.subscribe [[97]]), .startSend (some err)] = some (outs, s) ∧
      s.step .reply = some ([answer], s') ∧ answer.request = 0 ∧ answer.producedFor = some 0 ∧
      answer.result = .ok (.serverError err) ∧ returned Value (.subscribe [[97]]) answer.result = .unit (.ok ()) :=
  ⟨⟨_, _, _, _, rfl, rfl, rfl, rfl, rfl, rfl, _, _, rfl, rfl, rfl, rfl⟩,
    fun _ => ⟨_, _, _, _, rfl, rfl, rfl, rfl, rfl, rfl⟩⟩

end AsyncPubSub

end RedisRs
