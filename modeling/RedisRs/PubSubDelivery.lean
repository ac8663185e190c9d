import RedisRs.PubSub

/-!
# Delivery of messages by `PubSub`
-/

namespace RedisRs

open Run Connection FromRedisValue PubSub

theorem Reply.fromOwnedValue_value (protocol : ProtocolVersion) (r : Reply) :
    Msg.fromOwnedValue (r.value protocol) = none := by
  rcases r with ⟨kind, channel, count⟩ | (_ | message) | message | err
  · cases protocol <;> cases kind <;> rfl
  · rfl
  · show Msg.fromItems [.bulkString message] = none
    simp only [Msg.fromItems]
    split
    · rfl
    · split_ifs <;> rfl
  · rfl
  · rfl

theorem Message.fromOwnedValue_value (protocol : ProtocolVersion) (m : Message) :
    Msg.fromOwnedValue (m.value protocol) = some m.msg := by
  rcases m with ⟨_ | pattern, channel, payload⟩ <;> cases protocol <;> rfl

section Call

variable {p : ProtocolVersion} {owed owed' : List Reply} {events : List PubSubEvent} {wire : Wire}
  {messages : List Message} {con con' : Connection}

theorem hear_reply (h : hear p owed (.reply :: events) = some (wire, owed', messages)) :
    ∃ r rest wire₁, owed = r :: rest ∧ wire = .ok (r.value p) :: wire₁ ∧
      hear p rest events = some (wire₁, owed', messages) := by
  rcases owed with _ | ⟨r, rest⟩
  · simp [hear] at h
  · obtain ⟨⟨wire₁, owed₁, messages₁⟩, h₁, heq⟩ := Option.map_eq_some_iff.1 h
    cases heq
    exact ⟨r, rest, wire₁, rfl, rfl, h₁⟩

theorem hear_message {m : Message} (h : hear p owed (.message m :: events) = some (wire, owed', messages)) :
    ∃ wire₁ messages₁, wire = .ok (m.value p) :: wire₁ ∧ messages = m :: messages₁ ∧
      hear p owed events = some (wire₁, owed', messages₁) := by
  rw [hear] at h
  obtain ⟨⟨wire₁, owed₁, messages₁⟩, h₁, heq⟩ := Option.map_eq_some_iff.1 h
  cases heq
  exact ⟨wire₁, messages₁, rfl, rfl, h₁⟩

theorem hear_fail {kind : IoErrorKind} {notEof : kind ≠ .unexpectedEof}
    (h : hear p owed (.fail kind notEof :: events) = some (wire, owed', messages)) :
    ∃ wire₁, wire = .error (.ofIo kind) :: wire₁ ∧ hear p owed events = some (wire₁, owed', messages) := by
  rw [hear] at h
  obtain ⟨⟨wire₁, owed₁, messages₁⟩, h₁, heq⟩ := Option.map_eq_some_iff.1 h
  cases heq
  exact ⟨wire₁, rfl, h₁⟩

theorem hear_eq_nil (h : hear p owed events = some ([], owed', messages)) :
    events = [] ∧ owed' = owed ∧ messages = [] := by
  rcases events with _ | ⟨_ | m | ⟨kind, notEof⟩, events⟩
  · simp only [hear, Option.some.injEq, Prod.mk.injEq] at h
    exact ⟨rfl, h.2.1.symm, h.2.2.symm⟩
  · obtain ⟨_, _, _, _, hw, _⟩ := hear_reply h
    cases hw
  · obtain ⟨_, _, hw, _⟩ := hear_message h
    cases hw
  · obtain ⟨_, hw, _⟩ := hear_fail h
    cases hw

/-- No message is read while a late reply is to be skipped. -/
def Unskipped (skip : Nat) (events : List PubSubEvent) : Prop :=
  ∀ ev ∈ events.take skip, ev.isMessage = false

theorem Unskipped.tail {skip : Nat} {ev : PubSubEvent} (h : Unskipped skip (ev :: events)) (hs : 0 < skip) :
    ev.isMessage = false ∧ Unskipped (skip - 1) events := by
  obtain ⟨k, rfl⟩ := Nat.exists_eq_succ_of_ne_zero (Nat.ne_of_gt hs)
  exact ⟨h ev (by simp), fun e he => h e (by simp_all)⟩

theorem Unskipped.zero (events : List PubSubEvent) : Unskipped 0 events := by simp [Unskipped]

theorem readLoop_cacheBody {waiting waiting' : List Msg} {r : RedisResult Value}
    (hh : hear p owed events = some (wire, owed', messages))
    (hr : readLoop cacheBody waiting con wire = some ((r, waiting'), con', []))
    (hq : Unskipped con.messagesToSkip events) :
    waiting' = waiting ++ messages.map Message.msg ∧
      (∀ v, r = .ok v → con'.messagesToSkip = 0 ∧ ∃ pre reply, owed = pre ++ reply :: owed' ∧
        pre.length = con.messagesToSkip ∧ v = reply.value p) ∧
      ∀ e, r = .error e → con'.messagesToSkip + owed.length = con.messagesToSkip + owed'.length + 1 := by
  induction events generalizing con owed wire messages waiting with
  | nil =>
    simp only [hear, Option.some.injEq, Prod.mk.injEq] at hh
    rw [← hh.1] at hr
    simp [readLoop] at hr
  | cons ev events ih =>
    rcases ev with _ | m | ⟨kind, notEof⟩
    · obtain ⟨reply, rest, wire₁, rfl, rfl, hh₁⟩ := hear_reply hh
      rcases Nat.eq_zero_or_pos con.messagesToSkip with hk | hk
      · -- nothing is to be skipped: this is the answer
        obtain ⟨con₁, hs, hk₁⟩ := readStep_take hk true (reply.value p)
        simp only [readLoop, hs, cacheBody, Reply.fromOwnedValue_value, Option.some.injEq,
          Prod.mk.injEq] at hr
        obtain ⟨⟨rfl, rfl⟩, rfl, rfl⟩ := hr
        obtain ⟨rfl, rfl, rfl⟩ := hear_eq_nil hh₁
        refine ⟨by simp, ?_, by simp⟩
        rintro v ⟨⟩
        exact ⟨hk₁, [], reply, rfl, hk.symm, rfl⟩
      · obtain ⟨con₁, hs, hk₁⟩ := readStep_skip hk true (reply.value p)
        simp only [readLoop, hs] at hr
        obtain ⟨h₁, h₂, h₃⟩ := ih hh₁ hr (by rw [hk₁]; exact (hq.tail hk).2)
        refine ⟨h₁, ?_, ?_⟩
        · intro v hv
          obtain ⟨h0, pre, reply', hpre, hlen, rfl⟩ := h₂ v hv
          exact ⟨h0, reply :: pre, reply', by simp [hpre], by simp [hlen, hk₁]; omega, rfl⟩
        · intro e he
          have := h₃ e he
          simp only [List.length_cons]
          omega
    · obtain ⟨wire₁, messages₁, rfl, rfl, hh₁⟩ := hear_message hh
      rcases Nat.eq_zero_or_pos con.messagesToSkip with hk | hk
      · obtain ⟨con₁, hs, hk₁⟩ := readStep_take hk true (m.value p)
        simp only [readLoop, hs, cacheBody, Message.fromOwnedValue_value] at hr
        obtain ⟨h₁, h₂, h₃⟩ := ih hh₁ hr (by rw [hk₁]; exact .zero _)
        rw [hk₁] at h₂ h₃
        rw [hk]
        exact ⟨by simp [h₁], h₂, h₃⟩
      · exact absurd (hq.tail hk).1 (by simp [PubSubEvent.isMessage])
    · obtain ⟨wire₁, rfl, hh₁⟩ := hear_fail hh
      simp only [readLoop, readStep_fail notEof, cacheBody, if_true, Option.some.injEq,
        Prod.mk.injEq] at hr
      obtain ⟨⟨rfl, rfl⟩, rfl, rfl⟩ := hr
      obtain ⟨rfl, rfl, rfl⟩ := hear_eq_nil hh₁
      refine ⟨by simp, by simp, ?_⟩
      intro e _
      dsimp only
      omega

theorem readMessage_spec {r : RedisResult Msg} (hh : hear p owed events = some (wire, owed', messages))
    (hr : readMessage con wire = some (r, con', [])) (hq : Unskipped con.messagesToSkip events) :
    messages.map Message.msg = r.toOption.toList ∧
      (con.messagesToSkip ≤ owed.length → con'.messagesToSkip ≤ owed'.length) := by
  induction events generalizing con owed wire messages with
  | nil =>
    simp only [hear, Option.some.injEq, Prod.mk.injEq] at hh
    rw [← hh.1] at hr
    simp [readMessage] at hr
  | cons ev events ih =>
    rcases ev with _ | m | ⟨kind, notEof⟩
    · obtain ⟨reply, rest, wire₁, rfl, rfl, hh₁⟩ := hear_reply hh
      rcases Nat.eq_zero_or_pos con.messagesToSkip with hk | hk
      · obtain ⟨con₁, hs, hk₁⟩ := readStep_take hk false (reply.value p)
        simp only [readMessage, hs, Reply.fromOwnedValue_value] at hr
        obtain ⟨h₁, h₂⟩ := ih hh₁ hr (by rw [hk₁]; exact .zero _)
        exact ⟨h₁, fun _ => h₂ (by omega)⟩
      · obtain ⟨con₁, hs, hk₁⟩ := readStep_skip hk false (reply.value p)
        simp only [readMessage, hs] at hr
        obtain ⟨h₁, h₂⟩ := ih hh₁ hr (by rw [hk₁]; exact (hq.tail hk).2)
        refine ⟨h₁, fun hle => h₂ ?_⟩
        simp only [List.length_cons] at hle
        omega
    · obtain ⟨wire₁, messages₁, rfl, rfl, hh₁⟩ := hear_message hh
      rcases Nat.eq_zero_or_pos con.messagesToSkip with hk | hk
      · obtain ⟨con₁, hs, hk₁⟩ := readStep_take hk false (m.value p)
        simp only [readMessage, hs, Message.fromOwnedValue_value, Option.some.injEq,
          Prod.mk.injEq] at hr
        obtain ⟨rfl, rfl, rfl⟩ := hr
        obtain ⟨rfl, rfl, rfl⟩ := hear_eq_nil hh₁
        exact ⟨rfl, fun _ => by omega⟩
      · exact absurd (hq.tail hk).1 (by simp [PubSubEvent.isMessage])
    · obtain ⟨wire₁, rfl, hh₁⟩ := hear_fail hh
      simp only [readMessage, readStep_fail notEof, Bool.false_eq_true, if_false, Option.some.injEq,
        Prod.mk.injEq] at hr
      obtain ⟨rfl, rfl, rfl⟩ := hr
      obtain ⟨rfl, rfl, rfl⟩ := hear_eq_nil hh₁
      exact ⟨rfl, id⟩

end Call

theorem cmdWith_getPackedCommand_ne_nil (name : String) (args : List Bytes) (b : Bool) :
    ({ cmdWith name args with noResponse := b } : Cmd).getPackedCommand ≠ [] := by
  have h : ({ cmdWith name args with noResponse := b } : Cmd).isEmpty = false := by
    simp [Cmd.isEmpty, cmdWith, Cmd.foldl_writeArg_args, cmd, Cmd.writeArg]
  simp [Cmd.getPackedCommand, h, Cmd.writePackedCommand_ne_nil]

theorem Subscriptions.answer_ne_nil (protocol : ProtocolVersion) (s : Subscriptions) (req : PubSubRequest) :
    (s.answer protocol req).1 ≠ [] := by
  rcases s with ⟨_ | ⟨c, channels⟩, _ | ⟨p, patterns⟩⟩ <;>
    rcases req with (_ | ⟨_, _⟩) | (_ | ⟨_, _⟩) | (_ | ⟨_, _⟩) | (_ | ⟨_, _⟩) | (_ | ⟨_, _ | ⟨_, _⟩⟩) <;>
    simp only [answer, dropAllChannels, dropAllPatterns, confirmEach] <;> (try split) <;> simp

theorem readMessage_inv {I : Connection → Prop} {con con' : Connection} {wire rest : Wire}
    {out : RedisResult Msg} (hI : ∀ r ∈ wire, ∀ con o con', con.readStep false r = (o, con') → I con → I con')
    (hr : readMessage con wire = some (out, con', rest)) (h : I con) : I con' := by
  induction wire generalizing con with
  | nil => simp [readMessage] at hr
  | cons result wire ih =>
    rw [readMessage] at hr
    have hI₁ := hI result List.mem_cons_self
    have hI₂ := fun r hr => hI r (List.mem_cons_of_mem result hr)
    rcases hs : con.readStep false result with ⟨_ | _ | v, con₁⟩ <;> rw [hs] at hr <;> dsimp only at hr
    · exact ih hI₂ hr (hI₁ _ _ _ hs h)
    · simp only [Option.some.injEq, Prod.mk.injEq] at hr
      exact hr.2.1 ▸ hI₁ _ _ _ hs h
    · split at hr
      · simp only [Option.some.injEq, Prod.mk.injEq] at hr
        exact hr.2.1 ▸ hI₁ _ _ _ hs h
      · exact ih hI₂ hr (hI₁ _ _ _ hs h)

namespace PubSubSession

variable {α : Type} [FromRedisValue α] {s s' : PubSubSession}

/-- Between calls no message is lost, and what is to be skipped was really sent. -/
structure Inv (s : PubSubSession) : Prop where
  ready : s.pubsub.con.Ready
  skip : s.pubsub.con.messagesToSkip ≤ s.owed.length
  delivered : s.sent.map Message.msg = s.received ++ s.pubsub.waitingMessages

end PubSubSession

def PubSubCall.events : PubSubCall → List PubSubEvent
  | request _ events | getMessage events => events
  | rehash _ => []

namespace PubSubSession

variable {α : Type} [FromRedisValue α] {s s' : PubSubSession}

/-- No message is read while replies are to be skipped, and no `PING` is sent while others are unread. -/
def Orderly (s : PubSubSession) (call : PubSubCall) : Prop :=
  Unskipped s.pubsub.con.messagesToSkip call.events ∧
    ∀ message events, call = .request (.ping message) events → s.owed.length = s.pubsub.con.messagesToSkip

/-- A `PING` returns its own reply, and the messages returned are the first the server sent. -/
def Right (s : PubSubSession) (call : PubSubCall) (out : PubSubAnswer α) (s' : PubSubSession) : Prop :=
  (∀ message events a, call = .request (.ping message) events → out = .pong (.ok a) →
    ∃ reply, (s.subs.answer s.protocol (.ping message)).1 = [reply] ∧
      fromRedisValue (reply.value s.protocol) = .ok a) ∧
    s'.received <+: s'.sent.map Message.msg

theorem Inv.received_prefix (h : s.Inv) : s.received <+: s.sent.map Message.msg :=
  ⟨s.pubsub.waitingMessages, h.delivered.symm⟩

variable {req : PubSubRequest} {events : List PubSubEvent}

variable {ρ : Type} {g : RedisResult Value → ρ} {name : String} {args : List Bytes} {b : Bool}
  {call : PubSub → Wire → Option (ρ × PubSub × Wire)} {out : RedisResult Msg}

theorem request_eq_some {out : ρ} (hready : s.pubsub.con.Ready) (h : s.request req events call = some (out, s'))
    (hc : ∀ ps wire, call ps wire =
      (ps.cacheMessagesUntilReceivedResponse (cmdWith name args) b wire).map fun x => (g x.1, x.2)) :
    ∃ bytes wire owed messages r waiting con,
      hear s.protocol (s.owed ++ (s.subs.answer s.protocol req).1) events = some (wire, owed, messages) ∧
      readLoop cacheBody s.pubsub.waitingMessages
        { s.pubsub.con with written := s.pubsub.con.written ++ [bytes] } wire = some ((r, waiting), con, []) ∧
      out = g r ∧
      s' = ⟨⟨con, waiting⟩, (s.subs.answer s.protocol req).2, owed, s.sent ++ messages, s.received⟩ := by
  simp only [request] at h
  split at h
  · cases h
  rename_i wire owed messages hh
  split at h
  · rename_i out' pubsub hcall
    cases h
    simp only [hc, cacheMessagesUntilReceivedResponse, sendBytes, writeAll, hready.writeError,
      cmdWith_getPackedCommand_ne_nil, if_false] at hcall
    rw [Option.map_map, Option.map_eq_some_iff] at hcall
    obtain ⟨⟨⟨r, waiting⟩, con, rest⟩, hloop, heq⟩ := hcall
    cases heq
    rw [← hready.writeError] at hloop
    exact ⟨_, wire, owed, messages, r, waiting, con, hh, hloop, rfl, rfl⟩
  · cases h

theorem request_spec {out : ρ} (hi : s.Inv) (hq : Unskipped s.pubsub.con.messagesToSkip events)
    (h : s.request req events call = some (out, s'))
    (hc : ∀ ps wire, call ps wire =
      (ps.cacheMessagesUntilReceivedResponse (cmdWith name args) b wire).map fun x => (g x.1, x.2)) :
    s'.Inv ∧ ∃ r, out = g r ∧ ∀ v, r = .ok v → ∃ pre reply,
      s.owed ++ (s.subs.answer s.protocol req).1 = pre ++ reply :: s'.owed ∧
        pre.length = s.pubsub.con.messagesToSkip ∧ v = reply.value s.protocol := by
  obtain ⟨bytes, wire, owed, messages, r, waiting, con, hh, hloop, rfl, rfl⟩ := request_eq_some hi.ready h hc
  obtain ⟨h₁, h₂, h₃⟩ := readLoop_cacheBody hh hloop hq
  refine ⟨⟨readLoop_ready hloop ⟨hi.ready.pubsub, hi.ready.writeError⟩, ?_, ?_⟩, r, rfl, ?_⟩
  · have hne := List.length_pos_iff.2 (s.subs.answer_ne_nil s.protocol req)
    have hs := hi.skip
    rcases r with e | v
    · have := h₃ e rfl
      simp only [List.length_append] at this ⊢
      omega
    · rw [(h₂ v rfl).1]
      exact Nat.zero_le _
  · simp [h₁, hi.delivered]
  · intro v hv
    exact (h₂ v hv).2

theorem getMessage_eq_some (h : s.getMessage events = some (out, s')) :
    (∃ msg waiting, s.pubsub.waitingMessages = msg :: waiting ∧ out = .ok msg ∧
      s' = ⟨⟨s.pubsub.con, waiting⟩, s.subs, s.owed, s.sent, s.received ++ [msg]⟩) ∨
    ∃ wire owed messages con, s.pubsub.waitingMessages = [] ∧
      hear s.protocol s.owed events = some (wire, owed, messages) ∧
      readMessage s.pubsub.con wire = some (out, con, []) ∧
      s' = ⟨⟨con, []⟩, s.subs, owed, s.sent ++ messages, s.received ++ out.toOption.toList⟩ := by
  simp only [getMessage] at h
  split at h
  · cases h
  rename_i wire owed messages hh
  split at h
  · rename_i out' pubsub hcall
    cases h
    rw [PubSub.getMessage] at hcall
    split at hcall
    · -- a message is waiting, and nothing is read
      rename_i msg waiting hw
      cases hcall
      obtain ⟨rfl, rfl, rfl⟩ := hear_eq_nil hh
      exact .inl ⟨msg, waiting, hw, rfl, by simp [Except.toOption]⟩
    · rename_i hw
      obtain ⟨⟨r, con, w⟩, hread, heq⟩ := Option.map_eq_some_iff.1 hcall
      cases heq
      exact .inr ⟨wire, owed, messages, con, hw, hh, hread, rfl⟩
  · cases h

theorem getMessage_spec (hi : s.Inv) (hq : Unskipped s.pubsub.con.messagesToSkip events)
    (h : s.getMessage events = some (out, s')) : s'.Inv := by
  have hdel := hi.delivered
  rcases getMessage_eq_some h with ⟨msg, waiting, hw, rfl, rfl⟩ | ⟨wire, owed, messages, con, hw, hh, hread, rfl⟩
  · exact ⟨hi.ready, hi.skip, by simp [hdel, hw]⟩
  · obtain ⟨h₁, h₂⟩ := readMessage_spec hh hread hq
    refine ⟨?_, h₂ hi.skip, by simp [hdel, hw, h₁]⟩
    exact readMessage_inv (fun _ _ _ _ _ => readStep_ready) hread hi.ready

theorem start_inv {con : Connection} (h : con.Idle) : (start con).Inv :=
  ⟨h.toReady, by simp [start, new, h.skip], rfl⟩

theorem answer_ping (p : ProtocolVersion) (subs : Subscriptions) (message : List Bytes) :
    ∃ reply, (subs.answer p (.ping message)).1 = [reply] := by
  rcases message with _ | ⟨_, _ | ⟨_, _⟩⟩ <;> simp only [Subscriptions.answer] <;> (try split) <;> simp

theorem subUnsub_right {channels : List Bytes} {out : PubSubAnswer α} (hreq : ∀ message, req ≠ .ping message)
    (hi : s.Inv) (ho : s.Orderly (.request req events))
    (h : (s.request req events (subUnsub name channels)).map (fun (r, s) => (.unit r, s)) = some (out, s')) :
    Right s (.request req events) out s' ∧ s'.Inv := by
  obtain ⟨⟨r, t⟩, hcall, heq⟩ := Option.map_eq_some_iff.1 h
  cases heq
  obtain ⟨hi', -⟩ := request_spec hi ho.1 hcall fun _ _ => rfl
  exact ⟨⟨by rintro _ _ _ ⟨⟩; exact absurd rfl (hreq _), hi'.received_prefix⟩, hi'⟩

theorem ping_right {message : List Bytes} {out : PubSubAnswer α} (hi : s.Inv)
    (ho : s.Orderly (.request (.ping message) events))
    (h : (s.request (.ping message) events (pingMessage message)).map (fun (r, s) => (.pong r, s)) = some (out, s')) :
    Right s (.request (.ping message) events) out s' ∧ s'.Inv := by
  obtain ⟨⟨r, t⟩, hcall, heq⟩ := Option.map_eq_some_iff.1 h
  cases heq
  obtain ⟨hi', result, rfl, hval⟩ :=
    request_spec (g := fun r => r.bind fun v => (fromRedisValue v).toRedisResult) hi ho.1 hcall fun _ _ => rfl
  refine ⟨⟨?_, hi'.received_prefix⟩, hi'⟩
  rintro _ _ a ⟨⟩ ha
  obtain ⟨reply, hrep⟩ := answer_ping s.protocol s.subs message
  refine ⟨reply, hrep, ?_⟩
  rcases result with e | v
  · cases ha
  obtain ⟨pre, reply', happ, hlen, rfl⟩ := hval v rfl
  -- everything unread is to be skipped, so the reply taken is the one to this request
  rw [hrep] at happ
  have hsplit := List.append_inj happ (by rw [hlen, ho.2 _ _ rfl])
  rw [(List.cons.inj hsplit.2).1]
  rcases hv : (fromRedisValue (reply'.value s.protocol) : ParseResult α) with e | a'
  · simp [Except.bind, hv, ParseResult.toRedisResult] at ha
  · simp only [Except.bind, hv, ParseResult.toRedisResult, PubSubAnswer.pong.injEq, Except.ok.injEq] at ha
    rw [ha]

theorem step_right {call : PubSubCall} {out : PubSubAnswer α} (hi : s.Inv) (ho : s.Orderly call)
    (h : s.step α call = some (out, s')) : Right s call out s' ∧ s'.Inv := by
  rcases call with ⟨channels | patterns | channels | patterns | message, events⟩ | events | subs
  · exact subUnsub_right (by simp) hi ho h
  · exact subUnsub_right (by simp) hi ho h
  · exact subUnsub_right (by simp) hi ho h
  · exact subUnsub_right (by simp) hi ho h
  · exact ping_right hi ho h
  · obtain ⟨⟨r, t⟩, hcall, heq⟩ := Option.map_eq_some_iff.1 h
    cases heq
    have hi' := getMessage_spec hi ho.1 hcall
    exact ⟨⟨by rintro _ _ _ ⟨⟩, hi'.received_prefix⟩, hi'⟩
  · simp only [step] at h
    split at h
    · cases h
      exact ⟨⟨by rintro _ _ _ ⟨⟩, hi.received_prefix⟩, hi.ready, hi.skip, hi.delivered⟩
    · cases h

/-- In a run whose calls are all orderly every `PING` returns its own reply, and `get_message` returns the
messages in the order they were sent. -/
theorem orderly_runs_right (con : Connection) (hcon : con.Idle) (calls : List PubSubCall)
    (horderly : Along (step α) (fun s call _ _ => s.Orderly call) (start con) calls) :
    Along (step α) Right (start con) calls := by
  refine along_mono ?_ (start_inv hcon) horderly
  intro s call out s' hi hstep ho
  exact step_right hi ho hstep

theorem timedOut_not_eof : IoErrorKind.timedOut ≠ .unexpectedEof := by decide

def lateConfirmation (events : List PubSubEvent) : List PubSubCall :=
  [.request (.subscribe [bytesOf "a"]) [.fail .timedOut timedOut_not_eof], .request (.ping []) events, .getMessage []]

def greeting : Message := ⟨none, bytesOf "a", bytesOf "hello"⟩

theorem late_confirmation_right : (Connection.fresh .resp2).Idle ∧
    Along (step Value) Right (start (.fresh .resp2)) (lateConfirmation [.reply, .message greeting, .reply]) := by
  have hcon := Connection.fresh_idle .resp2
  refine ⟨hcon, orderly_runs_right _ hcon _ ?_⟩
  intro out s h
  refine ⟨⟨.zero _, by rintro _ _ ⟨⟩⟩, ?_⟩
  cases h
  intro out s h
  refine ⟨⟨?_, by rintro _ _ ⟨⟩; rfl⟩, ?_⟩
  · intro ev hev
    obtain rfl := List.mem_singleton.1 hev
    rfl
  cases h
  intro out s h
  exact ⟨⟨.zero _, by rintro _ _ ⟨⟩⟩, trivial⟩

theorem second_channel_answers_ping :
    (∃ s, Run.run (step Value) (start (.fresh .resp2))
        [.request (.subscribe [bytesOf "a", bytesOf "b"]) [.reply], .request (.ping []) [.reply]] =
      some ([.unit (.ok ()), .pong (.ok (.array
        [.bulkString (bytesOf "subscribe"), .bulkString (bytesOf "b"), .int 2]))], s)) ∧
    (¬ Along (step Value) Right (start (.fresh .resp2))
      [.request (.subscribe [bytesOf "a", bytesOf "b"]) [.reply], .request (.ping []) [.reply]]) ∧
    ¬ Along (step Value) Right (start (.fresh .resp2))
      [.request (.subscribe [bytesOf "a"]) [.fail .timedOut timedOut_not_eof],
        .getMessage [.message greeting, .reply, .message ⟨none, bytesOf "a", bytesOf "again"⟩]] := by
  refine ⟨⟨_, rfl⟩, ?_, ?_⟩
  · intro h
    have h₁ := (h _ _ rfl).2
    obtain ⟨reply, hreply, hvalue⟩ := (h₁ _ _ rfl).1.1 _ _ _ rfl rfl
    cases hreply
    cases hvalue
  · intro h
    have h₁ := (h _ _ rfl).2
    obtain ⟨rest, hrest⟩ := (h₁ _ _ rfl).1.2
    cases hrest

end PubSubSession

end RedisRs
