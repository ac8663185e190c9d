import RedisRs.PubSubDelivery
import RedisRs.ReplyMatching

/-!
# Leaving the pubsub state
-/

namespace RedisRs

open List Run Connection

namespace ConfirmationKind

def marksPunsub : ProtocolVersion → ConfirmationKind → Bool
  | _, pUnsubscribe | .resp2, pSubscribe => true
  | _, _ => false

def marksUnsub : ConfirmationKind → Bool
  | unsubscribe => true
  | _ => false

end ConfirmationKind

def mark (p : ProtocolVersion) (received : Bool × Bool) (kind : ConfirmationKind) : Bool × Bool :=
  (received.1 || kind.marksUnsub, received.2 || kind.marksPunsub p)

theorem tuple3_confirmation (name : Bytes) (channel : Option Bytes) (n : Int64) :
    (fromRedisValueTuple3 (.array [.bulkString name, bulkOrNil channel, .int n]) :
      ParseResult (Bytes × Unit × Int64)) = .ok (name, (), n) := by
  rcases channel with _ | channel <;> exact congrArg (fun n => Except.ok (name, (), n)) (Int64.ofInt_toInt n)

theorem drainBody_confirmation (p : ProtocolVersion) (received : Bool × Bool) (kind : ConfirmationKind)
    (channel : Option Bytes) (count : Nat) :
    drainBody received (.ok ((Reply.confirmation kind channel count).value p)) =
      untilCleared (mark p received kind,
        (mark p received kind).1 && (mark p received kind).2 && Int64.ofNat count == 0) := by
  rcases received with ⟨u, q⟩
  rcases p with _ | _
  · simp only [Reply.value, drainBody, tuple3_confirmation]
    cases kind <;> cases u <;> cases q <;> rfl
  · cases kind <;> cases u <;> cases q <;> rfl

theorem drainBody_message (received : Bool × Bool) (m : Message) :
    drainBody received (.ok (m.value .resp3)) = .inl received := by
  rcases m with ⟨_ | pattern, channel, payload⟩ <;> rfl

/-- The drain stops at the last of the replies and not before. -/
def StopsLast (p : ProtocolVersion) : Bool × Bool → List Reply → Prop
  | received, .confirmation kind _ count :: replies =>
    let received := mark p received kind
    if replies = [] then received = (true, true) ∧ Int64.ofNat count = 0
    else (received = (true, true) → Int64.ofNat count ≠ 0) ∧ StopsLast p received replies
  | _, _ => False

section Drain

variable {p : ProtocolVersion} {con : Connection} {received : Bool × Bool} {replies : List Reply}
  {events : List PubSubEvent} {wire : Wire} {messages : List Message}

theorem hear_nil_reply : hear p [] (events ++ [.reply]) = none := by
  induction events with
  | nil => rfl
  | cons ev events ih => rcases ev with _ | m | ⟨kind, notEof⟩ <;> simp [hear, ih]

theorem readLoop_drainBody (hstop : StopsLast p received replies)
    (hh : hear p replies (events ++ [.reply]) = some (wire, [], messages))
    (hfail : ∀ ev ∈ events, ev.isFail = false) (hmsg : p = .resp2 → ∀ ev ∈ events, ev.isMessage = false)
    (hk : con.messagesToSkip = 0) :
    ∃ con', readLoop drainBody received con wire = some (.ok (), con', []) ∧ con'.messagesToSkip = 0 := by
  induction events generalizing con received replies wire messages with
  | nil =>
    obtain ⟨r, rest, wire₁, rfl, rfl, hh₁⟩ := hear_reply hh
    simp only [hear, Option.some.injEq, Prod.mk.injEq] at hh₁
    obtain ⟨rfl, rfl, -⟩ := hh₁
    rcases r with ⟨kind, channel, count⟩ | _ | _ | _
    · obtain ⟨con₁, hs, hk₁⟩ := readStep_take hk true ((Reply.confirmation kind channel count).value p)
      simp only [StopsLast, if_true] at hstop
      exact ⟨con₁, by simp [readLoop, hs, drainBody_confirmation, hstop, untilCleared], hk₁⟩
    all_goals exact hstop.elim
  | cons ev events ih =>
    have hfail' := fun ev h => hfail ev (mem_cons_of_mem _ h)
    have hmsg' := fun h ev he => hmsg h ev (mem_cons_of_mem _ he)
    rcases ev with _ | m | ⟨kind, notEof⟩
    · obtain ⟨r, rest, wire₁, rfl, rfl, hh₁⟩ := hear_reply hh
      rcases r with ⟨kind, channel, count⟩ | _ | _ | _
      · obtain ⟨con₁, hs, hk₁⟩ := readStep_take hk true ((Reply.confirmation kind channel count).value p)
        -- another reply is read later, so this is not the last
        have hrest : rest ≠ [] := by
          rintro rfl
          simp [hear_nil_reply] at hh₁
        simp only [StopsLast, hrest, if_false] at hstop
        have hclear : ((mark p received kind).1 && (mark p received kind).2 && Int64.ofNat count == 0) = false := by
          simpa [Prod.ext_iff] using hstop.1
        simp only [readLoop, hs, drainBody_confirmation, hclear, untilCleared]
        exact ih hstop.2 hh₁ hfail' hmsg' hk₁
      all_goals exact hstop.elim
    · obtain ⟨wire₁, messages₁, rfl, rfl, hh₁⟩ := hear_message hh
      rcases p with _ | _
      · exact absurd (hmsg rfl _ mem_cons_self) (by simp [PubSubEvent.isMessage])
      · obtain ⟨con₁, hs, hk₁⟩ := readStep_take hk true (m.value .resp3)
        simp only [readLoop, hs, drainBody_message]
        exact ih hstop hh₁ hfail' hmsg' hk₁
    · exact absurd (hfail _ mem_cons_self) (by simp [PubSubEvent.isFail])

end Drain

theorem int64_ofNat_ne_zero {n : Nat} (h0 : n ≠ 0) (h : n < 2 ^ 63) : Int64.ofNat n ≠ 0 := by
  intro hn
  have := congrArg Int64.toInt hn
  rw [Int64.toInt_ofNat_of_lt h] at this
  exact h0 (by simpa using this)

namespace Subscriptions

theorem confirmEach_dropChannel (channels patterns : List Bytes) :
    (confirmEach .unsubscribe dropChannel ⟨channels, patterns⟩ channels).2 = ⟨[], patterns⟩ := by
  induction channels with
  | nil => rfl
  | cons c channels ih => simpa [confirmEach, dropChannel] using ih

variable (s : Subscriptions) {patterns : List Bytes}

theorem dropAllChannels_snd : s.dropAllChannels.2 = ⟨[], s.patterns⟩ := by
  rcases s with ⟨_ | ⟨c, channels⟩, patterns⟩
  · rfl
  · exact confirmEach_dropChannel (c :: channels) patterns

theorem dropAllPatterns_ne_nil : s.dropAllPatterns.1 ≠ [] := by
  rcases s with ⟨channels, _ | ⟨q, patterns⟩⟩ <;> simp [dropAllPatterns, confirmEach]

variable {p : ProtocolVersion} {received : Bool × Bool}

theorem stopsLast_dropPattern (hu : received.1 = true) (q : Bytes) (patterns : List Bytes)
    (hlt : patterns.length < 2 ^ 63) :
    StopsLast p received (confirmEach .pUnsubscribe dropPattern ⟨[], q :: patterns⟩ (q :: patterns)).1 := by
  induction patterns generalizing q received with
  | nil =>
    simp [confirmEach, dropPattern, StopsLast, mark, hu, count, ConfirmationKind.marksPunsub]
  | cons q' patterns ih =>
    have hne := int64_ofNat_ne_zero (Nat.succ_ne_zero patterns.length) (by simpa using hlt)
    have hu' : (mark p received .pUnsubscribe).1 = true := by simp [mark, hu]
    have hrec := ih hu' q' (by simp at hlt; omega)
    rw [confirmEach]
    simp only [dropPattern, erase_cons_head] at hrec ⊢
    rw [StopsLast, if_neg (by simp [confirmEach])]
    exact ⟨fun _ => by simpa [count] using hne, hrec⟩

theorem stopsLast_dropAllPatterns (hu : received.1 = true) (patterns : List Bytes)
    (hlt : patterns.length < 2 ^ 63) : StopsLast p received (dropAllPatterns ⟨[], patterns⟩).1 := by
  rcases patterns with _ | ⟨q, patterns⟩
  · simp [dropAllPatterns, StopsLast, mark, hu, count, ConfirmationKind.marksPunsub]
  · exact stopsLast_dropPattern hu q patterns (by simp at hlt; omega)

theorem mark_unsubscribe (p : ProtocolVersion) (received : Bool × Bool) :
    mark p received .unsubscribe = (true, received.2) := by
  cases p <;> simp [mark, ConfirmationKind.marksUnsub, ConfirmationKind.marksPunsub]

theorem unsubscribe_goes_on (h : received.2 = false ∨ patterns ≠ []) {n : Nat} (hlt : n + patterns.length < 2 ^ 63) :
    mark p received .unsubscribe = (true, true) → Int64.ofNat (n + patterns.length) ≠ 0 := by
  rw [mark_unsubscribe]
  intro hq
  refine int64_ofNat_ne_zero ?_ hlt
  rcases h with h | h
  · simp [h] at hq
  · have := length_pos_iff.2 h
    omega

theorem stopsLast_dropChannel (h : received.2 = false ∨ patterns ≠ []) (c : Bytes) (channels : List Bytes)
    (hlt : channels.length + patterns.length < 2 ^ 63) :
    StopsLast p received ((confirmEach .unsubscribe dropChannel ⟨c :: channels, patterns⟩ (c :: channels)).1 ++
      (dropAllPatterns ⟨[], patterns⟩).1) := by
  induction channels generalizing c received with
  | nil =>
    simp only [confirmEach, dropChannel, erase_cons_head, cons_append, nil_append]
    rw [StopsLast, if_neg (dropAllPatterns_ne_nil _)]
    refine ⟨unsubscribe_goes_on h hlt, stopsLast_dropAllPatterns ?_ patterns (by simpa using hlt)⟩
    rw [mark_unsubscribe]
  | cons c' channels ih =>
    rw [confirmEach]
    simp only [dropChannel, erase_cons_head, cons_append] at ih ⊢
    rw [StopsLast, if_neg (by simp [confirmEach])]
    refine ⟨unsubscribe_goes_on h hlt, ih ?_ c' ?_⟩
    · rwa [mark_unsubscribe]
    · simp only [length_cons] at hlt
      omega

def dropAll (s : Subscriptions) : List Reply := s.dropAllChannels.1 ++ s.dropAllChannels.2.dropAllPatterns.1

theorem stopsLast_dropAll (hlt : s.count < 2 ^ 63) (h : received.2 = false ∨ s.patterns ≠ []) :
    StopsLast p received s.dropAll := by
  rw [dropAll, dropAllChannels_snd]
  rcases s with ⟨_ | ⟨c, channels⟩, patterns⟩
  · have hlt' : 0 + patterns.length < 2 ^ 63 := by simpa [count] using hlt
    rw [dropAllChannels, singleton_append, StopsLast, if_neg (dropAllPatterns_ne_nil _)]
    refine ⟨by simpa [count] using unsubscribe_goes_on h hlt', ?_⟩
    refine stopsLast_dropAllPatterns ?_ patterns (by omega)
    rw [mark_unsubscribe]
  · refine stopsLast_dropChannel h c channels ?_
    show channels.length + patterns.length < 2 ^ 63
    simp only [count, length_cons] at hlt
    omega

theorem dropAll_ne_nil : s.dropAll ≠ [] := by
  simp [dropAll, dropAllPatterns_ne_nil]

end Subscriptions

variable {p : ProtocolVersion} {con : Connection}

theorem hear_ok {owed owed' : List Reply} {events : List PubSubEvent} {wire : Wire} {messages : List Message}
    (h : hear p owed events = some (wire, owed', messages)) (hfail : ∀ ev ∈ events, ev.isFail = false) :
    ∀ r ∈ wire, ∃ v, r = .ok v := by
  induction events generalizing owed wire messages with
  | nil =>
    simp only [hear, Option.some.injEq, Prod.mk.injEq] at h
    simp [← h.1]
  | cons ev events ih =>
    have hfail' := fun ev h => hfail ev (mem_cons_of_mem _ h)
    rcases ev with _ | m | ⟨kind, notEof⟩
    · obtain ⟨r, rest, wire₁, rfl, rfl, h₁⟩ := hear_reply h
      exact forall_mem_cons.2 ⟨⟨_, rfl⟩, ih h₁ hfail'⟩
    · obtain ⟨wire₁, messages₁, rfl, rfl, h₁⟩ := hear_message h
      exact forall_mem_cons.2 ⟨⟨_, rfl⟩, ih h₁ hfail'⟩
    · exact absurd (hfail _ mem_cons_self) (by simp [PubSubEvent.isFail])

theorem reqCommand_reply (h : con.Idle) (c : Call) (pushes : List PushInfo) :
    ∃ con', con.reqCommand c.cmd (pushes.map (fun push => .ok (.push push.kind push.data)) ++ [.ok c.reply]) =
      some (.ok c.reply, con', []) := by
  rw [reqCommand, request_of_ready h.toReady _ c.packed_ne_nil]
  simp only [c.waits, Bool.false_eq_true, if_false, readReply]
  have hskip : ({ con with written := con.written ++ [c.cmd.getPackedCommand] } : Connection).messagesToSkip = 0 :=
    h.skip
  generalize { con with written := con.written ++ [c.cmd.getPackedCommand] } = con₁ at hskip
  induction pushes generalizing con₁ with
  | nil =>
    obtain ⟨con', hs, -⟩ := readStep_take hskip true c.reply
    have hbody : replyBody () (.ok c.reply) = .inr (.ok c.reply) := by
      have := c.notPush
      rcases hr : c.reply <;> simp_all [replyBody, Value.isPush]
    exact ⟨con', by simp [readLoop, hs, hbody]⟩
  | cons push pushes ih =>
    obtain ⟨con', hs, hskip'⟩ := readStep_take hskip true (.push push.kind push.data)
    simp only [map_cons, cons_append, readLoop, hs, replyBody]
    exact ih con' hskip'

def Connection.sentUnsubscribe (con : Connection) : Connection :=
  { con with written := con.written ++ [(cmd "UNSUBSCRIBE").getPackedCommand] ++
    [(cmd "PUNSUBSCRIBE").getPackedCommand] }

theorem clearActiveSubscriptions_of_ready (h : con.Ready) (wire : Wire) :
    con.clearActiveSubscriptions wire = readLoop drainBody (false, false) con.sentUnsubscribe wire := by
  have hne : ∀ name, (cmd name).getPackedCommand ≠ [] := fun name =>
    cmdWith_getPackedCommand_ne_nil name [] false
  simp [clearActiveSubscriptions, sendBytes, writeAll, h.writeError, hne, sentUnsubscribe]

/-- Only confirmations are unread, and none of them ends the drain too early. -/
structure PubSubSession.Drainable (s : PubSubSession) : Prop where
  confirmations : ∀ r ∈ s.owed, r.isConfirmation = true
  unmarked : (∀ kind channel count, .confirmation kind channel count ∈ s.owed →
      kind.marksPunsub s.protocol = false) ∨
    s.subs.patterns ≠ [] ∧ ∀ kind channel count, .confirmation kind channel count ∈ s.owed → Int64.ofNat count ≠ 0

theorem stopsLast_append {received : Bool × Bool} {owed replies : List Reply} {Q : Prop} (hne : replies ≠ [])
    (hconf : ∀ r ∈ owed, r.isConfirmation = true)
    (hmark : (received.2 = false ∧ ∀ kind channel count, .confirmation kind channel count ∈ owed →
        kind.marksPunsub p = false) ∨
      Q ∧ ∀ kind channel count, .confirmation kind channel count ∈ owed → Int64.ofNat count ≠ 0)
    (hstop : ∀ received : Bool × Bool, received.2 = false ∨ Q → StopsLast p received replies) :
    StopsLast p received (owed ++ replies) := by
  induction owed generalizing received with
  | nil => exact hstop received (hmark.imp And.left And.left)
  | cons r owed ih =>
    rcases r with ⟨kind, channel, count⟩ | _ | _ | _
    · rw [cons_append, StopsLast, if_neg (by simp [hne])]
      have hconf' := fun r hr => hconf r (mem_cons_of_mem _ hr)
      rcases hmark with ⟨hq, hmark⟩ | ⟨hq, hcnt⟩
      · have hk := hmark kind channel count mem_cons_self
        have hq' : (mark p received kind).2 = false := by simp [mark, hq, hk]
        refine ⟨fun h => by simp [h] at hq', ih hconf' (.inl ⟨hq', ?_⟩)⟩
        exact fun k c n h => hmark k c n (mem_cons_of_mem _ h)
      · refine ⟨fun _ => hcnt kind channel count mem_cons_self, ih hconf' (.inr ⟨hq, ?_⟩)⟩
        exact fun k c n h => hcnt k c n (mem_cons_of_mem _ h)
    all_goals exact absurd (hconf _ mem_cons_self) (by simp [Reply.isConfirmation])

namespace PubSubSession

variable {α : Type} [FromRedisValue α] {s s' : PubSubSession}

theorem Drainable.stopsLast (h : s.Drainable) (hlt : s.subs.count < 2 ^ 63) :
    StopsLast s.protocol (false, false) (s.owed ++ s.subs.dropAll) :=
  stopsLast_append s.subs.dropAll_ne_nil h.confirmations (h.unmarked.imp_left fun h => ⟨rfl, h⟩)
    fun _ => s.subs.stopsLast_dropAll hlt

def drop (s : PubSubSession) (events : List PubSubEvent) : Option (RedisResult Unit × Connection × List Reply) :=
  match hear s.protocol (s.owed ++ s.subs.dropAll) events with
  | none => none
  | some (wire, owed, _) =>
    match s.pubsub.con.exitPubsub wire with
    | some (out, con, []) => some (out, con, owed)
    | _ => none

theorem Drainable.drop_eq (h : s.Drainable) (hlt : s.subs.count < 2 ^ 63) (hcon : s.pubsub.con.Idle)
    {events : List PubSubEvent} {wire : Wire} {messages : List Message}
    (hh : hear s.protocol (s.owed ++ s.subs.dropAll) (events ++ [.reply]) = some (wire, [], messages))
    (hfail : ∀ ev ∈ events, ev.isFail = false)
    (hmsg : s.protocol = .resp2 → ∀ ev ∈ events, ev.isMessage = false) :
    ∃ con', s.drop (events ++ [.reply]) = some (.ok (), con', []) ∧ con'.Idle := by
  have hskip : s.pubsub.con.sentUnsubscribe.messagesToSkip = 0 := hcon.skip
  obtain ⟨con', hloop, hskip⟩ := readLoop_drainBody (h.stopsLast hlt) hh hfail hmsg hskip
  have hready := readLoop_ready hloop ⟨hcon.pubsub, hcon.writeError⟩
  have hclear := (clearActiveSubscriptions_of_ready hcon.toReady wire).trans hloop
  exact ⟨{ con' with pubsub := false }, by simp [drop, hh, exitPubsub, hclear], ⟨rfl, hready.writeError⟩, hskip⟩

theorem request_idle {ρ : Type} {g : RedisResult Value → ρ} {name : String} {args : List Bytes} {b : Bool}
    {call : PubSub → Wire → Option (ρ × PubSub × Wire)} {req : PubSubRequest} {events : List PubSubEvent}
    {out : ρ} (hi : s.pubsub.con.Idle) (hfail : ∀ ev ∈ events, ev.isFail = false)
    (h : s.request req events call = some (out, s'))
    (hc : ∀ ps wire, call ps wire =
      (ps.cacheMessagesUntilReceivedResponse (cmdWith name args) b wire).map fun x => (g x.1, x.2)) :
    s'.pubsub.con.Idle := by
  obtain ⟨bytes, wire, owed, messages, r, waiting, con, hh, hloop, rfl, rfl⟩ := request_eq_some hi.toReady h hc
  refine readLoop_inv ?_ hloop ⟨⟨hi.pubsub, hi.writeError⟩, hi.skip⟩
  intro result hres con o con' hs
  obtain ⟨v, rfl⟩ := hear_ok hh hfail result hres
  exact readStep_idle hs

theorem step_idle {call : PubSubCall} {out : PubSubAnswer α} (hi : s.pubsub.con.Idle)
    (hfail : ∀ ev ∈ call.events, ev.isFail = false) (h : s.step α call = some (out, s')) :
    s'.pubsub.con.Idle := by
  rcases call with ⟨channels | patterns | channels | patterns | message, events⟩ | events | subs
  case getMessage =>
    obtain ⟨⟨r, t⟩, hcall, heq⟩ := Option.map_eq_some_iff.1 h
    cases heq
    rcases getMessage_eq_some hcall with ⟨msg, waiting, -, -, rfl⟩ | ⟨wire, owed, messages, con, -, hh, hread, rfl⟩
    · exact hi
    · refine readMessage_inv ?_ hread hi
      intro result hres con o con' hs
      obtain ⟨v, rfl⟩ := hear_ok hh hfail result hres
      exact readStep_idle hs
  case rehash =>
    simp only [step] at h
    split at h
    · simp only [Option.some.injEq, Prod.mk.injEq] at h
      rw [← h.2]
      exact hi
    · cases h
  all_goals
    obtain ⟨⟨r, t⟩, hcall, heq⟩ := Option.map_eq_some_iff.1 h
    cases heq
  case request.ping =>
    exact request_idle (g := fun r => r.bind fun v => (FromRedisValue.fromRedisValue v).toRedisResult) hi hfail hcall
      fun _ _ => rfl
  all_goals exact request_idle hi hfail hcall fun _ _ => rfl

/-- After any run of calls without failed reads that ends in a drainable state, dropping the `PubSub` reads
every confirmation and the next command gets its own reply. -/
theorem drop_drains {con : Connection} (hcon : con.Idle) {calls : List PubSubCall} {outs : List (PubSubAnswer α)}
    (hcalls : ∀ call ∈ calls, ∀ ev ∈ call.events, ev.isFail = false)
    (hrun : run (step α) (start con) calls = some (outs, s)) (hdrain : s.Drainable)
    (hcount : s.subs.count < 2 ^ 63) {events : List PubSubEvent} {wire : Wire} {messages : List Message}
    (hh : hear s.protocol (s.owed ++ s.subs.dropAll) (events ++ [.reply]) = some (wire, [], messages))
    (hfail : ∀ ev ∈ events, ev.isFail = false)
    (hmsg : s.protocol = .resp2 → ∀ ev ∈ events, ev.isMessage = false) :
    ∃ con', s.drop (events ++ [.reply]) = some (.ok (), con', []) ∧
      ∀ (c : Call) (pushes : List PushInfo), ∃ con'',
        con'.reqCommand c.cmd (pushes.map (fun push => .ok (.push push.kind push.data)) ++ [.ok c.reply]) =
          some (.ok c.reply, con'', []) := by
  have hidle : s.pubsub.con.Idle := by
    refine run_inv (I := fun s : PubSubSession => s.pubsub.con.Idle) ?_ hcon hcalls hrun
    exact fun s call out s' hi hc hstep => step_idle hi hc hstep
  obtain ⟨con', hdrop, hidle'⟩ := hdrain.drop_eq hcount hidle hh hfail hmsg
  exact ⟨con', hdrop, fun c pushes => reqCommand_reply hidle' c pushes⟩

def twoSubscriptions : List PubSubCall :=
  [.request (.subscribe [bytesOf "a", bytesOf "b"]) [.message greeting, .reply],
    .request (.pSubscribe [bytesOf "c*"]) [.reply]]

theorem two_subscriptions_drained :
    ∃ outs s, run (step Value) (start (.fresh .resp3)) twoSubscriptions = some (outs, s) ∧
      s.owed = [.confirmation .pSubscribe (some (bytesOf "c*")) 3] ∧
      ∃ con', s.drop ([.reply, .message greeting, .reply, .reply] ++ [.reply]) = some (.ok (), con', []) ∧
        ∀ (c : Call) (pushes : List PushInfo), ∃ con'',
          con'.reqCommand c.cmd (pushes.map (fun push => .ok (.push push.kind push.data)) ++ [.ok c.reply]) =
            some (.ok c.reply, con'', []) := by
  obtain ⟨outs, s, hrun, howed, hsubs, hp⟩ : ∃ outs s,
      run (step Value) (start (.fresh .resp3)) twoSubscriptions = some (outs, s) ∧
      s.owed = [.confirmation .pSubscribe (some (bytesOf "c*")) 3] ∧
      s.subs = ⟨[bytesOf "b", bytesOf "a"], [bytesOf "c*"]⟩ ∧ s.protocol = .resp3 := ⟨_, _, rfl, rfl, rfl, rfl⟩
  have hcalls : ∀ call ∈ twoSubscriptions, ∀ ev ∈ call.events, ev.isFail = false := by
    simp [twoSubscriptions, PubSubCall.events, PubSubEvent.isFail]
  have hdrain : s.Drainable := by
    refine ⟨by simp [howed, Reply.isConfirmation], .inl ?_⟩
    rw [howed, hp]
    intro kind channel count hr
    cases mem_singleton.1 hr
    rfl
  refine ⟨outs, s, hrun, howed, drop_drains (Connection.fresh_idle .resp3) hcalls hrun hdrain ?_
    (by rw [howed, hsubs, hp]; rfl) ?_ ?_⟩
  · simp [hsubs, Subscriptions.count]
  · simp [PubSubEvent.isFail]
  · simp [hp]

theorem unread_confirmation_answers_next_command :
    ∃ outs s con' con'', run (step Value) (start (.fresh .resp2))
        [.request (.pUnsubscribe [bytesOf "x", bytesOf "y"]) [.reply]] = some (outs, s) ∧
      s.drop [.reply, .reply] = some (.ok (), con', [.confirmation .pUnsubscribe none 0]) ∧
      con'.reqCommand (Cmd.ofArgs [bytesOf "GET", bytesOf "k"])
          [.ok ((Reply.confirmation .pUnsubscribe none 0).value .resp2), .ok (.bulkString (bytesOf "v"))] =
        some (.ok (.array [.bulkString (bytesOf "punsubscribe"), .nil, .int 0]), con'',
          [.ok (.bulkString (bytesOf "v"))]) :=
  ⟨_, _, _, _, rfl, rfl, rfl⟩

end PubSubSession

end RedisRs
