import RedisRs.Connection
import RedisRs.Run

/-!
# Replies of the blocking connection under timeouts and pushes
-/

namespace RedisRs

open List Run Connection

inductive Event
  | reply
  | push (kind : PushKind) (data : List Value)
  | fail (kind : IoErrorKind) (notEof : kind ≠ .unexpectedEof)

def Event.isPush : Event → Bool
  | push _ _ => true
  | _ => false

def deliver : List Value → List Event → Option (Wire × List Value)
  | owed, [] => some ([], owed)
  | [], .reply :: _ => none
  | r :: owed, .reply :: evs => (deliver owed evs).map fun (wire, owed) => (.ok r :: wire, owed)
  | owed, .push kind data :: evs =>
    (deliver owed evs).map fun (wire, owed) => (.ok (.push kind data) :: wire, owed)
  | owed, .fail kind _ :: evs =>
    (deliver owed evs).map fun (wire, owed) => (.error (.ofIo kind) :: wire, owed)

structure Call where
  cmd : Cmd
  nonempty : cmd.isEmpty = false
  waits : cmd.noResponse = false
  reply : Value
  notPush : reply.isPush = false
  events : List Event

structure Session where
  con : Connection
  owed : List Value

def Session.call (s : Session) (c : Call) : Option (RedisResult Value × Session) :=
  match deliver (s.owed ++ [c.reply]) c.events with
  | none => none
  | some (wire, owed) =>
    match s.con.reqCommand c.cmd wire with
    | some (r, con, []) => some (r, ⟨con, owed⟩)
    | _ => none

/-- The call returned the reply to its own command, if any, and the counter is right. -/
def Matched (_ : Session) (c : Call) (r : RedisResult Value) (s' : Session) : Prop :=
  (∀ v, r = .ok v → v = c.reply) ∧ s'.con.messagesToSkip = s'.owed.length

/-- None of the values read while answers to earlier commands are owed is a push. -/
def NoPushWhileOwed (s : Session) (c : Call) (_ : RedisResult Value) (_ : Session) : Prop :=
  ∀ ev ∈ c.events.take s.con.messagesToSkip, ev.isPush = false

variable {owed owed' : List Value} {evs : List Event}

theorem deliver_eq_nil (h : deliver owed evs = some ([], owed')) : evs = [] ∧ owed' = owed := by
  cases evs with
  | nil => simp only [deliver, Option.some.injEq, Prod.mk.injEq] at h; exact ⟨rfl, h.2.symm⟩
  | cons ev evs =>
    exfalso
    cases ev with
    | reply => cases owed <;> simp [deliver] at h
    | push kind data => simp [deliver] at h
    | fail kind _ => simp [deliver] at h

def skippedPushes (k : Nat) (evs : List Event) : Nat := (evs.take k).countP Event.isPush

theorem skippedPushes_pos {k : Nat} (hk : 0 < k) (ev : Event) (evs : List Event) :
    skippedPushes k (ev :: evs) = skippedPushes (k - 1) evs + if ev.isPush then 1 else 0 := by
  obtain ⟨k, rfl⟩ := Nat.exists_eq_succ_of_ne_zero (Nat.ne_of_gt hk)
  simp [skippedPushes, countP_cons]

theorem skippedPushes_eq_zero {k : Nat} : skippedPushes k evs = 0 ↔ ∀ ev ∈ evs.take k, ev.isPush = false := by
  simp [skippedPushes, countP_eq_zero]

variable {r : RedisResult Value} {wire : Wire}

theorem readReply_accounting {con con' : Connection} (hd : deliver owed evs = some (wire, owed'))
    (hr : con.readReply wire = some (r, con', [])) (hp : ∀ v ∈ owed, v.isPush = false) :
    owed'.length + con.messagesToSkip + 1 =
        owed.length + skippedPushes con.messagesToSkip evs + con'.messagesToSkip ∧
      ∀ v, r = .ok v → con'.messagesToSkip = 0 ∧ ∃ pre, owed = pre ++ v :: owed' := by
  induction evs generalizing con owed wire with
  | nil =>
    simp only [deliver, Option.some.injEq, Prod.mk.injEq] at hd
    rw [← hd.1] at hr
    simp [readReply, readLoop] at hr
  | cons ev evs ih =>
    cases ev with
    | reply =>
      cases owed with
      | nil => simp [deliver] at hd
      | cons r₀ owed =>
        obtain ⟨⟨wire₁, owed₁⟩, hd₁, hd⟩ := Option.map_eq_some_iff.1 hd
        cases hd
        by_cases hk : 0 < con.messagesToSkip
        · obtain ⟨con₁, hs, hk₁⟩ := readStep_skip hk true r₀
          simp only [readReply, readLoop, hs] at hr
          obtain ⟨h₁, h₂⟩ := ih hd₁ hr fun v hv => hp v (by simp [hv])
          refine ⟨?_, fun v hv => ?_⟩
          · rw [hk₁] at h₁
            rw [skippedPushes_pos hk, length_cons]
            simp only [Event.isPush, Bool.false_eq_true, ↓reduceIte]
            omega
          · obtain ⟨h0, pre, hpre⟩ := h₂ v hv
            exact ⟨h0, r₀ :: pre, by rw [hpre]; rfl⟩
        · have hk0 : con.messagesToSkip = 0 := by omega
          obtain ⟨con₁, hs, hk₁⟩ := readStep_take hk0 true r₀
          have hr₀ : r₀.isPush = false := hp r₀ (by simp)
          have hb : replyBody () (.ok r₀) = .inr (.ok r₀) := by
            cases r₀ <;> first | rfl | simp [Value.isPush] at hr₀
          simp only [readReply, readLoop, hs, hb, Option.some.injEq, Prod.mk.injEq] at hr
          obtain ⟨rfl, rfl, rfl⟩ := hr
          obtain ⟨rfl, rfl⟩ := deliver_eq_nil hd₁
          refine ⟨by simp [skippedPushes, hk0, hk₁], fun v hv => ?_⟩
          cases hv
          exact ⟨hk₁, [], rfl⟩
    | push kind data =>
      obtain ⟨⟨wire₁, owed₁⟩, hd₁, hd⟩ := Option.map_eq_some_iff.1 (by rw [deliver] at hd; exact hd)
      cases hd
      by_cases hk : 0 < con.messagesToSkip
      · obtain ⟨con₁, hs, hk₁⟩ := readStep_skip hk true (.push kind data)
        simp only [readReply, readLoop, hs] at hr
        obtain ⟨h₁, h₂⟩ := ih hd₁ hr hp
        refine ⟨?_, h₂⟩
        rw [hk₁] at h₁
        rw [skippedPushes_pos hk]
        simp only [Event.isPush, ↓reduceIte]
        omega
      · have hk0 : con.messagesToSkip = 0 := by omega
        obtain ⟨con₁, hs, hk₁⟩ := readStep_take hk0 true (.push kind data)
        simp only [readReply, readLoop, hs, replyBody] at hr
        obtain ⟨h₁, h₂⟩ := ih hd₁ hr hp
        refine ⟨?_, h₂⟩
        rw [hk₁] at h₁
        rw [hk0]
        exact h₁
    | fail kind notEof =>
      obtain ⟨⟨wire₁, owed₁⟩, hd₁, hd⟩ := Option.map_eq_some_iff.1 (by rw [deliver] at hd; exact hd)
      cases hd
      simp only [readReply, readLoop, readStep_fail notEof, replyBody, ↓reduceIte, Option.some.injEq,
        Prod.mk.injEq] at hr
      obtain ⟨rfl, rfl, rfl⟩ := hr
      obtain ⟨rfl, rfl⟩ := deliver_eq_nil hd₁
      refine ⟨?_, fun _ h => by cases h⟩
      have hq : skippedPushes con.messagesToSkip [.fail kind notEof] = 0 := by
        cases con.messagesToSkip <;> simp [skippedPushes, Event.isPush]
      dsimp only
      rw [hq]; omega

/-- The connection skips as many replies as are owed, and none of them is a push. -/
structure Session.Inv (s : Session) : Prop where
  ready : s.con.Ready
  skip : s.con.messagesToSkip = s.owed.length
  replies : ∀ v ∈ s.owed, v.isPush = false

theorem Call.packed_ne_nil (c : Call) : c.cmd.getPackedCommand ≠ [] := by
  simp [Cmd.getPackedCommand, c.nonempty, Cmd.writePackedCommand_ne_nil]

theorem Session.call_eq_some {s s' : Session} {c : Call} (hready : s.con.Ready) (h : s.call c = some (r, s')) :
    ∃ wire, deliver (s.owed ++ [c.reply]) c.events = some (wire, s'.owed) ∧
      Connection.readReply { s.con with written := s.con.written ++ [c.cmd.getPackedCommand] } wire =
        some (r, s'.con, []) := by
  rw [Session.call] at h
  split at h
  · cases h
  · rename_i wire owed hd
    rw [reqCommand, request_of_ready hready _ c.packed_ne_nil] at h
    simp only [c.waits, Bool.false_eq_true, ↓reduceIte] at h
    split at h
    · rename_i r' con hr
      cases h
      exact ⟨wire, hd, hr⟩
    · cases h

theorem deliver_subset (h : deliver owed evs = some (wire, owed')) : ∀ v ∈ owed', v ∈ owed := by
  induction evs generalizing owed wire with
  | nil => simp only [deliver, Option.some.injEq, Prod.mk.injEq] at h; rw [h.2]; exact fun _ hv => hv
  | cons ev evs ih =>
    cases ev with
    | reply =>
      cases owed with
      | nil => simp [deliver] at h
      | cons r owed =>
        obtain ⟨⟨wire₁, owed₁⟩, hd₁, hd⟩ := Option.map_eq_some_iff.1 h
        cases hd
        exact fun v hv => mem_cons_of_mem _ (ih hd₁ v hv)
    | push kind data | fail kind notEof =>
      obtain ⟨⟨wire₁, owed₁⟩, hd₁, hd⟩ := Option.map_eq_some_iff.1 (by rw [deliver] at h; exact h)
      cases hd
      exact ih hd₁

theorem Session.call_matched_iff {s s' : Session} {c : Call} (hi : s.Inv) (h : s.call c = some (r, s')) :
    (Matched s c r s' ↔ NoPushWhileOwed s c r s') ∧ (Matched s c r s' → s'.Inv) := by
  obtain ⟨wire, hd, hr⟩ := s.call_eq_some hi.ready h
  have hp : ∀ v ∈ s.owed ++ [c.reply], v.isPush = false := by
    intro v hv
    rcases mem_append.1 hv with hv | hv
    · exact hi.replies v hv
    · rw [mem_singleton.1 hv]; exact c.notPush
  obtain ⟨hacc, hv⟩ := readReply_accounting hd hr hp
  rw [length_append, length_singleton] at hacc
  dsimp only at hacc
  have hcnt : s'.owed.length = skippedPushes s.con.messagesToSkip c.events + s'.con.messagesToSkip := by
    have := hi.skip; omega
  refine ⟨⟨fun hm => ?_, fun hn => ⟨fun v hrv => ?_, ?_⟩⟩, fun hm => ⟨?_, hm.2, ?_⟩⟩
  · have := hm.2
    exact skippedPushes_eq_zero.1 (by omega)
  · -- a value is returned with the counter at zero, so nothing is owed after it
    have hq := skippedPushes_eq_zero.2 hn
    obtain ⟨h0, pre, hpre⟩ := hv v hrv
    have hnil : s'.owed = [] := eq_nil_of_length_eq_zero (by omega)
    rw [hnil] at hpre
    exact (singleton_inj.1 (append_inj_right' hpre rfl)).symm
  · have := skippedPushes_eq_zero.2 hn
    omega
  · exact readLoop_ready hr ⟨hi.ready.pubsub, hi.ready.writeError⟩
  · exact fun v hv => hp v (deliver_subset hd v hv)

/-- A run of calls on a fresh connection is right at every call exactly when no call reads a push while
answers to earlier commands are owed. -/
theorem reply_matching_iff {con : Connection} (h : con.Idle) (calls : List Call) :
    Along Session.call Matched ⟨con, []⟩ calls ↔ Along Session.call NoPushWhileOwed ⟨con, []⟩ calls := by
  refine along_iff (I := Session.Inv) ?_ ⟨h.toReady, h.skip, fun v hv => absurd hv not_mem_nil⟩ calls
  intro s c r s' hi hc
  exact Session.call_matched_iff hi hc

def lateReplyCalls (events : List Event) : List Call :=
  [⟨Cmd.ofArgs [bytesOf "GET", bytesOf "a"], rfl, rfl, .int 1, rfl, [.fail .timedOut (by decide)]⟩,
   ⟨Cmd.ofArgs [bytesOf "GET", bytesOf "b"], rfl, rfl, .int 2, rfl, events⟩]

theorem reply_matching_late_reply : (Connection.fresh .resp3).Idle ∧
    Along Session.call Matched ⟨.fresh .resp3, []⟩ (lateReplyCalls [.reply, .push .message [], .reply]) := by
  have h := Connection.fresh_idle .resp3
  refine ⟨h, (reply_matching_iff h _).2 fun r s hs => ⟨fun ev hev => absurd hev not_mem_nil, ?_⟩⟩
  cases hs
  refine fun r s hs => ⟨fun ev hev => ?_, trivial⟩
  rw [mem_singleton.1 hev]
  rfl

theorem push_taken_for_late_reply :
    ¬ ∀ con : Connection, con.Idle → ∀ calls : List Call, Along Session.call Matched ⟨con, []⟩ calls := by
  intro h
  have hrun := h (.fresh .resp3) (Connection.fresh_idle .resp3)
    (lateReplyCalls [.push .message [], .reply])
  have h₂ := (hrun _ _ rfl).2
  have h₃ := (h₂ _ _ rfl).1.1 (.int 1) rfl
  cases h₃

end RedisRs
