import RedisRs.Queries
import RedisRs.ReplyTypes
import RedisRs.Texts

/-!
# Iterating over a scan
-/

namespace RedisRs

open List FromRedisValue ParseResult

variable {α : Type} [FromRedisValue α]

def Cmd.iterFrom (c : Cmd) (returned : RedisResult Value) : RedisResult (CheckedIter α) := do
  c.setCursorAndGetBatch fromEachRedisValues (← returned)

namespace CheckedIter

def sent (iter : CheckedIter α) : List (RedisResult Value) → List Cmd
  | [] => if iter.asks then [iter.cmd] else []
  | reply :: replies =>
    if iter.asks then
      iter.cmd :: match iter.receive fromEachRedisValues reply with
        | .ok iter => sent iter replies
        | .error _ => []
    else []

def collect : Nat → CheckedIter α → List (RedisResult Value) →
    Option (List (RedisResult α) × List (RedisResult Value) × List Cmd)
  | 0, _, _ => none
  | fuel + 1, iter, replies => do
    let (item, iter', replies') ← iter.next fromEachRedisValues replies
    match item with
    | none => return ([], replies', iter.sent replies)
    | some item =>
      let (items, replies'', sent) ← collect fuel iter' replies'
      return (item :: items, replies'', iter.sent replies ++ sent)

end CheckedIter

structure Delayed where
  pending : Nat
  returned : RedisResult Value

inductive NextItem (α : Type)
  | started (iter : CheckedIter α)
  /-- The request was sent; `pending` more polls find its future pending. -/
  | awaiting (pending : Nat) (returned : RedisResult Value) (iter : CheckedIter α)
  | unanswered (iter : CheckedIter α)

inductive Polled (α : Type)
  | ready (item : Option (RedisResult α)) (iter : CheckedIter α)
  | pending (future : NextItem α)

namespace NextItem

def loop (iter : CheckedIter α) : List Delayed → Polled α × List Delayed × List Cmd
  | [] => match iter.batch with
    | value :: batch => (.ready (some value.toRedisResult) { iter with batch }, [], [])
    | [] =>
      if iter.cmd.cursor.all (· == 0) then (.ready none iter, [], [])
      else (.pending (.unanswered iter), [], [iter.cmd])
  | reply :: script => match iter.batch with
    | value :: batch => (.ready (some value.toRedisResult) { iter with batch }, reply :: script, [])
    | [] =>
      if iter.cmd.cursor.all (· == 0) then (.ready none iter, reply :: script, [])
      else match reply.pending with
        | pending + 1 => (.pending (.awaiting pending reply.returned iter), script, [iter.cmd])
        | 0 => match iter.receive fromEachRedisValues reply.returned with
          | .ok iter' =>
            let (polled, script, sent) := loop iter' script
            (polled, script, iter.cmd :: sent)
          | .error e => (.ready (some (.error e)) iter, script, [iter.cmd])

def poll (script : List Delayed) : NextItem α → Polled α × List Delayed × List Cmd
  | started iter => loop iter script
  | awaiting (pending + 1) returned iter => (.pending (.awaiting pending returned iter), script, [])
  | awaiting 0 returned iter => match iter.receive fromEachRedisValues returned with
    | .ok iter => loop iter script
    | .error e => (.ready (some (.error e)) iter, script, [])
  | unanswered iter => (.pending (.unanswered iter), script, [])

end NextItem

inductive IterOrFuture (α : Type)
  | iter (inner : CheckedIter α)
  | future (fut : NextItem α)
  | empty

namespace IterOrFuture

def pollFuture (fut : NextItem α) (script : List Delayed) :
    Option (Option (RedisResult α)) × IterOrFuture α × List Delayed × List Cmd :=
  match fut.poll script with
  | (.pending fut, script, sent) => (none, .future fut, script, sent)
  | (.ready item inner, script, sent) => (some item, .iter inner, script, sent)

def pollNext (script : List Delayed) :
    IterOrFuture α → Ends (Option (Option (RedisResult α)) × IterOrFuture α × List Delayed × List Cmd)
  | iter inner => .ok (pollFuture (.started inner) script)
  | future fut => .ok (pollFuture fut script)
  | empty => .error .unreachable

def drain : Nat → IterOrFuture α → List Delayed → Ends (Option (List (RedisResult α) × List Delayed × List Cmd))
  | 0, _, _ => .ok none
  | fuel + 1, state, script => do
    let (polled, state, script, sent) ← state.pollNext script
    match polled with
    | some none => return some ([], script, sent)
    | some (some item) =>
      return (← drain fuel state script).map fun (items, script, sent') => (item :: items, script, sent ++ sent')
    | none => return (← drain fuel state script).map fun (items, script, sent') => (items, script, sent ++ sent')

end IterOrFuture

inductive ScanScript
  | last (values : List Value)
  | more (cursor : UInt64) (h : cursor ≠ 0) (values : List Value) (rest : ScanScript)

def scanReply (cursor : UInt64) (values : List Value) : Value :=
  .array [.bulkString (itoa cursor.toNat), .array values]

namespace ScanScript

def replies : ScanScript → List Value
  | last values => [scanReply 0 values]
  | more cursor _ values rest => scanReply cursor values :: rest.replies

def cursors : ScanScript → List UInt64
  | last _ => []
  | more cursor _ _ rest => cursor :: rest.cursors

def batches : ScanScript → List (List Value)
  | last values => [values]
  | more _ _ values rest => values :: rest.batches

def items (α : Type) [FromRedisValue α] (s : ScanScript) : List (RedisResult α) :=
  (s.batches.flatMap fromEachRedisValues).map toRedisResult

end ScanScript

def Cmd.withCursor (c : Cmd) (cursor : UInt64) : Cmd := { c with cursor := some cursor.toNat }

theorem fromRedisValueTuple2_scanReply (cursor : UInt64) (values : List Value) :
    (fromRedisValueTuple2 (scanReply cursor values) : ParseResult (UInt64 × List Value)) = .ok (cursor, values) := by
  have hdigs : (fromRedisValue (.bulkString (itoa cursor.toNat)) : ParseResult UInt64) = .ok cursor := by
    have hhi : (cursor.toNat : Int) ≤ 2 ^ 64 - 1 := by
      have := cursor.toNat_lt
      omega
    have hparse := parseInt_natText (Int.natCast_nonneg cursor.toNat) hhi
    have hcast : UInt64.ofInt (cursor.toNat : Int) = cursor := MachineInt.ofInt_toInt cursor
    simp only [fromRedisValue, fromRedisValueForNum, itoa, fromUtf8_bytesOf, hparse, hcast]
  have hitems : tupleItems 2 (scanReply cursor values) = .ok [.bulkString (itoa cursor.toNat), .array values] := rfl
  rw [fromRedisValueTuple2, hitems]
  simp only [bind, Except.bind, hdigs, fromRedisValue_array_value]
  rfl

theorem iterFrom_scanReply (c : Cmd) (cursor : UInt64) (values : List Value) :
    c.iterFrom (.ok (scanReply cursor values)) =
      .ok (⟨fromEachRedisValues values, c.withCursor cursor⟩ : CheckedIter α) := by
  have hlooks : (scanReply cursor values).looksLikeCursor = true := rfl
  simp only [Cmd.iterFrom, Cmd.setCursorAndGetBatch, bind, Except.bind, hlooks, if_true, fromRedisValueTuple2_scanReply]
  rfl

theorem receive_scanReply (iter : CheckedIter α) (cursor : UInt64) (values : List Value) :
    iter.receive fromEachRedisValues (.ok (scanReply cursor values)) =
      .ok ⟨fromEachRedisValues values, iter.cmd.withCursor cursor⟩ := by
  simp only [CheckedIter.receive, bind, Except.bind, fromRedisValueTuple2_scanReply]
  rfl

namespace CheckedIter

variable {fuel : Nat} {items : List (RedisResult α)} {sent : List Cmd}

omit [FromRedisValue α] in
theorem asks_of_ne_zero {c : Cmd} {cursor : UInt64} (h : cursor ≠ 0) :
    (⟨[], c.withCursor cursor⟩ : CheckedIter α).asks = true := by
  have hne : cursor.toNat ≠ 0 := fun hz => h (UInt64.toNat_inj.1 hz)
  simp [asks, Cmd.withCursor, hne]

theorem collect_batch {cmd : Cmd} {replies rest : List (RedisResult Value)} (values : List (ParseResult α))
    (h : collect fuel ⟨[], cmd⟩ replies = some (items, rest, sent)) :
    collect (fuel + values.length) ⟨values, cmd⟩ replies = some (values.map toRedisResult ++ items, rest, sent) := by
  induction values with
  | nil => exact h
  | cons value values ih =>
    have hnext : next fromEachRedisValues ⟨value :: values, cmd⟩ replies =
        some (some value.toRedisResult, ⟨values, cmd⟩, replies) := by cases replies <;> rfl
    have hsent : (⟨value :: values, cmd⟩ : CheckedIter α).sent replies = [] := by cases replies <;> rfl
    rw [length_cons, ← Nat.add_assoc, collect, hnext, hsent]
    simp only [Option.bind_eq_bind, Option.bind_some, ih]
    rfl

theorem collect_request {c : Cmd} {cursor cursor' : UInt64} (hne : cursor ≠ 0) {values : List Value}
    {replies rest : List (RedisResult Value)}
    (h : collect fuel ⟨fromEachRedisValues values, c.withCursor cursor'⟩ replies = some (items, rest, sent)) :
    collect fuel ⟨[], c.withCursor cursor⟩ (.ok (scanReply cursor' values) :: replies) =
      some (items, rest, c.withCursor cursor :: sent) := by
  cases fuel with
  | zero => cases h
  | succ fuel =>
    have hasks := asks_of_ne_zero (α := α) (c := c) hne
    have hnot : (c.withCursor cursor).cursor.all (· == 0) = false := by simpa [asks] using hasks
    have hnext : next fromEachRedisValues (⟨[], c.withCursor cursor⟩ : CheckedIter α)
        (.ok (scanReply cursor' values) :: replies) =
          next fromEachRedisValues ⟨fromEachRedisValues values, c.withCursor cursor'⟩ replies := by
      rw [next]
      simp only [hnot, Bool.false_eq_true, if_false, receive_scanReply]
      rfl
    have hsent : (⟨[], c.withCursor cursor⟩ : CheckedIter α).sent (.ok (scanReply cursor' values) :: replies) =
        c.withCursor cursor ::
          (⟨fromEachRedisValues values, c.withCursor cursor'⟩ : CheckedIter α).sent replies := by
      rw [CheckedIter.sent, if_pos hasks, receive_scanReply]
      rfl
    rw [collect] at h ⊢
    rw [hnext, hsent]
    cases hr : next fromEachRedisValues (⟨fromEachRedisValues values, c.withCursor cursor'⟩ : CheckedIter α) replies with
    | none =>
      rw [hr] at h
      cases h
    | some r =>
      obtain ⟨item, iter', replies'⟩ := r
      rw [hr] at h
      cases item with
      | none =>
        cases h
        rfl
      | some item =>
        simp only [Option.bind_eq_bind, Option.bind_some] at h ⊢
        cases hrest : collect fuel iter' replies' with
        | none =>
          rw [hrest] at h
          cases h
        | some r =>
          rw [hrest] at h
          cases h
          rfl

theorem collect_end (c : Cmd) (replies : List (RedisResult Value)) :
    collect 1 (⟨[], c.withCursor 0⟩ : CheckedIter α) replies = some ([], replies, []) := by
  cases replies <;> rfl

theorem collect_script (s : ScanScript) (c : Cmd) {cursor : UInt64} (hne : cursor ≠ 0) (batch : List (ParseResult α)) :
    ∃ fuel, collect fuel ⟨batch, c.withCursor cursor⟩ (s.replies.map .ok) =
      some (batch.map toRedisResult ++ s.items α, [], (cursor :: s.cursors).map c.withCursor) := by
  induction s generalizing cursor batch with
  | last values =>
    have hend := collect_batch (fromEachRedisValues values) (collect_end (α := α) c [])
    refine ⟨_, (collect_batch batch (collect_request hne hend)).trans ?_⟩
    simp [ScanScript.items, ScanScript.batches, ScanScript.cursors]
  | more cursor' hne' values rest ih =>
    obtain ⟨fuel, hrest⟩ := ih hne' (fromEachRedisValues values)
    refine ⟨_, (collect_batch batch (collect_request hne hrest)).trans ?_⟩
    simp [ScanScript.items, ScanScript.batches, ScanScript.cursors]

end CheckedIter

namespace IterOrFuture

variable {fuel : Nat} {items : List (RedisResult α)} {script rest : List Delayed} {sent : List Cmd}

def settled : Polled α → Option (Option (RedisResult α)) × IterOrFuture α
  | .ready item inner => (some item, .iter inner)
  | .pending fut => (none, .future fut)

variable (inner : CheckedIter α) {values : List Value} {cursor : UInt64}

theorem pollNext_iter (script : List Delayed) : (iter inner).pollNext script =
    .ok ((settled (NextItem.loop inner script).1).1, (settled (NextItem.loop inner script).1).2,
      (NextItem.loop inner script).2) := by
  rw [pollNext, pollFuture, NextItem.poll]
  rcases NextItem.loop inner script with ⟨_ | _, _, _⟩ <;> rfl

theorem drain_of_pollNext (before : List Cmd) {state state' : IterOrFuture α} {script' : List Delayed}
    {polled : Option (Option (RedisResult α))} {next : IterOrFuture α} {left : List Delayed} {now : List Cmd}
    (hpoll : state.pollNext script = .ok (polled, next, left, now))
    (hpoll' : state'.pollNext script' = .ok (polled, next, left, before ++ now))
    (h : drain (fuel + 1) state script = .ok (some (items, rest, sent))) :
    drain (fuel + 1) state' script' = .ok (some (items, rest, before ++ sent)) := by
  rw [drain, hpoll] at h
  rw [drain, hpoll']
  rcases polled with _ | _ | item
  · simp only [bind, Except.bind] at h ⊢
    rcases hd : drain fuel next left with e | _ | ⟨items', rest', sent'⟩ <;> rw [hd] at h <;> cases h
    simp only [Option.map_some, append_assoc]
    rfl
  · cases h
    rfl
  · simp only [bind, Except.bind] at h ⊢
    rcases hd : drain fuel next left with e | _ | ⟨items', rest', sent'⟩ <;> rw [hd] at h <;> cases h
    simp only [Option.map_some, append_assoc]
    rfl

theorem drain_batch {cmd : Cmd} (values : List (ParseResult α))
    (h : drain fuel (.iter ⟨[], cmd⟩) script = .ok (some (items, rest, sent))) :
    drain (fuel + values.length) (.iter ⟨values, cmd⟩) script =
      .ok (some (values.map toRedisResult ++ items, rest, sent)) := by
  induction values with
  | nil => exact h
  | cons value values ih =>
    have hpoll : (iter ⟨value :: values, cmd⟩ : IterOrFuture α).pollNext script =
        .ok (some (some value.toRedisResult), .iter ⟨values, cmd⟩, script, []) := by cases script <;> rfl
    rw [length_cons, ← Nat.add_assoc, drain, hpoll]
    simp only [bind, Except.bind, ih]
    rfl

theorem drain_awaiting (pending : Nat)
    (h : drain fuel (.iter ⟨fromEachRedisValues values, inner.cmd.withCursor cursor⟩) script =
      .ok (some (items, rest, sent))) :
    drain (fuel + pending) (.future (.awaiting pending (.ok (scanReply cursor values)) inner)) script =
      .ok (some (items, rest, sent)) := by
  induction pending with
  | zero =>
    cases fuel with
    | zero => cases h
    | succ fuel =>
      have hpoll : (future (.awaiting 0 (.ok (scanReply cursor values)) inner)).pollNext script =
          (iter ⟨fromEachRedisValues values, inner.cmd.withCursor cursor⟩ : IterOrFuture α).pollNext script := by
        simp only [pollNext, pollFuture, NextItem.poll, receive_scanReply]
      exact drain_of_pollNext [] (pollNext_iter _ _) (hpoll.trans (pollNext_iter _ _)) h
  | succ pending ih =>
    rw [← Nat.add_assoc, drain]
    simp only [pollNext, pollFuture, NextItem.poll, bind, Except.bind, ih]
    rfl

theorem drain_request {c : Cmd} {cursor cursor' : UInt64} (hne : cursor ≠ 0) (pending : Nat)
    (h : drain fuel (.iter ⟨fromEachRedisValues values, c.withCursor cursor'⟩) script = .ok (some (items, rest, sent))) :
    drain (fuel + pending) (.iter ⟨[], c.withCursor cursor⟩) (⟨pending, .ok (scanReply cursor' values)⟩ :: script) =
      .ok (some (items, rest, c.withCursor cursor :: sent)) := by
  have hnot : (c.withCursor cursor).cursor.all (· == 0) = false := by
    simpa [CheckedIter.asks] using CheckedIter.asks_of_ne_zero (α := α) (c := c) hne
  cases pending with
  | zero =>
    cases fuel with
    | zero => cases h
    | succ fuel =>
      have hloop : NextItem.loop (⟨[], c.withCursor cursor⟩ : CheckedIter α) (⟨0, .ok (scanReply cursor' values)⟩ :: script) =
          ((NextItem.loop ⟨fromEachRedisValues values, c.withCursor cursor'⟩ script).1,
            (NextItem.loop (⟨fromEachRedisValues values, c.withCursor cursor'⟩ : CheckedIter α) script).2.1,
            c.withCursor cursor ::
              (NextItem.loop (⟨fromEachRedisValues values, c.withCursor cursor'⟩ : CheckedIter α) script).2.2) := by
        rw [NextItem.loop]
        simp only [hnot, Bool.false_eq_true, if_false, receive_scanReply]
        rfl
      refine drain_of_pollNext [c.withCursor cursor] (pollNext_iter _ _) ?_ h
      rw [pollNext_iter, hloop]
      rfl
  | succ pending =>
    have hpoll : (iter ⟨[], c.withCursor cursor⟩ : IterOrFuture α).pollNext
        (⟨pending + 1, .ok (scanReply cursor' values)⟩ :: script) =
          .ok (none, .future (.awaiting pending (.ok (scanReply cursor' values)) ⟨[], c.withCursor cursor⟩), script,
            [c.withCursor cursor]) := by
      simp [pollNext, pollFuture, NextItem.poll, NextItem.loop, hnot]
    rw [← Nat.add_assoc, drain, hpoll]
    have hawaiting := drain_awaiting ⟨[], c.withCursor cursor⟩ pending h
    simp only [bind, Except.bind, hawaiting]
    rfl

theorem drain_end (c : Cmd) (script : List Delayed) :
    drain 1 (.iter (⟨[], c.withCursor 0⟩ : CheckedIter α)) script = .ok (some ([], script, [])) := by
  cases script <;> rfl

theorem drain_script (s : ScanScript) (c : Cmd) (hne : cursor ≠ 0) (batch : List (ParseResult α))
    {script : List Delayed} (hscr : script.map Delayed.returned = s.replies.map .ok) :
    ∃ polls, drain polls (.iter ⟨batch, c.withCursor cursor⟩) script =
      .ok (some (batch.map toRedisResult ++ s.items α, [], (cursor :: s.cursors).map c.withCursor)) := by
  induction s generalizing cursor batch script with
  | last values =>
    obtain ⟨⟨pending, returned⟩, rest, rfl, rfl, hrest⟩ := map_eq_cons_iff.1 hscr
    obtain rfl := map_eq_nil_iff.1 hrest
    have hend := drain_batch (fromEachRedisValues values) (drain_end (α := α) c [])
    refine ⟨_, (drain_batch batch (drain_request hne pending hend)).trans ?_⟩
    simp [ScanScript.items, ScanScript.batches, ScanScript.cursors]
  | more cursor' hne' values s ih =>
    obtain ⟨⟨pending, returned⟩, rest, rfl, rfl, hrest⟩ := map_eq_cons_iff.1 hscr
    obtain ⟨polls, hpolls⟩ := ih hne' (fromEachRedisValues values) hrest
    refine ⟨_, (drain_batch batch (drain_request hne pending hpolls)).trans ?_⟩
    simp [ScanScript.items, ScanScript.batches, ScanScript.cursors]

end IterOrFuture

theorem Cmd.getPackedCommand_withCursor {c : Cmd} (h : .cursor ∈ c.args) (cursor : UInt64) :
    (c.withCursor cursor).getPackedCommand = writeCommand c.argsIter cursor.toNat := by
  have hne : (c.withCursor cursor).isEmpty = false := by
    rw [Cmd.isEmpty, isEmpty_eq_false_iff]
    exact ne_nil_of_mem h
  rw [Cmd.getPackedCommand, if_neg (by rw [hne]; exact Bool.false_ne_true)]
  rfl

def ScanScript.requests (s : ScanScript) (c : Cmd) : List Cmd := c :: s.cursors.map c.withCursor

theorem ScanScript.length_requests (s : ScanScript) (c : Cmd) : (s.requests c).length = s.replies.length := by
  induction s with
  | last values => rfl
  | more cursor h values rest ih =>
    simp only [requests, cursors, replies, map_cons, length_cons] at ih ⊢
    omega

/-- Both iterators send as many commands as there are replies, each with the cursor of the reply before, and yield the
items of all replies in their order; the asynchronous one after some number of polls, however long each reply takes. -/
theorem scan_iteration (c : Cmd) (h : Arg.cursor ∈ c.args) (s : ScanScript) :
    (s.requests c).length = s.replies.length ∧
    (s.requests c).tail.map Cmd.getPackedCommand = s.cursors.map (fun cursor => writeCommand c.argsIter cursor.toNat) ∧
    ∃ (first : Value) (later : List Value) (iter : CheckedIter α),
      s.replies = first :: later ∧ c.iterFrom (.ok first) = .ok iter ∧
      (∃ calls, iter.collect calls (later.map .ok) = some (s.items α, [], (s.requests c).tail)) ∧
      ∀ script : List Delayed, script.map Delayed.returned = later.map .ok →
        ∃ polls, (IterOrFuture.iter iter).drain polls script = .ok (some (s.items α, [], (s.requests c).tail)) := by
  refine ⟨s.length_requests c, ?_, ?_⟩
  · rw [ScanScript.requests, tail_cons, map_map]
    exact map_congr_left fun cursor _ => c.getPackedCommand_withCursor h cursor
  · cases s with
    | last values =>
      have hitems : (ScanScript.last values).items α = (fromEachRedisValues values).map toRedisResult ++ [] := by
        simp [ScanScript.items, ScanScript.batches]
      rw [hitems]
      refine ⟨_, _, _, rfl, iterFrom_scanReply c 0 values,
        ⟨_, CheckedIter.collect_batch _ (CheckedIter.collect_end c [])⟩, ?_⟩
      intro script hscript
      obtain rfl := map_eq_nil_iff.1 hscript
      exact ⟨_, IterOrFuture.drain_batch _ (IterOrFuture.drain_end c [])⟩
    | more cursor hne values rest =>
      have hitems : (ScanScript.more cursor hne values rest).items α =
          (fromEachRedisValues values).map toRedisResult ++ rest.items α := by
        simp [ScanScript.items, ScanScript.batches]
      rw [hitems]
      refine ⟨_, _, _, rfl, iterFrom_scanReply c cursor values, CheckedIter.collect_script rest c hne _, ?_⟩
      intro script hscript
      exact IterOrFuture.drain_script rest c hne _ hscript

theorem scan_iteration_two_replies :
    Arg.cursor ∈ ((cmd "SCAN").cursorArg 0).args ∧ ∃ (iter : CheckedIter Value) (calls : Nat),
      ((cmd "SCAN").cursorArg 0).iterFrom (.ok (scanReply 5 [.int 1])) = .ok iter ∧
      iter.collect calls [.ok (scanReply 0 [])] =
        some ([.ok (.int 1)], [], [((cmd "SCAN").cursorArg 0).withCursor 5]) := by
  have hcursor : Arg.cursor ∈ ((cmd "SCAN").cursorArg 0).args := by decide
  obtain ⟨-, -, first, later, iter, hreplies, hiter, ⟨calls, hcalls⟩, -⟩ :=
    scan_iteration (α := Value) ((cmd "SCAN").cursorArg 0) hcursor (.more 5 (by decide) [.int 1] (.last []))
  cases hreplies
  exact ⟨hcursor, iter, calls, hiter, hcalls⟩

end RedisRs
