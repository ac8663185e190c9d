import RedisRs.ConnectionManager

/-!
# Which connections the manager replaces
-/

namespace RedisRs

open Run

/-- The future has resolved to an error, or to a connection that has been lost. -/
def ConnectionFuture.HasFailed (future : ConnectionFuture) : Prop :=
  (∃ err, future.stage = .failed err) ∨ future.stage = .ready ∧ future.lost = true

namespace ConnectionManager

def Failed (m : ConnectionManager) (i : Nat) : Prop := ∃ future, m.futures[i]? = some future ∧ future.HasFailed

/-- The step reports the loss of the current connection or of the one a command was sent to. -/
def Reported (m : ConnectionManager) : ManagerStep → Prop
  | .readPush => m.Failed m.connection
  | .fail j err _ => err.isUnrecoverableError = true → ∀ call ∈ m.calls j, m.Failed call.guard
  | _ => True

theorem Failed.moves {m m' : ConnectionManager} {a : ManagerStep} {out : Option CallResult} {i : Nat} (h : m.Failed i)
    (hm : m.Moves a out m') : m'.Failed i := by
  obtain ⟨future, hi, hfail⟩ := h
  obtain ⟨future', hi', hstage, hlost⟩ := future_of_moves hm hi
  refine ⟨future', hi', ?_⟩
  rcases hfail with ⟨err, herr⟩ | ⟨hready, hgone⟩
  · exact .inl ⟨err, (hstage (by rw [herr]; rfl)).trans herr⟩
  · exact .inr ⟨(hstage (by rw [hready]; rfl)).trans hready, hlost hgone⟩

/-- The futures that `reconnect` will be called with have failed. -/
structure Founded (m : ConnectionManager) : Prop where
  handling : ∀ current ∈ m.handling, m.Failed current
  calls : ∀ {j call}, m.calls j = some call → call.phase.reconnects = true → m.Failed call.guard

section Swaps

variable {m m' : ConnectionManager} {a : ManagerStep} {out : Option CallResult}

theorem connection_of_moves (hm : m.Moves a out m') :
    m'.connection = m.connection ∨ m'.connection = m.futures.length ∧
      (m.handling = some m.connection ∨
        ∃ j call, m.calls j = some call ∧ call.phase.reconnects = true ∧ call.guard = m.connection) := by
  cases hm with
  | reconnectOnPush hhand =>
    rename_i current
    show (m.reconnect current).connection = m.connection ∨ (m.reconnect current).connection = m.futures.length ∧ _
    rw [reconnect_connection]
    by_cases hc : m.connection = current
    · rw [if_pos hc, hc]
      exact .inr ⟨rfl, .inl hhand⟩
    · rw [if_neg hc]
      exact .inl rfl
  | giveUp hj hphase =>
    rename_i j call err
    by_cases hr : call.phase.reconnects = true
    · rw [if_pos hr, reconnect_connection]
      by_cases hc : m.connection = call.guard
      · refine .inr ⟨if_pos hc, .inr ⟨j, call, hj, hr, hc.symm⟩⟩
      · exact .inl (if_neg hc)
    · rw [if_neg hr]
      exact .inl rfl
  | updateTracker hj hphase => exact .inl (updateSubscriptionTracker_connection _ _)
  | _ => exact .inl rfl

theorem Founded.failed_of_swap (h : m.Founded) (hm : m.Moves a out m') (hswap : m'.connection ≠ m.connection) :
    m.Failed m.connection := by
  rcases (connection_of_moves hm).resolve_left hswap with ⟨-, hhand | ⟨j, call, hcall, hr, hguard⟩⟩
  · exact h.handling _ hhand
  · rw [← hguard]
    exact h.calls hcall hr

theorem Founded.moves (h : m.Founded) (hreported : m.Reported a) (hm : m.Moves a out m') : m'.Founded := by
  have hkeep : ∀ {i}, m.Failed i → m'.Failed i := fun hi => hi.moves hm
  have hhand : ∀ current ∈ m.handling, m'.Failed current := fun current hc => hkeep (h.handling current hc)
  have hcalls : ∀ {k call}, m.calls k = some call → call.phase.reconnects = true → m'.Failed call.guard :=
    fun hcall hr => hkeep (h.calls hcall hr)
  -- the calls after a step that changes one of them
  have hset : ∀ {j : Nat} {new : Option ManagerCall},
      (∀ call ∈ new, call.phase.reconnects = true → m'.Failed call.guard) →
      ∀ {k call}, Function.update m.calls j new k = some call → call.phase.reconnects = true →
        m'.Failed call.guard := by
    intro j new hnew k call hcall hr
    rcases of_update_eq_some hcall with ⟨-, hcall⟩ | hcall
    · exact hnew call hcall hr
    · exact hcalls hcall hr
  have hend : ∀ call ∈ (none : Option ManagerCall), call.phase.reconnects = true → m'.Failed call.guard :=
    fun _ hcall => by cases hcall
  cases hm with
  | load request hj =>
    refine ⟨hhand, hset fun call hcall hr => ?_⟩
    cases hcall
    cases hr
  | readPush hpush =>
    refine ⟨fun current hc => ?_, hcalls⟩
    cases hc
    exact hreported
  | reconnectOnPush hhand' =>
    rename_i current
    refine ⟨fun _ hc => (by cases hc), fun {k call} hcall => hcalls (k := k) ?_⟩
    rw [← reconnect_calls m current]
    exact hcall
  | refuse hj hphase hi hstage =>
    refine ⟨hhand, hset fun call hcall _ => ?_⟩
    cases hcall
    exact ⟨_, hi, .inl ⟨_, hstage⟩⟩
  | answer hj hphase hi hstage hlost happly =>
    refine ⟨hhand, hset fun call hcall hr => ?_⟩
    cases hcall
    cases hr
  | fail err applied hj hphase hi hstage =>
    refine ⟨hhand, hset fun call hcall hr => ?_⟩
    cases hcall
    have hfail := hreported hr _ hj
    exact hkeep hfail
  | updateTracker hj hphase =>
    rename_i j call
    refine ⟨fun current hc => hhand current ?_, fun {k call'} hcall => hset (j := j) hend (k := k) ?_⟩
    · rw [← updateSubscriptionTracker_handling m call.request]
      exact hc
    · rw [← updateSubscriptionTracker_calls m call.request]
      exact hcall
  | giveUp hj hphase =>
    rename_i j call err
    have hsame : (if call.phase.reconnects then (m.endCall j).reconnect call.guard else m.endCall j).handling =
          m.handling ∧
        (if call.phase.reconnects then (m.endCall j).reconnect call.guard else m.endCall j).calls =
          Function.update m.calls j none := by
      split
      · exact ⟨reconnect_handling _ _, reconnect_calls _ _⟩
      · exact ⟨rfl, rfl⟩
    refine ⟨fun current hc => hhand current (hsame.1 ▸ hc), fun {k call'} hcall => hset (j := j) hend (k := k) ?_⟩
    rw [← hsame.2]
    exact hcall
  | _ => exact ⟨hhand, hcalls⟩

theorem newLazy_founded (resubscribeAutomatically pushSender : Bool) :
    (newLazy resubscribeAutomatically pushSender).Founded :=
  ⟨fun _ hc => (by cases hc), fun hcall => (by cases hcall)⟩

def CurrentIsLast (m : ConnectionManager) : Prop := m.futures.length = m.connection + 1

theorem CurrentIsLast.reconnect (h : m.CurrentIsLast) (current : Nat) : (m.reconnect current).CurrentIsLast := by
  unfold ConnectionManager.reconnect
  split
  · exact List.length_append
  · exact h

theorem CurrentIsLast.moves (h : m.CurrentIsLast) (hm : m.Moves a out m') : m'.CurrentIsLast := by
  have hset : ∀ {i : Nat} {future : ConnectionFuture}, (m.setFuture i future).CurrentIsLast := List.length_set.trans h
  cases hm with
  | load request hj => exact h
  | readPush hpush => exact h
  | reconnectOnPush hhand => exact h.reconnect _
  | refuse hj hphase hi hstage => exact h
  | updateTracker hj hphase =>
    rename_i j call
    rcases call with ⟨_ | _, _, _⟩ <;> exact h
  | giveUp hj hphase =>
    split
    · exact CurrentIsLast.reconnect (m := m.endCall _) h _
    · exact h
  | _ => exact hset

end Swaps

/-- If every report is about the current connection or the one a command was sent to, then all that is swapped out has
failed. No future is swapped out twice. A push that is read swaps out whatever is current, unless another swap comes
between. -/
theorem swaps_out_failed_futures (resubscribeAutomatically pushSender : Bool) (steps : List ManagerStep) :
    (Along step (fun m a _ _ => m.Reported a) (newLazy resubscribeAutomatically pushSender) steps →
      Along step (fun m _ _ m' => m'.connection ≠ m.connection → m.Failed m.connection)
        (newLazy resubscribeAutomatically pushSender) steps) ∧
    Along step (fun m _ _ m' => m'.connection = m.connection ∨ m.connection < m'.connection)
      (newLazy resubscribeAutomatically pushSender) steps ∧
    (∀ outs m, run step (newLazy resubscribeAutomatically pushSender) steps = some (outs, m) → m.handling = none →
      m.pushes ≠ [] → ∃ m', run step m [.readPush, .reconnectOnPush] = some ([none, none], m') ∧
        m.connection < m'.connection) := by
  refine ⟨?_, ?_, ?_⟩
  · refine along_mono (fun m a out m' hm hstep hreported => ?_) (newLazy_founded _ _)
    have hmoves := moves_of_step hstep
    exact ⟨hm.failed_of_swap hmoves, hm.moves hreported hmoves⟩
  · refine along_of_inv (fun m a out m' hm hstep => ?_) (show CurrentIsLast (newLazy _ _) from rfl) steps
    have hmoves := moves_of_step hstep
    refine ⟨(connection_of_moves hmoves).imp id fun hswap => ?_, hm.moves hmoves⟩
    rw [hswap.1, hm]
    exact Nat.lt_succ_self _
  · intro outs m hrun hhandling hpushes
    have hlast : m.CurrentIsLast := run_inv (C := fun _ => True)
      (fun _ _ _ _ hm _ hstep => hm.moves (moves_of_step hstep)) (show CurrentIsLast (newLazy _ _) from rfl)
      (fun _ _ => trivial) hrun
    obtain ⟨push, pushes, hpushes⟩ := List.exists_cons_of_ne_nil hpushes
    have hread : m.step .readPush = some (none, { m with pushes, handling := some m.connection }) := by
      simp only [step, hhandling, hpushes]
    have hlt : m.connection <
        (({ m with pushes, handling := some m.connection } : ConnectionManager).reconnect m.connection).connection := by
      rw [reconnect_connection, if_pos rfl]
      show m.connection < m.futures.length
      rw [hlast]
      exact Nat.lt_succ_self _
    refine ⟨{ ConnectionManager.reconnect { m with pushes, handling := some m.connection } m.connection with
      handling := none }, ?_, hlt⟩
    simp only [run, hread, Option.bind_eq_bind, Option.bind_some]
    rfl

def lossSteps (iter : SetOrder) : List ManagerStep :=
  [.snapshot 0 iter, .connect 0 (.ok ()), .load 0 .command, .lose 0, .fail 0 closedConnectionError false, .giveUp 0,
    .snapshot 1 iter, .connect 1 (.ok ())]

theorem lossSteps_swap_out_failed :
    Nonempty SetOrder ∧ ∀ iter,
      Along step (fun m _ _ m' => m'.connection ≠ m.connection → m.Failed m.connection) (newLazy false true)
        (lossSteps iter) := by
  refine ⟨SetOrder.nonempty, fun iter => ?_⟩
  refine (swaps_out_failed_futures false true (lossSteps iter)).1 ?_
  refine along_cons rfl trivial (along_cons rfl trivial (along_cons rfl trivial (along_cons rfl trivial
    (along_cons rfl (fun _ call hcall => ?_) ?_))))
  · -- the connection of the call has been lost
    cases hcall
    exact ⟨_, rfl, .inr ⟨rfl, rfl⟩⟩
  · exact along_cons rfl trivial (along_cons rfl trivial (along_cons rfl trivial trivial))

theorem late_push_swaps_out_healthy_connection :
    Nonempty SetOrder ∧ ∀ iter, ∃ outs m,
      run step (newLazy false true) (lossSteps iter ++ [.notify 0]) = some (outs, m) ∧ m.connection = 1 ∧
        (∃ future, m.futures[1]? = some future ∧ future.stage = .ready ∧ future.lost = false) ∧
        ∃ m', run step m [.readPush, .reconnectOnPush] = some ([none, none], m') ∧ m'.connection = 2 :=
  ⟨SetOrder.nonempty, fun _ => ⟨_, _, rfl, rfl, ⟨_, rfl, rfl, rfl⟩, _, rfl, rfl⟩⟩

end ConnectionManager

end RedisRs
