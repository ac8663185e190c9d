import RedisRs.Multiplexing

/-!
# The errors of a transaction
-/

namespace RedisRs

open List

structure TransactionReplies (n : Nat) where
  multi : Value
  queued : List Value
  exec : Value
  length_queued : queued.length = n
  multi_isPush : multi.isPush = false
  queued_isPush : ∀ v ∈ queued, v.isPush = false
  exec_isPush : exec.isPush = false

namespace TransactionReplies

variable {n : Nat}

def values (t : TransactionReplies n) : List Value := t.multi :: (t.queued ++ [t.exec])

variable (t : TransactionReplies n)

theorem isPush_eq_false : ∀ v ∈ t.values, v.isPush = false := by
  intro v hv
  rcases mem_cons.1 hv with rfl | hv
  · exact t.multi_isPush
  · rcases mem_append.1 hv with hv | hv
    · exact t.queued_isPush v hv
    · rw [mem_singleton.1 hv]
      exact t.exec_isPush

theorem length_values : t.values.length = n + 1 + 1 := by
  simp [values, t.length_queued]

theorem drop_values : t.values.drop (n + 1) = [t.exec] := by
  rw [values, drop_succ_cons, drop_left' t.length_queued]

theorem firstAccepted (h : t.multi.isServerError = false) (offset : Nat) : FirstAccepted offset 0 t.values := by
  rintro _ _ v ⟨⟩
  exact h

def errors (t : TransactionReplies n) : List (Nat × ServerError) :=
  reportedErrors (refusals (n + 1) 0 t.values)

theorem mem_errors (h : t.multi.isServerError = false) {i : Nat} {err : ServerError} :
    (i, err) ∈ t.errors ↔ t.queued[i]? = some (.serverError err) := by
  have hmem : ∀ k, (k, err) ∈ refusals (n + 1) 0 t.values ↔
      ∃ i, k = i + 1 ∧ t.queued[i]? = some (.serverError err) := by
    intro k
    rw [mem_refusals]
    constructor
    · rintro ⟨_ | j, rfl, hlt, hv⟩
      · rw [Option.some.inj hv] at h
        cases h
      · rw [values, getElem?_cons_succ, getElem?_append_left (by rw [t.length_queued]; omega)] at hv
        exact ⟨j, Nat.zero_add _, hv⟩
    · rintro ⟨i, rfl, hv⟩
      have hlt := (List.getElem?_eq_some_iff.1 hv).1
      refine ⟨i + 1, (Nat.zero_add _).symm, by rw [t.length_queued] at hlt; omega, ?_⟩
      rw [values, getElem?_cons_succ, getElem?_append_left hlt]
      exact hv
  rw [errors, reportedErrors, mem_map]
  constructor
  · rintro ⟨⟨k, err'⟩, hk, heq⟩
    obtain ⟨rfl, rfl⟩ := Prod.mk.inj heq
    obtain ⟨i, rfl, hv⟩ := (hmem k).1 hk
    exact hv
  · intro hv
    exact ⟨(i + 1, err), (hmem _).2 ⟨i, rfl, hv⟩, rfl⟩

theorem exists_mem_errors (h : t.multi.isServerError = false) {err : ServerError} :
    (∃ i, (i, err) ∈ t.errors) ↔ .serverError err ∈ t.queued := by
  rw [mem_iff_getElem?]
  exact exists_congr fun i => t.mem_errors h

theorem errors_eq_nil_iff (h : t.multi.isServerError = false) :
    t.errors = [] ↔ ∀ v ∈ t.queued, v.isServerError = false :=
  eq_nil_iff_of_errors fun _ => t.exists_mem_errors h

theorem errors_pairwise (h : t.multi.isServerError = false) : t.errors.Pairwise fun a b => a.1 < b.1 := by
  have hone := one_le_of_mem_refusals (t.firstAccepted h (n + 1))
  refine pairwise_map.2 (List.Pairwise.imp_of_mem ?_ (refusals_pairwise (n + 1) 0 t.values))
  intro a b ha hb hlt
  have := hone a ha
  show a.1 - 1 < b.1 - 1
  omega

end TransactionReplies

/-- An aborted transaction that lists just the refused commands in order, or what `EXEC` returned if there are none.
-/
def NamesRefused (p : Pipeline) (t : TransactionReplies p.commands.length) (r : RedisResult (List Value)) : Prop :=
  (∃ errs, r = .error (.makeAbortedTransaction errs) ∧ errs ≠ [] ∧ (errs.Pairwise fun a b => a.1 < b.1) ∧
    (∀ e ∈ errs, e.1 < p.commands.length) ∧
    ∀ i err, (i, err) ∈ errs ↔ t.queued[i]? = some (.serverError err)) ∨
  (r = .ok [t.exec] ∧ ∀ v ∈ t.queued, v.isServerError = false)

def transactionMessage (p : Pipeline) (output : Output) : PipelineMessage where
  input := p.getPackedPipeline
  output := some output
  expectation := some ⟨p.commands.length + 1, 1, true, 0⟩

/-- Both connections read all the replies and return the same result, which names the refused commands. -/
def NamedAlike {κ : Type} [HandlesPush κ] (con : Connection) (sink : PipelineSink κ) (output : Output)
    (p : Pipeline) (t : TransactionReplies p.commands.length) : Prop :=
  ∃ r, NamesRefused p t r ∧
    (∃ con', con.reqPackedCommands p.getPackedPipeline (p.commands.length + 1) 1 (t.values.map .ok) =
      some (.ok r, con', [])) ∧
    ∃ sink', (sink.startSend (fun _ => false) (transactionMessage p output)).2.1.sendResults t.values =
      .ok (sink', [(output, r.map .array)])

theorem ErrorOrErrors.response_errors (errs : List (Nat × ServerError)) (buffer : List Value) :
    ErrorOrErrors.response (.errors errs) buffer = (packedResult errs buffer).map .array := by
  cases errs <;> rfl

theorem namesRefused_packedResult {p : Pipeline} (t : TransactionReplies p.commands.length)
    (h : t.multi.isServerError = false) : NamesRefused p t (packedResult t.errors [t.exec]) := by
  by_cases hnil : t.errors = []
  · exact .inr ⟨by rw [packedResult, if_neg (not_not_intro hnil)], (t.errors_eq_nil_iff h).1 hnil⟩
  · refine .inl ⟨t.errors, by rw [packedResult, if_pos hnil], hnil, t.errors_pairwise h, ?_,
      fun i err => t.mem_errors h⟩
    rintro ⟨i, err⟩ he
    have hlt := (List.getElem?_eq_some_iff.1 ((t.mem_errors h).1 he)).1
    rw [t.length_queued] at hlt
    exact hlt

section

variable {κ : Type} {con : Connection} {sink : PipelineSink κ} {p : Pipeline}

theorem sync_transaction (hcon : con.Idle) (hp : p.transactionMode = true)
    (t : TransactionReplies p.commands.length) (h : t.multi.isServerError = false) :
    ∃ con', con.reqPackedCommands p.getPackedPipeline (p.commands.length + 1) 1 (t.values.map .ok) =
      some (.ok (packedResult t.errors [t.exec]), con', []) := by
  have hlen : (replyPart t.values).length = p.commands.length + 1 + 1 := by
    rw [replyPart_eq_self t.isPush_eq_false, t.length_values]
  have hend : EndsWithReply t.values := fun v hv => t.isPush_eq_false v (mem_of_getLast? hv)
  obtain ⟨con', hrun⟩ := Connection.reqPackedCommands_stream hcon (encodePipeline_ne_nil (.inr hp)) hlen hend
    (t.firstAccepted h _) []
  refine ⟨con', ?_⟩
  rw [append_nil, t.drop_values, replyPart_cons_reply t.exec_isPush] at hrun
  exact hrun

theorem startSend_transaction (hsink : sink.Sound) (hq : sink.inFlight = []) (output : Output) (p : Pipeline) :
    (sink.startSend (fun _ => false) (transactionMessage p output)).2.1.inFlight =
      [⟨some output, .seeing (p.commands.length + 1) 1 true []⟩] := by
  rw [PipelineSink.startSend_open hsink rfl]
  simp only [hq, nil_append]
  rfl

variable [HandlesPush κ]

theorem multiplexed_transaction (hsink : sink.Sound) (hq : sink.inFlight = []) (output : Output)
    (t : TransactionReplies p.commands.length) (h : t.multi.isServerError = false) :
    ∃ sink', (sink.startSend (fun _ => false) (transactionMessage p output)).2.1.sendResults t.values =
      .ok (sink', [(output, (packedResult t.errors [t.exec]).map .array)]) := by
  have hne : t.values ≠ [] := cons_ne_nil _ _
  have hrun := PipelineSink.sendResults_pipeline (startSend_transaction hsink hq output p) (Nat.le_refl 1)
    hne (by rw [length_nil, t.length_values]; omega) t.isPush_eq_false
    fun _ => t.firstAccepted h _
  rw [ResponseAggregate.pipelineResponse, ErrorOrErrors.response_errors, nil_append, t.drop_values] at hrun
  exact ⟨_, hrun⟩

/-- Blocking and multiplexed connection alike name the refused commands of a transaction, exactly when
`MULTI` is not refused. -/
theorem transaction_errors_iff (hcon : con.Idle) (hsink : sink.Sound) (hq : sink.inFlight = [])
    (output : Output) (hp : p.transactionMode = true) (t : TransactionReplies p.commands.length) :
    NamedAlike con sink output p t ↔ t.multi.isServerError = false := by
  constructor
  · rintro ⟨r, -, ⟨_, hrun⟩, -⟩
    by_contra herr
    obtain ⟨err, herr⟩ := Value.isServerError_iff.1 (Bool.eq_true_of_not_eq_false herr)
    obtain ⟨_, hpanic⟩ := Connection.reqPackedCommands_first_refused hcon (encodePipeline_ne_nil (.inr hp))
      (Nat.succ_pos p.commands.length) 1 err ((t.queued ++ [t.exec]).map .ok)
    rw [TransactionReplies.values, herr, map_cons, Pipeline.getPackedPipeline, hpanic] at hrun
    cases hrun
  · intro h
    exact ⟨_, namesRefused_packedResult t h, sync_transaction hcon hp t h,
      multiplexed_transaction hsink hq output t h⟩

def incrPipeline : Pipeline :=
  (Pipeline.new.addCommand (Cmd.ofArgs [bytesOf "INCR", bytesOf "counter"])).atomic

def outOfMemory : ServerError := .known .responseError (some "OOM")

def refusedReplies : TransactionReplies incrPipeline.commands.length where
  multi := .okay
  queued := [.serverError outOfMemory]
  exec := .serverError (.known .execAbort none)
  length_queued := rfl
  multi_isPush := Value.isPush_okay
  queued_isPush := by
    intro v hv
    rw [mem_singleton.1 hv]
    rfl
  exec_isPush := rfl

theorem refused_command_named :
    NamedAlike (.fresh .resp3) (.new none none : PipelineSink Unit) 0 incrPipeline refusedReplies :=
  (transaction_errors_iff (Connection.fresh_idle .resp3) (PipelineSink.new_sound none none) rfl 0 rfl _).2 rfl

def loadingReplies : TransactionReplies incrPipeline.commands.length where
  multi := .serverError (.known .busyLoading none)
  queued := [.serverError (.known .busyLoading none)]
  exec := .serverError (.known .busyLoading none)
  length_queued := rfl
  multi_isPush := rfl
  queued_isPush := by
    intro v hv
    rw [mem_singleton.1 hv]
    rfl
  exec_isPush := rfl

theorem refused_multi_panics :
    (∃ con' rest, (Connection.fresh .resp3).reqPackedCommands incrPipeline.getPackedPipeline 2 1
        (loadingReplies.values.map .ok) = some (.error .subtractWithOverflow, con', rest)) ∧
    ((PipelineSink.new none none : PipelineSink Unit).startSend (fun _ => false)
        (transactionMessage incrPipeline 0)).2.1.sendResults loadingReplies.values =
      .error .subtractWithOverflow ∧
    ¬ NamedAlike (.fresh .resp3) (.new none none : PipelineSink Unit) 0 incrPipeline loadingReplies := by
  refine ⟨⟨_, _, rfl⟩, rfl, ?_⟩
  rintro ⟨r, -, ⟨_, h⟩, -⟩
  cases h

end

end RedisRs
