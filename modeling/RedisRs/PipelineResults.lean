import RedisRs.ServerErrors

/-!
# The result of a pipeline
-/

namespace RedisRs

open List FromRedisValue

namespace Value

mutual

def errorsIn : Value → List ServerError
  | .array items | .set items | .push _ items => errorsInAll items
  | .map items => errorsInPairs items
  | .attribute data attributes => data.errorsIn ++ errorsInPairs attributes
  | .serverError err => [err]
  | _ => []

def errorsInAll : List Value → List ServerError
  | [] => []
  | v :: vs => v.errorsIn ++ errorsInAll vs

def errorsInPairs : List (Value × Value) → List ServerError
  | [] => []
  | (key, value) :: items => key.errorsIn ++ (value.errorsIn ++ errorsInPairs items)

end

end Value

def unlessRefused {α : Type} (errs : List ServerError) (a : α) : RedisResult α :=
  (errs.head?.map fun err => .error (.server err)).getD (.ok a)

section UnlessRefused

variable {α β : Type} {errs errs' : List ServerError} {a : α} {b : β}

theorem unlessRefused_map (f : α → β) : (unlessRefused errs a).map f = unlessRefused errs (f a) := by
  cases errs <;> rfl

theorem unlessRefused_bind_pure (f : α → β) : (unlessRefused errs a >>= fun a => pure (f a)) =
    unlessRefused errs (f a) := by
  cases errs <;> rfl

theorem unlessRefused_bind {k : α → RedisResult β} (h : k a = unlessRefused errs' b) :
    unlessRefused errs a >>= k = unlessRefused (errs ++ errs') b := by
  cases errs with
  | nil => exact h
  | cons err errs => rfl

end UnlessRefused

mutual

theorem Value.extractError_eq (v : Value) : v.extractError = unlessRefused v.errorsIn v := by
  cases v with
  | array items => rw [Value.extractError, Value.errorsIn, extractErrorVec_eq, unlessRefused_map]
  | map items => rw [Value.extractError, Value.errorsIn, extractErrorMap_eq, unlessRefused_map]
  | «attribute» data attributes =>
    rw [Value.extractError, Value.errorsIn, data.extractError_eq, extractErrorMap_eq]
    exact unlessRefused_bind (unlessRefused_bind_pure _)
  | set items => rw [Value.extractError, Value.errorsIn, extractErrorVec_eq, unlessRefused_map]
  | push kind data => rw [Value.extractError, Value.errorsIn, extractErrorVec_eq, unlessRefused_map]
  | _ => rfl

theorem extractErrorVec_eq (vs : List Value) : extractErrorVec vs = unlessRefused (Value.errorsInAll vs) vs := by
  cases vs with
  | nil => rfl
  | cons v vs =>
    rw [extractErrorVec, Value.errorsInAll, v.extractError_eq, extractErrorVec_eq vs]
    exact unlessRefused_bind (unlessRefused_bind_pure _)

theorem extractErrorMap_eq (items : List (Value × Value)) :
    extractErrorMap items = unlessRefused (Value.errorsInPairs items) items := by
  cases items with
  | nil => rfl
  | cons item items =>
    cases item with
    | mk key value =>
      rw [extractErrorMap, Value.errorsInPairs, key.extractError_eq, value.extractError_eq, extractErrorMap_eq items]
      exact unlessRefused_bind (unlessRefused_bind (unlessRefused_bind_pure _))

end

theorem Value.errorsInAll_eq (vs : List Value) : Value.errorsInAll vs = vs.flatMap Value.errorsIn := by
  induction vs with
  | nil => rfl
  | cons v vs ih => rw [Value.errorsInAll, ih, flatMap_cons]

namespace Pipeline

variable {α : Type} [FromRedisValue α]

def kept (p : Pipeline) (replies : List Value) : List Value :=
  ((List.range replies.length).filter (· ∉ p.ignoredCommands)).filterMap (replies[·]?)

/-- The result is composed of the replies kept, or of the errors among them. -/
structure Composes (p : Pipeline) (replies : List Value) (result : RedisResult α) : Prop where
  ignoreErrors : p.ignoreErrors = true → result = (fromRedisValue (.array (p.kept replies))).toRedisResult
  refused : p.ignoreErrors = false → (∃ v ∈ replies, v.isServerError = true) →
    ∃ errs : List (Nat × ServerError), result = .error (.pipeline errs) ∧ errs.Pairwise (·.1 < ·.1) ∧
      ∀ i e, (i, e) ∈ errs ↔ replies[i]? = some (.serverError e)
  nested : p.ignoreErrors = false → (∀ v ∈ replies, v.isServerError = false) →
    ∀ e, ((p.kept replies).flatMap Value.errorsIn).head? = some e → result = .error (.server e)
  converted : p.ignoreErrors = false → (∀ v ∈ replies, v.isServerError = false) →
    (∀ v ∈ p.kept replies, v.errorsIn = []) → result = (fromRedisValue (.array (p.kept replies))).toRedisResult

/-- The stream answers the commands with these replies, in a transaction by `EXEC` and without an error before. -/
def AnsweredBy (p : Pipeline) (replies stream : List Value) : Prop :=
  if p.transactionMode then
    Answers (p.commands.length + 2) stream ∧ (∀ v ∈ stream.take (p.commands.length + 1), v.isServerError = false) ∧
      stream.getLast? = some (.array replies)
  else p.commands ≠ [] ∧ Answers p.commands.length stream ∧ replyPart stream = replies

variable (p : Pipeline) (replies : List Value)

theorem kept_concat (v : Value) :
    p.kept (replies ++ [v]) = p.kept replies ++ if replies.length ∈ p.ignoredCommands then [] else [v] := by
  have hbef : ((List.range replies.length).filter (· ∉ p.ignoredCommands)).filterMap ((replies ++ [v])[·]?) =
      p.kept replies := by
    refine filterMap_congr fun i hi => ?_
    exact getElem?_append_left (mem_range.1 (mem_filter.1 hi).1)
  rw [kept, length_append, length_singleton, range_succ, filter_append, filterMap_append, hbef]
  split_ifs with hignored <;> simp [hignored]

theorem kept_of_ignoredCommands_empty {p : Pipeline} (h : p.ignoredCommands = ∅) (replies : List Value) :
    p.kept replies = replies := by
  induction replies using List.reverseRecOn with
  | nil => rfl
  | append_singleton replies v ih => rw [kept_concat, ih, h, if_neg (Finset.notMem_empty _)]

theorem filterIgnoredResults_eq : p.filterIgnoredResults replies = p.kept replies := by
  rw [filterIgnoredResults]
  split_ifs with hnone
  · exact (kept_of_ignoredCommands_empty hnone replies).symm
  · induction replies using List.reverseRecOn with
    | nil => rfl
    | append_singleton replies v ih =>
      rw [zipIdx_append, filterMap_append, ih, kept_concat, Nat.zero_add]
      split_ifs with hignored <;> simp [hignored]

theorem serverErrors_pairwise : (serverErrors replies).Pairwise (·.1 < ·.1) := by
  have hidx : replies.zipIdx.Pairwise (·.2 < ·.2) := by
    rw [← pairwise_map, zipIdx_map_snd]
    exact pairwise_lt_range'
  rw [serverErrors, pairwise_filterMap]
  refine hidx.imp fun {entry entry'} hlt b hb b' hb' => ?_
  rcases entry with ⟨v, i⟩
  rcases entry' with ⟨v', i'⟩
  cases v with
  | serverError err =>
    cases v' with
    | serverError err' =>
      cases hb
      cases hb'
      exact hlt
    | _ => cases hb'
  | _ => cases hb

theorem composeResponse_composes : p.Composes replies (p.composeResponse replies : RedisResult α) := by
  have hval : (Value.array (p.kept replies)).errorsIn = (p.kept replies).flatMap Value.errorsIn :=
    Value.errorsInAll_eq _
  rw [composeResponse, filterIgnoredResults_eq, Value.extractError_eq, hval]
  constructor
  · intro hp
    rw [if_pos hp]
  · rintro hp ⟨v, hv, herr⟩
    have hne : serverErrors replies ≠ [] := by
      intro hnil
      rw [serverErrors_eq_nil_iff.1 hnil v hv] at herr
      cases herr
    rw [hp, if_neg Bool.false_ne_true, if_neg hne]
    exact ⟨_, rfl, serverErrors_pairwise replies, fun i e => mem_serverErrors⟩
  · intro hp hnone e he
    rw [hp, if_neg Bool.false_ne_true, if_pos (serverErrors_eq_nil_iff.2 hnone), unlessRefused, he]
    rfl
  · intro hp hnone hclean
    have hnil : (p.kept replies).flatMap Value.errorsIn = [] := flatMap_eq_nil_iff.2 hclean
    rw [hp, if_neg Bool.false_ne_true, if_pos (serverErrors_eq_nil_iff.2 hnone), hnil]
    rfl

section Query

variable {p : Pipeline} {con : Connection} {replies stream : List Value}

theorem query_composes_of_commands (hcon : con.Idle) (hmode : p.transactionMode = false) (hcmds : p.commands ≠ [])
    (hans : Answers p.commands.length stream) (rest : Wire) :
    ∃ (result : RedisResult α) (con' : Connection),
      p.query con (stream.map .ok ++ rest) = some (.ok result, con', rest) ∧ p.Composes (replyPart stream) result := by
  have hlen : (replyPart stream).length = 0 + p.commands.length := hans.length.trans (Nat.zero_add _).symm
  obtain ⟨con', hrun⟩ := Connection.reqPackedCommands_stream hcon (encodePipeline_ne_nil (.inl hcmds)) hlen
    hans.endsWithReply (fun _ hpos => absurd hpos (Nat.lt_irrefl 0)) rest
  rw [refusals_eq_nil_of_le (Nat.le_refl 0), drop_zero] at hrun
  refine ⟨_, con', ?_, p.composeResponse_composes (replyPart stream)⟩
  rw [query, hmode, if_neg Bool.false_ne_true, hrun]
  simp [reportedErrors, packedResult, completeRequest, hmode, Except.map, Except.bind]

theorem query_composes_of_transaction (hcon : con.Idle) (hmode : p.transactionMode = true)
    (hans : Answers (p.commands.length + 2) stream)
    (hqd : ∀ v ∈ stream.take (p.commands.length + 1), v.isServerError = false)
    (hexec : stream.getLast? = some (.array replies)) (rest : Wire) :
    ∃ (result : RedisResult α) (con' : Connection),
      p.query con (stream.map .ok ++ rest) = some (.ok result, con', rest) ∧ p.Composes replies result := by
  have hfirst : ∀ v ∈ stream.head?, v.isServerError = false := by
    intro v hv
    refine hqd v (mem_of_mem_head? ?_)
    rwa [head?_take, if_neg (Nat.succ_ne_zero _)]
  obtain ⟨con', hrun⟩ := query_of_accepted (α := α) hcon hmode hans hfirst rest
  have hlast := getLast?_replyPart_drop hans.endsWithReply hans.le_length
  rw [hexec] at hlast
  refine ⟨_, con', hrun, ?_⟩
  rw [packedResult, if_neg (not_not_intro (reportedErrors_eq_nil_iff.2 hqd))]
  show p.Composes replies (p.completeRequest _ : RedisResult α)
  rw [completeRequest, hmode, if_pos rfl, hlast]
  exact p.composeResponse_composes replies

end Query

/-- A pipeline composes its result from the replies, and so does a query that sends something. -/
theorem query_composes (p : Pipeline) (replies : List Value) :
    (p.transactionMode = false → p.Composes replies (p.completeRequest replies : RedisResult α)) ∧
      (p.transactionMode = true → p.Composes replies (p.completeRequest [.array replies] : RedisResult α)) ∧
      ∀ con : Connection, con.Idle → ∀ stream : List Value, p.AnsweredBy replies stream → ∀ rest : Wire,
        ∃ (result : RedisResult α) (con' : Connection),
          p.query con (stream.map .ok ++ rest) = some (.ok result, con', rest) ∧ p.Composes replies result := by
  refine ⟨fun hmode => ?_, fun hmode => ?_, fun con hcon stream hanswered rest => ?_⟩
  · rw [completeRequest, hmode, if_neg Bool.false_ne_true]
    exact p.composeResponse_composes replies
  · rw [completeRequest, hmode, if_pos rfl]
    exact p.composeResponse_composes replies
  · rw [AnsweredBy] at hanswered
    split_ifs at hanswered with hmode
    · obtain ⟨hanswers, hqueued, hexec⟩ := hanswered
      exact query_composes_of_transaction hcon hmode hanswers hqueued hexec rest
    · obtain ⟨hcommands, hanswers, rfl⟩ := hanswered
      exact query_composes_of_commands hcon (Bool.eq_false_iff.2 hmode) hcommands hanswers rest

theorem query_composes_ping :
    ∃ (result : RedisResult (List Value)) (con' : Connection),
      (Pipeline.new.addCommand (cmd "PING")).query (.fresh .resp3) [.ok .okay] = some (.ok result, con', []) ∧
        (Pipeline.new.addCommand (cmd "PING")).Composes [.okay] result :=
  (query_composes (Pipeline.new.addCommand (cmd "PING")) [.okay]).2.2 (.fresh .resp3) (Connection.fresh_idle .resp3)
    [.okay] ⟨cons_ne_nil _ _, ⟨rfl, fun _ hv => Option.some.inj hv ▸ rfl⟩, rfl⟩ []

theorem query_of_no_commands :
    (Pipeline.new.query (.fresh .resp3) [] : Option (Ends (RedisResult (List Value)) × _)) =
        some (.ok (.error .makeEmptyCommand), .fresh .resp3, []) ∧
      ¬ Pipeline.new.Composes [] (.error .makeEmptyCommand : RedisResult (List Value)) := by
  refine ⟨rfl, fun h => ?_⟩
  cases h.converted rfl (by simp) (by simp [kept])

end Pipeline

end RedisRs
