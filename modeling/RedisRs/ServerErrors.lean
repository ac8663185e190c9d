import RedisRs.PackedReplies
import RedisRs.Queries

/-!
# What becomes of an error reply
-/

namespace RedisRs

open List FromRedisValue

def RedisError.intoServerErrors : RedisError → Option (List (Nat × ServerError))
  | .pipeline items => some items
  | .transactionAborted errs => some errs
  | .server err => some [(0, err)]
  | _ => none

/-- The error has this error of the server in it. -/
def RedisError.Carries (err : RedisError) (e : ServerError) : Prop :=
  ∃ errs i, err.intoServerErrors = some errs ∧ (i, e) ∈ errs

/-- What the connection returns for an error reply: a value, or an error that has it. -/
def HandsOver (reply : RedisResult Value) (e : ServerError) : Prop :=
  reply = .ok (.serverError e) ∨ ∃ err : RedisError, reply = .error err ∧ err.Carries e

/-- The messages that come in while `n` replies are awaited: the replies, with pushes before them. -/
structure Answers (n : Nat) (stream : List Value) : Prop where
  length : (replyPart stream).length = n
  endsWithReply : EndsWithReply stream

inductive Inquiry (α : Type)
  | query (cmd : Cmd) (reply : RedisResult Value)
  /-- `Cmd::iter` and `Cmd::iter_async`, with the reply to the first request. -/
  | iter (cmd : Cmd) (reply : RedisResult Value)
  | next (iter : CheckedIter α) (replies : List (RedisResult Value))
  | pipeline (p : Pipeline) (stream : List Value)
  | transaction (p : Pipeline) (stream : List Value)

/-- The error is one of the results, or if none is an error, within one that is not ignored. -/
def Pipeline.Reports (p : Pipeline) (items : List Value) (e : ServerError) : Prop :=
  .serverError e ∈ items ∨ (∀ v ∈ items, v.isServerError = false) ∧
    ∃ err : RedisError, (Value.array (p.filterIgnoredResults items)).extractError = .error err ∧ err.Carries e

namespace Inquiry

variable {α : Type} (fromEachRedisValues : List Value → List (ParseResult α))

/-- The server answers a request of the call with this error; in a transaction, a command or `EXEC`. -/
def Gives (e : ServerError) : Inquiry α → Prop
  | query _ reply => HandsOver reply e
  | iter _ reply => HandsOver reply e
  | next it replies => ∃ reply ∈ it.requested fromEachRedisValues replies, HandsOver reply e
  | pipeline p stream => p.transactionMode = false ∧ p.ignoreErrors = false ∧ Answers p.commands.length stream ∧
    .serverError e ∈ stream
  | transaction p stream => p.transactionMode = true ∧ p.ignoreErrors = false ∧ Answers (p.commands.length + 2) stream ∧
    (.serverError e ∈ (replyPart stream).tail ∨ ∃ items, stream.getLast? = some (.array items) ∧ .serverError e ∈ items)

/-- The caller gets an error that has the server's error in it. -/
def Tells [FromRedisValue α] (con : Connection) (e : ServerError) : Inquiry α → Prop
  | query cmd reply => ∃ err : RedisError, (cmd.query reply : RedisResult α) = .error err ∧ err.Carries e
  | iter cmd reply => ∃ err : RedisError, cmd.iter fromEachRedisValues reply = .error err ∧ err.Carries e
  | next it replies => ∃ (err : RedisError) (it' : CheckedIter α) (rest : List (RedisResult Value)),
    it.next fromEachRedisValues replies = some (some (.error err), it', rest) ∧ err.Carries e
  | pipeline p stream | transaction p stream => ∃ (err : RedisError) (con' : Connection),
    (p.query con (stream.map .ok) : Option (Ends (RedisResult α) × _)) = some (.ok (.error err), con', []) ∧
      err.Carries e

/-- The calls that tell of an error. -/
def Heeds (e : ServerError) : Inquiry α → Prop
  | query cmd _ => cmd.noResponse = false
  | iter cmd reply => cmd.noResponse = false ∧ ∃ err, reply = .error err
  | next it replies => ∃ err : RedisError, .error err ∈ it.requested fromEachRedisValues replies ∧ err.Carries e
  | pipeline _ _ => True
  | transaction p stream => (∀ v ∈ stream.head?, v.isServerError = false) ∧
    (.serverError e ∈ stream.take (p.commands.length + 1) ∨
      (∀ v ∈ stream.take (p.commands.length + 1), v.isServerError = false) ∧
        ∃ items, stream.getLast? = some (.array items) ∧ p.Reports items e)

end Inquiry

namespace RedisError

variable {e : ServerError}

theorem not_carries_parsing (err : ParsingError) : ¬ (parsing err).Carries e := by
  rintro ⟨errs, i, herrs, -⟩
  cases herrs

theorem not_carries_general (kind : ErrorKind) (desc : String) (detail : Option Detail) :
    ¬ (general kind desc detail).Carries e := by
  rintro ⟨errs, i, herrs, -⟩
  cases herrs

theorem carries_server (e : ServerError) : (server e).Carries e := ⟨_, 0, rfl, mem_singleton_self _⟩

theorem carries_pipeline {errs : List (Nat × ServerError)} : (pipeline errs).Carries e ↔ ∃ i, (i, e) ∈ errs := by
  simp [Carries, intoServerErrors]

theorem carries_transactionAborted {errs : List (Nat × ServerError)} :
    (makeAbortedTransaction errs).Carries e ↔ ∃ i, (i, e) ∈ errs := by
  simp [Carries, intoServerErrors, makeAbortedTransaction]

theorem not_carries_of_toRedisResult {α : Type} {result : ParseResult α} {err : RedisError}
    (h : result.toRedisResult = .error err) : ¬ err.Carries e := by
  cases result with
  | ok a => cases h
  | error err' =>
    cases h
    exact not_carries_parsing err'

end RedisError

section Commands

variable {α : Type} (fromEachRedisValues : List Value → List (ParseResult α)) {e : ServerError} {con : Connection}
  {reply : RedisResult Value}

namespace CheckedIter

variable {it : CheckedIter α}

theorem not_carries_of_receive {v : Value} {err : RedisError} (h : it.receive fromEachRedisValues (.ok v) = .error err) :
    ¬ err.Carries e := by
  rcases hpair : (fromRedisValueTuple2 v : ParseResult (UInt64 × List Value)) with err' | pair <;>
    rw [receive] at h <;> simp only [bind, Except.bind, hpair, ParseResult.toRedisResult] at h <;> cases h
  exact RedisError.not_carries_parsing err'

section Asks

variable {reply : RedisResult Value} (replies : List (RedisResult Value)) (hasks : it.asks = true)

include hasks

theorem batch_of_asks : it.batch = [] ∧ it.cmd.cursor.all (· == 0) = false := by
  simpa [asks] using hasks

theorem next_of_receive {it' : CheckedIter α} (h : it.receive fromEachRedisValues reply = .ok it') :
    it.next fromEachRedisValues (reply :: replies) = it'.next fromEachRedisValues replies ∧
      it.requested fromEachRedisValues (reply :: replies) = reply :: it'.requested fromEachRedisValues replies := by
  obtain ⟨hbatch, hcur⟩ := batch_of_asks hasks
  constructor
  · rw [next.eq_def]
    simp [hbatch, hcur, h]
  · rw [requested, if_pos hasks, h]

theorem next_of_receive_error {err : RedisError} (h : it.receive fromEachRedisValues reply = .error err) :
    it.next fromEachRedisValues (reply :: replies) = some (some (.error err), it, replies) ∧
      it.requested fromEachRedisValues (reply :: replies) = [reply] := by
  obtain ⟨hbatch, hcur⟩ := batch_of_asks hasks
  constructor
  · rw [next.eq_def]
    simp [hbatch, hcur, h]
  · rw [requested, if_pos hasks, h]

end Asks

variable [FromRedisValue α]

theorem next_of_not_asks (con : Connection) (hasks : it.asks = false) (replies : List (RedisResult Value)) :
    ¬ (Inquiry.next it replies).Tells fromEachRedisValues con e := by
  rintro ⟨err, it', rest, hnext, hcarries⟩
  rw [next.eq_def] at hnext
  rcases hbatch : it.batch with _ | ⟨value, batch⟩ <;> rw [hbatch] at hnext
  · have hcur : it.cmd.cursor.all (· == 0) = true := by simpa [asks, hbatch] using hasks
    rw [if_pos hcur] at hnext
    cases hnext
  · obtain ⟨hval, -⟩ := Prod.mk.inj (Option.some.inj hnext)
    exact RedisError.not_carries_of_toRedisResult (Option.some.inj hval) hcarries

theorem next_tells_iff (replies : List (RedisResult Value)) :
    (Inquiry.next it replies).Tells fromEachRedisValues con e ↔
      (Inquiry.next it replies).Heeds fromEachRedisValues e := by
  simp only [Inquiry.Tells, Inquiry.Heeds]
  induction replies generalizing it with
  | nil =>
    refine iff_of_false ?_ (by simp [requested])
    cases hasks : it.asks with
    | false => exact next_of_not_asks fromEachRedisValues con hasks []
    | true =>
      obtain ⟨hbatch, hcur⟩ := batch_of_asks hasks
      rintro ⟨err, it', rest, hnext, -⟩
      rw [next.eq_def] at hnext
      simp [hbatch, hcur] at hnext
  | cons reply replies ih =>
    cases hasks : it.asks with
    | false => exact iff_of_false (next_of_not_asks fromEachRedisValues con hasks _) (by simp [requested, hasks])
    | true =>
      rcases reply with err | v
      · obtain ⟨hnext, hreqd⟩ := next_of_receive_error fromEachRedisValues replies hasks
          (show it.receive fromEachRedisValues (.error err) = .error err from rfl)
        rw [hnext, hreqd]
        simp
      · rcases hrecv : it.receive fromEachRedisValues (.ok v) with err | it'
        · obtain ⟨hnext, hreqd⟩ := next_of_receive_error fromEachRedisValues replies hasks hrecv
          rw [hnext, hreqd]
          simp [not_carries_of_receive fromEachRedisValues hrecv]
        · obtain ⟨hnext, hreqd⟩ := next_of_receive fromEachRedisValues replies hasks hrecv
          rw [hnext, hreqd, ih]
          simp

end CheckedIter

variable [FromRedisValue α]

theorem query_tells_iff (c : Cmd) (h : HandsOver reply e) :
    (Inquiry.query c reply).Tells fromEachRedisValues con e ↔ c.noResponse = false := by
  rw [Inquiry.Tells, Cmd.query, Cmd.handed]
  cases hresp : c.noResponse with
  | true =>
    refine iff_of_false ?_ Bool.true_eq_false.mp
    rintro ⟨err, herr, hcarries⟩
    exact RedisError.not_carries_of_toRedisResult herr hcarries
  | false =>
    refine iff_of_true ?_ rfl
    rcases h with rfl | ⟨err, rfl, hcarries⟩
    · exact ⟨_, rfl, RedisError.carries_server e⟩
    · exact ⟨err, rfl, hcarries⟩

theorem iter_tells_iff (c : Cmd) (h : HandsOver reply e) :
    (Inquiry.iter c reply).Tells fromEachRedisValues con e ↔
      (Inquiry.iter c reply).Heeds fromEachRedisValues e := by
  rw [Inquiry.Tells, Inquiry.Heeds, Cmd.iter, Cmd.handed]
  cases hresp : c.noResponse with
  | true =>
    refine iff_of_false ?_ fun hheeds => Bool.true_eq_false.mp hheeds.1
    rintro ⟨err, herr, -⟩
    cases herr
  | false =>
    rcases h with rfl | ⟨err, rfl, hcarries⟩
    · refine iff_of_false ?_ ?_
      · rintro ⟨err, herr, hcarries⟩
        cases herr
        exact RedisError.not_carries_parsing _ hcarries
      · rintro ⟨-, err, herr⟩
        cases herr
    · exact iff_of_true ⟨err, rfl, hcarries⟩ ⟨rfl, err, rfl⟩

end Commands

theorem Answers.le_length {n : Nat} {stream : List Value} (h : Answers n stream) : n ≤ stream.length :=
  h.length ▸ length_filter_le _ stream

namespace Pipeline

variable {α : Type} [FromRedisValue α] (fromEachRedisValues : List Value → List (ParseResult α)) {p : Pipeline}
  {e : ServerError} {con : Connection}

variable {response : List Value} {k : Nat}

theorem mem_serverErrors {i : Nat} : (i, e) ∈ serverErrors response ↔ response[i]? = some (.serverError e) := by
  rw [serverErrors, mem_filterMap]
  constructor
  · rintro ⟨⟨v, j⟩, hmem, hsome⟩
    cases v with
    | serverError err =>
      cases hsome
      exact mem_zipIdx_iff_getElem?.1 hmem
    | _ => cases hsome
  · intro hget
    exact ⟨(.serverError e, i), mem_zipIdx_iff_getElem?.2 hget, rfl⟩

theorem exists_mem_serverErrors : (∃ i, (i, e) ∈ serverErrors response) ↔ .serverError e ∈ response := by
  rw [mem_iff_getElem?]
  exact exists_congr fun i => mem_serverErrors

theorem serverErrors_eq_nil_iff : serverErrors response = [] ↔ ∀ v ∈ response, v.isServerError = false :=
  eq_nil_iff_of_errors fun _ => exists_mem_serverErrors

theorem composeResponse_tells_iff (hp : p.ignoreErrors = false) (response : List Value) :
    (∃ err : RedisError, (p.composeResponse response : RedisResult α) = .error err ∧ err.Carries e) ↔
      p.Reports response e := by
  rw [composeResponse, hp, if_neg Bool.false_ne_true, Reports, ← serverErrors_eq_nil_iff]
  by_cases hnil : serverErrors response = []
  · have hmem : .serverError e ∉ response := by
      intro hmem
      cases serverErrors_eq_nil_iff.1 hnil _ hmem
    rw [if_pos hnil, or_iff_right hmem, and_iff_right hnil]
    rcases (Value.array (p.filterIgnoredResults response)).extractError with err | v
    · simp [bind, Except.bind]
    · refine iff_of_false ?_ fun ⟨err, herr, _⟩ => by cases herr
      rintro ⟨err, herr, hcarries⟩
      exact RedisError.not_carries_of_toRedisResult herr hcarries
  · rw [if_neg hnil, or_iff_left fun hright => hnil hright.1, ← exists_mem_serverErrors, ← RedisError.carries_pipeline]
    simp

variable {stream : List Value}

theorem query_tells (hcon : con.Idle) (hmode : p.transactionMode = false) (hp : p.ignoreErrors = false)
    (hans : Answers p.commands.length stream) (h : .serverError e ∈ stream) :
    (Inquiry.pipeline p stream).Tells fromEachRedisValues con e := by
  have hmem : .serverError e ∈ replyPart stream := mem_filter.2 ⟨h, rfl⟩
  have hcmds : p.commands ≠ [] := by
    intro hnil
    have hlen := hans.length
    rw [hnil, length_nil, length_eq_zero_iff] at hlen
    rw [hlen] at hmem
    cases hmem
  have hbytes : encodePipeline p.commands false ≠ [] := encodePipeline_ne_nil (.inl hcmds)
  have hlen : (replyPart stream).length = 0 + p.commands.length := hans.length.trans (Nat.zero_add _).symm
  obtain ⟨con', hrun⟩ := Connection.reqPackedCommands_stream hcon hbytes hlen hans.endsWithReply
    (fun _ hpos => absurd hpos (Nat.lt_irrefl 0)) []
  rw [append_nil, refusals_eq_nil_of_le (Nat.le_refl 0), drop_zero] at hrun
  obtain ⟨err, herr, hcarries⟩ := (composeResponse_tells_iff (α := α) hp (replyPart stream)).2 (.inl hmem)
  refine ⟨err, con', ?_, hcarries⟩
  rw [query, hmode, if_neg Bool.false_ne_true, hrun, ← herr]
  simp [reportedErrors, packedResult, completeRequest, hmode, Except.map, Except.bind]

theorem getLast?_replyPart_drop (hend : EndsWithReply stream) (hk : k < stream.length) :
    (replyPart (stream.drop k)).getLast? = stream.getLast? := by
  have hlast : (stream.drop k).getLast? = stream.getLast? := by
    rw [getLast?_drop, if_neg (Nat.not_le.2 hk)]
  rcases eq_nil_or_concat (stream.drop k) with hnil | ⟨init, v, hconcat⟩
  · exact absurd (drop_eq_nil_iff.1 hnil) (Nat.not_le.2 hk)
  · rw [hconcat, concat_eq_append, getLast?_concat] at hlast
    have hv : v.isPush = false := hend v hlast.symm
    rw [hconcat, concat_eq_append, ← hlast, replyPart, filter_append]
    simp [hv]

theorem completeRequest_tells_iff (hmode : p.transactionMode = true) (hp : p.ignoreErrors = false)
    (response : List Value) :
    (∃ err : RedisError, (p.completeRequest response : RedisResult α) = .error err ∧ err.Carries e) ↔
      ∃ items, response.getLast? = some (.array items) ∧ p.Reports items e := by
  rw [completeRequest, hmode, if_pos rfl]
  split
  · next hlast =>
    rw [hlast]
    refine iff_of_false ?_ (by simp)
    rintro ⟨err, herr, hcarries⟩
    exact RedisError.not_carries_of_toRedisResult herr hcarries
  · next items hlast =>
    rw [composeResponse_tells_iff hp, hlast]
    simp
  · next hnil harray =>
    refine iff_of_false ?_ fun ⟨items, hlast, _⟩ => harray items hlast
    rintro ⟨err, herr, hcarries⟩
    cases herr
    exact RedisError.not_carries_general _ _ _ hcarries

theorem exists_mem_reportedErrors :
    (∃ i, (i, e) ∈ reportedErrors (refusals k 0 stream)) ↔ .serverError e ∈ stream.take k := by
  rw [mem_iff_getElem?]
  simp only [reportedErrors, mem_map, getElem?_take]
  constructor
  · rintro ⟨i, ⟨_, err⟩, hmem, heq⟩
    obtain ⟨-, rfl⟩ := Prod.mk.inj heq
    obtain ⟨j, rfl, hlt, hget⟩ := mem_refusals.1 hmem
    rw [Nat.zero_add] at hlt
    exact ⟨j, by rw [if_pos hlt]; exact hget⟩
  · rintro ⟨j, hget⟩
    split_ifs at hget with hlt
    exact ⟨j - 1, (j, e), mem_refusals.2 ⟨j, (Nat.zero_add j).symm, hlt, hget⟩, rfl⟩

theorem reportedErrors_eq_nil_iff :
    reportedErrors (refusals k 0 stream) = [] ↔ ∀ v ∈ stream.take k, v.isServerError = false :=
  eq_nil_iff_of_errors fun _ => exists_mem_reportedErrors

theorem query_of_accepted (hcon : con.Idle) (hmode : p.transactionMode = true)
    (hans : Answers (p.commands.length + 2) stream) (hfirst : ∀ v ∈ stream.head?, v.isServerError = false)
    (rest : Wire) :
    ∃ con', (p.query con (stream.map .ok ++ rest) : Option (Ends (RedisResult α) × _)) =
      some (.ok ((packedResult (reportedErrors (refusals (p.commands.length + 1) 0 stream))
        (replyPart (stream.drop (p.commands.length + 1)))).bind p.completeRequest), con', rest) := by
  have hreps : (replyPart stream).length = p.commands.length + 1 + 1 := hans.length
  obtain ⟨con', hrun⟩ := Connection.reqPackedCommands_stream hcon (encodePipeline_ne_nil (.inr rfl)) hreps
    hans.endsWithReply (fun _ _ => hfirst) rest
  refine ⟨con', ?_⟩
  rw [query, hmode, if_pos rfl, hrun]
  rfl

theorem transaction_tells_iff_of_accepted (hcon : con.Idle) (hmode : p.transactionMode = true)
    (hp : p.ignoreErrors = false) (hans : Answers (p.commands.length + 2) stream)
    (hfirst : ∀ v ∈ stream.head?, v.isServerError = false) :
    (Inquiry.transaction p stream).Tells fromEachRedisValues con e ↔
      .serverError e ∈ stream.take (p.commands.length + 1) ∨
        (∀ v ∈ stream.take (p.commands.length + 1), v.isServerError = false) ∧
          ∃ items, stream.getLast? = some (.array items) ∧ p.Reports items e := by
  obtain ⟨con', hrun⟩ := query_of_accepted (α := α) hcon hmode hans hfirst []
  rw [append_nil] at hrun
  rw [Inquiry.Tells, hrun, ← reportedErrors_eq_nil_iff]
  by_cases hnil : reportedErrors (refusals (p.commands.length + 1) 0 stream) = []
  · have hmem : .serverError e ∉ stream.take (p.commands.length + 1) := by
      intro hmem
      cases reportedErrors_eq_nil_iff.1 hnil _ hmem
    rw [or_iff_right hmem, and_iff_right hnil, packedResult, if_neg (not_not_intro hnil),
      ← getLast?_replyPart_drop hans.endsWithReply hans.le_length, ← completeRequest_tells_iff (α := α) hmode hp]
    simp [Except.bind]
  · rw [or_iff_left fun hright => hnil hright.1, packedResult, if_pos hnil, ← exists_mem_reportedErrors,
      ← RedisError.carries_transactionAborted]
    simp [Except.bind]

theorem query_multi_refused (hcon : con.Idle) (hmode : p.transactionMode = true) (multi : ServerError)
    (stream : List Value) {r : RedisResult α} {con' : Connection} {rest : List (RedisResult Value)} :
    (p.query con ((.serverError multi :: stream).map .ok) : Option (Ends (RedisResult α) × _)) ≠
      some (.ok r, con', rest) := by
  intro hquery
  have hbytes : encodePipeline p.commands true ≠ [] := encodePipeline_ne_nil (.inr rfl)
  obtain ⟨_, hpanic⟩ := Connection.reqPackedCommands_first_refused hcon hbytes (Nat.succ_pos p.commands.length) 1 multi
    (stream.map .ok)
  rw [query, hmode, if_pos rfl, map_cons, hpanic] at hquery
  cases hquery

theorem transaction_tells_iff (hcon : con.Idle) (hmode : p.transactionMode = true) (hp : p.ignoreErrors = false)
    (hans : Answers (p.commands.length + 2) stream) :
    (Inquiry.transaction p stream).Tells fromEachRedisValues con e ↔
      (Inquiry.transaction p stream).Heeds fromEachRedisValues e := by
  rw [Inquiry.Heeds]
  by_cases hfirst : ∀ v ∈ stream.head?, v.isServerError = false
  · rw [and_iff_right hfirst]
    exact transaction_tells_iff_of_accepted fromEachRedisValues hcon hmode hp hans hfirst
  · refine iff_of_false ?_ fun hheeds => hfirst hheeds.1
    rintro ⟨err, con', hquery, -⟩
    rcases stream with _ | ⟨v, stream⟩
    · simp at hfirst
    · obtain ⟨multi, rfl⟩ : ∃ multi, v = .serverError multi := Value.isServerError_iff.1 (by simpa using hfirst)
      exact query_multi_refused hcon hmode multi stream hquery

end Pipeline

namespace Inquiry

variable {α : Type} [FromRedisValue α] (fromEachRedisValues : List Value → List (ParseResult α))

/-- A caller is told of an error reply by the calls that heed it, and by no others. -/
theorem tells_iff_heeds {con : Connection} (hcon : con.Idle) (inquiry : Inquiry α) (e : ServerError)
    (h : inquiry.Gives fromEachRedisValues e) :
    inquiry.Tells fromEachRedisValues con e ↔ inquiry.Heeds fromEachRedisValues e := by
  cases inquiry with
  | query cmd reply => exact query_tells_iff fromEachRedisValues cmd h
  | iter cmd reply => exact iter_tells_iff fromEachRedisValues cmd h
  | next it replies => exact CheckedIter.next_tells_iff fromEachRedisValues replies
  | pipeline p stream =>
    obtain ⟨hmode, hp, hanswers, hmem⟩ := h
    exact iff_of_true (Pipeline.query_tells fromEachRedisValues hcon hmode hp hanswers hmem) trivial
  | transaction p stream =>
    obtain ⟨hmode, hp, hanswers, -⟩ := h
    exact Pipeline.transaction_tells_iff fromEachRedisValues hcon hmode hp hanswers

def wrongType : ServerError :=
  .extension "WRONGTYPE" (some "Operation against a key holding the wrong kind of value")

theorem query_tells_of_wrongType :
    (Inquiry.query (cmd "GET") (.ok (.serverError wrongType)) : Inquiry Text).Tells (List.map fromRedisValue)
      (.fresh .resp3) wrongType := by
  have hgives : (Inquiry.query (cmd "GET") (.ok (.serverError wrongType)) : Inquiry Text).Gives (List.map fromRedisValue)
      wrongType := Or.inl rfl
  exact (tells_iff_heeds _ (Connection.fresh_idle .resp3) _ _ hgives).2 rfl

theorem error_replies_are_hidden :
    ((cmd "SSCAN").iter (List.map fromRedisValue) (.ok (.serverError wrongType)) : RedisResult (CheckedIter Text)) =
        .error (.parsing (.invalidType (.serverError wrongType) "Response type not vector compatible.")) ∧
      (∃ it, CheckedIter.next (List.map fromRedisValue) (⟨[], { cmd "SSCAN" with cursor := some 17 }⟩ : CheckedIter Text)
        [.ok (.serverError wrongType)] =
          some (some (.error (.parsing (.invalidType (.serverError wrongType) "Not a Array response"))), it, [])) ∧
      ∃ con, ((Pipeline.new.addCommand (cmd "PING")).atomic.query (.fresh .resp3)
        [.ok .okay, .ok (.simpleString "QUEUED"), .ok (.serverError wrongType)] :
        Option (Ends (RedisResult Unit) × _)) =
          some (.ok (.error (.general .unexpectedReturnType "Invalid response when parsing multi response" none)),
            con, []) :=
  ⟨rfl, ⟨_, rfl⟩, ⟨_, rfl⟩⟩

end Inquiry

end RedisRs
