import RedisRs.Dialogue
import RedisRs.Queries
import RedisRs.SubscriptionTracker

/-!
# Transactions with watched keys
-/

namespace RedisRs

open List

abbrev Conversation := Dialogue Cmd (RedisResult Value)

abbrev CommandLog := List (Cmd × RedisResult Value)

def Cmd.exec (c : Cmd) : Conversation (RedisResult Unit) := do
  return c.query (← Dialogue.answerTo c)

def watchCmd (keys : List Bytes) : Cmd := keys.foldl Cmd.writeArg (cmd "WATCH")

section Transaction

variable {σ T : Type} (keys : List Bytes) (func : Pipeline → σ → Conversation (RedisResult (Option T) × σ))

def transaction : Nat → σ → Conversation (Option (RedisResult T))
  | 0, _ => return none
  | rounds + 1, s => do
    match ← (watchCmd keys).exec with
    | .error err => return some (.error err)
    | .ok () =>
      match ← func Pipeline.new.atomic s with
      | (.error err, _) => return some (.error err)
      | (.ok none, s) => transaction rounds s
      | (.ok (some response), _) =>
        -- in case the closure did not use the pipeline
        match ← (cmd "UNWATCH").exec with
        | .error err => return some (.error err)
        | .ok () => return some (.ok response)

end Transaction

def Cmd.isNamed (name : String) (c : Cmd) : Bool := c.words.head?.any (eqIgnoreAsciiCase · (bytesOf name))

def accepted (reply : RedisResult Value) : Bool := (reply.bind Value.extractError).isOk

namespace CommandLog

def watches (x : Cmd × RedisResult Value) : Bool := x.1.isNamed "WATCH" && accepted x.2

def releases (x : Cmd × RedisResult Value) : Bool :=
  x.1.isNamed "EXEC" || x.1.isNamed "DISCARD" || x.1.isNamed "UNWATCH"

/-- After every `WATCH` that was accepted, and so after the last one, the watched keys were released. -/
def Released (log : CommandLog) : Prop :=
  ∀ before x after, log = before ++ x :: after → watches x = true → ∃ y ∈ after, releases y = true

/-- Every command of the log was answered. -/
def Answered (log : CommandLog) : Prop := ∀ x ∈ log, ∃ v, x.2 = .ok v

theorem released_nil : Released [] := fun before x after heq => by simp at heq

variable {x : Cmd × RedisResult Value} {log : CommandLog}

theorem released_cons : Released (x :: log) ↔ (watches x = true → ∃ y ∈ log, releases y = true) ∧ Released log := by
  constructor
  · refine fun h => ⟨h [] x log rfl, fun before x' after heq => ?_⟩
    exact h (x :: before) x' after (congrArg (x :: ·) heq)
  · rintro ⟨hx, hlog⟩ (_ | ⟨x', before⟩) x'' after heq hwatches
    · obtain ⟨rfl, rfl⟩ := List.cons.inj heq
      exact hx hwatches
    · exact hlog before x'' after (List.cons.inj heq).2 hwatches

theorem released_append {log' : CommandLog} :
    Released (log ++ log') ↔ Released log' ∧ ((∃ y ∈ log', releases y = true) ∨ Released log) := by
  induction log with
  | nil =>
    rw [nil_append, and_iff_left (.inr released_nil)]
  | cons x log ih =>
    rw [cons_append, released_cons, ih, released_cons]
    simp only [mem_append, or_and_right, exists_or]
    by_cases hrel : ∃ y ∈ log', releases y = true
    · simp [hrel]
    · simp only [hrel, or_false, false_or]
      exact and_left_comm

theorem released_watch (hx : watches x = true) {log' : CommandLog} :
    Released (log ++ x :: log') ↔ (∃ y ∈ log', releases y = true) ∧ Released log' := by
  rw [released_append, released_cons, imp_iff_right hx]
  refine and_iff_left_of_imp fun h => ?_
  obtain ⟨⟨y, hy, hrel⟩, -⟩ := h
  exact .inl ⟨y, mem_cons_of_mem _ hy, hrel⟩

theorem released_concat_of_releases (hx : releases x = true) (hwatches : watches x = false) (log : CommandLog) :
    Released (log ++ [x]) := by
  rw [released_append, released_cons, hwatches]
  exact ⟨⟨fun h => (Bool.false_ne_true h).elim, released_nil⟩, .inl ⟨x, mem_singleton_self x, hx⟩⟩

theorem released_concat_of_neither (hx : releases x = false) (hwatches : watches x = false) (log : CommandLog) :
    Released (log ++ [x]) ↔ Released log := by
  rw [released_append, released_cons, hwatches]
  simp [hx, released_nil]

end CommandLog

section Commands

variable {keys : List Bytes} {reply : RedisResult Value}

theorem watchCmd_isNamed (keys : List Bytes) (name : String) :
    (watchCmd keys).isNamed name = eqIgnoreAsciiCase (bytesOf "WATCH") (bytesOf name) := by
  have hwords : (watchCmd keys).words = bytesOf "WATCH" :: keys.map id := by
    have hargs : (watchCmd keys).argsIter = (bytesOf "WATCH" :: keys).map .simple :=
        Cmd.argsIter_ofArgs (bytesOf "WATCH" :: keys)
    rw [Cmd.words, hargs, map_map, map_cons]
    rfl
  rw [Cmd.isNamed, hwords]
  rfl

theorem watches_watchCmd : CommandLog.watches (watchCmd keys, reply) = accepted reply := by
  rw [CommandLog.watches, watchCmd_isNamed]
  rfl

theorem releases_watchCmd : CommandLog.releases (watchCmd keys, reply) = false := by
  rw [CommandLog.releases, watchCmd_isNamed, watchCmd_isNamed, watchCmd_isNamed]
  rfl

theorem released_concat_unwatch (log : CommandLog) (reply : RedisResult Value) :
    CommandLog.Released (log ++ [(cmd "UNWATCH", reply)]) :=
  CommandLog.released_concat_of_releases rfl rfl log

theorem Cmd.ends_exec {c : Cmd} {log : CommandLog} {r : RedisResult Unit} :
    c.exec.Ends log r ↔ ∃ reply, log = [(c, reply)] ∧ c.query reply = r := by
  rw [Cmd.exec, Dialogue.ends_answerTo_bind]
  constructor
  · rintro ⟨reply, log', rfl, h⟩
    obtain ⟨rfl, hr⟩ := Dialogue.ends_pure.1 h
    exact ⟨reply, rfl, hr⟩
  · rintro ⟨reply, rfl, hr⟩
    exact ⟨reply, [], rfl, Dialogue.ends_pure.2 ⟨rfl, hr⟩⟩

theorem Cmd.query_unit_eq_ok_iff {c : Cmd} (hc : c.noResponse = false) :
    (c.query reply : RedisResult Unit) = .ok () ↔ accepted reply = true := by
  have hquery : (c.query reply : RedisResult Unit) = (reply.bind Value.extractError).bind fun v =>
      (FromRedisValue.fromRedisValue v : ParseResult Unit).toRedisResult := by
    rw [Cmd.query, Cmd.handed, hc, if_neg Bool.false_ne_true]
    cases reply <;> rfl
  rw [hquery, accepted]
  rcases hv : reply.bind Value.extractError with err | v
  · exact iff_of_false (nofun) nofun
  · refine iff_of_true ?_ rfl
    have herr : v.isServerError = false := by
      rcases reply with err | w
      · cases hv
      · exact Value.extractError_not_serverError hv
    cases v with
    | serverError err => cases herr
    | _ => rfl

end Commands

section Rounds

variable {σ T : Type} {keys : List Bytes} {func : Pipeline → σ → Conversation (RedisResult (Option T) × σ)}
  {rounds : Nat} {s : σ} {log : CommandLog} {result : Option (RedisResult T)}

/-- A round of `transaction`, and the rounds after it if the closure has no result. -/
inductive Round (keys : List Bytes) (func : Pipeline → σ → Conversation (RedisResult (Option T) × σ)) (rounds : Nat)
    (s : σ) : CommandLog → Option (RedisResult T) → Prop
  | refused {reply : RedisResult Value} {err : RedisError} (hwatch : (watchCmd keys).query reply =
      (.error err : RedisResult Unit)) :
    Round keys func rounds s [(watchCmd keys, reply)] (some (.error err))
  | failed {reply : RedisResult Value} {err : RedisError} {log : CommandLog} {s' : σ}
    (hwatch : (watchCmd keys).query reply = .ok ()) (hfunc : (func Pipeline.new.atomic s).Ends log (.error err, s')) :
    Round keys func rounds s ((watchCmd keys, reply) :: log) (some (.error err))
  | again {reply : RedisResult Value} {log log' : CommandLog} {s' : σ} {result : Option (RedisResult T)}
    (hwatch : (watchCmd keys).query reply = .ok ()) (hfunc : (func Pipeline.new.atomic s).Ends log (.ok none, s'))
    (hnext : (transaction keys func rounds s').Ends log' result) :
    Round keys func rounds s ((watchCmd keys, reply) :: (log ++ log')) result
  | finished {reply : RedisResult Value} {log : CommandLog} {s' : σ} {response : T}
    (hwatch : (watchCmd keys).query reply = .ok ())
    (hfunc : (func Pipeline.new.atomic s).Ends log (.ok (some response), s'))
    (reply' : RedisResult Value) :
    Round keys func rounds s ((watchCmd keys, reply) :: (log ++ [(cmd "UNWATCH", reply')]))
      (some (((cmd "UNWATCH").query reply' : RedisResult Unit).map fun _ => response))

theorem ends_transaction_succ :
    (transaction keys func (rounds + 1) s).Ends log result ↔ Round keys func rounds s log result := by
  constructor
  · intro h
    obtain ⟨log₁, log₂, watched, rfl, hwatch, h⟩ := Dialogue.ends_bind.1 h
    obtain ⟨reply, rfl, rfl⟩ := Cmd.ends_exec.1 hwatch
    rcases hquery : ((watchCmd keys).query reply : RedisResult Unit) with err | _ <;> rw [hquery] at h
    · obtain ⟨rfl, rfl⟩ := Dialogue.ends_pure.1 h
      exact .refused hquery
    · obtain ⟨log, log', ⟨response, s'⟩, rfl, hfunc, h⟩ := Dialogue.ends_bind.1 h
      rcases response with err | _ | response
      · obtain ⟨rfl, rfl⟩ := Dialogue.ends_pure.1 h
        rw [append_nil]
        exact .failed hquery hfunc
      · have hround : Round keys func rounds s _ _ := .again hquery hfunc h
        exact hround
      · obtain ⟨log₁, log₂, unwatched, rfl, hunwatch, h⟩ := Dialogue.ends_bind.1 h
        obtain ⟨reply', rfl, rfl⟩ := Cmd.ends_exec.1 hunwatch
        have hround : Round keys func rounds s _ _ := .finished hquery hfunc reply'
        rcases hquery' : ((cmd "UNWATCH").query reply' : RedisResult Unit) with err | _ <;> rw [hquery'] at h hround <;>
          obtain ⟨rfl, rfl⟩ := Dialogue.ends_pure.1 h <;> exact hround
  · intro h
    cases h with
    | refused hwatch =>
      refine Dialogue.ends_bind.2 ⟨_, [], _, rfl, Cmd.ends_exec.2 ⟨_, rfl, hwatch⟩, ?_⟩
      exact Dialogue.ends_pure.2 ⟨rfl, rfl⟩
    | failed hwatch hfunc =>
      refine Dialogue.ends_bind.2 ⟨[_], _, _, rfl, Cmd.ends_exec.2 ⟨_, rfl, hwatch⟩, ?_⟩
      refine Dialogue.ends_bind.2 ⟨_, [], _, (append_nil _).symm, hfunc, ?_⟩
      exact Dialogue.ends_pure.2 ⟨rfl, rfl⟩
    | again hwatch hfunc hnext =>
      refine Dialogue.ends_bind.2 ⟨[_], _, _, rfl, Cmd.ends_exec.2 ⟨_, rfl, hwatch⟩, ?_⟩
      exact Dialogue.ends_bind.2 ⟨_, _, _, rfl, hfunc, hnext⟩
    | finished hwatch hfunc reply' =>
      refine Dialogue.ends_bind.2 ⟨[_], _, _, rfl, Cmd.ends_exec.2 ⟨_, rfl, hwatch⟩, ?_⟩
      refine Dialogue.ends_bind.2 ⟨_, _, _, rfl, hfunc, ?_⟩
      refine Dialogue.ends_bind.2 ⟨_, [], _, rfl, Cmd.ends_exec.2 ⟨reply', rfl, rfl⟩, ?_⟩
      rcases ((cmd "UNWATCH").query reply' : RedisResult Unit) with err | _ <;> exact Dialogue.ends_pure.2 ⟨rfl, rfl⟩

end Rounds

section Released

open CommandLog

variable {σ T : Type} (keys : List Bytes) (func : Pipeline → σ → Conversation (RedisResult (Option T) × σ))

/-- No key is watched when the transaction returns, unless the connection failed. -/
def LeavesNoWatch (history : CommandLog) : Prop :=
  ∀ (rounds : Nat) (s : σ) (log : CommandLog) (result : RedisResult T),
    (transaction keys func rounds s).Ends log (some result) → Answered log → Released (history ++ log)

/-- The closure releases the keys itself whenever it does not give a result. -/
def ReleasesItself : Prop :=
  ∀ (s s' : σ) (log : CommandLog) (response : RedisResult (Option T)),
    (func Pipeline.new.atomic s).Ends log (response, s') → Answered log → (∀ a, response ≠ .ok (some a)) →
      Released ((watchCmd keys, .ok .okay) :: log)

variable {keys func}

theorem Cmd.noResponse_foldl_writeArg (l : List Bytes) (c : Cmd) : (l.foldl writeArg c).noResponse = c.noResponse := by
  induction l generalizing c with
  | nil => rfl
  | cons a l ih => exact ih (c.writeArg a)

theorem noResponse_watchCmd (keys : List Bytes) : (watchCmd keys).noResponse = false :=
  Cmd.noResponse_foldl_writeArg keys (cmd "WATCH")

variable {reply : RedisResult Value}

theorem watches_iff_query : watches (watchCmd keys, reply) = true ↔ (watchCmd keys).query reply = .ok () := by
  rw [watches_watchCmd, Cmd.query_unit_eq_ok_iff (noResponse_watchCmd keys)]

variable {s : σ} {log : CommandLog}

theorem ReleasesItself.released (h : ReleasesItself keys func) {s' : σ} {response : RedisResult (Option T)}
    (hfunc : (func Pipeline.new.atomic s).Ends log (response, s')) (hans : Answered log)
    (hresp : ∀ a, response ≠ .ok (some a)) (hwatch : (watchCmd keys).query reply = .ok ()) (history : CommandLog) :
    Released (history ++ (watchCmd keys, reply) :: log) := by
  have hokay : watches (watchCmd keys, .ok .okay) = true := watches_watchCmd
  have hrel := h s s' log response hfunc hans hresp
  rw [← nil_append ((watchCmd keys, _) :: log), released_watch hokay] at hrel
  exact (released_watch (watches_iff_query.2 hwatch)).2 hrel

theorem released_concat_of_query_error {err : RedisError}
    (hwatch : (watchCmd keys).query reply = (.error err : RedisResult Unit)) (history : CommandLog) :
    Released (history ++ [(watchCmd keys, reply)]) ↔ Released history := by
  refine released_concat_of_neither releases_watchCmd ?_ history
  rw [Bool.eq_false_iff, ne_eq, watches_iff_query, hwatch]
  exact nofun

variable {rounds : Nat} {history : CommandLog} {result : RedisResult T}

theorem released_of_releasesItself (h : ReleasesItself keys func) (hhist : Released history)
    (hends : (transaction keys func rounds s).Ends log (some result)) (hans : Answered log) :
    Released (history ++ log) := by
  -- by induction on the rounds: the log up to a round is released when the round starts
  induction rounds generalizing s history log with
  | zero =>
    obtain ⟨-, hsome⟩ := Dialogue.ends_pure.1 hends
    cases hsome
  | succ rounds ih =>
    cases ends_transaction_succ.1 hends with
    | refused hwatch => exact (released_concat_of_query_error hwatch history).2 hhist
    | failed hwatch hfunc =>
      exact h.released hfunc (fun x hx => hans x (mem_cons_of_mem _ hx)) (nofun) hwatch history
    | @again reply log log' s' _ hwatch hfunc hnext =>
      have hclosure := h.released hfunc (fun x hx => hans x (by simp [hx])) (nofun) hwatch history
      have hrest := ih hclosure hnext fun x hx => hans x (by simp [hx])
      rw [append_assoc] at hrest
      exact hrest
    | @finished reply log _ _ hwatch hfunc reply' =>
      have hrel := released_concat_unwatch (history ++ (watchCmd keys, reply) :: log) reply'
      rw [append_assoc] at hrel
      exact hrel

theorem exists_refused (keys : List Bytes) :
    ∃ (v : Value) (err : RedisError), (watchCmd keys).query (.ok v) = (.error err : RedisResult Unit) := by
  let v : Value := .serverError (.known .readOnly none)
  have href : watches (watchCmd keys, .ok v) = false := watches_watchCmd
  rcases hquery : ((watchCmd keys).query (.ok v) : RedisResult Unit) with err | _
  · exact ⟨v, err, hquery⟩
  · rw [watches_iff_query.2 hquery] at href
    cases href

theorem releasesItself_of_leavesNoWatch (h : LeavesNoWatch keys func history) : ReleasesItself keys func := by
  intro s s' log response hfunc hans hresp
  have hokay : watches (watchCmd keys, .ok .okay) = true := watches_watchCmd
  have hwatch := watches_iff_query.1 hokay
  have hans' : Answered ((watchCmd keys, .ok .okay) :: log) := forall_mem_cons.2 ⟨⟨.okay, rfl⟩, hans⟩
  suffices hrel : Released (history ++ (watchCmd keys, .ok .okay) :: log) by
    rw [released_watch hokay] at hrel
    show Released ([] ++ (watchCmd keys, .ok .okay) :: log)
    exact (released_watch hokay).2 hrel
  rcases response with err | _ | a
  · exact h 1 s _ _ (ends_transaction_succ.2 (.failed hwatch hfunc)) hans'
  · -- the next `WATCH` is refused, so the one before it decides
    obtain ⟨v, err, href⟩ := exists_refused keys
    have hnext : (transaction keys func 1 s').Ends [(watchCmd keys, .ok v)] (some (.error err)) :=
      ends_transaction_succ.2 (.refused href)
    have hrel := h 2 s _ _ (ends_transaction_succ.2 (.again hwatch hfunc hnext)) ?_
    · rw [← cons_append, ← append_assoc] at hrel
      exact (released_concat_of_query_error href _).1 hrel
    · exact forall_mem_append.2 ⟨hans', fun x hx => ⟨v, by rw [mem_singleton.1 hx]⟩⟩
  · exact absurd rfl (hresp a)

/-- A transaction leaves no key watched exactly if none was before and the closure sees to it whenever it fails or has no
result. -/
theorem leavesNoWatch_iff [Nonempty σ] (keys : List Bytes)
    (func : Pipeline → σ → Conversation (RedisResult (Option T) × σ)) (history : CommandLog) :
    LeavesNoWatch keys func history ↔ Released history ∧ ReleasesItself keys func := by
  constructor
  · refine fun h => ⟨?_, releasesItself_of_leavesNoWatch h⟩
    obtain ⟨v, err, hrefused⟩ := exists_refused keys
    obtain ⟨s⟩ := ‹Nonempty σ›
    have hends : (transaction keys func 1 s).Ends [(watchCmd keys, .ok v)] (some (.error err)) :=
      ends_transaction_succ.2 (.refused hrefused)
    have hreleased := h 1 s _ _ hends fun x hx => ⟨v, by rw [mem_singleton.1 hx]⟩
    exact (released_concat_of_query_error hrefused history).1 hreleased
  · rintro ⟨hhistory, hfunc⟩ rounds s log result hends hanswered
    exact released_of_releasesItself hfunc hhistory hends hanswered

theorem leavesNoWatch_of_result :
    LeavesNoWatch [bytesOf "key"] (fun _ s => .done (.ok (some ()), s) : Pipeline → Unit → Conversation _) [] := by
  refine (leavesNoWatch_iff _ _ []).2 ⟨released_nil, fun s s' log response hfunc _ hresponse => ?_⟩
  obtain ⟨-, heq⟩ := Dialogue.ends_done.1 hfunc
  exact absurd (Prod.mk.inj heq).1.symm (hresponse ())

theorem failed_closure_leaves_watch :
    (transaction [bytesOf "key"] (fun _ s => .done (.error .makeEmptyCommand, s) : Pipeline → Unit → Conversation _) 1 ()).Ends
        [(watchCmd [bytesOf "key"], .ok .okay)] (some (.error .makeEmptyCommand) : Option (RedisResult Unit)) ∧
      Answered [(watchCmd [bytesOf "key"], .ok .okay)] ∧ ¬ Released [(watchCmd [bytesOf "key"], .ok .okay)] := by
  refine ⟨⟨rfl, rfl⟩, fun x hx => ⟨.okay, by rw [mem_singleton.1 hx]⟩, fun h => ?_⟩
  obtain ⟨y, hy, -⟩ := h [] _ [] rfl rfl
  cases hy

end Released

end RedisRs
