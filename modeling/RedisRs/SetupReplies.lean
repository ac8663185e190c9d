import RedisRs.ConnectionSetup

/-!
# The replies to the setup of a connection
-/

namespace RedisRs

open List SetupStep

/-- The step was answered and the answer lets the setup go on. -/
def Accepted (steps : List SetupStep) (results : List Value) (step : SetupStep) : Prop :=
  ∀ i : Nat, steps[i]? = some step → ∃ v, results[i]? = some v ∧ step.Accepts v

/-- Every step was accepted. -/
def SetUp (steps : List SetupStep) (results : List Value) : Prop := ∀ step, Accepted steps results step

/-- The reply to `AUTH` is the error of a server that knows no user names. -/
def AsksForRetry (steps : List SetupStep) (results : List Value) : Prop :=
  ∃ (i : Nat) (err : ServerError) (errMsg : String), steps[i]? = some .auth ∧
    results[i]? = some (.serverError err) ∧ err.details = some errMsg ∧ wrongAuthArity errMsg = true

theorem idxOf?_eq_some_iff_of_nodup {α : Type} [BEq α] [LawfulBEq α] {l : List α} (h : l.Nodup) {x : α} {i : Nat} :
    l.idxOf? x = some i ↔ l[i]? = some x := by
  rw [idxOf?_eq_some_iff, List.getElem?_eq_some_iff]
  constructor
  · rintro ⟨hi, hx, -⟩
    exact ⟨hi, hx⟩
  · rintro ⟨hi, hx⟩
    refine ⟨hi, hx, fun j hj hjx => ?_⟩
    have := (h.getElem_inj_iff).1 (hjx.trans hx.symm)
    omega

variable {v : Value}

theorem checkResp3Auth_ok_iff : checkResp3Auth v = .ok () ↔ hello.Accepts v := by
  cases v <;> simp [checkResp3Auth, SetupStep.Accepts, Value.isServerError]

theorem checkDbSelect_ok_iff : checkDbSelect v = .ok () ↔ select.Accepts v := by
  cases v <;> simp [checkDbSelect, SetupStep.Accepts, Value.isServerError]

theorem checkCaching_ok_iff : checkCaching v = .ok () ↔ tracking.Accepts v := by
  cases v <;> simp [checkCaching, SetupStep.Accepts]

theorem checkResp2Auth_succeeded_iff : checkResp2Auth v = .ok .succeeded ↔ auth.Accepts v := by
  cases v with
  | serverError err =>
    simp only [checkResp2Auth, SetupStep.Accepts]
    repeat' split
    all_goals simp
  | _ => simp [checkResp2Auth, SetupStep.Accepts]

theorem checkResp2Auth_retry_iff :
    checkResp2Auth v = .ok .shouldRetryWithoutUsername ↔
      ∃ err errMsg, v = .serverError err ∧ err.details = some errMsg ∧ wrongAuthArity errMsg = true := by
  cases v with
  | serverError err =>
    rcases hd : err.details with _ | errMsg
    · simp [checkResp2Auth, hd]
    · cases hw : wrongAuthArity errMsg <;> simp [checkResp2Auth, hd, hw]
  | _ => simp [checkResp2Auth]

variable {results : List Value}

theorem checkResult_ok_iff {α : Type} {index : Nat} {missing : String} {check : Value → RedisResult α} {a : α} :
    checkResult results index missing check = .ok a ↔ ∃ v, results[index]? = some v ∧ check v = .ok a := by
  rcases hv : results[index]? with _ | v <;> simp [checkResult, hv]

section Checks

variable {steps : List SetupStep} {results : List Value} {step : SetupStep}

theorem accepted_iff (hnd : steps.Nodup) : Accepted steps results step ↔
    ∀ k : Nat, steps.idxOf? step = some k → ∃ v, results[k]? = some v ∧ step.Accepts v := by
  simp only [Accepted, idxOf?_eq_some_iff_of_nodup hnd]

theorem checkAt_ok_iff (hnd : steps.Nodup) {check : Value → RedisResult Unit}
    (hcheck : ∀ {v}, check v = .ok () ↔ step.Accepts v) (missing : String) :
    checkAt results (steps.idxOf? step) missing check = .ok () ↔ Accepted steps results step := by
  rw [accepted_iff hnd]
  rcases steps.idxOf? step with _ | k
  · simp [checkAt]
  · simp [checkAt, checkResult_ok_iff, hcheck]

theorem idxOf?_eq_none_or (hone : ¬ (.hello ∈ steps ∧ .auth ∈ steps)) :
    steps.idxOf? .hello = none ∨ steps.idxOf? .auth = none := by
  rwa [idxOf?_eq_none_iff, idxOf?_eq_none_iff, ← not_and_or]

theorem checkAuth_succeeded_iff (hnd : steps.Nodup) (hone : ¬ (.hello ∈ steps ∧ .auth ∈ steps)) :
    checkAuth results (places steps) = .ok .succeeded ↔
      Accepted steps results .hello ∧ Accepted steps results .auth := by
  rw [accepted_iff hnd, accepted_iff hnd]
  rcases hh : steps.idxOf? .hello with _ | k
  · rcases ha : steps.idxOf? .auth with _ | k
    · simp [checkAuth, places, hh, ha]
    · simp [checkAuth, places, hh, ha, checkResult_ok_iff, checkResp2Auth_succeeded_iff]
  · have ha := (idxOf?_eq_none_or hone).resolve_left (by simp [hh])
    rcases hv : results[k]? with _ | v
    · simp [checkAuth, places, checkResult, hh, ha, hv, bind, Except.bind]
    · cases hcheck : checkResp3Auth v <;>
        simp [checkAuth, places, checkResult, hh, ha, hv, ← checkResp3Auth_ok_iff, hcheck, bind, Except.bind, pure,
          Except.pure]

theorem checkAuth_retry_iff (hnd : steps.Nodup) (hone : ¬ (.hello ∈ steps ∧ .auth ∈ steps)) :
    checkAuth results (places steps) = .ok .shouldRetryWithoutUsername ↔ AsksForRetry steps results := by
  simp only [AsksForRetry, ← idxOf?_eq_some_iff_of_nodup hnd]
  rcases hh : steps.idxOf? .hello with _ | k
  · rcases ha : steps.idxOf? .auth with _ | k
    · simp [checkAuth, places, hh, ha]
    · simp [checkAuth, places, hh, ha, checkResult_ok_iff, checkResp2Auth_retry_iff]
  · have ha := (idxOf?_eq_none_or hone).resolve_left (by simp [hh])
    cases hcheck : checkResult results k "Missing RESP3 auth response" checkResp3Auth <;>
      simp [checkAuth, places, hh, ha, hcheck, bind, Except.bind, pure, Except.pure]

theorem checkConnectionSetup_ok_iff (results : List Value) (hone : ¬ (.hello ∈ steps ∧ .auth ∈ steps))
    (r : AuthResult) :
    checkConnectionSetup results (places steps) = .ok (.ok r) ↔
      checkAuth results (places steps) = .ok r ∧ (r = .succeeded →
        checkAt results (steps.idxOf? .select) "Missing SELECT DB response" checkDbSelect = .ok () ∧
        checkAt results (steps.idxOf? .tracking) "Missing Caching response" checkCaching = .ok ()) := by
  have hboth : ¬ ((places steps).resp2AuthCmdIdx.isSome && (places steps).resp3AuthCmdIdx.isSome) := by
    rcases idxOf?_eq_none_or hone with h | h <;> simp [places, h]
  rw [checkConnectionSetup, if_neg hboth]
  rw [Except.ok.injEq, show (places steps).selectCmdIdx = steps.idxOf? .select from rfl,
    show (places steps).cacheCmdIdx = steps.idxOf? .tracking from rfl]
  generalize checkAuth results (places steps) = x,
    checkAt results (steps.idxOf? .select) "Missing SELECT DB response" checkDbSelect = y,
    checkAt results (steps.idxOf? .tracking) "Missing Caching response" checkCaching = z
  rcases x with e | _ | _ <;> rcases y with e | _ <;> rcases z with e | _ <;> cases r <;>
    simp [bind, Except.bind, pure, Except.pure]

theorem checkConnectionSetup_succeeded_iff (hnd : steps.Nodup) (hone : ¬ (.hello ∈ steps ∧ .auth ∈ steps))
    (hlen : results.length = steps.length) :
    checkConnectionSetup results (places steps) = .ok (.ok .succeeded) ↔ SetUp steps results := by
  have hlib : ∀ step : SetupStep, (∀ v, step.Accepts v) → Accepted steps results step := by
    intro step hacc i hi
    have hlt := (List.getElem?_eq_some_iff.1 hi).1
    exact ⟨results[i], getElem?_eq_getElem (by omega), hacc _⟩
  have hsetUp : SetUp steps results ↔ (Accepted steps results .hello ∧ Accepted steps results .auth) ∧
      Accepted steps results .select ∧ Accepted steps results .tracking := by
    constructor
    · exact fun h => ⟨⟨h _, h _⟩, h _, h _⟩
    · rintro ⟨⟨hhello, hauth⟩, hsel, htracking⟩ (_ | _ | _ | _ | _ | _)
      · exact hhello
      · exact hauth
      · exact hsel
      · exact htracking
      · exact hlib _ fun _ => trivial
      · exact hlib _ fun _ => trivial
  rw [hsetUp, ← checkAuth_succeeded_iff hnd hone,
    ← checkAt_ok_iff hnd checkDbSelect_ok_iff "Missing SELECT DB response",
    ← checkAt_ok_iff hnd checkCaching_ok_iff "Missing Caching response", checkConnectionSetup_ok_iff results hone]
  simp

theorem checkConnectionSetup_retry_iff (hnd : steps.Nodup) (hone : ¬ (.hello ∈ steps ∧ .auth ∈ steps)) :
    checkConnectionSetup results (places steps) = .ok (.ok .shouldRetryWithoutUsername) ↔
      AsksForRetry steps results := by
  rw [← checkAuth_retry_iff hnd hone, checkConnectionSetup_ok_iff results hone]
  exact ⟨fun h => h.1, fun h => ⟨h, nofun⟩⟩

end Checks

section Rounds

variable {info : RedisConnectionInfo} {cacheConfig : Option CacheConfig}

variable {t : SetupRounds}

theorem ends_executeConnectionPipeline {setup : Pipeline × ConnectionSetupComponents}
    {r : Ends (RedisResult AuthResult)} :
    (executeConnectionPipeline setup).Ends t r ↔
      (setup.1.commands = [] ∧ t = [] ∧ r = .ok (.ok .succeeded)) ∨
      (setup.1.commands ≠ [] ∧ ∃ answer, t = [(setup.1, answer)] ∧ r = checkAnswer setup.2 answer) := by
  have hisEmpty : setup.1.isEmpty = true ↔ setup.1.commands = [] := List.isEmpty_iff
  by_cases hemp : setup.1.commands = []
  · rw [executeConnectionPipeline, if_pos (hisEmpty.2 hemp), Dialogue.ends_pure]
    simp [hemp, eq_comm]
  · rw [executeConnectionPipeline, if_neg (fun h => hemp (hisEmpty.1 h)), Dialogue.ends_answerTo_bind]
    simp only [Dialogue.ends_pure, hemp, false_and, false_or, ne_eq, not_false_eq_true, true_and]
    constructor
    · rintro ⟨answer, _, rfl, rfl, rfl⟩
      exact ⟨answer, rfl, rfl⟩
    · rintro ⟨answer, rfl, rfl⟩
      exact ⟨answer, [], rfl, rfl, rfl⟩

variable {a : AuthResult} {checkUsername : Bool}

theorem checkAnswer_eq_ok {idx : ConnectionSetupComponents} {answer : Ends (RedisResult (List Value))}
    (h : checkAnswer idx answer = .ok (.ok a)) :
    ∃ results, answer = .ok (.ok results) ∧ checkConnectionSetup results idx = .ok (.ok a) := by
  rcases answer with panic | err | results
  · cases h
  · cases h
  · exact ⟨results, rfl, h⟩

theorem ends_round_iff :
    (executeConnectionPipeline (connectionSetupPipeline info checkUsername cacheConfig)).Ends t (.ok (.ok a)) ↔
      (setupSteps info cacheConfig = [] ∧ t = [] ∧ a = .succeeded) ∨
      (setupSteps info cacheConfig ≠ [] ∧
        ∃ results, t = [((connectionSetupPipeline info checkUsername cacheConfig).1, .ok (.ok results))] ∧
          checkConnectionSetup results (places (setupSteps info cacheConfig)) = .ok (.ok a)) := by
  rw [ends_executeConnectionPipeline, connectionSetupPipeline_commands, places_connectionSetupPipeline, map_eq_nil_iff,
    ne_eq, map_eq_nil_iff]
  refine or_congr ?_ (and_congr_right fun _ => ?_)
  · simp
  · constructor
    · rintro ⟨answer, rfl, hcheck⟩
      obtain ⟨results, rfl, hress⟩ := checkAnswer_eq_ok hcheck.symm
      exact ⟨results, rfl, hress⟩
    · rintro ⟨results, rfl, hcheck⟩
      exact ⟨_, rfl, hcheck.symm⟩

theorem ends_setupConnection_iff :
    (setupConnection info cacheConfig).Ends t (.ok (.ok ())) ↔
      (executeConnectionPipeline (connectionSetupPipeline info true cacheConfig)).Ends t (.ok (.ok .succeeded)) ∨
      ∃ t₁ t₂ a, t = t₁ ++ t₂ ∧
        (executeConnectionPipeline (connectionSetupPipeline info true cacheConfig)).Ends t₁
          (.ok (.ok .shouldRetryWithoutUsername)) ∧
        (executeConnectionPipeline (connectionSetupPipeline info false cacheConfig)).Ends t₂ (.ok (.ok a)) := by
  rw [setupConnection, Dialogue.ends_bind]
  constructor
  · rintro ⟨t₁, t₂, r₁, rfl, h₁, h₂⟩
    rcases r₁ with panic | err | _ | _
    · cases (Dialogue.ends_pure.1 h₂).2
    · cases (Dialogue.ends_pure.1 h₂).2
    · obtain ⟨rfl, -⟩ := Dialogue.ends_pure.1 h₂
      rw [append_nil]
      exact .inl h₁
    · obtain ⟨t₂, t₃, r₂, rfl, hsecond, h₃⟩ := Dialogue.ends_bind.1 h₂
      rcases r₂ with panic | err | a
      · cases (Dialogue.ends_pure.1 h₃).2
      · cases (Dialogue.ends_pure.1 h₃).2
      · obtain ⟨rfl, -⟩ := Dialogue.ends_pure.1 h₃
        exact .inr ⟨t₁, t₂, a, by rw [append_nil], h₁, hsecond⟩
  · rintro (h | ⟨t₁, t₂, a, rfl, h₁, h₂⟩)
    · exact ⟨t, [], _, (append_nil t).symm, h, Dialogue.ends_pure.2 ⟨rfl, rfl⟩⟩
    · exact ⟨t₁, t₂, _, rfl, h₁,
        Dialogue.ends_bind.2 ⟨t₂, [], _, (append_nil t₂).symm, h₂, Dialogue.ends_pure.2 ⟨rfl, rfl⟩⟩⟩

theorem sent_of_ends_round
    (h : (executeConnectionPipeline (connectionSetupPipeline info checkUsername cacheConfig)).Ends t (.ok (.ok a))) :
    ∀ round ∈ t, round.1 = (connectionSetupPipeline info checkUsername cacheConfig).1 ∧ round.1.commands ≠ [] := by
  rcases ends_round_iff.1 h with ⟨-, rfl, -⟩ | ⟨hne, results, rfl, -⟩
  · exact fun round hround => absurd hround not_mem_nil
  · intro round hround
    rw [mem_singleton.1 hround, connectionSetupPipeline_commands, ne_eq, map_eq_nil_iff]
    exact ⟨rfl, hne⟩

theorem sent_of_ends (h : (setupConnection info cacheConfig).Ends t (.ok (.ok ()))) :
    ∀ round ∈ t, ∃ checkUsername, round.1 = (connectionSetupPipeline info checkUsername cacheConfig).1 ∧
      round.1.commands ≠ [] := by
  rcases ends_setupConnection_iff.1 h with h | ⟨t₁, t₂, a, rfl, h₁, h₂⟩
  · exact fun round hround => ⟨true, sent_of_ends_round h round hround⟩
  · intro round hround
    rcases mem_append.1 hround with hround | hround
    · exact ⟨true, sent_of_ends_round h₁ round hround⟩
    · exact ⟨false, sent_of_ends_round h₂ round hround⟩

end Rounds

/-- Each round is given the next replies, one for each of its commands, and there are no others. -/
def OwnReplies : SetupRounds → List Value → Prop
  | [], replies => replies = []
  | (pipeline, answer) :: rounds, replies =>
    ∃ own later, replies = own ++ later ∧ own.length = pipeline.len ∧ answer = .ok (.ok own) ∧ OwnReplies rounds later

variable {rounds : SetupRounds} {replies : List Value}

theorem OwnReplies.length_eq (h : OwnReplies rounds replies) :
    replies.length = (rounds.map fun round => round.1.len).sum := by
  induction rounds generalizing replies with
  | nil => rw [show replies = [] from h]; rfl
  | cons round rounds ih =>
    obtain ⟨own, later, rfl, hlen, -, hlater⟩ := h
    rw [length_append, hlen, ih hlater, map_cons, sum_cons]

theorem ownReplies_replyPart_iff {taken : List Value} (h : OwnReplies rounds taken) :
    OwnReplies rounds (replyPart taken) ↔ ∀ v ∈ taken, v.isPush = false := by
  constructor
  · intro hreps v hv
    have hlen : (replyPart taken).length = taken.length := hreps.length_eq.trans h.length_eq.symm
    have hall := length_filter_eq_length_iff.1 hlen v hv
    simpa using hall
  · intro hpush
    rw [replyPart_eq_self hpush]
    exact h

theorem ownReplies_of_serve {σ : Type} {answer : Pipeline → σ → Option (Ends (RedisResult (List Value)) × σ)}
    (Left : σ → List Value → Prop) (part : List Value → List Value) (hnil : part [] = [])
    (happend : ∀ a b, part (a ++ b) = part a ++ part b)
    (hstep : ∀ {pipeline s stream out s'}, pipeline.commands ≠ [] → Left s stream → answer pipeline s = some (out, s') →
      ∃ taken rest, stream = taken ++ rest ∧ Left s' rest ∧ out = .ok (.ok (part taken)) ∧
        (part taken).length = pipeline.len)
    {info : RedisConnectionInfo} {cacheConfig : Option CacheConfig} {s s' : σ} {stream : List Value}
    (hleft : Left s stream) (h : (setupConnection info cacheConfig).serve answer s = some (.ok (.ok ()), rounds, s')) :
    ∃ taken rest, stream = taken ++ rest ∧ Left s' rest ∧ OwnReplies rounds (part taken) := by
  obtain ⟨hends, hans⟩ := (Dialogue.serve_eq_some_iff _).1 h
  have hne : ∀ round ∈ rounds, round.1.commands ≠ [] := fun round hround =>
    (sent_of_ends hends round hround).elim fun _ hsent => hsent.2
  clear h hends
  induction rounds generalizing s stream with
  | nil =>
    cases hans
    exact ⟨[], stream, rfl, hleft, hnil⟩
  | cons round rounds ih =>
    rcases round with ⟨pipeline, out⟩
    obtain ⟨s₁, hanr, hans⟩ := hans
    obtain ⟨hpipe, hrounds⟩ := forall_mem_cons.1 hne
    obtain ⟨own, stream₁, rfl, hleft₁, hout, hlen⟩ := hstep hpipe hleft hanr
    obtain ⟨later, rest, rfl, hrest, hlater⟩ := ih hleft₁ hans hrounds
    refine ⟨own ++ later, rest, (append_assoc ..).symm, hrest, ?_⟩
    rw [happend]
    exact ⟨part own, part later, rfl, hlen, hout, hlater⟩

section Implementations

variable {info : RedisConnectionInfo} {cacheConfig : Option CacheConfig} {stream : List Value} {rounds : SetupRounds}

theorem Connection.setup_taken {con : Connection} {wire : Wire}
    (h : Connection.setup info cacheConfig (stream.map .ok) = some (.ok (.ok ()), rounds, con, wire)) :
    ∃ taken rest, stream = taken ++ rest ∧ wire = rest.map .ok ∧ OwnReplies rounds (replyPart taken) := by
  obtain ⟨taken, rest, rfl, ⟨-, hwire⟩, hown⟩ :=
    ownReplies_of_serve (fun s stream => s.1.Idle ∧ s.2 = stream.map .ok) replyPart rfl
      (fun a b => filter_append a b) (fun {pipeline s stream out s'} hpipe hleft hans => by
        rcases s with ⟨con, _⟩
        rcases s' with ⟨con', wire'⟩
        obtain ⟨hidle, rfl⟩ := hleft
        have hpos : 0 < pipeline.len := length_pos_iff.2 hpipe
        obtain ⟨hidle', taken, rest, rfl, hwire, hout, hlen⟩ :=
          reqPackedCommands_taken hidle (encodePipeline_ne_nil (.inl hpipe)) hpos hans
        exact ⟨taken, rest, rfl, ⟨hidle', hwire⟩, hout, hlen⟩)
      ⟨fresh_idle _, rfl⟩ h
  exact ⟨taken, rest, rfl, hwire, hown⟩

theorem Codec.nextValues_taken {count : Nat} {out : RedisResult (List Value)} {wire : Wire}
    (h : nextValues count (stream.map .ok) = some (out, wire)) :
    ∃ taken rest, stream = taken ++ rest ∧ wire = rest.map .ok ∧ out = .ok taken ∧ taken.length = count := by
  induction count generalizing stream out wire with
  | zero =>
    cases h
    exact ⟨[], stream, rfl, rfl, rfl, rfl⟩
  | succ count ih =>
    rcases stream with _ | ⟨v, stream⟩
    · cases h
    · obtain ⟨⟨results, wire₁⟩, hnext, hout⟩ := Option.map_eq_some_iff.1 h
      obtain ⟨taken, rest, rfl, rfl, rfl, rfl⟩ := ih hnext
      cases hout
      exact ⟨v :: taken, rest, rfl, rfl, rfl, rfl⟩

theorem Codec.setup_taken {codec : Codec}
    (h : Codec.setup info cacheConfig (.opened stream) = some (.ok (.ok ()), rounds, codec)) :
    ∃ taken rest, stream = taken ++ rest ∧ codec.stream = rest.map .ok ∧ OwnReplies rounds taken := by
  obtain ⟨taken, rest, rfl, ⟨-, hstr⟩, hown⟩ :=
    ownReplies_of_serve (fun s stream => s.sendError = none ∧ s.stream = stream.map .ok) id rfl (fun _ _ => rfl)
      (fun {pipeline s stream out s'} _ hleft hans => by
        obtain ⟨hsend, hstr⟩ := hleft
        simp only [results, hsend, hstr] at hans
        obtain ⟨⟨values, wire⟩, hnext, hout⟩ := Option.map_eq_some_iff.1 hans
        obtain ⟨taken, rest, rfl, rfl, rfl, hlen⟩ := nextValues_taken hnext
        cases hout
        exact ⟨taken, rest, rfl, ⟨rfl, rfl⟩, rfl, hlen⟩)
      ⟨rfl, rfl⟩ h
  exact ⟨taken, rest, rfl, hstr, hown⟩

end Implementations

/-- The commands of a setup are those of its steps, and the replies that are looked at are those at the places of their
steps. The blocking setup gives each round the replies to its own commands and leaves what follows them unread. The
asynchronous one does so exactly if none of the values it takes is a push. -/
theorem setup_takes_own_replies (info : RedisConnectionInfo) (cacheConfig : Option CacheConfig) (stream : List Value) :
    (∀ checkUsername, (connectionSetupPipeline info checkUsername cacheConfig).1.commands =
        (setupSteps info cacheConfig).map (command info checkUsername cacheConfig) ∧
      (connectionSetupPipeline info checkUsername cacheConfig).2 = places (setupSteps info cacheConfig)) ∧
    (∀ rounds con wire, Connection.setup info cacheConfig (stream.map .ok) = some (.ok (.ok ()), rounds, con, wire) →
      (∀ round ∈ rounds, ∃ checkUsername, round.1 = (connectionSetupPipeline info checkUsername cacheConfig).1) ∧
      ∃ taken rest, stream = taken ++ rest ∧ wire = rest.map .ok ∧ OwnReplies rounds (replyPart taken)) ∧
    (∀ rounds codec, Codec.setup info cacheConfig (.opened stream) = some (.ok (.ok ()), rounds, codec) →
      (∀ round ∈ rounds, ∃ checkUsername, round.1 = (connectionSetupPipeline info checkUsername cacheConfig).1) ∧
      ∃ taken rest, stream = taken ++ rest ∧ codec.stream = rest.map .ok ∧
        (OwnReplies rounds (replyPart taken) ↔ ∀ v ∈ taken, v.isPush = false)) := by
  have hsent : ∀ {rounds}, (setupConnection info cacheConfig).Ends rounds (.ok (.ok ())) → ∀ round ∈ rounds,
      ∃ checkUsername, round.1 = (connectionSetupPipeline info checkUsername cacheConfig).1 :=
    fun h round hround => (sent_of_ends h round hround).imp fun _ hsent => hsent.1
  refine ⟨fun checkUsername => ⟨connectionSetupPipeline_commands .., places_connectionSetupPipeline ..⟩,
    fun rounds con wire h => ⟨hsent ((Dialogue.serve_eq_some_iff _).1 h).1, Connection.setup_taken h⟩,
    fun rounds codec h => ⟨hsent ((Dialogue.serve_eq_some_iff _).1 h).1, ?_⟩⟩
  obtain ⟨taken, rest, hstream, hrest, hown⟩ := Codec.setup_taken h
  exact ⟨taken, rest, hstream, hrest, ownReplies_replyPart_iff hown⟩

def resp3Info : RedisConnectionInfo := ⟨0, none, none, .resp3, false, none, none⟩

theorem resp3Info_takes_own_replies :
    ∃ rounds con, Connection.setup resp3Info (some .new)
        ([.map [], .okay, .push .invalidate [.nil], .okay, .okay].map .ok) = some (.ok (.ok ()), rounds, con, []) ∧
      ∃ taken rest, [.map [], .okay, .push .invalidate [.nil], .okay, .okay] = taken ++ rest ∧
        ([] : Wire) = rest.map .ok ∧ OwnReplies rounds (replyPart taken) :=
  ⟨_, _, rfl, ((setup_takes_own_replies resp3Info (some .new) _).2.1 _ _ _ rfl).2⟩

theorem invalidation_is_taken_for_a_reply :
    (Codec.setup resp3Info (some .new) (.opened [.map [], .okay, .push .invalidate [.nil], .okay, .okay])).map
        (fun s => (s.1, s.2.1.map Prod.snd, s.2.2.stream)) =
      some (.ok (.ok ()), [.ok (.ok [.map [], .okay, .push .invalidate [.nil], .okay])], [.ok .okay]) := rfl

/-- Every step was accepted in the last round. -/
def LastSetUp (steps : List SetupStep) (rounds : SetupRounds) : Prop :=
  ∀ pipeline results, rounds.getLast? = some (pipeline, .ok (.ok results)) → SetUp steps results

/-- The second round is asked to try again, like the first. -/
def RetryRefused (steps : List SetupStep) (rounds : SetupRounds) : Prop :=
  ∃ first pipeline results, rounds = [first, (pipeline, .ok (.ok results))] ∧ AsksForRetry steps results

theorem OwnReplies.length_results {pipeline : Pipeline} (h : OwnReplies rounds replies)
    (hmem : (pipeline, .ok (.ok results)) ∈ rounds) : results.length = pipeline.len := by
  induction rounds generalizing replies with
  | nil => cases hmem
  | cons round rounds ih =>
    obtain ⟨own, later, rfl, hlen, hans, hlater⟩ := h
    rcases mem_cons.1 hmem with rfl | hmem
    · cases hans
      exact hlen
    · exact ih hlater hmem

theorem AsksForRetry.not_setUp {steps : List SetupStep} (h : AsksForRetry steps results) : ¬ SetUp steps results := by
  obtain ⟨i, err, errMsg, hi, hv, -⟩ := h
  intro hsetUp
  obtain ⟨v, hv', hacc⟩ := hsetUp .auth i hi
  rw [hv, hacc] at hv'
  cases hv'

section Told

variable {info : RedisConnectionInfo} {cacheConfig : Option CacheConfig}

theorem lastSetUp_iff {rounds : SetupRounds} {replies : List Value}
    (hends : (setupConnection info cacheConfig).Ends rounds (.ok (.ok ()))) (hown : OwnReplies rounds replies) :
    LastSetUp (setupSteps info cacheConfig) rounds ↔ ¬ RetryRefused (setupSteps info cacheConfig) rounds := by
  have hnd := setupSteps_nodup info cacheConfig
  have hone := not_hello_and_auth info cacheConfig
  have hlen : ∀ {checkUsername results},
      ((connectionSetupPipeline info checkUsername cacheConfig).1, .ok (.ok results)) ∈ rounds →
      results.length = (setupSteps info cacheConfig).length := fun hmem =>
    (hown.length_results hmem).trans (len_connectionSetupPipeline ..)
  rcases ends_setupConnection_iff.1 hends with h | ⟨t₁, t₂, a, rfl, h₁, h₂⟩
  · rcases ends_round_iff.1 h with ⟨-, rfl, -⟩ | ⟨-, results, rfl, hcheck⟩
    · refine iff_of_true (nofun) ?_
      rintro ⟨first, pipeline, results, heq, -⟩
      cases heq
    · refine iff_of_true (fun pipeline results' hlast => ?_) ?_
      · cases hlast
        exact (checkConnectionSetup_succeeded_iff hnd hone (hlen mem_cons_self)).1 hcheck
      · rintro ⟨first, pipeline, results, heq, -⟩
        cases heq
  · rcases ends_round_iff.1 h₁ with ⟨-, -, hsucc⟩ | ⟨-, results₁, rfl, hcheck₁⟩
    · cases hsucc
    · rcases ends_round_iff.1 h₂ with ⟨hnil, -, -⟩ | ⟨-, results₂, rfl, hcheck₂⟩
      · -- a round that asks for another one has sent `AUTH`
        obtain ⟨i, err, errMsg, hi, -⟩ := (checkConnectionSetup_retry_iff hnd hone).1 hcheck₁
        rw [hnil] at hi
        cases hi
      · have hlen₂ := hlen (mem_append_right _ mem_cons_self)
        rcases a with _ | _
        · have hsetUp := (checkConnectionSetup_succeeded_iff hnd hone hlen₂).1 hcheck₂
          refine iff_of_true (fun pipeline results hlast => ?_) ?_
          · cases hlast
            exact hsetUp
          · rintro ⟨first, pipeline, results, heq, hretry⟩
            cases heq
            exact hretry.not_setUp hsetUp
        · have hretry := (checkConnectionSetup_retry_iff hnd hone).1 hcheck₂
          refine iff_of_false (fun hlast => hretry.not_setUp (hlast _ _ rfl)) fun hno => hno ?_
          exact ⟨_, _, _, rfl, hretry⟩

variable {results : List Value}

theorem exists_serve_of_setUp {σ : Type} {answer : Pipeline → σ → Option (Ends (RedisResult (List Value)) × σ)}
    {s : σ} (hlen : results.length = (setupSteps info cacheConfig).length)
    (hsetUp : SetUp (setupSteps info cacheConfig) results)
    (hans : (connectionSetupPipeline info true cacheConfig).1.commands ≠ [] → ∃ s',
      answer (connectionSetupPipeline info true cacheConfig).1 s = some (.ok (.ok results), s')) :
    ∃ rounds s', (setupConnection info cacheConfig).serve answer s = some (.ok (.ok ()), rounds, s') := by
  by_cases hnil : setupSteps info cacheConfig = []
  · refine ⟨[], s, (Dialogue.serve_eq_some_iff _).2 ⟨ends_setupConnection_iff.2 (.inl ?_), rfl⟩⟩
    exact ends_round_iff.2 (.inl ⟨hnil, rfl, rfl⟩)
  · obtain ⟨s', hs'⟩ := hans (by rwa [connectionSetupPipeline_commands, ne_eq, map_eq_nil_iff])
    refine ⟨[((connectionSetupPipeline info true cacheConfig).1, .ok (.ok results))], s',
      (Dialogue.serve_eq_some_iff _).2 ⟨ends_setupConnection_iff.2 (.inl ?_), s', hs', rfl⟩⟩
    have hcheck := (checkConnectionSetup_succeeded_iff (setupSteps_nodup info cacheConfig)
      (not_hello_and_auth info cacheConfig) hlen).2 hsetUp
    exact ends_round_iff.2 (.inr ⟨hnil, results, rfl, hcheck⟩)

theorem Connection.exists_setup_of_setUp (hlen : results.length = (setupSteps info cacheConfig).length)
    (hpush : ∀ v ∈ results, v.isPush = false) (hsetUp : SetUp (setupSteps info cacheConfig) results) :
    ∃ rounds s, Connection.setup info cacheConfig (results.map .ok) = some (.ok (.ok ()), rounds, s) := by
  refine exists_serve_of_setUp hlen hsetUp fun hne => ?_
  have hreps : (replyPart results).length = 0 + (connectionSetupPipeline info true cacheConfig).1.len := by
    rw [replyPart_eq_self hpush, hlen, len_connectionSetupPipeline, Nat.zero_add]
  obtain ⟨con', h⟩ := reqPackedCommands_stream (fresh_idle info.protocol) (encodePipeline_ne_nil (.inl hne)) hreps
    (fun v hv => hpush v (mem_of_getLast? hv)) (fun _ h0 => absurd h0 (Nat.lt_irrefl 0)) []
  rw [append_nil, refusals_eq_nil_of_le (Nat.le_refl 0), drop_zero, replyPart_eq_self hpush] at h
  exact ⟨_, h⟩

theorem Codec.nextValues_map_ok (results : List Value) (rest : Wire) :
    nextValues results.length (results.map .ok ++ rest) = some (.ok results, rest) := by
  induction results with
  | nil => rfl
  | cons v results ih =>
    rw [length_cons, map_cons, cons_append, nextValues, ih]
    rfl

theorem Codec.exists_setup_of_setUp (hlen : results.length = (setupSteps info cacheConfig).length)
    (hsetUp : SetUp (setupSteps info cacheConfig) results) :
    ∃ rounds s, Codec.setup info cacheConfig (.opened results) = some (.ok (.ok ()), rounds, s) := by
  refine exists_serve_of_setUp hlen hsetUp fun _ => ?_
  have h := nextValues_map_ok results []
  rw [append_nil, hlen, ← len_connectionSetupPipeline info true cacheConfig] at h
  simp only [Codec.results, opened, h]
  exact ⟨_, rfl⟩

/-- A setup that returns on a stream without pushes was told so in its last round, unless the second `AUTH` was refused
like the first. A setup whose first replies are accepted returns, whatever the replies to `CLIENT SETINFO` are. -/
theorem setup_returns_set_up (info : RedisConnectionInfo) (cacheConfig : Option CacheConfig) :
    (∀ stream : List Value, (∀ v ∈ stream, v.isPush = false) → ∀ rounds,
      ((∃ s, Connection.setup info cacheConfig (stream.map .ok) = some (.ok (.ok ()), rounds, s)) ∨
        ∃ s, Codec.setup info cacheConfig (.opened stream) = some (.ok (.ok ()), rounds, s)) →
      (LastSetUp (setupSteps info cacheConfig) rounds ↔ ¬ RetryRefused (setupSteps info cacheConfig) rounds)) ∧
    (∀ results : List Value, results.length = (setupSteps info cacheConfig).length →
      (∀ v ∈ results, v.isPush = false) → SetUp (setupSteps info cacheConfig) results →
      (∃ rounds s, Connection.setup info cacheConfig (results.map .ok) = some (.ok (.ok ()), rounds, s)) ∧
        ∃ rounds s, Codec.setup info cacheConfig (.opened results) = some (.ok (.ok ()), rounds, s)) := by
  constructor
  · rintro stream - rounds (⟨⟨con, wire⟩, h⟩ | ⟨codec, h⟩)
    · obtain ⟨taken, rest, -, -, hown⟩ := Connection.setup_taken h
      exact lastSetUp_iff ((Dialogue.serve_eq_some_iff _).1 h).1 hown
    · obtain ⟨taken, rest, -, -, hown⟩ := Codec.setup_taken h
      exact lastSetUp_iff ((Dialogue.serve_eq_some_iff _).1 h).1 hown
  · exact fun results hlen hpush hsetUp => ⟨Connection.exists_setup_of_setUp hlen hpush hsetUp,
      Codec.exists_setup_of_setUp hlen hsetUp⟩

def authArityError : Value := .serverError (.known .responseError (some "wrong number of arguments for 'auth' command"))

def passwordInfo : RedisConnectionInfo := ⟨0, none, some "secret", .resp2, true, none, none⟩

theorem passwordInfo_returns_set_up :
    ∃ rounds s, Connection.setup passwordInfo none [.ok authArityError, .ok .okay] = some (.ok (.ok ()), rounds, s) ∧
      (LastSetUp (setupSteps passwordInfo none) rounds ↔ ¬ RetryRefused (setupSteps passwordInfo none) rounds) :=
  ⟨_, _, rfl, (setup_returns_set_up passwordInfo none).1 [authArityError, .okay] (by decide) _ (.inl ⟨_, rfl⟩)⟩

theorem refused_authentication_goes_unnoticed :
    (Connection.setup passwordInfo none [.ok authArityError, .ok authArityError]).map
        (fun s => (s.1, s.2.1.map Prod.snd)) =
      some (.ok (.ok ()), [.ok (.ok [authArityError]), .ok (.ok [authArityError])]) ∧
    (Codec.setup passwordInfo none (.opened [authArityError, authArityError])).map
        (fun s => (s.1, s.2.1.map Prod.snd)) =
      some (.ok (.ok ()), [.ok (.ok [authArityError]), .ok (.ok [authArityError])]) := ⟨rfl, rfl⟩

end Told

end RedisRs
