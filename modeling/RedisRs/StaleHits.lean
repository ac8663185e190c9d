import RedisRs.CacheDriver
import RedisRs.Invalidation
import RedisRs.Run

/-!
# Hits on stale replies

The driver invalidates as it reads; a caller inserts later, perhaps after that invalidation.
-/

namespace RedisRs

open Function List CacheManager

namespace CachedConnection

variable {E : CacheEnv}

/-- The value is result number `i` of those read. -/
def ReadAt (history : List (RedisResult Value)) (v : Value) (i : Nat) : Prop := history[i]? = some (.ok v)

/-- All that names a key of the argument list as invalid was read before result number `i`. -/
def SentAfter (history : List (RedisResult Value)) (i : Nat) (args : List Bytes) : Prop :=
  ∀ j data key, ReadAt history (.push .invalidate data) j → key ∈ readKeys args → Names data key → j < i

/-- What the cache answers with was sent after the last push that names a key of it. -/
def NoStaleHit (s : CachedConnection E) : Prop :=
  ∀ m clock (q : ByteCmd) value m', s.sink.cacheManager = some m → m.getCachedCmd clock q.cmd = .ok (.cached value, m') →
    ∃ values, value = replyOf q.args values ∧ values.length = (reads q.args).length ∧
      ∀ (j : Nat) args v, (reads q.args)[j]? = some args → values[j]? = some v →
        (∃ reply, ReadAt s.history reply (s.stamp (entryKey args)) ∧ Carries reply v) ∧
          SentAfter s.history (s.stamp (entryKey args)) args

/-- The replies that depend on a key of the push are inserted or given up, and filed under its first name. -/
def Settled (s : CachedConnection E) (data : List Value) : Prop :=
  ∀ args key, key ∈ readKeys args → Names data key →
    (∀ output command, s.prepared output = some command → output ∉ s.dropped →
      entryKey args ∈ command.pairs → (s.arrived output).length ≤ command.valueIndex s.mode) ∧
    ∀ m x, s.sink.cacheManager = some m → m.lru.content (entryKey args) = some x →
      droppedKey data = some (entryKey args).1

/-- Each invalidation of the run finds the replies it concerns settled. -/
def SettledStep (s : CachedConnection E) (task : CacheTask) : Prop :=
  ∀ data, task = .receive (.ok (.push .invalidate data)) → s.Settled data

section Record

variable {history : List (RedisResult Value)} {result : RedisResult Value} {args : List Bytes} {i : Nat}

theorem ReadAt.append {v : Value} (h : ReadAt history v i) : ReadAt (history ++ [result]) v i :=
  (getElem?_append_left (List.getElem?_eq_some_iff.1 h).1).trans h

theorem readAt_append {v : Value} (h : ReadAt (history ++ [result]) v i) :
    ReadAt history v i ∨ i = history.length ∧ result = .ok v := by
  rw [ReadAt, getElem?_append] at h
  split at h
  · exact .inl h
  · rw [getElem?_singleton, Option.ite_none_right_eq_some] at h
    exact .inr ⟨by omega, Option.some.inj h.2⟩

theorem SentAfter.append (h : SentAfter history i args)
    (hr : ∀ data key, result = .ok (.push .invalidate data) → key ∈ readKeys args → ¬ Names data key) :
    SentAfter (history ++ [result]) i args := by
  intro j data key hj hkey hnames
  rcases readAt_append hj with hj | ⟨-, hdata⟩
  · exact h j data key hj hkey hnames
  · exact (hr data key hdata hkey hnames).elim

theorem sentAfter_last (hr : ∀ data, result ≠ .ok (.push .invalidate data)) :
    SentAfter (history ++ [result]) history.length args := by
  intro j data key hj _ _
  rcases readAt_append hj with hj | ⟨-, hdata⟩
  · exact (List.getElem?_eq_some_iff.1 hj).1
  · exact (hr data hdata).elim

/-- The entry collects replies, and these are where they stand. -/
def Collects (history : List (RedisResult Value)) (aggregate : ResponseAggregate) (positions : List Nat) : Prop :=
  ∃ buffer errs expectation, aggregate = .pipeline buffer errs expectation ∧
    expectation.skippedResponseCount = 0 ∧ Forall₂ (ReadAt history) buffer positions

variable {errs : ErrorOrErrors} {buffer : List Value}

theorem response_eq_ok {v : Value} (h : errs.response buffer = .ok v) : v = .array buffer := by
  unfold ErrorOrErrors.response at h
  split at h <;> cases h
  rfl

theorem receive_eq {expectation : PipelineResponseExpectation} (hskip : expectation.skippedResponseCount = 0)
    (result : RedisResult Value) :
    ∃ errs', (ResponseAggregate.pipeline buffer errs expectation).receive result =
      if (buffer ++ result.toOption.toList).length < expectation.expectedResponseCount then
        .ok (.inl (.pipeline (buffer ++ result.toOption.toList) errs'
          { expectation with seenResponses := expectation.seenResponses + 1 }))
      else .ok (.inr (errs'.response (buffer ++ result.toOption.toList))) := by
  have h0 : ¬ 0 < expectation.skippedResponseCount := by omega
  cases result with
  | ok item =>
    refine ⟨errs, ?_⟩
    rw [ResponseAggregate.receive, if_neg h0]
    rfl
  | error err =>
    refine ⟨errs.fail err, ?_⟩
    have hnone : buffer ++ (Except.error err : RedisResult Value).toOption.toList = buffer := append_nil _
    rw [ResponseAggregate.receive, if_neg h0, hnone]
    rfl

theorem Collects.receive {aggregate : ResponseAggregate} {positions : List Nat}
    (h : Collects history aggregate positions) (hr : ∀ v, result = .ok v → v.isNonReplyPush = false) :
    (∀ aggregate', aggregate.receive result = .ok (.inl aggregate') →
      Collects (history ++ [result]) aggregate' (positions ++ noted history.length result)) ∧
    ∀ v, aggregate.receive result = .ok (.inr (.ok v)) → ∃ values, v = .array values ∧
      Forall₂ (ReadAt (history ++ [result])) values (positions ++ noted history.length result) := by
  obtain ⟨buffer, errs, expectation, rfl, hskip, hbuf⟩ := h
  have hbuf' : Forall₂ (ReadAt (history ++ [result]))
      (buffer ++ result.toOption.toList)
      (positions ++ noted history.length result) := by
    refine rel_append (hbuf.imp fun _ _ h => h.append) ?_
    cases result with
    | ok item =>
      rw [noted, hr item rfl]
      exact .cons getElem?_concat_length .nil
    | error err => exact .nil
  obtain ⟨errs', heq⟩ := receive_eq hskip result
  rw [heq]
  constructor
  · intro aggregate' h
    split at h <;> cases h
    exact ⟨_, _, _, rfl, hskip, hbuf'⟩
  · intro v h
    split at h
    · cases h
    · exact ⟨_, response_eq_ok (Sum.inr.inj (Except.ok.inj h)), hbuf'⟩

end Record

def outputs (s : CachedConnection E) : List Output :=
  s.sink.inFlight.filterMap (·.output) ++ s.channel.filterMap (·.output)

/-- Each request waits in one place, and what its entry or its caller has is where the record says. -/
structure Recorded (s : CachedConnection E) : Prop where
  nodup : s.outputs.Nodup
  used : ∀ output ∈ s.outputs, output < s.nextOutput
  unused : ∀ output, s.nextOutput ≤ output → s.arrived output = [] ∧ s.mailbox output = none
  waiting : ∀ output ∈ s.outputs, s.mailbox output = none
  channel : ∀ message ∈ s.channel, ∀ output, message.output = some output →
    s.arrived output = [] ∧ (s.prepared output ≠ none → ∃ n, message.expectation = some ⟨0, n, false, 0⟩)
  queue : ∀ entry ∈ s.sink.inFlight, ∀ output, entry.output = some output → s.prepared output ≠ none →
    Collects s.history entry.responseAggregate (s.arrived output)
  mail : ∀ output v, s.prepared output ≠ none → s.mailbox output = some (.ok v) →
    v = .nil ∨ ∃ values, v = .array values ∧ Forall₂ (ReadAt s.history) values (s.arrived output)

/-- Nothing that is in the cache or on its way there is stale. -/
structure Current (s : CachedConnection E) : Prop where
  pending : ∀ output command, s.prepared output = some command → output ∉ s.dropped →
    ∀ i, (s.arrived output)[command.valueIndex s.mode]? = some i →
      ∀ args, entryKey args ∈ command.pairs → SentAfter s.history i args
  content : ∀ m args x, s.sink.cacheManager = some m → m.lru.content (entryKey args) = some x →
    (∃ reply, ReadAt s.history reply (s.stamp (entryKey args)) ∧ Carries reply x.value) ∧
      SentAfter s.history (s.stamp (entryKey args)) args

variable {s s' : CachedConnection E}

theorem Current.noStaleHit (h : s.Current) : s.NoStaleHit := by
  intro m clock q value m' hm hc
  obtain ⟨-, -, values, hvalue, hlen, hv⟩ := getCachedCmd_cached_iff.1 ⟨m', hc⟩
  refine ⟨values, hvalue, hlen, ?_⟩
  intro j args v hargs hval
  obtain ⟨x, hx, rfl, -⟩ := hv j args v hargs hval
  exact h.content m args x hm hx

theorem start_recorded (E : CacheEnv) (cacheConfig : CacheConfig) (pushSender : Option (List PushInfo)) :
    (start E cacheConfig pushSender).Recorded where
  nodup := nodup_nil
  used _ h := absurd h not_mem_nil
  unused _ _ := ⟨rfl, rfl⟩
  waiting _ h := absurd h not_mem_nil
  channel _ h := absurd h not_mem_nil
  queue _ h := absurd h not_mem_nil
  mail _ _ h := absurd rfl h

theorem start_current (E : CacheEnv) (cacheConfig : CacheConfig) (pushSender : Option (List PushInfo)) :
    (start E cacheConfig pushSender).Current where
  pending _ _ h := nomatch h
  content m args x hm hx := by
    obtain rfl := Option.some.inj hm
    have hnone : (new E cacheConfig).lru.content (entryKey args) = none :=
      ShardedLru.content_new cacheConfig.size _
    rw [hnone] at hx
    cases hx

theorem Recorded.setManager (h : s.Recorded) (m : CacheManager E) : (s.setManager m).Recorded :=
  ⟨h.nodup, h.used, h.unused, h.waiting, h.channel, h.queue, h.mail⟩

variable {m m' : CacheManager E}

theorem mode_setManager (hm : s.sink.cacheManager = some m) (hcfg : m'.cacheConfig = m.cacheConfig) :
    (s.setManager m').mode = s.mode := by
  simp [mode, setManager, hm, hcfg]

theorem Current.setManager (h : s.Current) (hm : s.sink.cacheManager = some m) (hf : CacheManager.Forgets m m') :
    (s.setManager m').Current := by
  refine ⟨?_, ?_⟩
  · rw [mode_setManager hm hf.cacheConfig]
    exact h.pending
  · intro m₁ args x hm₁ hx
    obtain rfl := Option.some.inj hm₁
    exact h.content m args x hm (hf.within _ x hx)

variable {output : Output}

theorem mem_outputs :
    output ∈ s.outputs ↔
      (∃ entry ∈ s.sink.inFlight, entry.output = some output) ∨ ∃ message ∈ s.channel, message.output = some output := by
  rw [outputs, mem_append, mem_filterMap, mem_filterMap]

variable {command : Option CacheableCommand} {clock : Nat → Instant} {c : Option Completion} {replies : List Value}

theorem Recorded.send (h : s.Recorded) {message : PipelineMessage} {mailbox : Output → Option (RedisResult Value)}
    (hout : ∀ output, message.output = some output → output = s.nextOutput ∧ mailbox output = none)
    (hold : ∀ output, output ≠ s.nextOutput → mailbox output = s.mailbox output)
    (hnil : ∀ v, mailbox s.nextOutput = some (.ok v) → v = .nil)
    (he : command ≠ none → ∃ n, message.expectation = some ⟨0, n, false, 0⟩) : Recorded { s with
      channel := s.channel ++ [message]
      prepared := update s.prepared s.nextOutput command
      mailbox
      nextOutput := s.nextOutput + 1 } := by
  have hne : ∀ output ∈ s.outputs, output ≠ s.nextOutput := fun o ho => Nat.ne_of_lt (h.used o ho)
  have houts : s.sink.inFlight.filterMap (·.output) ++ (s.channel ++ [message]).filterMap (·.output) =
      s.outputs ++ message.output.toList := by
    rw [filterMap_append, ← append_assoc, outputs]
    cases hm : message.output <;> simp [hm]
  have hmem : ∀ output ∈ s.outputs ++ message.output.toList,
      output ∈ s.outputs ∨ output = s.nextOutput ∧ mailbox output = none := by
    intro output ho
    rcases mem_append.1 ho with ho | ho
    · exact .inl ho
    · exact .inr (hout output (Option.mem_toList.1 ho))
  have hprep : ∀ output ∈ s.outputs,
      update s.prepared s.nextOutput command output = s.prepared output :=
    fun o ho => update_of_ne (hne o ho) _ _
  refine ⟨?_, ?_, ?_, ?_, ?_, ?_, ?_⟩
  · show (_ ++ _ : List Output).Nodup
    rw [houts]
    refine List.Nodup.append h.nodup ?_ ?_
    · cases message.output <;> simp
    · intro output ho ho'
      exact hne output ho (hout output (Option.mem_toList.1 ho')).1
  · intro output ho
    rw [outputs, houts] at ho
    rcases hmem output ho with ho | ⟨rfl, -⟩
    · exact Nat.lt_succ_of_lt (h.used output ho)
    · exact Nat.lt_succ_self _
  · intro output ho
    have hlt : s.nextOutput < output := ho
    obtain ⟨ha, hm⟩ := h.unused output (Nat.le_of_lt hlt)
    exact ⟨ha, (hold output (Nat.ne_of_gt hlt)).trans hm⟩
  · intro output ho
    rw [outputs, houts] at ho
    rcases hmem output ho with ho | ⟨-, hm⟩
    · exact (hold output (hne output ho)).trans (h.waiting output ho)
    · exact hm
  · intro message' hmem' output ho
    rcases mem_append.1 hmem' with hmem' | hmem'
    · have hin := mem_outputs.2 (.inr ⟨message', hmem', ho⟩)
      obtain ⟨ha, hexp⟩ := h.channel message' hmem' output ho
      refine ⟨ha, fun hp => hexp ?_⟩
      rwa [← hprep output hin]
    · obtain rfl := mem_singleton.1 hmem'
      obtain ⟨rfl, -⟩ := hout output ho
      refine ⟨(h.unused _ (le_rfl)).1, fun hp => he ?_⟩
      rwa [← update_self s.nextOutput command s.prepared]
  · intro entry hent output ho hp
    have hin : output ∈ s.outputs := mem_outputs.2 (.inl ⟨entry, hent, ho⟩)
    refine h.queue entry hent output ho ?_
    rwa [← hprep output hin]
  · intro output v hp hm
    by_cases hnext : output = s.nextOutput
    · subst hnext
      exact .inl (hnil v hm)
    · refine h.mail output v ?_ ?_
      · rwa [← update_of_ne hnext command s.prepared]
      · rwa [← hold output hnext]

theorem sendRecv_inv (hr : s.Recorded) (hc : s.Current) (input : Bytes)
    {expectation : Option PipelineResponseExpectation} (skipResponse : Bool)
    (he : command ≠ none → ∃ n, expectation = some ⟨0, n, false, 0⟩) :
    (s.sendRecv command input expectation skipResponse).2.Recorded ∧
      (s.sendRecv command input expectation skipResponse).2.Current := by
  obtain ⟨harrived, hmail⟩ := hr.unused s.nextOutput le_rfl
  unfold CachedConnection.sendRecv
  split
  · exact ⟨hr, hc⟩
  refine ⟨?_, fun output command' hp hd i hi => ?_, hc.content⟩
  · cases skipResponse with
    | false =>
      refine hr.send ?_ (fun _ _ => rfl) ?_ he
      · rintro output ⟨⟩
        exact ⟨rfl, hmail⟩
      · intro v hv
        cases hmail.symm.trans hv
    | true =>
      refine hr.send nofun (fun output ho => update_of_ne ho _ _) ?_ he
      intro v hv
      cases (update_self s.nextOutput _ s.mailbox).symm.trans hv
      rfl
  · by_cases hnext : output = s.nextOutput
    · -- nothing has arrived for the new request
      subst hnext
      have hi' : (s.arrived s.nextOutput)[command'.valueIndex s.mode]? = some i := hi
      rw [harrived] at hi'
      cases hi'
    · refine hc.pending output command' ?_ hd i hi
      rwa [← update_of_ne hnext command s.prepared]

variable {out : Option (RedisResult Value)}

theorem call_inv (hr : s.Recorded) (hc : s.Current) {q : ByteCmd} (h : s.step (.call clock q) = some (out, s')) :
    s'.Recorded ∧ s'.Current := by
  simp only [step] at h
  split at h
  · obtain ⟨-, rfl⟩ := Prod.mk.inj (Option.some.inj h)
    exact sendRecv_inv hr hc _ _ fun hn => absurd rfl hn
  · rename_i m hm
    split at h
    · cases h
    · rename_i hg
      cases h
      exact ⟨hr.setManager _, hc.setManager hm (getCachedCmd_fades hg).toForgets⟩
    · rename_i hg
      obtain ⟨-, rfl⟩ := Prod.mk.inj (Option.some.inj h)
      exact sendRecv_inv (hr.setManager _) (hc.setManager hm (getCachedCmd_fades hg).toForgets) _ _ fun _ => ⟨_, rfl⟩
    · rename_i hg
      obtain ⟨-, rfl⟩ := Prod.mk.inj (Option.some.inj h)
      exact sendRecv_inv (hr.setManager _) (hc.setManager hm (getCachedCmd_fades hg).toForgets) _ _
        fun hn => absurd rfl hn

theorem Recorded.deliver (h : s.Recorded)
    (hc : ∀ output result, c = some (output, result) → output ∉ s.outputs ∧ output < s.nextOutput ∧
      ∀ v, result = .ok v → s.prepared output ≠ none →
        ∃ values, v = .array values ∧ Forall₂ (ReadAt s.history) values (s.arrived output)) :
    (s.deliver c).Recorded := by
  rcases c with _ | ⟨output, result⟩
  · exact h
  · obtain ⟨hnot, hlt, hok⟩ := hc output result rfl
    refine ⟨h.nodup, h.used, ?_, ?_, h.channel, h.queue, ?_⟩
    · intro o ho
      have hne : o ≠ output := Nat.ne_of_gt (Nat.lt_of_lt_of_le hlt ho)
      exact ⟨(h.unused o ho).1, (update_of_ne hne _ _).trans (h.unused o ho).2⟩
    · intro o ho
      have hne : o ≠ output := fun he => hnot (he ▸ ho)
      exact (update_of_ne hne _ _).trans (h.waiting o ho)
    · intro o v hp hv
      by_cases he : o = output
      · subst he
        have hv' : update s.mailbox o (some result) o = some (.ok v) := hv
        rw [update_self] at hv'
        exact .inr (hok v (Option.some.inj hv') hp)
      · refine h.mail o v hp ?_
        rwa [← update_of_ne he (some result) s.mailbox]

theorem Current.deliver (h : s.Current) (c : Option Completion) : (s.deliver c).Current := by
  rcases c with _ | ⟨output, result⟩
  · exact h
  · exact ⟨h.pending, h.content⟩

theorem take_inv (hr : s.Recorded) (hc : s.Current) (h : s.step .take = some (out, s')) :
    s'.Recorded ∧ s'.Current := by
  simp only [step] at h
  split at h
  · cases h
  rename_i message channel hch
  cases h
  obtain ⟨hm, hcases⟩ := s.sink.startSend_cases (s.dropped.contains ·) message
  generalize s.sink.startSend (s.dropped.contains ·) message = r at hm hcases
  have hmsg : message ∈ s.channel := by rw [hch]; exact mem_cons_self
  have houts : s.outputs = s.sink.inFlight.filterMap (·.output) ++
      (message.output.toList ++ channel.filterMap (·.output)) := by
    rw [outputs, hch]
    cases ho : message.output <;> simp [ho]
  -- the message is in the queue now, or it is gone
  have hsub : (r.2.1.inFlight.filterMap (·.output) ++ channel.filterMap (·.output)).Sublist s.outputs := by
    rw [houts]
    rcases hcases with ⟨hq, -⟩ | ⟨hq, -⟩
    · rw [hq, filterMap_append, append_assoc]
      refine List.Sublist.append_left (List.Sublist.append_right ?_ _) _
      cases ho : message.output <;> simp
    · rw [hq]
      exact List.Sublist.append_left (sublist_append_right _ _) _
  have hqueue : ∀ entry ∈ r.2.1.inFlight,
      entry ∈ s.sink.inFlight ∨ entry = ⟨message.output, .new message.expectation⟩ := by
    intro entry hent
    rcases hcases with ⟨hq, -⟩ | ⟨hq, -⟩ <;> rw [hq] at hent
    · exact (mem_append.1 hent).imp_right mem_singleton.1
    · exact .inl hent
  have hrec : ({ s with sink := r.2.1, channel } : CachedConnection E).Recorded := by
    refine ⟨hr.nodup.sublist hsub, fun o ho => hr.used o (hsub.subset ho), hr.unused,
      fun o ho => hr.waiting o (hsub.subset ho), ?_, ?_, hr.mail⟩
    · intro message' hmem
      exact hr.channel message' (by rw [hch]; exact mem_cons_of_mem _ hmem)
    · intro entry hent output ho hp
      rcases hqueue entry hent with hent | rfl
      · exact hr.queue entry hent output ho hp
      · obtain ⟨ha, hexp⟩ := hr.channel message hmsg output ho
        obtain ⟨n, hn⟩ := hexp hp
        refine ⟨[], .errors [], ⟨0, n, false, 0⟩, ?_, rfl, ?_⟩
        · rw [hn]
          rfl
        · show Forall₂ _ _ (s.arrived output)
          rw [ha]
          exact .nil
  have hmode : ({ s with sink := r.2.1, channel } : CachedConnection E).mode = s.mode := by rw [mode, mode, hm]
  refine ⟨hrec.deliver ?_, Current.deliver ⟨?_, ?_⟩ _⟩
  · intro output result hres
    rcases hcases with ⟨-, hnone⟩ | ⟨hq, herr⟩
    · rw [hnone] at hres
      cases hres
    · obtain ⟨ho, err, rfl⟩ := herr output result hres
      refine ⟨?_, hr.used output (mem_outputs.2 (.inr ⟨message, hmsg, ho⟩)), nofun⟩
      have hnd := hr.nodup
      rw [houts, ho] at hnd
      show output ∉ r.2.1.inFlight.filterMap (·.output) ++ channel.filterMap (·.output)
      rw [hq]
      exact (nodup_middle.1 hnd).notMem
  · rw [hmode]
    exact hc.pending
  · intro m args x hm₁ hx
    exact hc.content m args x (hm.symm.trans hm₁) hx

theorem arrivedWith_eq (s : CachedConnection E) (result : RedisResult Value) (output : Output) :
    s.arrivedWith result output = s.arrived output ++
      if s.sink.inFlight.head?.bind (·.output) = some output then noted s.history.length result else [] := by
  unfold arrivedWith
  cases hhead : s.sink.inFlight.head?.bind (·.output) with
  | none => simp
  | some first =>
    by_cases he : output = first
    · subst he
      simp
    · rw [if_neg fun h => he (Option.some.inj h).symm, append_nil]
      exact update_of_ne he _ _

theorem Collects.append {history : List (RedisResult Value)} {aggregate : ResponseAggregate}
    {positions : List Nat} (h : Collects history aggregate positions) (result : RedisResult Value) :
    Collects (history ++ [result]) aggregate positions := by
  obtain ⟨buffer, errs, expectation, hagg, hskip, hbuf⟩ := h
  exact ⟨buffer, errs, expectation, hagg, hskip, hbuf.imp fun _ _ h => h.append⟩

variable {result : RedisResult Value} {sink : PipelineSink (CacheManager E)}

theorem Recorded.receive (hr : s.Recorded)
    (hsub : (sink.inFlight.filterMap (·.output)).Sublist (s.sink.inFlight.filterMap (·.output)))
    (hqueue : ∀ entry ∈ sink.inFlight, ∀ output, entry.output = some output → s.prepared output ≠ none →
      Collects (s.history ++ [result]) entry.responseAggregate (s.arrivedWith result output)) :
    ({ s with sink, history := s.history ++ [result], arrived := s.arrivedWith result } :
      CachedConnection E).Recorded := by
  -- the record of an output that is not answered now
  have hother : ∀ output, s.sink.inFlight.head?.bind (·.output) ≠ some output →
      s.arrivedWith result output = s.arrived output := by
    intro output hne
    rw [arrivedWith_eq, if_neg hne, append_nil]
  have hhead : ∀ output, s.sink.inFlight.head?.bind (·.output) = some output →
      output ∈ s.sink.inFlight.filterMap (·.output) := by
    intro output ho
    obtain ⟨entry, hent, ho⟩ := Option.bind_eq_some_iff.1 ho
    exact mem_filterMap.2 ⟨entry, mem_of_head? hent, ho⟩
  have houts := List.Sublist.append_right hsub (s.channel.filterMap (·.output))
  refine ⟨hr.nodup.sublist houts, fun o ho => hr.used o (houts.subset ho), ?_,
    fun o ho => hr.waiting o (houts.subset ho), ?_, hqueue, ?_⟩
  · intro output ho
    obtain ⟨ha, hm⟩ := hr.unused output ho
    refine ⟨(hother output fun hh => ?_).trans ha, hm⟩
    exact Nat.not_lt_of_le ho (hr.used output (mem_append_left _ (hhead output hh)))
  · intro message hmem output ho
    obtain ⟨ha, hexp⟩ := hr.channel message hmem output ho
    refine ⟨(hother output fun hh => ?_).trans ha, hexp⟩
    exact (nodup_append'.1 hr.nodup).2.2 (hhead output hh) (mem_filterMap.2 ⟨message, hmem, ho⟩)
  · intro output v hp hv
    refine (hr.mail output v hp hv).imp_right ?_
    rintro ⟨values, rfl, hvals⟩
    refine ⟨values, rfl, ?_⟩
    show Forall₂ _ values (s.arrivedWith result output)
    rw [hother output fun hh => ?_]
    · exact hvals.imp fun _ _ h => h.append
    · have hnone := hr.waiting output (mem_append_left _ (hhead output hh))
      rw [hnone] at hv
      cases hv

theorem receive_recorded (hr : s.Recorded) (h : s.sink.sendResult result = .ok (sink, c)) :
    ({ s with sink, history := s.history ++ [result], arrived := s.arrivedWith result }.deliver c).Recorded := by
  rcases PipelineSink.sendResult_cases h with
    ⟨kind, data, rfl, hk, rfl, hq, -⟩ | ⟨hrep, -, ⟨hf, hq, rfl⟩ | ⟨entry, rest, hf, hcases⟩⟩
  · -- a push leaves the queue as it is
    refine hr.receive (by rw [hq]) ?_
    intro entry hent output ho hp
    rw [hq] at hent
    have hnoted : noted s.history.length (.ok (.push kind data)) = [] := by
      simp [noted, Value.isNonReplyPush, hk]
    rw [arrivedWith_eq, hnoted, ite_self, append_nil]
    exact (hr.queue entry hent output ho hp).append _
  · refine hr.receive (by rw [hq, hf]) ?_
    rw [hq]
    exact fun entry hent => absurd hent not_mem_nil
  · -- the result is for the first entry
    have hfirst : s.sink.inFlight.head?.bind (·.output) = entry.output := by rw [hf]; rfl
    have hent : entry ∈ s.sink.inFlight := by rw [hf]; exact mem_cons_self
    have hrest : ∀ other ∈ rest, ∀ output, other.output = some output → s.prepared output ≠ none →
        Collects (s.history ++ [result]) other.responseAggregate (s.arrivedWith result output) := by
      intro other hother output ho hp
      have hne : ¬ s.sink.inFlight.head?.bind (·.output) = some output := by
        intro he
        rw [hfirst] at he
        have hnd := (nodup_append'.1 hr.nodup).1
        rw [hf, filterMap_cons, he] at hnd
        exact (nodup_cons.1 hnd).1 (mem_filterMap.2 ⟨other, hother, ho⟩)
      rw [arrivedWith_eq, if_neg hne, append_nil]
      exact (hr.queue other (by rw [hf]; exact mem_cons_of_mem _ hother) output ho hp).append _
    have hself : ∀ output, entry.output = some output → s.arrivedWith result output =
        s.arrived output ++ noted s.history.length result := by
      intro output ho
      rw [arrivedWith_eq, if_pos (hfirst.trans ho)]
    rcases hcases with ⟨aggregate, hrec, hq, rfl⟩ | ⟨response, hrec, hq, rfl⟩
    · refine hr.receive ?_ ?_
      · rw [hq, hf, filterMap_cons, filterMap_cons]
      · rw [hq]
        intro other hother output ho hp
        rcases mem_cons.1 hother with rfl | hother
        · rw [hself output ho]
          exact ((hr.queue entry hent output ho hp).receive hrep).1 _ hrec
        · exact hrest other hother output ho hp
    · have hsub : (sink.inFlight.filterMap (·.output)).Sublist (s.sink.inFlight.filterMap (·.output)) := by
        rw [hq, hf]
        exact (sublist_cons_self entry rest).filterMap _
      refine (hr.receive hsub (by rw [hq]; exact hrest)).deliver ?_
      intro output response' hres
      obtain ⟨o, ho, heq⟩ := Option.map_eq_some_iff.1 hres
      cases heq
      have hmem := mem_outputs.2 (.inl ⟨entry, hent, ho⟩)
      refine ⟨?_, hr.used output hmem, ?_⟩
      · have hnd := hr.nodup
        rw [outputs, hf, filterMap_cons, ho] at hnd
        show output ∉ sink.inFlight.filterMap (·.output) ++ s.channel.filterMap (·.output)
        rw [hq]
        exact (nodup_cons.1 hnd).1
      · rintro v rfl hp
        obtain ⟨values, hv, hvals⟩ := ((hr.queue entry hent output ho hp).receive hrep).2 v hrec
        refine ⟨values, hv, ?_⟩
        show Forall₂ _ values (s.arrivedWith result output)
        rw [hself output ho]
        exact hvals

theorem mode_eq {t : CachedConnection E}
    (h : t.sink.cacheManager.map (·.cacheConfig) = s.sink.cacheManager.map (·.cacheConfig)) : t.mode = s.mode := by
  have hmap : ∀ o : Option (CacheManager E), (o.map (·.cacheConfig.mode)) = (o.map (·.cacheConfig)).map (·.mode) :=
    fun o => by rw [Option.map_map]; rfl
  rw [mode, mode, hmap, hmap, h]

theorem mem_noted {n i : Nat} (h : i ∈ noted n result) : i = n ∧ ∀ data, result ≠ .ok (.push .invalidate data) := by
  rcases result with err | v
  · cases h
  · rw [noted] at h
    split at h
    · cases h
    · rename_i hv
      refine ⟨mem_singleton.1 h, ?_⟩
      rintro data ⟨⟩
      exact hv rfl

theorem Current.receive (hc : s.Current) (hset : s.SettledStep (.receive result))
    (hcfg : sink.cacheManager.map (·.cacheConfig) = s.sink.cacheManager.map (·.cacheConfig))
    (hcont : ∀ m args x, sink.cacheManager = some m → m.lru.content (entryKey args) = some x →
      ∃ m₀, s.sink.cacheManager = some m₀ ∧ m₀.lru.content (entryKey args) = some x ∧
        ∀ data, result = .ok (.push .invalidate data) → droppedKey data ≠ some (entryKey args).1) :
    ({ s with sink, history := s.history ++ [result], arrived := s.arrivedWith result } :
      CachedConnection E).Current := by
  have hsettled : ∀ data, result = .ok (.push .invalidate data) → s.Settled data :=
    fun data hdata => hset data (congrArg _ hdata)
  refine ⟨?_, fun m args x hm hx => ?_⟩
  · rw [mode_eq (s := s) hcfg]
    intro output command hp hd i hi args hargs
    have hi' : (s.arrivedWith result output)[command.valueIndex s.mode]? = some i := hi
    rw [arrivedWith_eq, getElem?_append] at hi'
    split at hi'
    · rename_i hlt
      refine (hc.pending output command hp hd i hi' args hargs).append fun data key hdata hkey hnames => ?_
      exact Nat.not_lt_of_le ((hsettled data hdata args key hkey hnames).1 output command hp hd hargs) hlt
    · have hmem := mem_of_getElem? hi'
      split at hmem
      · obtain ⟨rfl, hno⟩ := mem_noted hmem
        exact sentAfter_last hno
      · cases hmem
  · obtain ⟨m₀, hm₀, hx₀, hkept⟩ := hcont m args x hm hx
    obtain ⟨⟨reply, hread, hcarries⟩, hsent⟩ := hc.content m₀ args x hm₀ hx₀
    refine ⟨⟨reply, hread.append, hcarries⟩, hsent.append fun data key hdata hkey hnames => ?_⟩
    exact hkept data hdata ((hsettled data hdata args key hkey hnames).2 m₀ x hm₀ hx₀)

theorem receive_inv (hr : s.Recorded) (hc : s.Current) (hset : s.SettledStep (.receive result))
    (h : s.step (.receive result) = some (out, s')) : s'.Recorded ∧ s'.Current := by
  simp only [step] at h
  split at h
  · cases h
  rename_i sink c hsend
  cases h
  refine ⟨receive_recorded hr hsend, Current.deliver ?_ c⟩
  rcases PipelineSink.sendResult_cases hsend with ⟨kind, data, rfl, hk, -, -, hm⟩ | ⟨hrep, hm, -⟩
  · have hm : sink.cacheManager = s.sink.cacheManager.map (CacheManager.handlePushValue · kind data) := hm
    refine hc.receive hset ?_ fun m' args x hm' hx => ?_
    · rw [hm, Option.map_map]
      congr 1
      funext m
      exact m.cacheConfig_handlePushValue kind data
    · rw [hm] at hm'
      obtain ⟨m, hsome, rfl⟩ := Option.map_eq_some_iff.1 hm'
      by_cases hinv : kind = .invalidate
      · subst hinv
        rw [(m.handlePushValue_spec data).2.2, Option.ite_none_left_eq_some] at hx
        refine ⟨m, hsome, hx.2, ?_⟩
        rintro _ ⟨⟩
        exact hx.1
      · rw [m.handlePushValue_of_ne hinv] at hx
        refine ⟨m, hsome, hx, ?_⟩
        rintro _ ⟨⟩
        exact absurd rfl hinv
  · refine hc.receive hset (by rw [hm]) fun m args x hm' hx => ⟨m, hm.symm.trans hm', hx, ?_⟩
    rintro data rfl
    cases hrep _ rfl

theorem getElem?_valueIndex (mode : CacheMode) (replies : List Value) (command : CacheableCommand) :
    replies[command.valueIndex mode]? =
      (CacheableCommand.repliesFor mode replies)[command.valueIndex .all]? := by
  cases mode with
  | all => rfl
  | optIn => cases command <;> exact getElem?_drop.symm

theorem mem_stores {command : CacheableCommand} {mode : CacheMode} {p : RedisKey × RedisCmd} {value : Value}
    (h : (p, value) ∈ command.stores mode replies) :
    p ∈ command.pairs ∧ ∃ reply, replies[command.valueIndex mode]? = some reply ∧ Carries reply value := by
  rw [getElem?_valueIndex]
  cases command with
  | single command =>
    obtain ⟨rfl, hrep⟩ := CacheableCommand.mem_stores_single h
    exact ⟨mem_singleton_self _, value, hrep, .inl rfl⟩
  | multiple commandName commands response clientSideExpire tailArgs =>
    obtain ⟨⟨k, part, hmem, rfl⟩, values, hrep, hv⟩ := CacheableCommand.mem_stores_multiple h
    exact ⟨mem_map.2 ⟨(k, part), hmem, rfl⟩, .array values, hrep, .inr ⟨values, rfl, hv⟩⟩

theorem Recorded.leave (h : s.Recorded) (output : Output) : (s.leave output).Recorded := by
  have hprep : ∀ o, update s.prepared output none o ≠ none → o ≠ output ∧ s.prepared o ≠ none := by
    intro o ho
    have hne : o ≠ output := by
      rintro rfl
      exact ho (update_self ..)
    exact ⟨hne, by rwa [update_of_ne hne] at ho⟩
  have hmail : ∀ o, s.mailbox o = none → update s.mailbox output none o = none := by
    intro o ho
    by_cases he : o = output
    · rw [he, update_self]
    · rw [update_of_ne he, ho]
  refine ⟨h.nodup, h.used, ?_, ?_, ?_, ?_, ?_⟩
  · exact fun o ho => ⟨(h.unused o ho).1, hmail o (h.unused o ho).2⟩
  · exact fun o ho => hmail o (h.waiting o ho)
  · intro message hmem o ho
    obtain ⟨ha, hexp⟩ := h.channel message hmem o ho
    exact ⟨ha, fun hp => hexp (hprep o hp).2⟩
  · intro entry hent o ho hp
    exact h.queue entry hent o ho (hprep o hp).2
  · intro o v hp hv
    obtain ⟨hne, hp⟩ := hprep o hp
    refine h.mail o v hp ?_
    rwa [← update_of_ne hne none s.mailbox]

theorem Current.leave (h : s.Current) (output : Output) : (s.leave output).Current := by
  refine ⟨?_, h.content⟩
  intro o command hp
  by_cases he : o = output
  · subst he
    have hp' : update s.prepared o none o = some command := hp
    rw [update_self] at hp'
    cases hp'
  · refine h.pending o command ?_
    rwa [← update_of_ne he none s.prepared]

theorem Recorded.readAt (h : s.Recorded) {v : Value} (hp : s.prepared output ≠ none)
    (hv : s.mailbox output = some (.ok v))
    (hreps : (FromRedisValue.fromRedisValue v : ParseResult (List Value)) = .ok replies) {j : Nat} {reply : Value}
    (hrep : replies[j]? = some reply) : ∃ i, (s.arrived output)[j]? = some i ∧ ReadAt s.history reply i := by
  rcases h.mail output v hp hv with rfl | ⟨values, rfl, hvals⟩
  · rw [fromRedisValue_nil_value] at hreps
    cases hreps
    cases hrep
  · rw [fromRedisValue_array_value] at hreps
    cases hreps
    obtain ⟨hj, rfl⟩ := List.getElem?_eq_some_iff.1 hrep
    have hj' : j < (s.arrived output).length := by
      rw [← hvals.length_eq]
      exact hj
    exact ⟨_, getElem?_eq_getElem hj', hvals.get hj hj'⟩

theorem resolve_current (hr : s.Recorded) (hc : s.Current) (hm : s.sink.cacheManager = some m)
    {command : CacheableCommand} (hp : s.prepared output = some command) (hd : output ∉ s.dropped) {v : Value}
    (hv : s.mailbox output = some (.ok v)) (clock : Nat → Instant) :
    ((s.leave output).resolve clock m output command v).2.Current := by
  have hcur := hc.leave output
  unfold resolve
  split
  · exact hcur
  rename_i replies hreps
  have hsto := command.stored_resolve clock m replies
  refine ⟨?_, ?_⟩
  · have hmode := mode_setManager (s := s.leave output) hm hsto.cacheConfig
    intro o command' hp' hd' i hi
    exact hcur.pending o command' hp' hd' i (by rw [← hmode]; exact hi)
  · intro m' args x hm' hx
    obtain rfl := Option.some.inj hm'
    rcases hsto.content _ x hx with hin | ⟨hout, y, hy, hyx, -⟩
    · -- a reply of this caller
      have hmem : entryKey args ∈ (command.stores m.cacheConfig.mode replies).map (·.1) :=
        mem_map.2 ⟨_, hin, rfl⟩
      have hmode : s.mode = m.cacheConfig.mode := by rw [mode, hm]; rfl
      obtain ⟨hpair, reply, hrep, hcarries⟩ := mem_stores hin
      obtain ⟨i, hi, hread⟩ := hr.readAt (by rw [hp]; exact Option.some_ne_none _) hv hreps hrep
      have hstamp : ((s.leave output).arrived output).getD (command.valueIndex m.cacheConfig.mode) 0 = i := by
        rw [getD_eq_getElem?_getD]
        exact congrArg (·.getD 0) hi
      simp only [hmem, if_true, hstamp]
      rw [← hmode] at hi
      exact ⟨⟨reply, hread, hcarries⟩, hc.pending output command hp hd i hi args hpair⟩
    · have hmem : entryKey args ∉ (command.stores m.cacheConfig.mode replies).map (·.1) := by
        intro hmem
        obtain ⟨⟨p, v'⟩, hin, rfl⟩ := mem_map.1 hmem
        exact hout v' hin
      simp only [hmem, if_false]
      have hold := hc.content m args y hm hy
      rw [hyx] at hold
      exact hold

theorem resolve_recorded (hr : s.Recorded) (m : CacheManager E) (output : Output) (command : CacheableCommand)
    (v : Value) (clock : Nat → Instant) : (s.resolve clock m output command v).2.Recorded := by
  unfold resolve
  split
  · exact hr
  · exact ⟨hr.nodup, hr.used, hr.unused, hr.waiting, hr.channel, hr.queue, hr.mail⟩

theorem resume_inv (hr : s.Recorded) (hc : s.Current) (h : s.step (.resume clock output) = some (out, s')) :
    s'.Recorded ∧ s'.Current := by
  simp only [step] at h
  split at h
  · cases h
  rename_i hd
  split at h
  · cases h
  rename_i result hv
  split at h
  · rename_i command m v hp hm
    cases h
    exact ⟨resolve_recorded (hr.leave output) .., resolve_current hr hc hm hp hd hv clock⟩
  · cases h
    exact ⟨hr.leave output, hc.leave output⟩

theorem step_inv (hr : s.Recorded) (hc : s.Current) {task : CacheTask} (hset : s.SettledStep task)
    (h : s.step task = some (out, s')) : s'.Recorded ∧ s'.Current := by
  cases task with
  | call clock q => exact call_inv hr hc h
  | take => exact take_inv hr hc h
  | receive result => exact receive_inv hr hc hset h
  | resume clock output => exact resume_inv hr hc h
  | drop output =>
    cases h
    refine ⟨⟨hr.nodup, hr.used, hr.unused, hr.waiting, hr.channel, hr.queue, hr.mail⟩, ?_, hc.content⟩
    intro o command hp hd
    exact hc.pending o command hp fun hmem => hd (mem_cons_of_mem _ hmem)

/-- In every run in which each invalidation finds the replies it concerns settled, no hit is stale. -/
theorem settled_runs_fresh (E : CacheEnv) (cacheConfig : CacheConfig) (pushSender : Option (List PushInfo))
    (tasks : List CacheTask)
    (h : Run.Along step (fun s task _ _ => s.SettledStep task) (start E cacheConfig pushSender) tasks) :
    Run.Along step (fun _ _ _ s' => s'.NoStaleHit) (start E cacheConfig pushSender) tasks := by
  refine Run.along_mono (I := fun s => s.Recorded ∧ s.Current) ?_
    ⟨start_recorded E cacheConfig pushSender, start_current E cacheConfig pushSender⟩ h
  intro s task out s' hi hstep hset
  have hi' := step_inv hi.1 hi.2 hset hstep
  exact ⟨hi'.2.noStaleHit, hi'⟩

def getCmd : ByteCmd := .ofArgs [bytesOf "GET", bytesOf "k"]

def invalidatePush : Value := .push .invalidate [.array [.bulkString (bytesOf "k")]]

theorem get_after_invalidation :
    (Run.run step (start listEnv .new none)
      [.receive (.ok invalidatePush), .call (fun _ => 0) getCmd, .take, .receive (.ok (.int (-1))),
        .receive (.ok .okay), .resume (fun _ => 0) 0, .call (fun _ => 0) getCmd]).map (·.1) =
      some [none, none, none, none, none, some (.ok .okay), some (.ok .okay)] ∧
    Run.Along step (fun _ _ _ s' => s'.NoStaleHit) (start listEnv .new none)
      [.receive (.ok invalidatePush), .call (fun _ => 0) getCmd, .take, .receive (.ok (.int (-1))),
        .receive (.ok .okay), .resume (fun _ => 0) 0, .call (fun _ => 0) getCmd] := by
  refine ⟨rfl, settled_runs_fresh listEnv .new none _ ?_⟩
  intro out s' _
  refine ⟨?_, ?_⟩
  · -- the cache is empty, and nobody waits
    intro data _ args key _ _
    refine ⟨nofun, ?_⟩
    intro m x hm hx
    obtain rfl := Option.some.inj hm
    have hnone : (new listEnv .new).lru.content (entryKey args) = none :=
      ShardedLru.content_new _ _
    rw [hnone] at hx
    cases hx
  · refine Run.along_mono (I := fun _ => True) ?_ trivial
      (Run.along_of_forall (C := fun task => ∀ data, task ≠ .receive (.ok (.push .invalidate data))) ?_ s')
    · intro s task out s' _ _ hne
      exact ⟨fun data he => absurd he (hne data), trivial⟩
    · intro task htask data he
      subst he
      simp at htask

theorem reply_inserted_after_invalidation :
    ∃ s, Run.run step (start listEnv .new none)
        [.call (fun _ => 0) getCmd, .take, .receive (.ok (.int (-1))), .receive (.ok .okay),
          .receive (.ok invalidatePush), .resume (fun _ => 0) 0, .call (fun _ => 0) getCmd] =
      some ([none, none, none, none, none, some (.ok .okay), some (.ok .okay)], s) ∧
    s.sink.written.length = 1 ∧ s.channel = [] ∧
    s.stamp (entryKey getCmd.args) = 1 ∧ ReadAt s.history .okay 1 ∧ ReadAt s.history invalidatePush 2 ∧
    bytesOf "k" ∈ readKeys getCmd.args ∧ Names [.array [.bulkString (bytesOf "k")]] (bytesOf "k") :=
  ⟨_, rfl, rfl, rfl, rfl, rfl, rfl, by decide, _, rfl, mem_singleton_self _⟩

end CachedConnection

end RedisRs
