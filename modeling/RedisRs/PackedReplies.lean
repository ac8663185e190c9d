import RedisRs.Connection

/-!
# The replies to a packed pipeline
-/

namespace RedisRs

open List Value

def refusals (offset : Nat) : Nat → List Value → List (Nat × ServerError)
  | _, [] => []
  | i, v :: vs =>
    match v.serverError? with
    | some err => if i < offset then (i, err) :: refusals offset (i + 1) vs else refusals offset (i + 1) vs
    | none => refusals offset (i + 1) vs

def keptReplies (offset : Nat) : Nat → List Value → List Value
  | _, [] => []
  | i, v :: vs =>
    if offset ≤ i ∧ v.isPush = false then v :: keptReplies offset (i + 1) vs
    else keptReplies offset (i + 1) vs

def reportedErrors (errors : List (Nat × ServerError)) : List (Nat × ServerError) :=
  errors.map fun e => (e.1 - 1, e.2)

def packedResult (errors : List (Nat × ServerError)) (kept : List Value) : RedisResult (List Value) :=
  if errors ≠ [] then .error (.makeAbortedTransaction errors) else .ok kept

def replyPart (stream : List Value) : List Value := stream.filter fun v => !v.isPush

/-- The last value of the stream is no push. -/
def EndsWithReply (stream : List Value) : Prop := ∀ v ∈ stream.getLast?, v.isPush = false

/-- Below `offset` no value numbered `0` is an error reply. -/
def FirstAccepted (offset i : Nat) (stream : List Value) : Prop :=
  i = 0 → 0 < offset → ∀ v ∈ stream.head?, v.isServerError = false

theorem eq_nil_iff_of_errors {errors : List (Nat × ServerError)} {values : List Value}
    (h : ∀ err, (∃ i, (i, err) ∈ errors) ↔ .serverError err ∈ values) :
    errors = [] ↔ ∀ v ∈ values, v.isServerError = false := by
  constructor
  · intro hnil v hv
    by_contra herr
    obtain ⟨err, rfl⟩ := isServerError_iff.1 (Bool.eq_true_of_not_eq_false herr)
    obtain ⟨i, hi⟩ := (h err).2 hv
    rw [hnil] at hi
    cases hi
  · intro hall
    refine eq_nil_iff_forall_not_mem.2 fun ⟨i, err⟩ hmem => ?_
    cases hall _ ((h err).1 ⟨i, hmem⟩)

section Stream

variable {offset i j : Nat} {v : Value} {stream : List Value}

theorem EndsWithReply.tail (h : EndsWithReply (v :: stream)) : EndsWithReply stream := by
  intro w hw
  refine h w ?_
  rw [getLast?_cons, Option.mem_def.1 hw]
  rfl

theorem EndsWithReply.eq_nil (h : EndsWithReply stream) (hr : replyPart stream = []) : stream = [] := by
  by_contra hne
  have hlast := h _ (getLast?_eq_some_getLast hne)
  have hmem : stream.getLast hne ∈ replyPart stream := by
    simp [replyPart, hlast]
  rw [hr] at hmem
  cases hmem

theorem replyPart_cons_push (h : v.isPush = true) : replyPart (v :: stream) = replyPart stream := by
  simp [replyPart, h]

theorem replyPart_cons_reply (h : v.isPush = false) : replyPart (v :: stream) = v :: replyPart stream := by
  simp [replyPart, h]

theorem replyPart_eq_self (h : ∀ v ∈ stream, v.isPush = false) : replyPart stream = stream := by
  rw [replyPart, filter_eq_self]
  intro v hv
  simp [h v hv]

theorem refusals_cons (offset i : Nat) (v : Value) (stream : List Value) :
    refusals offset i (v :: stream) = refusals offset i [v] ++ refusals offset (i + 1) stream := by
  cases v <;> simp only [refusals, serverError?, nil_append]
  split <;> rfl

theorem refusals_append (offset i : Nat) (l l' : List Value) :
    refusals offset i (l ++ l') = refusals offset i l ++ refusals offset (i + l.length) l' := by
  induction l generalizing i with
  | nil => rfl
  | cons v l ih =>
    rw [cons_append, refusals_cons, ih, refusals_cons offset i v l, append_assoc, length_cons,
      Nat.add_right_comm, Nat.add_assoc]

theorem keptReplies_cons :
    keptReplies offset i (v :: stream) = keptReplies offset i [v] ++ keptReplies offset (i + 1) stream := by
  simp only [keptReplies]
  split <;> rfl

theorem refusals_eq_nil_of_le (h : offset ≤ i) : refusals offset i stream = [] := by
  induction stream generalizing i with
  | nil => rfl
  | cons v stream ih =>
    rw [refusals, ih (by omega)]
    split
    · rw [if_neg (by omega)]
    · rfl

theorem keptReplies_eq : keptReplies offset i stream = replyPart (stream.drop (offset - i)) := by
  induction stream generalizing i with
  | nil => simp [keptReplies, replyPart]
  | cons v stream ih =>
    rw [keptReplies, ih]
    by_cases hi : offset ≤ i
    · rw [Nat.sub_eq_zero_of_le hi, Nat.sub_eq_zero_of_le (by omega)]
      cases hv : v.isPush <;> simp [replyPart, hv, hi]
    · obtain ⟨k, hk⟩ : ∃ k, offset - i = k + 1 := ⟨offset - i - 1, by omega⟩
      rw [if_neg (fun h => hi h.1), hk, drop_succ_cons, show offset - (i + 1) = k by omega]

theorem mem_refusals_singleton {e : Nat × ServerError} :
    e ∈ refusals offset i [v] ↔ e.1 = i ∧ i < offset ∧ v = .serverError e.2 := by
  obtain ⟨k, err⟩ := e
  cases v with
  | serverError err' =>
    simp only [refusals, serverError?, Value.serverError.injEq]
    by_cases hi : i < offset <;> simp [hi, eq_comm]
  | _ => simp [refusals, serverError?]

theorem mem_refusals {e : Nat × ServerError} :
    e ∈ refusals offset i stream ↔ ∃ j, e.1 = i + j ∧ e.1 < offset ∧ stream[j]? = some (.serverError e.2) := by
  induction stream generalizing i with
  | nil => simp [refusals]
  | cons v stream ih =>
    rw [refusals_cons, mem_append, mem_refusals_singleton, ih]
    refine (or_congr ?_ (exists_congr fun j => ?_)).trans Nat.or_exists_add_one
    · rw [getElem?_cons_zero, Option.some.injEq, Nat.add_zero]
      exact and_congr_right fun h => by rw [h]
    · rw [getElem?_cons_succ, Nat.add_right_comm, Nat.add_assoc]

theorem refusals_pairwise (offset i : Nat) (stream : List Value) :
    (refusals offset i stream).Pairwise fun a b => a.1 < b.1 := by
  induction stream generalizing i with
  | nil => exact List.Pairwise.nil
  | cons v stream ih =>
    have htail : ∀ e ∈ refusals offset (i + 1) stream, i < e.1 := fun e he => by
      obtain ⟨j, hj, -⟩ := mem_refusals.1 he
      omega
    rw [refusals]
    split
    · split
      · exact pairwise_cons.2 ⟨htail, ih _⟩
      · exact ih _
    · exact ih _

end Stream

namespace Connection

variable {offset : Nat} {con : Connection}

theorem readLoop_value {σ ρ : Type} (h : con.messagesToSkip = 0)
    (body : σ → RedisResult Value → σ ⊕ ρ) (s : σ) (v : Value) (wire : Wire) :
    readLoop body s con (.ok v :: wire) =
      match body s (.ok v) with
      | .inl s => readLoop body s (con.trySend (.ok v)) wire
      | .inr out => some (out, con.trySend (.ok v), wire) := by
  cases hb : body s (.ok v) <;> simp only [readLoop, readStep_value h, hb]

variable {out : Ends (RedisResult (List Value))} {cmd : Bytes} {con' : Connection} {wire : Wire} {count : Nat}
  (p : Packed)

theorem Packed.receive_reply {v : Value} (hv : v.isPush = false)
    (hm : p.idx = 0 → 0 < offset → v.isServerError = false) : p.receive offset (.ok v) =
      .ok { p with
        rv := p.rv ++ keptReplies offset p.idx [v]
        serverErrors := p.serverErrors ++ reportedErrors (refusals offset p.idx [v]) } := by
  cases v with
  | push kind data => cases hv
  | serverError err =>
    by_cases hi : p.idx < offset
    · have hpos : 1 ≤ p.idx := by
        by_contra h0
        cases hm (by omega) (by omega)
      simp [Packed.receive, keptReplies, refusals, reportedErrors, serverError?, checkedSub, hi,
        hpos, bind, Except.bind, pure, Except.pure]
    · simp [Packed.receive, keptReplies, refusals, reportedErrors, serverError?, isPush, hi,
        Nat.le_of_not_lt hi, pure, Except.pure]
  | _ =>
    by_cases hi : offset ≤ p.idx <;>
      simp [Packed.receive, keptReplies, refusals, reportedErrors, serverError?, isPush, hi,
        pure, Except.pure]

theorem Packed.body_push {v : Value} (hv : v.isPush = true) (hidx : p.idx < offset + p.count) :
    Packed.body offset p (.ok v) = .inl { p with count := p.count + 1, idx := p.idx + 1 } := by
  obtain ⟨kind, data, rfl⟩ := isPush_iff.1 hv
  exact if_pos (by simp only; omega)

variable {stream : List Value}

theorem readLoop_packed (hskip : con.messagesToSkip = 0) (p : Packed) (hp : p.firstErr = none)
    (hidx : p.idx < offset + p.count) (hlen : (replyPart stream).length = offset + p.count - p.idx)
    (hend : EndsWithReply stream) (hfirst : FirstAccepted offset p.idx stream) (rest : Wire) :
    ∃ con', readLoop (Packed.body offset) p con (stream.map .ok ++ rest) =
      some (.ok (packedResult (p.serverErrors ++ reportedErrors (refusals offset p.idx stream))
        (p.rv ++ keptReplies offset p.idx stream)), con', rest) := by
  induction stream generalizing p con with
  | nil =>
    simp only [replyPart, filter_nil, length_nil] at hlen
    omega
  | cons v stream ih =>
    have hskip' : (con.trySend (.ok v)).messagesToSkip = 0 := by
      rw [trySend_messagesToSkip, hskip]
    -- the number of the next value is positive, whatever this one is
    have hfirst' : ∀ q : Packed, q.idx = p.idx + 1 → FirstAccepted offset q.idx stream :=
      fun q hq h0 => by omega
    rw [map_cons, cons_append, readLoop_value hskip]
    cases hv : v.isPush with
    | true =>
      obtain ⟨con', ih⟩ := ih hskip' { p with count := p.count + 1, idx := p.idx + 1 } hp
        (by simp only; omega) (by rw [replyPart_cons_push hv] at hlen; simp only; omega) hend.tail
        (hfirst' _ rfl)
      refine ⟨con', ?_⟩
      rw [Packed.body_push p hv hidx]
      obtain ⟨kind, data, rfl⟩ := isPush_iff.1 hv
      simpa [refusals, keptReplies, serverError?, isPush] using ih
    | false =>
      rw [replyPart_cons_reply hv, length_cons] at hlen
      rw [keptReplies_cons, refusals_cons, reportedErrors, map_append, ← append_assoc,
        ← append_assoc, Packed.body, Packed.receive_reply p hv fun h0 ho => hfirst h0 ho v rfl]
      by_cases hmore : p.idx + 1 < offset + p.count
      · obtain ⟨con', ih⟩ := ih hskip' { p with
            rv := p.rv ++ keptReplies offset p.idx [v]
            serverErrors := p.serverErrors ++ reportedErrors (refusals offset p.idx [v])
            idx := p.idx + 1 } hp hmore (by simp only; omega) hend.tail (hfirst' _ rfl)
        refine ⟨con', ?_⟩
        simp only [hmore, if_true]
        exact ih
      · -- this was the last reply, and nothing follows it
        obtain rfl : stream = [] := hend.tail.eq_nil (eq_nil_of_length_eq_zero (by omega))
        refine ⟨con.trySend (.ok v), ?_⟩
        simp only [hmore, if_false, Packed.finish, hp, packedResult, refusals, keptReplies,
          map_nil, append_nil]
        rfl

theorem readLoop_packed_taken (hskip : con.messagesToSkip = 0) (p : Packed) (hp : p.firstErr = none)
    (herr : p.serverErrors = []) (hidx : p.idx < p.count)
    (h : readLoop (Packed.body 0) p con (stream.map .ok) = some (out, con', wire)) :
    ∃ taken rest, stream = taken ++ rest ∧ wire = rest.map .ok ∧ out = .ok (.ok (p.rv ++ replyPart taken)) ∧
      (replyPart taken).length = p.count - p.idx := by
  induction stream generalizing p con with
  | nil => cases h
  | cons v stream ih =>
    have hskip' : (con.trySend (.ok v)).messagesToSkip = 0 := by
      rw [trySend_messagesToSkip, hskip]
    rw [map_cons, readLoop_value hskip] at h
    cases hv : v.isPush with
    | true =>
      rw [Packed.body_push p hv (by omega)] at h
      obtain ⟨taken, rest, rfl, hwire, hout, hlen⟩ :=
        ih hskip' { p with count := p.count + 1, idx := p.idx + 1 } hp herr (by simp only; omega) h
      rw [Nat.add_sub_add_right] at hlen
      exact ⟨v :: taken, rest, rfl, hwire, by rwa [replyPart_cons_push hv], by rwa [replyPart_cons_push hv]⟩
    | false =>
      have hrecv : p.receive 0 (.ok v) = _ := p.receive_reply hv fun _ h0 => absurd h0 (Nat.lt_irrefl 0)
      have hkept : keptReplies 0 p.idx [v] = [v] := by simp [keptReplies, hv]
      rw [refusals_eq_nil_of_le (Nat.zero_le _), hkept] at hrecv
      rw [Packed.body, hrecv] at h
      by_cases hmore : p.idx + 1 < p.count
      · simp only [Nat.zero_add, hmore, if_true] at h
        obtain ⟨taken, rest, rfl, hwire, hout, hlen⟩ :=
          ih hskip' { p with rv := p.rv ++ [v], serverErrors := p.serverErrors ++ [], idx := p.idx + 1 } hp
            (by simp [herr]) hmore h
        refine ⟨v :: taken, rest, rfl, hwire, ?_, ?_⟩
        · rw [hout, replyPart_cons_reply hv, append_assoc]
          rfl
        · rw [replyPart_cons_reply hv, length_cons, hlen]
          simp only
          omega
      · -- this was the last reply
        simp only [Nat.zero_add, hmore, if_false, Packed.finish, hp, herr, reportedErrors, map_nil, append_nil,
          ne_eq, not_true_eq_false, Option.some.injEq, Prod.mk.injEq] at h
        obtain ⟨rfl, -, rfl⟩ := h
        refine ⟨[v], stream, rfl, rfl, ?_, ?_⟩
        · rw [replyPart_cons_reply hv]
          rfl
        · rw [replyPart_cons_reply hv, length_cons]
          show 0 + 1 = p.count - p.idx
          omega

theorem reqPackedCommands_stream (h : con.Idle) (hcmd : cmd ≠ []) (hlen : (replyPart stream).length = offset + count)
    (hend : EndsWithReply stream) (hfirst : FirstAccepted offset 0 stream) (rest : Wire) :
    ∃ con', reqPackedCommands cmd offset count con (stream.map .ok ++ rest) =
      some (.ok (packedResult (reportedErrors (refusals offset 0 stream)) (replyPart (stream.drop offset))),
        con', rest) := by
  rw [reqPackedCommands, request_of_ready h.toReady _ hcmd]
  by_cases hpos : 0 < offset + count
  · rw [if_pos hpos]
    have hskip : ({ con with written := con.written ++ [cmd] } : Connection).messagesToSkip = 0 := h.skip
    obtain ⟨con', hl⟩ := readLoop_packed hskip (.new count) rfl hpos hlen hend hfirst rest
    refine ⟨con', ?_⟩
    rw [hl, keptReplies_eq]
    rfl
  · obtain rfl : stream = [] := hend.eq_nil (eq_nil_of_length_eq_zero (by omega))
    obtain rfl : offset = 0 := by omega
    rw [if_neg hpos]
    exact ⟨_, rfl⟩

theorem reqPackedCommands_taken (h : con.Idle) (hcmd : cmd ≠ []) (hcnt : 0 < count)
    (hr : reqPackedCommands cmd 0 count con (stream.map .ok) = some (out, con', wire)) :
    con'.Idle ∧ ∃ taken rest, stream = taken ++ rest ∧ wire = rest.map .ok ∧ out = .ok (.ok (replyPart taken)) ∧
      (replyPart taken).length = count := by
  rw [reqPackedCommands, request_of_ready h.toReady _ hcmd, if_pos (by omega)] at hr
  have hidle : ({ con with written := con.written ++ [cmd] } : Connection).Idle := ⟨⟨h.pubsub, h.writeError⟩, h.skip⟩
  constructor
  · refine readLoop_inv (fun r hr con o con' hs => ?_) hr hidle
    obtain ⟨v, -, rfl⟩ := mem_map.1 hr
    exact readStep_idle hs
  · exact readLoop_packed_taken hidle.skip (.new count) rfl rfl hcnt hr

theorem reqPackedCommands_first_refused (h : con.Idle) (hcmd : cmd ≠ []) (hpos : 0 < offset) (count : Nat)
    (err : ServerError) (wire : Wire) :
    ∃ con', reqPackedCommands cmd offset count con (.ok (.serverError err) :: wire) =
      some (.error .subtractWithOverflow, con', wire) := by
  have hskip : ({ con with written := con.written ++ [cmd] } : Connection).messagesToSkip = 0 := h.skip
  rw [reqPackedCommands, request_of_ready h.toReady _ hcmd, if_pos (by omega), readLoop_value hskip]
  have hb : Packed.body offset (.new count) (.ok (.serverError err)) =
      .inr (.error .subtractWithOverflow) := by
    rw [Packed.body, Packed.receive, if_pos (show (Packed.new count).idx < offset from hpos)]
    rfl
  rw [hb]
  exact ⟨_, rfl⟩

end Connection

def Refused (replies : List Value) (j : Nat) : Prop := ∃ err, replies[j]? = some (.serverError err)

section Shift

variable {offset i i' : Nat} {stream : List Value}

theorem refusals_ne_nil_iff {replies : List Value} :
    refusals offset i replies ≠ [] ↔ ∃ j, i + j < offset ∧ Refused replies j := by
  constructor
  · intro h
    obtain ⟨⟨_, err⟩, he⟩ := exists_mem_of_ne_nil _ h
    obtain ⟨j, rfl, hlt, hr⟩ := mem_refusals.1 he
    exact ⟨j, hlt, err, hr⟩
  · rintro ⟨j, hj, err, hr⟩
    exact ne_nil_of_mem (a := (i + j, err)) (mem_refusals.2 ⟨j, rfl, hj, hr⟩)

theorem refusals_eq_nil_of_replyPart (hi : i ≤ i') (h : refusals offset i (replyPart stream) = []) :
    refusals offset i' stream = [] := by
  induction stream generalizing i i' with
  | nil => rfl
  | cons v stream ih =>
    cases hv : v.isPush with
    | true =>
      rw [replyPart_cons_push hv] at h
      obtain ⟨kind, data, rfl⟩ := isPush_iff.1 hv
      exact ih (by omega) h
    | false =>
      rw [replyPart_cons_reply hv, refusals_cons, append_eq_nil_iff] at h
      rw [refusals_cons, ih (by omega) h.2, append_nil]
      by_contra hne
      obtain ⟨j, hj, hr⟩ := refusals_ne_nil_iff.1 hne
      exact refusals_ne_nil_iff.2 ⟨j, by omega, hr⟩ h.1

theorem refusals_shift (hi : i < i') (h : refusals offset i' stream = refusals offset i (replyPart stream)) :
    refusals offset i (replyPart stream) = [] := by
  induction stream generalizing i i' with
  | nil => rfl
  | cons v stream ih =>
    cases hv : v.isPush with
    | true =>
      rw [replyPart_cons_push hv] at h ⊢
      obtain ⟨kind, data, rfl⟩ := isPush_iff.1 hv
      exact ih (by omega) h
    | false =>
      rw [replyPart_cons_reply hv] at h ⊢
      by_cases hr : refusals offset i [v] = []
      · have hr' : refusals offset i' [v] = [] :=
          refusals_eq_nil_of_replyPart (Nat.le_of_lt hi) (by rwa [replyPart_cons_reply hv])
        rw [refusals_cons _ i', hr', refusals_cons _ i, hr] at h
        rw [refusals_cons, hr, ih (by omega) h]
        rfl
      · -- the first refusal has the number `i` on one side and at least `i'` on the other
        obtain ⟨e, he⟩ := exists_mem_of_ne_nil _ hr
        have hmem : e ∈ refusals offset i' (v :: stream) := by
          rw [h, refusals_cons]
          exact mem_append_left _ he
        obtain ⟨j, hle, -⟩ := mem_refusals.1 hmem
        have heq := (mem_refusals_singleton.1 he).1
        omega

theorem refusals_replyPart_iff (offset i : Nat) (stream : List Value) :
    refusals offset i stream = refusals offset i (replyPart stream) ↔
      ∀ j, i + j < offset → Refused (replyPart stream) j → ∀ v ∈ stream.take (j + 1), v.isPush = false := by
  induction stream generalizing i with
  | nil => simp [replyPart]
  | cons v stream ih =>
    cases hv : v.isPush with
    | true =>
      rw [replyPart_cons_push hv]
      obtain ⟨kind, data, rfl⟩ := isPush_iff.1 hv
      constructor
      · intro h j hj hr
        exact absurd (refusals_shift (Nat.lt_succ_self i) h) (refusals_ne_nil_iff.2 ⟨j, hj, hr⟩)
      · intro h
        have hnil : refusals offset i (replyPart stream) = [] := by
          by_contra hne
          obtain ⟨j, hj, hr⟩ := refusals_ne_nil_iff.1 hne
          cases h j hj hr _ (mem_cons_self ..)
        rw [hnil]
        show refusals offset (i + 1) stream = []
        exact refusals_eq_nil_of_replyPart (Nat.le_succ i) hnil
    | false =>
      rw [replyPart_cons_reply hv, refusals_cons, refusals_cons _ _ v (replyPart stream),
        append_cancel_left_eq, ih]
      constructor
      · intro h j hj hr w hw
        rcases mem_cons.1 hw with rfl | hw
        · exact hv
        · cases j with
          | zero => simp at hw
          | succ j => exact h j (by omega) hr w hw
      · intro h j hj hr w hw
        exact h (j + 1) (by omega) hr w (mem_cons_of_mem _ hw)

theorem one_le_of_mem_refusals (h : FirstAccepted offset 0 stream) :
    ∀ e ∈ refusals offset 0 stream, 1 ≤ e.1 := by
  intro e he
  obtain ⟨j, hj, hlt, hv⟩ := mem_refusals.1 he
  by_contra h0
  obtain rfl : j = 0 := by omega
  cases h rfl (by omega) _ (head?_eq_getElem?.trans hv)

theorem reportedErrors_inj {a b : List (Nat × ServerError)} (ha : ∀ e ∈ a, 1 ≤ e.1) (hb : ∀ e ∈ b, 1 ≤ e.1)
    (h : reportedErrors a = reportedErrors b) : a = b := by
  have restore : ∀ l : List (Nat × ServerError), (∀ e ∈ l, 1 ≤ e.1) →
      (reportedErrors l).map (fun e => (e.1 + 1, e.2)) = l := by
    intro l hl
    rw [reportedErrors, map_map]
    refine (map_congr_left fun e he => ?_).trans (map_id l)
    exact Prod.ext (Nat.sub_add_cancel (hl e he)) rfl
  rw [← restore a ha, h, restore b hb]

theorem replyPart_drop_iff (stream : List Value) (hlen : offset ≤ (replyPart stream).length) :
    replyPart (stream.drop offset) = (replyPart stream).drop offset ↔
      ∀ v ∈ stream.take offset, v.isPush = false := by
  have hsplit : replyPart stream = replyPart (stream.take offset) ++ replyPart (stream.drop offset) := by
    rw [replyPart, replyPart, replyPart, ← filter_append, take_append_drop]
  have hoff : offset ≤ stream.length := hlen.trans (length_filter_le _ _)
  constructor
  · intro h
    have hl := congrArg List.length h
    rw [length_drop] at hl
    have hl' := congrArg List.length hsplit
    rw [length_append] at hl'
    have hfull : (replyPart (stream.take offset)).length = (stream.take offset).length := by
      rw [length_take]
      omega
    rw [replyPart, length_filter_eq_length_iff] at hfull
    intro v hv
    simpa using hfull v hv
  · intro h
    rw [hsplit, replyPart_eq_self h, drop_left' (by rw [length_take]; omega)]

end Shift

/-- The stream is the replies with pushes inserted before the last of them. -/
structure PushesInserted (replies stream : List Value) : Prop where
  replies : replyPart stream = replies
  last : EndsWithReply stream

/-- The call returns the same on the replies alone and on the stream, and reads just these. -/
def SameResult (con : Connection) (cmd : Bytes) (offset count : Nat) (replies stream : List Value) : Prop :=
  ∃ r, ∀ rest : Wire,
    (∃ con', con.reqPackedCommands cmd offset count (replies.map .ok ++ rest) = some (.ok r, con', rest)) ∧
    ∃ con', con.reqPackedCommands cmd offset count (stream.map .ok ++ rest) = some (.ok r, con', rest)

/-- The pushes go unnoticed: none comes before a reply that is passed over or that refuses a command. -/
structure PushesHarmless (cmd : Bytes) (offset count : Nat) (replies stream : List Value) : Prop where
  written : cmd ≠ [] ∨ offset + count = 0
  accepted : 0 < offset → ¬ Refused replies 0
  refused : ∀ j < offset, Refused replies j → ∀ v ∈ stream.take (j + 1), v.isPush = false
  kept : (∃ j < offset, Refused replies j) ∨ ∀ v ∈ stream.take offset, v.isPush = false

namespace PushesInserted

variable {replies stream : List Value} {offset : Nat}

theorem isPush_eq_false (h : PushesInserted replies stream) : ∀ v ∈ replies, v.isPush = false := by
  intro v hv
  rw [← h.replies, replyPart, mem_filter] at hv
  simpa using hv.2

theorem self (h : PushesInserted replies stream) : PushesInserted replies replies :=
  ⟨replyPart_eq_self h.isPush_eq_false, fun _ hv => h.isPush_eq_false _ (mem_of_getLast? hv)⟩

theorem firstAccepted (h : PushesInserted replies stream) (ha : 0 < offset → ¬ Refused replies 0) :
    FirstAccepted offset 0 stream := by
  intro _ hpos v hv
  by_contra herr
  obtain ⟨err, rfl⟩ := isServerError_iff.1 (Bool.eq_true_of_not_eq_false herr)
  refine ha hpos ⟨err, ?_⟩
  obtain ⟨tail, rfl⟩ := head?_eq_some_iff.1 hv
  rw [← h.replies, replyPart_cons_reply rfl]
  rfl

end PushesInserted

theorem packedResult_inj_iff {errors errors' : List (Nat × ServerError)} {kept kept' : List Value} :
    packedResult errors kept = packedResult errors' kept' ↔ errors = errors' ∧ (errors ≠ [] ∨ kept = kept') := by
  unfold packedResult RedisError.makeAbortedTransaction
  split <;> split <;> simp_all

variable {offset : Nat} {replies stream : List Value}

theorem packedResult_stream_iff (hins : PushesInserted replies stream) (hlen : offset ≤ replies.length)
    (hacc : 0 < offset → ¬ Refused replies 0) :
    packedResult (reportedErrors (refusals offset 0 stream)) (replyPart (stream.drop offset)) =
        packedResult (reportedErrors (refusals offset 0 replies)) (replyPart (replies.drop offset)) ↔
      (∀ j < offset, Refused replies j → ∀ v ∈ stream.take (j + 1), v.isPush = false) ∧
      ((∃ j < offset, Refused replies j) ∨ ∀ v ∈ stream.take offset, v.isPush = false) := by
  have hreported : reportedErrors (refusals offset 0 stream) = reportedErrors (refusals offset 0 replies) ↔
      refusals offset 0 stream = refusals offset 0 replies :=
    ⟨reportedErrors_inj (one_le_of_mem_refusals (hins.firstAccepted hacc))
      (one_le_of_mem_refusals (hins.self.firstAccepted hacc)), congrArg _⟩
  have hnum : refusals offset 0 stream = refusals offset 0 replies ↔
      ∀ j < offset, Refused replies j → ∀ v ∈ stream.take (j + 1), v.isPush = false := by
    have h := refusals_replyPart_iff offset 0 stream
    simp only [hins.replies, Nat.zero_add] at h
    exact h
  have hsome : refusals offset 0 replies ≠ [] ↔ ∃ j < offset, Refused replies j := by
    simp [refusals_ne_nil_iff]
  have hkept : replyPart (stream.drop offset) = replyPart (replies.drop offset) ↔
      ∀ v ∈ stream.take offset, v.isPush = false := by
    rw [replyPart_eq_self (fun v hv => hins.isPush_eq_false v (mem_of_mem_drop hv))]
    have h : offset ≤ (replyPart stream).length := by
      rw [hins.replies]
      exact hlen
    rw [← replyPart_drop_iff stream h, hins.replies]
  rw [packedResult_inj_iff, hreported, hkept, ← hnum, ← hsome]
  refine and_congr_right fun heq => or_congr_left ?_
  rw [reportedErrors, heq, ne_eq, map_eq_nil_iff]

variable {con : Connection} {cmd : Bytes} {count : Nat}

theorem sameResult_iff_of_accepted (hcon : con.Idle) (hcmd : cmd ≠ []) (hlen : replies.length = offset + count)
    (hins : PushesInserted replies stream) (hacc : 0 < offset → ¬ Refused replies 0) :
    SameResult con cmd offset count replies stream ↔
      packedResult (reportedErrors (refusals offset 0 stream)) (replyPart (stream.drop offset)) =
        packedResult (reportedErrors (refusals offset 0 replies)) (replyPart (replies.drop offset)) := by
  have run : ∀ s, PushesInserted replies s → ∀ rest : Wire, ∃ con',
      con.reqPackedCommands cmd offset count (s.map .ok ++ rest) =
        some (.ok (packedResult (reportedErrors (refusals offset 0 s)) (replyPart (s.drop offset))), con', rest) :=
    fun s hs => Connection.reqPackedCommands_stream hcon hcmd (by rw [hs.replies, hlen]) hs.last
      (hs.firstAccepted hacc)
  constructor
  · rintro ⟨r, h⟩
    obtain ⟨⟨_, h₁⟩, ⟨_, h₂⟩⟩ := h []
    obtain ⟨_, h₁'⟩ := run replies hins.self []
    obtain ⟨_, h₂'⟩ := run stream hins []
    rw [h₁', Option.some.injEq, Prod.mk.injEq, Except.ok.injEq] at h₁
    rw [h₂', Option.some.injEq, Prod.mk.injEq, Except.ok.injEq] at h₂
    rw [h₁.1, h₂.1]
  · intro h
    refine ⟨_, fun rest => ⟨run replies hins.self rest, ?_⟩⟩
    rw [← h]
    exact run stream hins rest

theorem SameResult.accepted (hcon : con.Idle) (h : SameResult con cmd offset count replies stream)
    (hcmd : cmd ≠ []) : 0 < offset → ¬ Refused replies 0 := by
  rintro hpos ⟨err, herr⟩
  obtain ⟨r, h⟩ := h
  obtain ⟨⟨_, h⟩, -⟩ := h []
  cases replies with
  | nil => cases herr
  | cons v replies =>
    cases herr
    rw [append_nil, map_cons] at h
    obtain ⟨_, hp⟩ := Connection.reqPackedCommands_first_refused hcon hcmd hpos count err (replies.map .ok)
    rw [hp] at h
    cases h

/-- Pushes leave the result of a pipeline unchanged exactly when they come where the shift of the
numbering does no harm. -/
theorem pushes_unnoticed_iff {con : Connection} (hcon : con.Idle) (cmd : Bytes) {offset count : Nat}
    {replies stream : List Value} (hlen : replies.length = offset + count)
    (hins : PushesInserted replies stream) :
    SameResult con cmd offset count replies stream ↔ PushesHarmless cmd offset count replies stream := by
  by_cases hcmd : cmd = []
  · subst hcmd
    have hrun : ∀ wire, con.reqPackedCommands [] offset count wire =
        some (.ok (.error .makeEmptyCommand), con, wire) :=
      Connection.request_empty hcon.toReady _ _
    constructor
    · rintro ⟨r, h⟩
      obtain ⟨⟨_, h⟩, -⟩ := h []
      rw [hrun, Option.some.injEq, Prod.mk.injEq, Prod.mk.injEq, append_nil, map_eq_nil_iff] at h
      have h0 : offset + count = 0 := by rw [← hlen, h.2.2, length_nil]
      refine ⟨.inr h0, ?_, ?_, .inr ?_⟩
      · intro hpos
        omega
      · intro j hj
        omega
      · rw [show offset = 0 by omega]
        intro v hv
        simp at hv
    · intro h
      have h0 : offset + count = 0 := h.written.resolve_left fun hne => hne rfl
      obtain rfl : replies = [] := eq_nil_of_length_eq_zero (hlen.trans h0)
      obtain rfl : stream = [] := hins.last.eq_nil hins.replies
      exact ⟨_, fun rest => ⟨⟨_, hrun _⟩, ⟨_, hrun _⟩⟩⟩
  · constructor
    · intro h
      have hacc := h.accepted hcon hcmd
      obtain ⟨href, hkept⟩ := (packedResult_stream_iff hins (by omega) hacc).1
        ((sameResult_iff_of_accepted hcon hcmd hlen hins hacc).1 h)
      exact ⟨.inl hcmd, hacc, href, hkept⟩
    · intro h
      exact (sameResult_iff_of_accepted hcon hcmd hlen hins h.accepted).2
        ((packedResult_stream_iff hins (by omega) h.accepted).2 ⟨h.refused, h.kept⟩)

def transactionReplies : List Value := [.okay, .simpleString "QUEUED", .array [.int 1]]

def messagePush : Value := .push .message [.bulkString (bytesOf "channel"), .bulkString (bytesOf "hello")]

theorem push_before_exec_unnoticed :
    PushesHarmless (bytesOf "MULTI") 2 1 transactionReplies
      [.okay, .simpleString "QUEUED", messagePush, .array [.int 1]] ∧
    SameResult (.fresh .resp3) (bytesOf "MULTI") 2 1 transactionReplies
      [.okay, .simpleString "QUEUED", messagePush, .array [.int 1]] := by
  have h : PushesHarmless (bytesOf "MULTI") 2 1 transactionReplies
      [.okay, .simpleString "QUEUED", messagePush, .array [.int 1]] := by
    refine ⟨.inl (by decide), ?_, ?_, .inr ?_⟩
    · rintro _ ⟨err, h⟩
      cases h
    · rintro (_ | _ | j) hj ⟨err, h⟩
      · cases h
      · cases h
      · omega
    · intro v hv
      simp only [take_succ_cons, take_zero, mem_cons, not_mem_nil, or_false] at hv
      rcases hv with rfl | rfl <;> rfl
  have hins : PushesInserted transactionReplies
      [.okay, .simpleString "QUEUED", messagePush, .array [.int 1]] := by
    refine ⟨rfl, ?_⟩
    rintro v ⟨⟩
    rfl
  exact ⟨h, (pushes_unnoticed_iff (Connection.fresh_idle .resp3) _ rfl hins).2 h⟩

theorem push_leaks_queued :
    PushesInserted transactionReplies [.okay, messagePush, .simpleString "QUEUED", .array [.int 1]] ∧
    (∃ con', (Connection.fresh .resp3).reqPackedCommands (bytesOf "MULTI") 2 1
        (transactionReplies.map .ok) = some (.ok (.ok [.array [.int 1]]), con', [])) ∧
    (∃ con', (Connection.fresh .resp3).reqPackedCommands (bytesOf "MULTI") 2 1
        ([.okay, messagePush, .simpleString "QUEUED", .array [.int 1]].map .ok) =
      some (.ok (.ok [.simpleString "QUEUED", .array [.int 1]]), con', [])) ∧
    ¬ SameResult (.fresh .resp3) (bytesOf "MULTI") 2 1 transactionReplies
      [.okay, messagePush, .simpleString "QUEUED", .array [.int 1]] := by
  refine ⟨⟨rfl, ?_⟩, ⟨_, rfl⟩, ⟨_, rfl⟩, ?_⟩
  · rintro v ⟨⟩
    rfl
  · rintro ⟨r, h⟩
    obtain ⟨⟨_, h₁⟩, ⟨_, h₂⟩⟩ := h []
    cases h₁
    cases h₂

end RedisRs
