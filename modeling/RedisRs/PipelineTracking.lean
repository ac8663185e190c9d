import RedisRs.SubscriptionTracker

/-!
# The subscriptions of a pipeline
-/

namespace RedisRs

open List SubscriptionTracker

structure Tracking where
  tracker : SubscriptionTracker
  applied : List (SubscriptionAction × List Bytes)
deriving DecidableEq

namespace Tracking

def apply (s : Tracking) (request : SubscriptionAction × List Bytes) : Tracking :=
  ⟨s.tracker.updateWithRequest request.1 request.2, s.applied ++ [request]⟩

def trackFrom (res : List Value) : List (Cmd × Nat) → Tracking → Ends Unit × Tracking
  | [], s => (.ok (), s)
  | (c, index) :: cmds, s =>
    match res[index]? with
    | none => (.error .sliceIndex, s)
    | some reply =>
      if reply.isServerError then trackFrom res cmds s
      else match toRequest c with
        | none => trackFrom res cmds s
        | some request => trackFrom res cmds (s.apply request)

def indexedReplies : Bool → List Value → Ends (List Value)
  | false, res => .ok res
  | true, [] => .error .sliceIndex
  | true, .array arr :: _ => .ok arr
  | true, res => .ok res

def trackPipeline (pipeline : Pipeline) (res : List Value) (s : Tracking) : Ends Unit × Tracking :=
  match indexedReplies pipeline.transactionMode res with
  | .error panic => (.error panic, s)
  | .ok res => trackFrom res pipeline.commands.zipIdx s

def executedReplies : Bool → List Value → List Value
  | false, res => res
  | true, [.array arr] => arr
  | true, _ => []

def requests (replied : List (Cmd × Value)) : List (SubscriptionAction × List Bytes) :=
  replied.filterMap fun reply => if reply.2.isServerError then none else toRequest reply.1

/-- What a connection can return for a pipeline. -/
def Answers (pipeline : Pipeline) (res : List Value) : Prop :=
  if pipeline.transactionMode then ∃ v, res = [v] else res.length = pipeline.commands.length

/-- The tracker gets the requests that were executed. -/
def Tracks (pipeline : Pipeline) (res : List Value) (t : SubscriptionTracker) : Prop :=
  trackPipeline pipeline res ⟨t, []⟩ =
    (.ok (), (requests (pipeline.commands.zip (executedReplies pipeline.transactionMode res))).foldl apply ⟨t, []⟩)

theorem applied_foldl_apply (requests : List (SubscriptionAction × List Bytes)) (s : Tracking) :
    (requests.foldl apply s).applied = s.applied ++ requests := by
  induction requests generalizing s with
  | nil => exact (append_nil _).symm
  | cons request requests ih => rw [foldl_cons, ih, apply, append_assoc, singleton_append]

theorem requests_cons (reply : Cmd × Value) (replied : List (Cmd × Value)) :
    requests (reply :: replied) = requests [reply] ++ requests replied :=
  filterMap_append (l := [reply])

theorem requests_singleton_eq_nil {c : Cmd} {v : Value} :
    requests [(c, v)] = [] ↔ v.isServerError = true ∨ toRequest c = none := by
  cases herr : v.isServerError with
  | true => simp [requests, herr]
  | false => cases hreq : toRequest c <;> simp [requests, herr, hreq]

variable {res : List Value} {k : Nat} {cmds : List Cmd}

theorem trackFrom_cons {c : Cmd} {cmds : List (Cmd × Nat)} (hk : k < res.length) (s : Tracking) :
    trackFrom res ((c, k) :: cmds) s = trackFrom res cmds ((requests [(c, res[k])]).foldl apply s) := by
  rw [trackFrom, getElem?_eq_getElem hk]
  cases herr : res[k].isServerError with
  | true => simp [requests, herr]
  | false =>
    cases hreq : toRequest c with
    | none => simp [requests, herr, hreq]
    | some request => simp [requests, herr, hreq]

theorem trackFrom_of_le (h : k + cmds.length ≤ res.length) (s : Tracking) :
    trackFrom res (cmds.zipIdx k) s = (.ok (), (requests (cmds.zip (res.drop k))).foldl apply s) := by
  induction cmds generalizing k s with
  | nil => rfl
  | cons c cmds ih =>
    rw [length_cons] at h
    have hk : k < res.length := by omega
    rw [drop_eq_getElem_cons hk, zip_cons_cons, requests_cons, foldl_append, zipIdx_cons,
      trackFrom_cons hk, ih (by omega)]

theorem trackFrom_of_lt (h : res.length < k + cmds.length) (hk : k ≤ res.length) (s : Tracking) :
    (trackFrom res (cmds.zipIdx k) s).1 = .error .sliceIndex := by
  induction cmds generalizing k s with
  | nil => exact absurd h (Nat.not_lt.2 hk)
  | cons c cmds ih =>
    rw [length_cons] at h
    rw [zipIdx_cons]
    by_cases hlt : k < res.length
    · rw [trackFrom_cons hlt]
      exact ih (by omega) hlt _
    · rw [trackFrom, getElem?_eq_none (Nat.not_lt.1 hlt)]

section Pipeline

variable {pipeline : Pipeline} {res : List Value} {t : SubscriptionTracker}

theorem trackPipeline_of_indexed {replies : List Value} (h : indexedReplies pipeline.transactionMode res = .ok replies)
    (s : Tracking) : trackPipeline pipeline res s = trackFrom replies pipeline.commands.zipIdx s := by
  rw [trackPipeline, h]

theorem tracks_iff_of_executed
    (h : indexedReplies pipeline.transactionMode res = .ok (executedReplies pipeline.transactionMode res)) :
    Tracks pipeline res t ↔ pipeline.commands.length ≤ (executedReplies pipeline.transactionMode res).length := by
  rw [Tracks, trackPipeline_of_indexed h]
  constructor
  · intro htrk
    by_contra hlt
    have hpanics := trackFrom_of_lt (k := 0) (by rw [Nat.zero_add]; exact Nat.not_le.1 hlt) (Nat.zero_le _) ⟨t, []⟩
    rw [htrk] at hpanics
    cases hpanics
  · intro hle
    rw [trackFrom_of_le (by rwa [Nat.zero_add]), drop_zero]

theorem tracks_iff_of_aborted {v : Value} (hne : pipeline.commands ≠ [])
    (hindexed : indexedReplies pipeline.transactionMode [v] = .ok [v])
    (hexec : executedReplies pipeline.transactionMode [v] = []) :
    Tracks pipeline [v] t ↔ ∃ c, pipeline.commands = [c] ∧ (v.isServerError = true ∨ toRequest c = none) := by
  rw [Tracks, trackPipeline_of_indexed hindexed, hexec, zip_nil_right]
  rcases hcmds : pipeline.commands with _ | ⟨c, _ | ⟨c', cmds⟩⟩
  · exact absurd hcmds hne
  · have hlast : ∀ requests : List (SubscriptionAction × List Bytes),
        requests.foldl apply ⟨t, []⟩ = ⟨t, []⟩ → requests = [] := by
      intro requests h
      exact (applied_foldl_apply requests ⟨t, []⟩).symm.trans (congrArg applied h)
    rw [trackFrom_of_le (Nat.le_refl 1), drop_zero]
    constructor
    · intro htrk
      exact ⟨c, rfl, requests_singleton_eq_nil.1 (hlast _ (congrArg Prod.snd htrk))⟩
    · rintro ⟨c'', hc, hnone⟩
      cases hc
      have hnil : requests ([c].zip [v]) = [] := requests_singleton_eq_nil.2 hnone
      rw [hnil]
      rfl
  · constructor
    · intro htrk
      have hpanics : (trackFrom [v] (c :: c' :: cmds).zipIdx ⟨t, []⟩).1 = .error .sliceIndex :=
        trackFrom_of_lt (by simp) (Nat.zero_le _) _
      rw [htrk] at hpanics
      cases hpanics
    · rintro ⟨c'', hc, -⟩
      cases hc

end Pipeline

/-- The tracker gets exactly what was executed if the pipeline is not atomic, if `EXEC` was answered with a reply for every
command, or if there is a single command that is no subscription or was refused. -/
theorem trackPipeline_iff (pipeline : Pipeline) (res : List Value) (t : SubscriptionTracker)
    (hne : pipeline.commands ≠ [])
    (hres : Answers pipeline res) :
    Tracks pipeline res t ↔
      pipeline.transactionMode = false ∨
      (∃ arr, res = [.array arr] ∧ pipeline.commands.length ≤ arr.length) ∨
      ∃ c v, pipeline.commands = [c] ∧ res = [v] ∧ (∀ arr, v ≠ .array arr) ∧
        (v.isServerError = true ∨ toRequest c = none) := by
  cases hmode : pipeline.transactionMode with
  | false =>
    rw [Answers, if_neg (by rw [hmode]; exact Bool.false_ne_true)] at hres
    rw [tracks_iff_of_executed (by rw [hmode]; rfl), hmode]
    exact iff_of_true hres.ge (.inl rfl)
  | true =>
    rw [Answers, if_pos hmode] at hres
    obtain ⟨v, rfl⟩ := hres
    by_cases harray : ∃ arr, v = .array arr
    · obtain ⟨arr, rfl⟩ := harray
      rw [tracks_iff_of_executed (by rw [hmode]; rfl), hmode]
      constructor
      · intro hle
        exact .inr (.inl ⟨arr, rfl, hle⟩)
      · rintro (hfalse | ⟨arr', heq, hle⟩ | ⟨c, v, -, heq, hv, -⟩)
        · cases hfalse
        · cases heq
          exact hle
        · cases heq
          exact absurd rfl (hv arr)
    · have hv : ∀ arr, v ≠ .array arr := fun arr heq => harray ⟨arr, heq⟩
      have hindexed : indexedReplies pipeline.transactionMode [v] = .ok [v] := by
        rw [hmode]
        cases v with
        | array arr => exact absurd rfl (hv arr)
        | _ => rfl
      have hexecuted : executedReplies pipeline.transactionMode [v] = [] := by
        rw [hmode]
        cases v with
        | array arr => exact absurd rfl (hv arr)
        | _ => rfl
      rw [tracks_iff_of_aborted hne hindexed hexecuted]
      constructor
      · rintro ⟨c, hcommands, hnone⟩
        exact .inr (.inr ⟨c, v, hcommands, rfl, hv, hnone⟩)
      · rintro (hfalse | ⟨arr, heq, -⟩ | ⟨c, v', hcommands, heq, -, hnone⟩)
        · cases hfalse
        · cases heq
          exact absurd rfl (hv arr)
        · cases heq
          exact ⟨c, hcommands, hnone⟩

theorem trackPipeline_iff_executed :
    Tracks ⟨[Cmd.ofArgs [bytesOf "SUBSCRIBE", bytesOf "a"], cmd "PING"], true, ∅, false⟩ [.array [.okay, .okay]] .new := by
  refine (trackPipeline_iff _ _ _ (cons_ne_nil _ _) ?_).2 (.inr (.inl ⟨[.okay, .okay], rfl, Nat.le_refl 2⟩))
  exact ⟨_, rfl⟩

theorem aborted_exec_tracked :
    (trackPipeline ⟨[cmd "PING", cmd "PING"], true, ∅, false⟩ [.nil] ⟨.new, []⟩).1 = .error .sliceIndex ∧
    trackPipeline ⟨[Cmd.ofArgs [bytesOf "SUBSCRIBE", bytesOf "a"]], true, ∅, false⟩ [.nil] ⟨.new, []⟩ =
      (.ok (), ⟨⟨{bytesOf "a"}, ∅, ∅⟩, [(.subscribe, [bytesOf "a"])]⟩) := by
  refine ⟨rfl, Prod.ext rfl ?_⟩
  decide +kernel

end Tracking

end RedisRs
