import Mathlib.Data.List.Range
import RedisRs.Run

/-!
# Streams of credentials
-/

namespace RedisRs

inductive CredentialItem
  | creds (round : Nat)
  | error
deriving DecidableEq, Repr

def roundsOf (items : List CredentialItem) : List Nat := items.filterMap fun
  | .creds round => some round
  | .error => none

structure Subscriber where
  registeredAt : Nat
  first : Option (Option Nat) := none
  sent : List CredentialItem := []
  yielded : Nat := 0
  closed : Bool := false

namespace Subscriber

variable (sub : Subscriber)

def once : List CredentialItem := (sub.first.join.map .creds).toList

def stream : List CredentialItem := sub.once ++ sub.sent

def channel : List CredentialItem := sub.sent.drop (sub.yielded - sub.once.length)

def Ordered : Prop := (roundsOf sub.stream).Pairwise (· ≤ ·)

end Subscriber

inductive RefreshTask
  | idle
  | notify (item : CredentialItem)
  | sending (item : CredentialItem) (left : List Nat)
  | stopped

def RefreshTask.item : RefreshTask → Option CredentialItem
  | notify item | sending item _ => some item
  | idle | stopped => none

structure CredentialsProvider where
  rounds : Nat
  task : RefreshTask
  subscribers : List Nat
  subs : Nat → Option Subscriber

inductive CredentialStep
  | store
  | fail
  | copy
  | send (i : Nat)
  | finish
  | register (i : Nat)
  | read (i : Nat)
  | receive (i : Nat)
  | drop (i : Nat)
deriving DecidableEq

namespace CredentialsProvider

def start : CredentialsProvider := ⟨0, .idle, [], fun _ => none⟩

variable (s : CredentialsProvider)

def currentCredentials : Option Nat := if s.rounds = 0 then none else some s.rounds

def set (i : Nat) (sub : Subscriber) : CredentialsProvider := { s with subs := Function.update s.subs i (some sub) }

def onSubscriber (i : Nat) (f : Subscriber → Option Subscriber) : Option (Unit × CredentialsProvider) := do
  return ((), s.set i (← f (← s.subs i)))

def step : CredentialStep → Option (Unit × CredentialsProvider)
  | .store => match s.task with
    | .idle => some ((), { s with rounds := s.rounds + 1, task := .notify (.creds (s.rounds + 1)) })
    | _ => none
  | .fail => match s.task with
    | .idle => some ((), { s with task := .notify .error })
    | _ => none
  | .copy => match s.task with
    | .notify item =>
      let subscribers := s.subscribers.filter fun i => (s.subs i).any fun sub => !sub.closed
      some ((), { s with subscribers := subscribers, task := .sending item subscribers })
    | _ => none
  | .send i => match s.task, s.subs i with
    | .sending item left, some sub =>
      let s := { s with task := .sending item (left.filter (· ≠ i)) }
      if i ∉ left then none
      else if sub.closed then some ((), s)
      else if sub.channel = [] then some ((), s.set i { sub with sent := sub.sent ++ [item] })
      else none
    | _, _ => none
  | .finish => match s.task with
    | .sending (.creds _) [] => some ((), { s with task := .idle })
    | .sending .error [] => some ((), { s with task := .stopped })
    | _ => none
  | .register i => match s.subs i with
    | none => some ((), { s.set i { registeredAt := s.rounds } with subscribers := s.subscribers ++ [i] })
    | some _ => none
  | .read i => s.onSubscriber i fun sub =>
    if sub.first = none then some { sub with first := some s.currentCredentials } else none
  | .receive i => s.onSubscriber i fun sub =>
    if sub.first ≠ none ∧ sub.closed = false ∧ sub.yielded < sub.stream.length then
      some { sub with yielded := sub.yielded + 1 }
    else none
  | .drop i => s.onSubscriber i fun sub => some { sub with closed := true }

def owed (i : Nat) : List CredentialItem := match s.task with
  | .notify item => [item]
  | .sending item left => if i ∈ left then [item] else []
  | .idle | .stopped => []

end CredentialsProvider

/-- The rounds sent follow one another up to the last one, but for what is owed. -/
structure Subscriber.Fed (sub : Subscriber) (rounds : Nat) (owed : List CredentialItem) : Prop where
  since : sub.registeredAt ≤ rounds
  first : ∀ f, sub.first = some f → ∃ m, sub.registeredAt ≤ m ∧ m ≤ rounds ∧ f = if m = 0 then none else some m
  sent : ∃ r k, sub.registeredAt ≤ r ∧ r ≤ sub.registeredAt + 1 ∧ roundsOf sub.sent = List.range' r k ∧
    r + k ≤ rounds + 1 ∧ (sub.closed = false → r + k + (roundsOf owed).length = rounds + 1)

namespace CredentialsProvider

/-- Open subscribers are listed, and all are fed up to the current round. -/
structure Inv (s : CredentialsProvider) : Prop where
  item : ∀ r, s.task.item = some (.creds r) → r = s.rounds
  subscribers : ∀ i sub, s.subs i = some sub → sub.closed = false → i ∈ s.subscribers
  fed : ∀ i sub, s.subs i = some sub → sub.Fed s.rounds (s.owed i)

theorem start_inv : start.Inv := ⟨nofun, nofun, nofun⟩

variable {s s' : CredentialsProvider} {i j : Nat} {sub sub' : Subscriber}

theorem set_subs (h : (s.set i sub).subs j = some sub') : j = i ∧ sub' = sub ∨ j ≠ i ∧ s.subs j = some sub' := by
  by_cases hj : j = i
  · subst hj
    simp only [set, Function.update_self] at h
    exact .inl ⟨rfl, (Option.some.inj h).symm⟩
  · simp only [set, Function.update_of_ne hj] at h
    exact .inr ⟨hj, h⟩

theorem exists_of_onSubscriber {f : Subscriber → Option Subscriber} (h : s.onSubscriber i f = some ((), s')) :
    ∃ sub sub', s.subs i = some sub ∧ f sub = some sub' ∧ s' = s.set i sub' := by
  simp only [onSubscriber, Option.bind_eq_bind, Option.bind_eq_some_iff] at h
  obtain ⟨sub, hi, sub', hf, heq⟩ := h
  cases heq
  exact ⟨sub, sub', hi, hf, rfl⟩

theorem Inv.set (h : s.Inv) (hi : s.subs i = some sub) (hclosed : sub'.closed = false → sub.closed = false)
    (hfed : sub'.Fed s.rounds (s.owed i)) : (s.set i sub').Inv where
  item := h.item
  subscribers j subj hj hopen := by
    rcases set_subs hj with ⟨rfl, rfl⟩ | ⟨-, hj⟩
    · exact h.subscribers _ sub hi (hclosed hopen)
    · exact h.subscribers j subj hj hopen
  fed j subj hj := by
    rcases set_subs hj with ⟨rfl, rfl⟩ | ⟨-, hj⟩
    · exact hfed
    · exact h.fed j subj hj

theorem Inv.task (h : s.Inv) {rounds : Nat} {task : RefreshTask} {subscribers : List Nat} (hrounds : s.rounds ≤ rounds)
    (hitem : ∀ r, task.item = some (.creds r) → r = rounds)
    (hsub : ∀ i sub, s.subs i = some sub → sub.closed = false → i ∈ subscribers ∧
      (roundsOf (owed ⟨rounds, task, subscribers, s.subs⟩ i)).length + s.rounds = (roundsOf (s.owed i)).length + rounds) :
    Inv ⟨rounds, task, subscribers, s.subs⟩ where
  item := hitem
  subscribers i sub hi hopen := (hsub i sub hi hopen).1
  fed i sub hi := by
    obtain ⟨hsince, hfirst, r, k, hr, hr', hsent, hle, howed⟩ := h.fed i sub hi
    refine ⟨hsince.trans hrounds, fun f hf => ?_, r, k, hr, hr', hsent, by show r + k ≤ rounds + 1; omega,
      fun hopen => ?_⟩
    · obtain ⟨m, hm, hm', heq⟩ := hfirst f hf
      exact ⟨m, hm, hm'.trans hrounds, heq⟩
    · have hbef := howed hopen
      have hafter := (hsub i sub hi hopen).2
      show r + k + _ = rounds + 1
      omega

theorem Inv.register (h : s.Inv) (i : Nat) :
    Inv { s.set i { registeredAt := s.rounds } with subscribers := s.subscribers ++ [i] } where
  item := h.item
  subscribers j sub hj hopen := by
    rcases set_subs hj with ⟨rfl, -⟩ | ⟨-, hj⟩
    · exact List.mem_append_right _ List.mem_cons_self
    · exact List.mem_append_left _ (h.subscribers j sub hj hopen)
  fed j sub hj := by
    rcases set_subs hj with ⟨rfl, rfl⟩ | ⟨-, hj⟩
    · -- What is owed to it is the item of the task, if the list has not been copied yet.
      have hlen : (roundsOf (s.owed j)).length ≤ 1 := by
        refine (List.length_filterMap_le _ _).trans ?_
        unfold owed
        split
        · exact Nat.le_refl _
        · split <;> simp
        · exact Nat.zero_le _
        · exact Nat.zero_le _
      refine ⟨Nat.le_refl _, nofun, s.rounds + 1 - (roundsOf (s.owed j)).length, 0, ?_, ?_, rfl, ?_, fun _ => ?_⟩
      · show s.rounds ≤ _
        omega
      · show _ ≤ s.rounds + 1
        omega
      · show _ ≤ s.rounds + 1
        omega
      · show _ + (roundsOf (s.owed j)).length = s.rounds + 1
        omega
    · exact h.fed j sub hj

end CredentialsProvider

theorem Subscriber.Fed.push {sub : Subscriber} {rounds : Nat} {item : CredentialItem} (h : sub.Fed rounds [item])
    (hopen : sub.closed = false) (hitem : ∀ r, item = .creds r → r = rounds) :
    Subscriber.Fed { sub with sent := sub.sent ++ [item] } rounds [] := by
  obtain ⟨hsince, hfirst, r, k, hr, hr', hsent, hle, howed⟩ := h
  have hlen := howed hopen
  cases item with
  | creds round =>
    have hround : round = r + k := by
      rw [hitem round rfl]
      simp [roundsOf] at hlen
      omega
    have hconcat : roundsOf (sub.sent ++ [.creds round]) = List.range' r (k + 1) := by
      rw [List.range'_1_concat, ← hsent, hround]
      simp [roundsOf]
    simp [roundsOf] at hlen
    exact ⟨hsince, hfirst, r, k + 1, hr, hr', hconcat, by omega, fun _ => by simp [roundsOf]; omega⟩
  | error =>
    have hconcat : roundsOf (sub.sent ++ [.error]) = List.range' r k := by
      rw [← hsent]
      simp [roundsOf]
    exact ⟨hsince, hfirst, r, k, hr, hr', hconcat, hle, fun _ => hlen⟩

namespace CredentialsProvider

variable {s s' : CredentialsProvider} {i : Nat} {sub : Subscriber}

variable {a : CredentialStep} {item : CredentialItem} {left : List Nat}

theorem owed_filter (htask : s.task = .sending item left) {j : Nat} (hj : j ≠ i) :
    owed { s with task := .sending item (left.filter (· ≠ i)) } j = s.owed j := by
  simp [owed, htask, hj]

theorem Inv.send (h : s.Inv) (htask : s.task = .sending item left) (hi : s.subs i = some sub) (hmem : i ∈ left)
    (hopen : sub.closed = false) :
    Inv (CredentialsProvider.set { s with task := .sending item (left.filter (· ≠ i)) } i
      { sub with sent := sub.sent ++ [item] }) where
  item r hr := h.item r (htask ▸ hr)
  subscribers j subj hj hopenj := by
    rcases set_subs hj with ⟨rfl, rfl⟩ | ⟨-, hj⟩
    · exact h.subscribers _ sub hi hopen
    · exact h.subscribers j subj hj hopenj
  fed j subj hj := by
    rcases set_subs hj with ⟨rfl, rfl⟩ | ⟨hne, hj⟩
    · have hfed := h.fed j sub hi
      simp only [owed, htask, if_pos hmem] at hfed
      have hnone : j ∉ left.filter (· ≠ j) := by simp
      show Subscriber.Fed _ s.rounds (if _ then _ else _)
      rw [if_neg hnone]
      exact hfed.push hopen fun r hr => h.item r (by rw [htask, hr]; rfl)
    · have hfed := h.fed j subj hj
      rw [← owed_filter htask hne] at hfed
      exact hfed

theorem Inv.step (h : s.Inv) (hs : s.step a = some ((), s')) : s'.Inv := by
  cases a with
  | store =>
    simp only [CredentialsProvider.step] at hs
    split at hs
    next htask =>
      cases hs
      refine h.task (Nat.le_succ _) ?_ fun i sub hi hopen => ⟨h.subscribers i sub hi hopen, ?_⟩
      · rintro r ⟨⟩
        rfl
      · simp [owed, htask, roundsOf, Nat.add_comm]
    next => cases hs
  | fail =>
    simp only [CredentialsProvider.step] at hs
    split at hs
    next htask =>
      cases hs
      refine h.task (Nat.le_refl _) nofun fun i sub hi hopen => ⟨h.subscribers i sub hi hopen, ?_⟩
      simp [owed, htask, roundsOf]
    next => cases hs
  | copy =>
    simp only [CredentialsProvider.step] at hs
    split at hs
    next item htask =>
      cases hs
      refine h.task (Nat.le_refl _) (fun r hr => h.item r (htask ▸ hr)) fun i sub hi hopen => ?_
      -- An open subscriber is not taken off the list.
      have hmem : i ∈ s.subscribers.filter fun i => (s.subs i).any fun sub => !sub.closed :=
        List.mem_filter.2 ⟨h.subscribers i sub hi hopen, by simp [hi, hopen]⟩
      exact ⟨hmem, by simp only [owed, htask, if_pos hmem]⟩
    next => cases hs
  | send i =>
    simp only [CredentialsProvider.step] at hs
    split at hs
    next item left sub htask hi =>
      split_ifs at hs with hmem hclosed hroom
      · cases hs
        refine h.task (Nat.le_refl _) (fun r hr => h.item r (htask ▸ hr)) fun j subj hj hopen =>
          ⟨h.subscribers j subj hj hopen, ?_⟩
        have hne : j ≠ i := by
          rintro rfl
          cases hi.symm.trans hj
          rw [hclosed] at hopen
          cases hopen
        rw [owed_filter htask hne]
      · cases hs
        exact h.send htask hi hmem (Bool.eq_false_iff.2 hclosed)
    next => cases hs
  | finish =>
    simp only [CredentialsProvider.step] at hs
    split at hs
    next htask =>
      cases hs
      exact h.task (Nat.le_refl _) nofun fun i sub hi hopen => ⟨h.subscribers i sub hi hopen, by simp [owed, htask]⟩
    next htask =>
      cases hs
      exact h.task (Nat.le_refl _) nofun fun i sub hi hopen => ⟨h.subscribers i sub hi hopen, by simp [owed, htask]⟩
    next => cases hs
  | register i =>
    simp only [CredentialsProvider.step] at hs
    split at hs
    next =>
      cases hs
      exact h.register i
    next => cases hs
  | read i =>
    obtain ⟨sub, sub', hi, hf, rfl⟩ := exists_of_onSubscriber hs
    split_ifs at hf
    cases hf
    have hfed := h.fed i sub hi
    refine h.set hi id ⟨hfed.since, fun f hf => ?_, hfed.sent⟩
    cases hf
    exact ⟨s.rounds, hfed.since, Nat.le_refl _, rfl⟩
  | receive i =>
    obtain ⟨sub, sub', hi, hf, rfl⟩ := exists_of_onSubscriber hs
    split_ifs at hf
    cases hf
    have hfed := h.fed i sub hi
    exact h.set hi id ⟨hfed.since, hfed.first, hfed.sent⟩
  | drop i =>
    obtain ⟨sub, sub', hi, hf, rfl⟩ := exists_of_onSubscriber hs
    cases hf
    obtain ⟨hsince, hfirst, r, k, hr, hr', hsent, hle, -⟩ := h.fed i sub hi
    exact h.set hi nofun ⟨hsince, hfirst, r, k, hr, hr', hsent, hle, nofun⟩

/-- What a step can do to the stream of one subscriber. -/
def StreamStep (s : CredentialsProvider) (a : CredentialStep) (i : Nat) (sub' : Subscriber) : Prop :=
  a ≠ .read i ∧ sub'.first = none ∧ sub'.sent = [] ∨ ∃ sub, s.subs i = some sub ∧
    (a ≠ .read i ∧ sub'.first = sub.first ∧ (sub'.sent = sub.sent ∨
      ∃ item left, s.task = .sending item left ∧ sub'.sent = sub.sent ++ [item]) ∨
    a = .read i ∧ sub'.first = some s.currentCredentials ∧ sub'.sent = sub.sent)

theorem StreamStep.set {j : Nat} {subj sub' : Subscriber} (hi : (s.set j subj).subs i = some sub')
    (hother : i ≠ j → a ≠ .read i) (hself : i = j → s.StreamStep a i subj) : s.StreamStep a i sub' := by
  rcases set_subs hi with ⟨rfl, rfl⟩ | ⟨hne, hi⟩
  · exact hself rfl
  · exact .inr ⟨sub', hi, .inl ⟨hother hne, rfl, .inl rfl⟩⟩

theorem streamStep_of_step {sub' : Subscriber} (hs : s.step a = some ((), s')) (hi : s'.subs i = some sub') :
    s.StreamStep a i sub' := by
  cases a with
  | store | fail | copy | finish =>
    simp only [CredentialsProvider.step] at hs
    split at hs <;> cases hs <;> exact .inr ⟨sub', hi, .inl ⟨nofun, rfl, .inl rfl⟩⟩
  | send j =>
    simp only [CredentialsProvider.step] at hs
    split at hs
    next item left sub htask hj =>
      split_ifs at hs
      · cases hs
        exact .inr ⟨sub', hi, .inl ⟨nofun, rfl, .inl rfl⟩⟩
      · cases hs
        refine .set hi (fun _ => nofun) ?_
        rintro rfl
        exact .inr ⟨sub, hj, .inl ⟨nofun, rfl, .inr ⟨item, left, htask, rfl⟩⟩⟩
    next => cases hs
  | register j =>
    simp only [CredentialsProvider.step] at hs
    split at hs <;> cases hs
    exact .set hi (fun _ => nofun) fun _ => .inl ⟨nofun, rfl, rfl⟩
  | read j =>
    obtain ⟨sub, sub', hj, hf, rfl⟩ := exists_of_onSubscriber hs
    split_ifs at hf
    cases hf
    refine .set hi (fun hne heq => hne (CredentialStep.read.inj heq).symm) ?_
    rintro rfl
    exact .inr ⟨sub, hj, .inr ⟨rfl, rfl, rfl⟩⟩
  | receive j =>
    obtain ⟨sub, sub', hj, hf, rfl⟩ := exists_of_onSubscriber hs
    split_ifs at hf
    cases hf
    refine .set hi (fun _ => nofun) ?_
    rintro rfl
    exact .inr ⟨sub, hj, .inl ⟨nofun, rfl, .inl rfl⟩⟩
  | drop j =>
    obtain ⟨sub, sub', hj, hf, rfl⟩ := exists_of_onSubscriber hs
    cases hf
    refine .set hi (fun _ => nofun) ?_
    rintro rfl
    exact .inr ⟨sub, hj, .inl ⟨nofun, rfl, .inl rfl⟩⟩

end CredentialsProvider

theorem Subscriber.Fed.ordered_iff {sub : Subscriber} {rounds : Nat} {owed : List CredentialItem}
    (h : sub.Fed rounds owed) :
    sub.Ordered ↔ ∀ c, sub.first = some (some c) → ∀ r ∈ roundsOf sub.sent, c ≤ r := by
  obtain ⟨r, k, -, -, hsent, -⟩ := h.sent
  have hsort : (roundsOf sub.sent).Pairwise (· ≤ ·) := by
    rw [hsent]
    exact List.pairwise_le_range' ..
  rw [Subscriber.Ordered, Subscriber.stream, Subscriber.once]
  rcases sub.first with _ | _ | c
  · simpa using hsort
  · simpa using hsort
  · simp [roundsOf] at hsort ⊢
    simp [hsort]

namespace CredentialsProvider

variable {s s' : CredentialsProvider}

/-- The subscriber gets its credentials in the order of the rounds. -/
def Orderly (s : CredentialsProvider) (i : Nat) : Prop := ∀ sub, s.subs i = some sub → sub.Ordered

theorem eq_of_currentCredentials {c : Nat} (h : s.currentCredentials = some c) : c = s.rounds := by
  rw [currentCredentials] at h
  split at h <;> cases h
  rfl

theorem Inv.orderly_step (h : s.Inv) {a : CredentialStep} (hs : s.step a = some ((), s')) {i : Nat} (hord : s.Orderly i) :
    s'.Orderly i ↔ (a = .read i → ∀ sub, s.subs i = some sub → ∀ r ∈ roundsOf sub.sent, s.rounds ≤ r) := by
  have hinv := h.step hs
  constructor
  · rintro hord' rfl sub₀ hi₀ r hr
    obtain ⟨sub, sub', hi, hf, rfl⟩ := exists_of_onSubscriber hs
    split_ifs at hf
    cases hf
    cases hi.symm.trans hi₀
    have hi' : (s.set i { sub₀ with first := some s.currentCredentials }).subs i = _ := Function.update_self ..
    have hle := (hinv.fed i _ hi').ordered_iff.1 (hord' _ hi')
    rcases Nat.eq_zero_or_pos s.rounds with hzero | hpos
    · omega
    · exact hle s.rounds (congrArg some (if_neg hpos.ne')) r hr
  · intro hread sub' hi'
    refine (hinv.fed i sub' hi').ordered_iff.2 fun c hc r hr => ?_
    rcases streamStep_of_step hs hi' with ⟨-, hfirst, -⟩ | ⟨sub, hi, ⟨-, hfirst, hsent⟩ | ⟨rfl, hfirst, hsent⟩⟩
    · cases hfirst.symm.trans hc
    · have hle := (h.fed i sub hi).ordered_iff.1 (hord sub hi) c (hfirst.symm.trans hc)
      rcases hsent with hsent | ⟨item, left, htask, hsent⟩
      · exact hle r (hsent ▸ hr)
      · rw [hsent, roundsOf, List.filterMap_append, List.mem_append] at hr
        rcases hr with hr | hr
        · exact hle r hr
        · -- The item is of the last round.
          cases item with
          | error => cases hr
          | creds round =>
            cases List.mem_singleton.1 hr
            obtain ⟨m, -, hm, heq⟩ := (h.fed i sub hi).first _ (hfirst.symm.trans hc)
            rw [h.item r (by rw [htask]; rfl)]
            split at heq <;> cases heq
            exact hm
    · rw [eq_of_currentCredentials (Option.some.inj (hfirst.symm.trans hc))]
      exact hread rfl sub hi r (hsent ▸ hr)

end CredentialsProvider

/-- The rounds sent follow one another from the registration on, and all are sent that are not owed. -/
structure Subscriber.GapFree (sub : Subscriber) (s : CredentialsProvider) (i : Nat) : Prop where
  consecutive : ∃ r k, r ≤ sub.registeredAt + 1 ∧ roundsOf sub.sent = List.range' r k
  complete : sub.closed = false → s.owed i = [] → ∀ r, sub.registeredAt < r → r ≤ s.rounds → r ∈ roundsOf sub.sent
  early : 1 ≤ sub.registeredAt → sub.first ≠ none → ∃ c, sub.registeredAt ≤ c ∧ sub.stream.head? = some (.creds c)

theorem Subscriber.Fed.gapFree {sub : Subscriber} {s : CredentialsProvider} {i : Nat} (h : sub.Fed s.rounds (s.owed i)) :
    sub.GapFree s i := by
  obtain ⟨-, hfirst, r, k, hr, hr', hsent, -, howed⟩ := h
  refine ⟨⟨r, k, hr', hsent⟩, fun hopen hnone q hq hq' => ?_, fun hsto hread => ?_⟩
  · have hend := howed hopen
    rw [hnone] at hend
    rw [hsent, List.mem_range'_1]
    simp only [roundsOf, List.filterMap_nil, List.length_nil] at hend
    omega
  · obtain ⟨f, hf⟩ := Option.ne_none_iff_exists'.1 hread
    obtain ⟨m, hm, -, rfl⟩ := hfirst f hf
    rw [if_neg (by omega)] at hf
    exact ⟨m, hm, by simp [Subscriber.stream, Subscriber.once, hf]⟩

open CredentialsProvider Run in
/-- No stream has a gap. A stream is in order exactly if nothing of an earlier round has been sent to it when its
subscriber reads the current credentials. -/
theorem credential_streams_ordered_iff (steps : List CredentialStep) :
    Along CredentialsProvider.step (fun _ _ _ s => ∀ i sub, s.subs i = some sub → sub.GapFree s i) start steps ∧
    ∀ i, Along CredentialsProvider.step (fun _ _ _ s => s.Orderly i) start steps ↔
      Along CredentialsProvider.step (fun s a _ _ => a = .read i → ∀ sub, s.subs i = some sub →
        ∀ r ∈ roundsOf sub.sent, s.rounds ≤ r) start steps := by
  constructor
  · refine along_of_inv (fun s a _ s' hinv hs => ?_) start_inv steps
    have hinv' := hinv.step hs
    exact ⟨fun i sub hi => (hinv'.fed i sub hi).gapFree, hinv'⟩
  · intro i
    have hstart : start.Inv ∧ start.Orderly i := ⟨start_inv, nofun⟩
    refine along_iff (I := fun s => s.Inv ∧ s.Orderly i) (fun s a _ s' hinv hs => ?_) hstart steps
    exact ⟨hinv.1.orderly_step hs hinv.2, fun hord => ⟨hinv.1.step hs, hord⟩⟩

theorem credentials_out_of_order :
    ((Run.run CredentialsProvider.step .start [.register 0, .store, .copy, .send 0, .finish, .store, .read 0, .receive 0,
      .receive 0, .copy, .send 0, .receive 0]).map fun (_, s) => (s.subs 0).map fun sub => sub.stream.take sub.yielded) =
      some (some [.creds 2, .creds 1, .creds 2]) :=
  rfl

end RedisRs
