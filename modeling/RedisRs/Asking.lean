import RedisRs.AsyncRequest
import RedisRs.Run

/-!
# ASKING on a shared connection
-/

namespace RedisRs

open Function

namespace AsyncCluster

variable {C : Type}

def CmdArg.singleRoute : CmdArg C → Option (InternalSingleNodeRouting C)
  | .cmd _ (.singleNode route) => some route
  | .cmd _ (.multiNode _ _) => none
  | .pipeline _ _ _ route => some route
  | .reconnect _ => none

def InternalSingleNodeRouting.asking : InternalSingleNodeRouting C → Bool
  | .redirect (.ask _) _ => true
  | _ => false

inductive NodeMessage
  | asking (attempt : Nat)
  | request (attempt : Nat) (redirected : Bool)
  /-- Of a task that is not an attempt at a request: a check of the connection, a refresh of the slots. -/
  | other
deriving DecidableEq

inductive Attempt
  | idle
  | connected (conn : Nat) (asking : Bool)
  | asking (conn : Nat)
  | asked (conn : Nat)
  | sent
  | ended
deriving DecidableEq

/-- The attempt has put its ASKING on the queue of this connection, but not its own message yet. -/
def Attempt.Between (conn : Nat) (attempt : Attempt) : Prop := attempt = .asking conn ∨ attempt = .asked conn

structure Attempts where
  attempt : Nat → Attempt
  /-- What was put on the queue of each connection, the last message first. -/
  queue : Nat → List NodeMessage

namespace Attempts

def new : Attempts := ⟨fun _ => .idle, fun _ => []⟩

def set (s : Attempts) (a : Nat) (attempt : Attempt) : Attempts :=
  { s with attempt := update s.attempt a attempt }

def put (s : Attempts) (conn : Nat) (message : NodeMessage) : Attempts :=
  { s with queue := update s.queue conn (message :: s.queue conn) }

inductive Event (C : Type)
  | connect (a : Nat) (cmd : CmdArg C) (conn : Nat)
  | send (a : Nat)
  | answer (a : Nat) (result : RedisResult Value)
  | leave (a : Nat)
  | other (conn : Nat)

def step (s : Attempts) : Event C → Option (Unit × Attempts)
  | .connect a cmd conn =>
    match s.attempt a, cmd.singleRoute with
    | .idle, some route => some ((), s.set a (.connected conn route.asking))
    | _, _ => none
  | .send a =>
    match s.attempt a with
    | .connected conn true => some ((), (s.put conn (.asking a)).set a (.asking conn))
    | .connected conn false => some ((), (s.put conn (.request a false)).set a .sent)
    | .asked conn => some ((), (s.put conn (.request a true)).set a .sent)
    | _ => none
  | .answer a result =>
    match s.attempt a with
    | .asking conn => some ((), s.set a (if (result.bind Value.extractError).isOk then .asked conn else .ended))
    | _ => none
  | .leave a =>
    match s.attempt a with
    | .idle | .sent | .ended => none
    | _ => some ((), s.set a .ended)
  | .other conn => some ((), s.put conn .other)

/-- The message is a redirected request exactly after its own ASKING. -/
def Follows (last : Option NodeMessage) (message : NodeMessage) : Prop :=
  ∀ a, last = some (.asking a) ↔ message = .request a true

/-- Every redirected request is right after its ASKING, and nothing else is right after an ASKING. -/
def Adjacent : List NodeMessage → Prop
  | [] => True
  | message :: messages => Follows messages.head? message ∧ Adjacent messages

/-- ASKING and its request are adjacent, or the request is still to be put at the end of the queue. -/
def Paired (s : Attempts) : Prop :=
  ∀ conn, Adjacent (s.queue conn) ∧ ∀ a, (s.queue conn).head? = some (.asking a) → (s.attempt a).Between conn

/-- The step leaves alone the attempts that are between their ASKING and their own message. -/
def Undisturbed (s : Attempts) : Event C → Prop
  | .connect _ _ _ => True
  | .send a => ∀ conn, (s.attempt a = .asked conn ∨ ∃ asking, s.attempt a = .connected conn asking) →
    ∀ b ≠ a, ¬ (s.attempt b).Between conn
  | .answer _ result => (result.bind Value.extractError).isOk = true
  | .leave a => ∀ conn, ¬ (s.attempt a).Between conn
  | .other conn => ∀ b, ¬ (s.attempt b).Between conn

/-- The attempts between their ASKING and their own message are those whose ASKING is at the end of a queue. -/
structure Inv (s : Attempts) : Prop where
  adjacent : ∀ conn, Adjacent (s.queue conn)
  last : ∀ conn a, (s.queue conn).head? = some (.asking a) ↔ (s.attempt a).Between conn

variable {s s' : Attempts} {a conn : Nat}

theorem Inv.paired (h : s.Inv) : s.Paired := fun conn => ⟨h.adjacent conn, fun a => (h.last conn a).1⟩

theorem new_inv : new.Inv := ⟨fun _ => trivial, fun _ _ => by simp [new, Attempt.Between]⟩

theorem set_inv {attempt : Attempt} (h : s.Inv) (ha : ∀ conn, attempt.Between conn ↔ (s.attempt a).Between conn) :
    (s.set a attempt).Inv := by
  refine ⟨h.adjacent, fun conn b => (h.last conn b).trans ?_⟩
  by_cases hb : b = a
  · subst hb
    simp [set, ha conn]
  · simp [set, hb]

theorem end_paired_iff (h : s.Inv) : (s.set a .ended).Paired ↔ ∀ conn, ¬ (s.attempt a).Between conn := by
  constructor
  · intro hpaired conn hbtw
    have hended := (hpaired conn).2 a ((h.last conn a).2 hbtw)
    simp [set, Attempt.Between] at hended
  · intro hnot
    exact (set_inv h fun conn => iff_of_false (by simp [Attempt.Between]) (hnot conn)).paired

theorem put_paired_iff {attempt : Nat → Attempt} {message : NodeMessage} (h : s.Inv)
    (hother : ∀ b, ∀ conn' ≠ conn, (attempt b).Between conn' ↔ (s.attempt b).Between conn')
    (hsame : Follows (s.queue conn).head? message → ∀ b, (attempt b).Between conn ↔ message = .asking b) :
    (Paired { s.put conn message with attempt } ↔ Follows (s.queue conn).head? message) ∧
      (Paired { s.put conn message with attempt } → Inv { s.put conn message with attempt }) := by
  have hfollows : Paired { s.put conn message with attempt } → Follows (s.queue conn).head? message := by
    intro hpaired
    have hadj := (hpaired conn).1
    simp only [put, update_self] at hadj
    exact hadj.1
  have hinv : Follows (s.queue conn).head? message → Inv { s.put conn message with attempt } := by
    intro hfollows
    refine ⟨fun conn' => ?_, fun conn' b => ?_⟩ <;> by_cases hconn : conn' = conn
    · subst hconn
      simp only [put, update_self]
      exact ⟨hfollows, h.adjacent conn'⟩
    · simp only [put, update_of_ne hconn]
      exact h.adjacent conn'
    · subst hconn
      simp only [put, update_self, List.head?_cons, Option.some.injEq]
      exact (hsame hfollows b).symm
    · simp only [put, update_of_ne hconn]
      exact (h.last conn' b).trans (hother b conn' hconn).symm
  exact ⟨⟨hfollows, fun h => (hinv h).paired⟩, fun h => hinv (hfollows h)⟩

theorem follows_iff (h : s.Inv) (conn : Nat) (message : NodeMessage) (hmsg : ∀ b, message ≠ .request b true) :
    Follows (s.queue conn).head? message ↔ ∀ b, ¬ (s.attempt b).Between conn :=
  forall_congr' fun b => (iff_false_right (hmsg b)).trans (not_congr (h.last conn b))

theorem set_put_paired_iff (attempt : Attempt) (message : NodeMessage) (h : s.Inv)
    (hbef : ∀ conn' ≠ conn, ¬ (s.attempt a).Between conn')
    (hafter : ∀ conn', attempt.Between conn' ↔ conn' = conn ∧ message = .asking a)
    (howner : ∀ b, message = .asking b ∨ message = .request b true → b = a) :
    (((s.put conn message).set a attempt).Paired ↔ Follows (s.queue conn).head? message) ∧
      (((s.put conn message).set a attempt).Paired → ((s.put conn message).set a attempt).Inv) := by
  refine put_paired_iff h (fun b conn' hconn => ?_) fun hfollows b => ?_ <;> by_cases hb : b = a
  · subst hb
    rw [update_self]
    exact iff_of_false (fun hbtw => hconn ((hafter conn').1 hbtw).1) (hbef conn' hconn)
  · rw [update_of_ne hb]
    rfl
  · subst hb
    rw [update_self, hafter]
    exact and_iff_right rfl
  · rw [update_of_ne hb]
    refine iff_of_false (fun hbtw => hb (howner b (.inr ?_))) fun hmsg => hb (howner b (.inl hmsg))
    exact (hfollows b).1 ((h.last conn b).2 hbtw)

theorem undisturbed_send_iff {asking : Bool} (ha : s.attempt a = .connected conn asking) :
    s.Undisturbed (.send a : Event C) ↔ ∀ b, ¬ (s.attempt b).Between conn := by
  have hnot : ¬ (s.attempt a).Between conn := by simp [ha, Attempt.Between]
  constructor
  · intro hsend b
    by_cases hb : b = a
    · exact hb ▸ hnot
    · exact hsend conn (.inr ⟨asking, ha⟩) b hb
  · rintro hall conn' (hconn | ⟨_, hconn⟩) b -
    · cases ha.symm.trans hconn
    · cases ha.symm.trans hconn
      exact hall b

theorem send_paired_iff (h : s.Inv) (hstep : s.step (.send a : Event C) = some ((), s')) :
    (s'.Paired ↔ s.Undisturbed (.send a : Event C)) ∧ (s'.Paired → s'.Inv) := by
  rw [step] at hstep
  rcases ha : s.attempt a with _ | ⟨conn, asking | asking⟩ | conn | conn | _ | _ <;> rw [ha] at hstep <;>
    dsimp only at hstep <;> cases hstep
  · rw [undisturbed_send_iff ha, ← follows_iff h conn (.request a false) (by simp)]
    exact set_put_paired_iff .sent (.request a false) h (by simp [ha, Attempt.Between]) (by simp [Attempt.Between]) (by simp)
  · rw [undisturbed_send_iff ha, ← follows_iff h conn (.asking a) (by simp)]
    exact set_put_paired_iff (.asking conn) (.asking a) h (by simp [ha, Attempt.Between])
      (by simp [Attempt.Between, eq_comm]) (by simp)
  · have hlast : (s.queue conn).head? = some (.asking a) := (h.last conn a).2 (.inr ha)
    have hsend : s.Undisturbed (.send a : Event C) := by
      rintro conn' (hconn | ⟨_, hconn⟩) b hb hbtw
      · cases ha.symm.trans hconn
        have hlast' := hlast.symm.trans ((h.last conn b).2 hbtw)
        exact hb (by simpa using hlast'.symm)
      · cases ha.symm.trans hconn
    have hfollows : Follows (s.queue conn).head? (.request a true) := by
      intro b
      rw [hlast]
      simp
    have hbef : ∀ conn' ≠ conn, ¬ (s.attempt a).Between conn' := by
      intro conn' hconn
      simp [ha, Attempt.Between, hconn.symm]
    obtain ⟨hiff, hinv⟩ := set_put_paired_iff .sent (.request a true) h hbef (by simp [Attempt.Between]) (by simp)
    exact ⟨iff_of_true (hiff.2 hfollows) hsend, hinv⟩

theorem step_paired_iff {event : Event C} (h : s.Inv) (hstep : s.step event = some ((), s')) :
    (s'.Paired ↔ s.Undisturbed event) ∧ (s'.Paired → s'.Inv) := by
  cases event with
  | connect a cmd conn =>
    rw [step] at hstep
    split at hstep
    · next route hidle hroute =>
      cases hstep
      have hinv : (s.set a (.connected conn route.asking)).Inv :=
        set_inv h fun conn' => iff_of_false (by simp [Attempt.Between]) (by simp [hidle, Attempt.Between])
      exact ⟨iff_of_true hinv.paired trivial, fun _ => hinv⟩
    · cases hstep
  | send a => exact send_paired_iff h hstep
  | answer a result =>
    rw [step] at hstep
    split at hstep
    · next conn hasking =>
      cases hstep
      rw [Undisturbed]
      split_ifs with hok
      · have hinv : (s.set a (.asked conn)).Inv := set_inv h fun conn' => by simp [hasking, Attempt.Between]
        exact ⟨iff_of_true hinv.paired hok, fun _ => hinv⟩
      · have hnot : ¬ (s.set a .ended).Paired := fun hpaired => (end_paired_iff h).1 hpaired conn (.inl hasking)
        exact ⟨iff_of_false hnot hok, fun hpaired => absurd hpaired hnot⟩
    · cases hstep
  | leave a =>
    have heq : s' = s.set a .ended := by
      rw [step] at hstep
      rcases ha : s.attempt a with _ | _ | _ | _ | _ | _ <;> rw [ha] at hstep <;> cases hstep <;> rfl
    subst heq
    refine ⟨end_paired_iff h, fun hpaired => set_inv h fun conn => ?_⟩
    exact iff_of_false (by simp [Attempt.Between]) ((end_paired_iff h).1 hpaired conn)
  | other conn =>
    cases hstep
    rw [Undisturbed, ← follows_iff h conn .other (by simp)]
    refine put_paired_iff h (fun _ _ _ => Iff.rfl) fun hfollows b => ?_
    exact iff_of_false ((follows_iff h conn .other (by simp)).1 hfollows b) (by simp)

/-- ASKING and the request it is for are adjacent on every connection, as long as no message is put there in between and
the attempt puts its own there after all. -/
theorem paired_along_iff (events : List (Event C)) :
    Run.Along step (fun _ _ _ s' => s'.Paired) new events ↔
      Run.Along step (fun s event _ _ => s.Undisturbed event) new events := by
  refine Run.along_iff (I := Inv) (fun s event _ s' h hstep => ?_) new_inv events
  exact step_paired_iff h hstep

theorem plain_request_after_asking :
    ∃ s' : Attempts,
      let node : NodeAddress := ⟨"127.0.0.1", 6379⟩
      Run.run step new [.connect 0 (.cmd (cmd "GET") (.singleNode (.redirect (.ask node) .random))) 0,
        .connect 1 (.cmd (cmd "GET") (.singleNode (.byAddress node))) 0, .send 0, .send 1,
        (.answer 0 (.ok .okay) : Event Unit), .send 0] = some (List.replicate 6 (), s') ∧
      s'.queue 0 = [.request 0 true, .request 1 false, .asking 0] ∧ ¬ s'.Paired := by
  have hnot : ∀ s' : Attempts, s'.queue 0 = [.request 0 true, .request 1 false, .asking 0] → ¬ s'.Paired := by
    intro s' hqueue hpaired
    have hadjacent := (hpaired 0).1
    rw [hqueue] at hadjacent
    exact absurd ((hadjacent.1 0).2 rfl) (by decide)
  exact ⟨_, rfl, rfl, hnot _ rfl⟩

end Attempts

end AsyncCluster

end RedisRs
