import RedisRs.Error

/-!
# The driver of the multiplexed connection
-/

namespace RedisRs

class HandlesPush (κ : Type) where
  handlePushValue : κ → PushKind → List Value → κ

export HandlesPush (handlePushValue)

instance : HandlesPush Unit := ⟨fun _ _ _ => ()⟩

abbrev Output := Nat

abbrev Completion := Output × RedisResult Value

inductive ErrorOrErrors
  | errors (errs : List (Nat × ServerError))
  | firstError (err : RedisError)

structure PipelineResponseExpectation where
  skippedResponseCount : Nat
  expectedResponseCount : Nat
  isTransaction : Bool
  seenResponses : Nat
deriving DecidableEq, Repr

inductive ResponseAggregate
  | singleCommand
  | pipeline (buffer : List Value) (errorOrErrors : ErrorOrErrors) (expectation : PipelineResponseExpectation)

structure InFlight where
  output : Option Output
  responseAggregate : ResponseAggregate

structure PipelineMessage where
  input : Bytes
  output : Option Output
  expectation : Option PipelineResponseExpectation

namespace ErrorOrErrors

def skip (isTransaction : Bool) (seen : Nat) (e : ErrorOrErrors) (result : RedisResult Value) :
    Ends ErrorOrErrors :=
  match isTransaction, e with
  | true, errors errs =>
    match result with
    | .ok (.serverError err) => do
      let i ← checkedSub seen 2
      return errors (errs ++ [(i, err)])
    | .error err => return firstError err
    | .ok _ => return errors errs
  | _, e => return e

def fail (e : ErrorOrErrors) (err : RedisError) : ErrorOrErrors :=
  match e with
  | errors _ => firstError err
  | firstError first => firstError first

def response (e : ErrorOrErrors) (buffer : List Value) : RedisResult Value :=
  match e with
  | errors [] => .ok (.array buffer)
  | errors errs => .error (.makeAbortedTransaction errs)
  | firstError err => .error err

end ErrorOrErrors

namespace ResponseAggregate

def new : Option PipelineResponseExpectation → ResponseAggregate
  | some expectation => pipeline [] (.errors []) expectation
  | none => singleCommand

def receive (result : RedisResult Value) : ResponseAggregate → Ends (ResponseAggregate ⊕ RedisResult Value)
  | singleCommand => return .inr result
  | pipeline buffer errorOrErrors expectation => do
    let expectation := { expectation with seenResponses := expectation.seenResponses + 1 }
    if 0 < expectation.skippedResponseCount then
      let errorOrErrors ←
        errorOrErrors.skip expectation.isTransaction expectation.seenResponses result
      return .inl (pipeline buffer errorOrErrors
        { expectation with skippedResponseCount := expectation.skippedResponseCount - 1 })
    else
      let (buffer, errorOrErrors) := match result with
        | .ok item => (buffer ++ [item], errorOrErrors)
        | .error err => (buffer, errorOrErrors.fail err)
      if buffer.length < expectation.expectedResponseCount then
        return .inl (pipeline buffer errorOrErrors expectation)
      else return .inr (errorOrErrors.response buffer)

end ResponseAggregate

structure PipelineSink (κ : Type) where
  written : List Bytes
  writeError : Option RedisError
  inFlight : List InFlight
  error : Option RedisError
  pushSender : Option (List PushInfo)
  cacheManager : Option κ

namespace PipelineSink

variable {κ : Type}

def new (pushSender : Option (List PushInfo)) (cacheManager : Option κ) : PipelineSink κ where
  written := []
  writeError := none
  inFlight := []
  error := none
  pushSender := pushSender
  cacheManager := cacheManager

def sendPush (sink : PipelineSink κ) (info : PushInfo) : PipelineSink κ :=
  { sink with pushSender := sink.pushSender.map (· ++ [info]) }

def takePush [HandlesPush κ] (sink : PipelineSink κ) : RedisResult Value → PipelineSink κ
  | .ok (.push kind data) =>
    let sink := if kind.hasReply then sink
      else { sink with cacheManager := sink.cacheManager.map (handlePushValue · kind data) }
    sink.sendPush ⟨kind, data⟩
  | _ => sink

def answer (sink : PipelineSink κ) (result : RedisResult Value) :
    Ends (PipelineSink κ × Option Completion) :=
  match sink.inFlight with
  | [] => return (sink, none)
  | entry :: inFlight => do
    match ← entry.responseAggregate.receive result with
    | .inl aggregate =>
      return ({ sink with inFlight := { entry with responseAggregate := aggregate } :: inFlight }, none)
    | .inr response =>
      return ({ sink with inFlight := inFlight }, entry.output.map (·, response))

def sendResult [HandlesPush κ] (sink : PipelineSink κ) (result : RedisResult Value) :
    Ends (PipelineSink κ × Option Completion) :=
  match result with
  | .ok v => if v.isNonReplyPush then return (sink.takePush (.ok v), none)
    else (sink.takePush (.ok v)).answer (.ok v)
  | .error err => sink.answer (.error err)

def startSend (isClosed : Output → Bool) (sink : PipelineSink κ) (message : PipelineMessage) :
    Except Unit Unit × PipelineSink κ × Option Completion :=
  if (message.output.map isClosed).getD false then (.ok (), sink, none)
  else match sink.error with
    | some err => (.error (), { sink with error := none }, message.output.map (·, .error err))
    | none =>
      match sink.writeError with
      | some err => (.error (), sink, message.output.map (·, .error err))
      | none =>
        let entry := ⟨message.output, .new message.expectation⟩
        (.ok (), { sink with
          written := sink.written ++ [message.input]
          inFlight := sink.inFlight ++ [entry] }, none)

/-- No error is stored. -/
structure Sound (sink : PipelineSink κ) : Prop where
  error : sink.error = none
  writeError : sink.writeError = none

theorem new_sound (pushSender : Option (List PushInfo)) (cacheManager : Option κ) :
    (new pushSender cacheManager).Sound := ⟨rfl, rfl⟩

variable {isClosed : Output → Bool} {sink : PipelineSink κ} {message : PipelineMessage}

theorem startSend_closed (h : (message.output.map isClosed).getD false = true) :
    sink.startSend isClosed message = (.ok (), sink, none) := by
  rw [startSend, if_pos h]

theorem startSend_open (hs : sink.Sound) (h : (message.output.map isClosed).getD false = false) :
    sink.startSend isClosed message =
      (.ok (), { sink with
        written := sink.written ++ [message.input]
        inFlight := sink.inFlight ++ [⟨message.output, .new message.expectation⟩] }, none) := by
  rw [startSend, h, if_neg Bool.false_ne_true, hs.error, hs.writeError]

theorem startSend_cases (isClosed : Output → Bool) (sink : PipelineSink κ) (message : PipelineMessage) :
    (sink.startSend isClosed message).2.1.cacheManager = sink.cacheManager ∧
      ((sink.startSend isClosed message).2.1.inFlight =
          sink.inFlight ++ [⟨message.output, .new message.expectation⟩] ∧
        (sink.startSend isClosed message).2.2 = none ∨
      (sink.startSend isClosed message).2.1.inFlight = sink.inFlight ∧
        ∀ output result, (sink.startSend isClosed message).2.2 = some (output, result) →
          message.output = some output ∧ ∃ err, result = .error err) := by
  have herr : ∀ err : RedisError, ∀ output result, message.output.map (·, Except.error err) = some (output, result) →
      message.output = some output ∧ ∃ err, result = (.error err : RedisResult Value) := by
    intro err output result h
    obtain ⟨o, ho, heq⟩ := Option.map_eq_some_iff.1 h
    cases heq
    exact ⟨ho, err, rfl⟩
  unfold startSend
  split
  · exact ⟨rfl, .inr ⟨rfl, nofun⟩⟩
  · split
    · exact ⟨rfl, .inr ⟨rfl, herr _⟩⟩
    · split
      · exact ⟨rfl, .inr ⟨rfl, herr _⟩⟩
      · exact ⟨rfl, .inl ⟨rfl, rfl⟩⟩

/-- A result went to the first entry of the queue, if there is one. -/
def Answered (inFlight : List InFlight) (result : RedisResult Value) (inFlight' : List InFlight)
    (c : Option Completion) : Prop :=
  inFlight = [] ∧ inFlight' = [] ∧ c = none ∨
    ∃ entry rest, inFlight = entry :: rest ∧
      ((∃ aggregate, entry.responseAggregate.receive result = .ok (.inl aggregate) ∧
        inFlight' = { entry with responseAggregate := aggregate } :: rest ∧ c = none) ∨
      ∃ response, entry.responseAggregate.receive result = .ok (.inr response) ∧
        inFlight' = rest ∧ c = entry.output.map (·, response))

theorem answer_cases {sink' : PipelineSink κ} {result : RedisResult Value} {c : Option Completion}
    (h : sink.answer result = .ok (sink', c)) :
    sink'.cacheManager = sink.cacheManager ∧ Answered sink.inFlight result sink'.inFlight c := by
  unfold answer at h
  rcases hf : sink.inFlight with _ | ⟨entry, rest⟩
  · rw [hf] at h
    cases h
    exact ⟨rfl, .inl ⟨rfl, hf, rfl⟩⟩
  · rw [hf] at h
    simp only [bind, Except.bind, pure, Except.pure] at h
    rcases hr : entry.responseAggregate.receive result with panic | aggregate | response
    · rw [hr] at h
      cases h
    · rw [hr] at h
      cases h
      exact ⟨rfl, .inr ⟨entry, rest, rfl, .inl ⟨aggregate, hr, rfl, rfl⟩⟩⟩
    · rw [hr] at h
      cases h
      exact ⟨rfl, .inr ⟨entry, rest, rfl, .inr ⟨response, hr, rfl, rfl⟩⟩⟩

section Send

variable [HandlesPush κ] {sink : PipelineSink κ} {v : Value}

theorem takePush_frame (sink : PipelineSink κ) (r : RedisResult Value) :
    (sink.takePush r).written = sink.written ∧ (sink.takePush r).inFlight = sink.inFlight ∧
      ((sink.takePush r).Sound ↔ sink.Sound) := by
  unfold takePush sendPush
  split
  · split <;> exact ⟨rfl, rfl, fun h => ⟨h.error, h.writeError⟩, fun h => ⟨h.error, h.writeError⟩⟩
  · exact ⟨rfl, rfl, Iff.rfl⟩

theorem sendResult_push (h : v.isNonReplyPush = true) :
    sink.sendResult (.ok v) = .ok (sink.takePush (.ok v), none) := by
  rw [sendResult, if_pos h]
  rfl

theorem sendResult_reply (h : v.isNonReplyPush = false) :
    sink.sendResult (.ok v) = (sink.takePush (.ok v)).answer (.ok v) := by
  rw [sendResult, if_neg (by simp [h])]

theorem sendResult_cases {result : RedisResult Value} {sink' : PipelineSink κ} {c : Option Completion}
    (h : sink.sendResult result = .ok (sink', c)) :
    (∃ kind data, result = .ok (.push kind data) ∧ kind.hasReply = false ∧ c = none ∧
      sink'.inFlight = sink.inFlight ∧
      sink'.cacheManager = sink.cacheManager.map (handlePushValue · kind data)) ∨
    (∀ v, result = .ok v → v.isNonReplyPush = false) ∧ sink'.cacheManager = sink.cacheManager ∧
      Answered sink.inFlight result sink'.inFlight c := by
  unfold sendResult at h
  cases result with
  | error err => exact .inr ⟨nofun, answer_cases h⟩
  | ok v =>
    simp only at h
    by_cases hv : v.isNonReplyPush = true
    · rw [if_pos hv] at h
      cases v with
      | push kind data =>
        have hk : kind.hasReply = false := by simpa [Value.isNonReplyPush] using hv
        cases h
        refine .inl ⟨kind, data, rfl, hk, rfl, (sink.takePush_frame _).2.1, ?_⟩
        simp [takePush, sendPush, hk]
      | _ => cases hv
    · rw [if_neg hv] at h
      have hcache : (sink.takePush (.ok v)).cacheManager = sink.cacheManager := by
        cases v with
        | push kind data =>
          have hk : kind.hasReply = true := by simpa [Value.isNonReplyPush] using hv
          simp [takePush, sendPush, hk]
        | _ => rfl
      have hcases := answer_cases h
      rw [hcache, (sink.takePush_frame _).2.1] at hcases
      refine .inr ⟨?_, hcases⟩
      rintro w ⟨⟩
      exact Bool.eq_false_iff.2 hv

end Send

end PipelineSink

end RedisRs
