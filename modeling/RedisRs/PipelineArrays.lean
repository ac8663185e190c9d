import RedisRs.CachePipeline
import RedisRs.PackedCommands
import RedisRs.Queries

/-!
# The replies a pipeline waits for
-/

namespace RedisRs

open List

namespace Pipeline

def offset (p : Pipeline) : Nat := if p.transactionMode then p.commands.length + 1 else 0

def count (p : Pipeline) : Nat := if p.transactionMode then 1 else p.commands.length

theorem query_eq {α : Type} [FromRedisValue α] (p : Pipeline) (con : Connection) (wire : Wire) :
    p.query con wire = (con.reqPackedCommands p.getPackedPipeline p.offset p.count wire).map fun (response, con, wire) =>
      (response.map fun response => response.bind (p.completeRequest (α := α)), con, wire) := by
  rw [query, getPackedPipeline, offset, count]
  cases p.transactionMode <;> rfl

end Pipeline

def isAnswered : Value → Bool
  | .array (_ :: _) => true
  | _ => false

def answeredIn (nums : Resp.NumberParsers) (bytes : Bytes) : Option Nat :=
  (parseValues nums bytes).map (List.countP isAnswered)

theorem isAnswered_commandValue (l : List ArgCall) : isAnswered (commandValue (Cmd.sentArgs l)) = !l.isEmpty := by
  cases l <;> rfl

variable (calls : List (List ArgCall)) (atomic : Bool)

theorem length_sentCalls : (sentCalls calls atomic).length = calls.length + if atomic then 2 else 0 := by
  cases atomic <;> simp [sentCalls]

theorem sentCalls_nonempty_iff : (∀ l ∈ sentCalls calls atomic, l ≠ []) ↔ ∀ l ∈ calls, l ≠ [] := by
  cases atomic with
  | false => exact Iff.rfl
  | true =>
    -- `MULTI` and `EXEC` have an argument
    simp only [sentCalls, if_true, cons_append, mem_cons, mem_append, not_mem_nil, or_false]
    constructor
    · intro h l hl
      exact h l (.inr (.inl hl))
    · rintro h l (rfl | hl | rfl)
      · exact cons_ne_nil _ _
      · exact h l hl
      · exact cons_ne_nil _ _

section

variable {p : Pipeline} {calls : List (List ArgCall)} (hp : p.commands = calls.map Cmd.ofCalls)
include hp

theorem answeredIn_packedPipeline (nums : Resp.NumberParsers) (hmem : ∀ l ∈ calls, (Cmd.ofCalls l).InMemory) :
    answeredIn nums p.getPackedPipeline = some ((sentCalls calls p.transactionMode).countP fun l => !l.isEmpty) := by
  rw [answeredIn, Pipeline.getPackedPipeline, hp, parseValues_encodePipeline nums hmem, Option.map_some, countP_map]
  congr 1
  exact countP_congr fun l _ => by simp [isAnswered_commandValue]

theorem awaited_eq : p.offset + p.count = (sentCalls calls p.transactionMode).length := by
  have hlen : p.commands.length = calls.length := by rw [hp, length_map]
  rw [length_sentCalls, Pipeline.offset, Pipeline.count, hlen]
  cases p.transactionMode <;> simp

theorem packedPipeline_eq_nil_iff : p.getPackedPipeline = [] ↔ calls = [] ∧ p.transactionMode = false := by
  constructor
  · intro hnil
    by_contra hne
    refine encodePipeline_ne_nil ?_ hnil
    rw [hp, ne_eq, map_eq_nil_iff, ← Bool.not_eq_false]
    exact not_and_or.1 hne
  · rintro ⟨rfl, hmode⟩
    rw [Pipeline.getPackedPipeline, hp, hmode]
    rfl

end

/-- The pipeline writes nothing, or waits for as many replies as it writes commands that are answered. -/
def AwaitsAnswered (nums : Resp.NumberParsers) (p : Pipeline) : Prop :=
  p.getPackedPipeline = [] ∨ answeredIn nums p.getPackedPipeline = some (p.offset + p.count)

/-- Both kinds of connections refuse a pipeline that writes nothing. Any other waits for the answers to the commands it
writes, and for no more, exactly if none of its commands is empty. -/
theorem pipeline_awaits_answered_iff (nums : Resp.NumberParsers) (p : Pipeline) (calls : List (List ArgCall))
    (hp : p.commands = calls.map Cmd.ofCalls) (hmem : ∀ l ∈ calls, (Cmd.ofCalls l).InMemory) :
    (AwaitsAnswered nums p ↔ ∀ l ∈ calls, l ≠ []) ∧
    (∀ (con : Connection) (wire : Wire), con.Ready → p.getPackedPipeline = [] →
      p.query con wire = some (.ok (.error .makeEmptyCommand : RedisResult Value), con, wire)) ∧
    (∀ (E : CacheEnv) (clocks clocks' : Nat → Nat → Instant) (answers : List Value), p.getPackedPipeline = [] →
      sendPackedCommands clocks clocks' (none : Option (CacheManager E)) p p.offset p.count answers =
        .ok (some (.error .makeEmptyCommand), none)) := by
  refine ⟨?_, fun con wire hready hnil => ?_, fun E clocks clocks' answers hnil => ?_⟩
  · have hcount : answeredIn nums p.getPackedPipeline = some (p.offset + p.count) ↔ ∀ l ∈ calls, l ≠ [] := by
      rw [answeredIn_packedPipeline hp nums hmem, awaited_eq hp, Option.some_inj, countP_eq_length,
        ← sentCalls_nonempty_iff calls p.transactionMode]
      simp
    rw [AwaitsAnswered, hcount, or_iff_right_of_imp]
    intro hnil l hl
    rw [((packedPipeline_eq_nil_iff hp).1 hnil).1] at hl
    cases hl
  · rw [Pipeline.query_eq, hnil, Connection.reqPackedCommands, Connection.request_empty hready]
    rfl
  · rw [sendPackedCommands, sendRecv, if_pos hnil]
    rfl

theorem pipeline_awaits_answered_ping : AwaitsAnswered ⟨fun _ => none, fun _ => none⟩
    { Pipeline.new with commands := [Cmd.ofCalls [.arg (bytesOf "PING")]] } := by
  have hmem : ∀ l ∈ [[ArgCall.arg (bytesOf "PING")]], (Cmd.ofCalls l).InMemory := by
    intro l hl
    rw [mem_singleton.1 hl]
    exact ⟨by decide, by decide⟩
  refine (pipeline_awaits_answered_iff _ _ [[.arg (bytesOf "PING")]] rfl hmem).1.2 ?_
  simp

theorem empty_command_awaited :
    answeredIn ⟨fun _ => none, fun _ => none⟩ { Pipeline.new with commands := [Cmd.new, cmd "PING"] }.getPackedPipeline = some 1 ∧
    { Pipeline.new with commands := [Cmd.new, cmd "PING"] }.offset +
      { Pipeline.new with commands := [Cmd.new, cmd "PING"] }.count = 2 ∧
    ({ Pipeline.new with commands := [Cmd.new, cmd "PING"] }.query (.fresh .resp2) [.ok (.simpleString "PONG")] :
      Option (Ends (RedisResult (List Value)) × Connection × Wire)) = none := by
  have hp : [Cmd.new, cmd "PING"] = [[], [ArgCall.arg (bytesOf "PING")]].map Cmd.ofCalls := rfl
  have hmem : ∀ l ∈ [[], [ArgCall.arg (bytesOf "PING")]], (Cmd.ofCalls l).InMemory := by
    intro l hl
    rcases mem_cons.1 hl with rfl | hl
    · exact ⟨by decide, by decide⟩
    · rw [mem_singleton.1 hl]
      exact ⟨by decide, by decide⟩
  refine ⟨?_, rfl, ?_⟩
  · rw [answeredIn_packedPipeline hp _ hmem]
    rfl
  · rw [Pipeline.query_eq, Connection.reqPackedCommands,
      Connection.request_of_ready (Connection.fresh_idle .resp2).toReady]
    · rfl
    · exact encodePipeline_ne_nil (.inl (cons_ne_nil _ _))

end RedisRs
