import RedisRs.Connection

/-!
# Queries, iterators and pipelines
-/

namespace RedisRs

open FromRedisValue

namespace Cmd

variable {α : Type}

def handed (c : Cmd) (reply : RedisResult Value) : RedisResult Value := if c.noResponse then .ok .nil else reply

def query [FromRedisValue α] (c : Cmd) (reply : RedisResult Value) : RedisResult α := do
  let val ← c.handed reply
  (fromRedisValue (← val.extractError)).toRedisResult

end Cmd

def Value.looksLikeCursor : Value → Bool
  | .array [.bulkString _, .array _] => true
  | _ => false

structure CheckedIter (α : Type) where
  batch : List (ParseResult α)
  cmd : Cmd

variable {α : Type} (fromEachRedisValues : List Value → List (ParseResult α))

namespace Cmd

def setCursorAndGetBatch (c : Cmd) (value : Value) : RedisResult (CheckedIter α) := do
  let (cursor, values) ←
    if value.looksLikeCursor then
      (fromRedisValueTuple2 value : ParseResult (UInt64 × List Value)).toRedisResult
    else (fromRedisValue value : ParseResult (List Value)).toRedisResult.map ((0, ·))
  return ⟨fromEachRedisValues values, { c with cursor := some cursor.toNat }⟩

def iter (c : Cmd) (reply : RedisResult Value) : RedisResult (CheckedIter α) := do
  c.setCursorAndGetBatch fromEachRedisValues (← c.handed reply)

end Cmd

namespace CheckedIter

def receive (iter : CheckedIter α) (reply : RedisResult Value) : RedisResult (CheckedIter α) := do
  let (cursor, values) ← (fromRedisValueTuple2 (← reply) : ParseResult (UInt64 × List Value)).toRedisResult
  return ⟨fromEachRedisValues values, { iter.cmd with cursor := some cursor.toNat }⟩

def next (iter : CheckedIter α) (replies : List (RedisResult Value)) :
    Option (Option (RedisResult α) × CheckedIter α × List (RedisResult Value)) :=
  match iter.batch with
  | value :: batch => some (some value.toRedisResult, { iter with batch }, replies)
  | [] =>
    if iter.cmd.cursor.all (· == 0) then some (none, iter, replies)
    else
      match replies with
      | [] => none
      | reply :: replies =>
        match iter.receive fromEachRedisValues reply with
        | .ok iter => next iter replies
        | .error e => some (some (.error e), iter, replies)

def asks (iter : CheckedIter α) : Bool := iter.batch.isEmpty && !iter.cmd.cursor.all (· == 0)

def requested (iter : CheckedIter α) : List (RedisResult Value) → List (RedisResult Value)
  | [] => []
  | reply :: replies =>
    if iter.asks then
      reply :: match iter.receive fromEachRedisValues reply with
        | .ok iter => requested iter replies
        | .error _ => []
    else []

end CheckedIter

namespace Pipeline

def filterIgnoredResults (p : Pipeline) (resp : List Value) : List Value :=
  if p.ignoredCommands = ∅ then resp
  else resp.zipIdx.filterMap fun (result, index) => if index ∈ p.ignoredCommands then none else some result

def serverErrors (response : List Value) : List (Nat × ServerError) :=
  response.zipIdx.filterMap fun
    | (.serverError error, index) => some (index, error)
    | _ => none

def composeResponse [FromRedisValue α] (p : Pipeline) (response : List Value) : RedisResult α := do
  if p.ignoreErrors then (fromRedisValue (.array (p.filterIgnoredResults response))).toRedisResult
  else if serverErrors response = [] then
    (fromRedisValue (← (Value.array (p.filterIgnoredResults response)).extractError)).toRedisResult
  else .error (.pipeline (serverErrors response))

def completeRequest [FromRedisValue α] (p : Pipeline) (response : List Value) : RedisResult α :=
  if p.transactionMode then
    match response.getLast? with
    | some .nil => (fromRedisValue .nil).toRedisResult
    | some (.array items) => p.composeResponse items
    | _ => .error (.general .unexpectedReturnType "Invalid response when parsing multi response" none)
  else p.composeResponse response

def query [FromRedisValue α] (p : Pipeline) (con : Connection) (wire : Wire) :
    Option (Ends (RedisResult α) × Connection × Wire) :=
  let response :=
    if p.transactionMode then
      con.reqPackedCommands (encodePipeline p.commands true) (p.commands.length + 1) 1 wire
    else con.reqPackedCommands (encodePipeline p.commands false) 0 p.commands.length wire
  response.map fun (response, con, wire) => (response.map fun response => response.bind p.completeRequest, con, wire)

end Pipeline

end RedisRs
