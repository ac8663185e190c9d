import RedisRs.ReplyTypes
import RedisRs.Resubscribe
import RedisRs.Transaction

/-!
# Scripts
-/

namespace RedisRs

open List Dialogue

structure Script where
  code : String
  hash : String

structure ScriptInvocation where
  script : Script
  args : List Bytes
  keys : List Bytes

namespace Script

def new (sha1 : Bytes → String) (code : String) : Script := ⟨code, sha1 (bytesOf code)⟩

def loadCmd (s : Script) : Cmd := .ofArgs [bytesOf "SCRIPT", bytesOf "LOAD", bytesOf s.code]

def load [Libraries] (s : Script) : Conversation (Ends (RedisResult String)) := do
  match s.loadCmd.query (← answerTo s.loadCmd) with
  | .error err => return .ok (.error err)
  | .ok hash => return if hash = s.hash then .ok (.ok hash) else .error .assertion

end Script

structure ScriptRun where
  hash : Bytes
  keys : List Bytes
  args : List Bytes

namespace ScriptInvocation

def evalCmd (i : ScriptInvocation) : Cmd :=
  .ofArgs ([bytesOf "EVALSHA", bytesOf i.script.hash, bytesOf i.keys.length.repr] ++ i.keys ++ i.args)

def invoke [Libraries] (T : Type) [FromRedisValue T] (i : ScriptInvocation) : Conversation (Ends (RedisResult T)) := do
  match (i.evalCmd.query (← answerTo i.evalCmd) : RedisResult T) with
  | .ok val => return .ok (.ok val)
  | .error err =>
    if err.kind = .server .noScript then
      match ← i.script.load with
      | .error panic => return .error panic
      | .ok (.error err) => return .ok (.error err)
      | .ok (.ok _) => return .ok (i.evalCmd.query (← answerTo i.evalCmd))
    else return .ok (.error err)

def run (i : ScriptInvocation) : ScriptRun := ⟨bytesOf i.script.hash, i.keys, i.args⟩

/-- The reply is read as the error for which the script is loaded. -/
def Unknown (T : Type) [FromRedisValue T] (i : ScriptInvocation) (reply : Value) : Prop :=
  ∃ err, (i.evalCmd.query (.ok reply) : RedisResult T) = .error err ∧ err.kind = .server .noScript

end ScriptInvocation

structure ScriptServer (D : Type) where
  data : D
  loaded : List Bytes
  runs : List (ScriptRun × Value)

structure ScriptWorld (D : Type) where
  sha1 : Bytes → String
  eval : ScriptRun → D → Value × D
  others : D → List Bytes → D × List Bytes

namespace ScriptWorld

def noScript : ServerError := .known .noScript (some "No matching script. Please use EVAL.")

variable {D : Type} (w : ScriptWorld D)

def answer (c : Cmd) (s : ScriptServer D) : Option (RedisResult Value × ScriptServer D) :=
  let data := (w.others s.data s.loaded).1
  let loaded := (w.others s.data s.loaded).2
  match c.words with
  | name :: sub :: arg :: rest =>
    if name = bytesOf "SCRIPT" ∧ sub = bytesOf "LOAD" ∧ rest = [] then
      some (.ok (.bulkString (bytesOf (w.sha1 arg))), ⟨data, bytesOf (w.sha1 arg) :: loaded, s.runs⟩)
    else if name = bytesOf "EVALSHA" then do
      let n ← (fromUtf8 arg).bind (parseInt 0 rest.length)
      let run := ⟨sub, rest.take n.toNat, rest.drop n.toNat⟩
      if loaded.contains sub then
        let out := w.eval run data
        return (.ok out.1, ⟨out.2, loaded, s.runs ++ [(run, out.1)]⟩)
      else return (.ok (.serverError noScript), ⟨data, loaded, s.runs⟩)
    else none
  | _ => none

/-- Nobody flushes the scripts. -/
def KeepsScripts : Prop := ∀ data loaded, loaded ⊆ (w.others data loaded).2

theorem answer_evalCmd (i : ScriptInvocation) (s : ScriptServer D) :
    ∃ reply s' runs, w.answer i.evalCmd s = some (.ok reply, s') ∧ s'.runs = s.runs ++ runs ∧
      (runs = [] ∧ reply = .serverError noScript ∧ bytesOf i.script.hash ∉ (w.others s.data s.loaded).2 ∨
        runs = [(i.run, reply)]) := by
  have hname : bytesOf "EVALSHA" ≠ bytesOf "SCRIPT" := by decide
  have hcnt : parseInt 0 (i.keys ++ i.args).length i.keys.length.repr = some (i.keys.length : Int) :=
    parseInt_natText (Int.natCast_nonneg _) (by simp)
  rw [answer, ScriptInvocation.evalCmd, AsyncCluster.words_ofArgs, append_assoc, cons_append, cons_append, cons_append,
    nil_append]
  simp only [hname, false_and, if_false, if_true, fromUtf8_bytesOf, Option.bind_some, hcnt, Option.bind_eq_bind,
    Int.toNat_natCast, take_left', drop_left']
  split_ifs with hload
  · exact ⟨_, _, [_], rfl, rfl, .inr rfl⟩
  · exact ⟨_, _, [], rfl, (append_nil _).symm, .inl ⟨rfl, rfl, fun h => hload (elem_eq_true_of_mem h)⟩⟩

theorem answer_loadCmd (code : String) (s : ScriptServer D) :
    let script := Script.new w.sha1 code
    ∃ s', w.answer script.loadCmd s = some (.ok (.bulkString (bytesOf script.hash)), s') ∧
      bytesOf script.hash ∈ s'.loaded ∧ s'.runs = s.runs := by
  intro script
  rw [answer, Script.loadCmd, AsyncCluster.words_ofArgs]
  exact ⟨_, if_pos ⟨rfl, rfl, rfl⟩, mem_cons_self, rfl⟩

end ScriptWorld

namespace ScriptInvocation

variable {T : Type} [FromRedisValue T] {i : ScriptInvocation} {reply : Value}

theorem unknown_noScript : i.Unknown T (.serverError ScriptWorld.noScript) := by
  refine ⟨.server ScriptWorld.noScript, ?_, rfl⟩
  rw [Cmd.query, Cmd.handed, evalCmd, Cmd.ofArgs, Cmd.noResponse_foldl_writeArg]
  rfl

variable [Libraries]

theorem ends_invoke_of_known (h : ¬ i.Unknown T reply) :
    (i.invoke T).Ends [(i.evalCmd, .ok reply)] (.ok (i.evalCmd.query (.ok reply))) := by
  refine ends_answerTo_bind.2 ⟨_, _, rfl, ?_⟩
  rcases hquery : (i.evalCmd.query (.ok reply) : RedisResult T) with err | val
  · simp only [if_neg fun hkind => h ⟨err, hquery, hkind⟩]
    exact ends_pure.2 ⟨rfl, rfl⟩
  · exact ends_pure.2 ⟨rfl, rfl⟩

theorem ends_invoke_of_unknown (h : i.Unknown T reply) (reply' : Value) :
    (i.invoke T).Ends [(i.evalCmd, .ok reply), (i.script.loadCmd, .ok (.bulkString (bytesOf i.script.hash))),
      (i.evalCmd, .ok reply')] (.ok (i.evalCmd.query (.ok reply'))) := by
  obtain ⟨err, hquery, hkind⟩ := h
  have hhash : (FromRedisValue.fromRedisValue (.bulkString (bytesOf i.script.hash)) : ParseResult String) =
      .ok i.script.hash := by
    simp only [FromRedisValue.fromRedisValue, getOwnedInnerValue, fromUtf8_bytesOf]
  have hload : (i.script.loadCmd.query (.ok (.bulkString (bytesOf i.script.hash))) : RedisResult String) =
      .ok i.script.hash := congrArg ParseResult.toRedisResult hhash
  refine ends_answerTo_bind.2 ⟨_, _, rfl, ?_⟩
  simp only [hquery, if_pos hkind]
  refine ends_bind.2 ⟨[_], [_], .ok (.ok i.script.hash), rfl, ?_, ?_⟩
  · refine ends_answerTo_bind.2 ⟨_, _, rfl, ?_⟩
    simp only [hload, if_pos]
    exact ends_pure.2 ⟨rfl, rfl⟩
  · exact ends_answerTo_bind.2 ⟨_, _, rfl, ends_pure.2 ⟨rfl, rfl⟩⟩

/-- An invocation always returns, after at most three commands. It runs nothing but this script, at most twice, and
once at most if no reply of the script is taken for `NOSCRIPT`. -/
theorem script_invocation_runs (T : Type) [FromRedisValue T] {D : Type} (w : ScriptWorld D) (s : ScriptServer D)
    (code : String) (keys args : List Bytes) :
    let i : ScriptInvocation := ⟨.new w.sha1 code, args, keys⟩
    ∃ result log s' runs, (i.invoke T).serve w.answer s = some (.ok result, log, s') ∧ log.length ≤ 3 ∧
      s'.runs = s.runs ++ runs ∧ (∀ x ∈ runs, x.1 = i.run) ∧ runs.length ≤ 2 ∧ (w.KeepsScripts → runs ≠ []) ∧
      ((∀ x ∈ runs, ¬ i.Unknown T x.2) → runs.length ≤ 1 ∧
        result = i.evalCmd.query (.ok ((runs.head?.map Prod.snd).getD (.serverError ScriptWorld.noScript)))) := by
  intro i
  obtain ⟨reply, s₁, runs, hfirst, hruns, hreply⟩ := w.answer_evalCmd i s
  by_cases hunknown : i.Unknown T reply
  · obtain ⟨s₂, hload, hloaded, hs₂⟩ := w.answer_loadCmd code s₁
    obtain ⟨reply', s₃, runs', hsecond, hruns', hreply'⟩ := w.answer_evalCmd i s₂
    refine ⟨_, _, s₃, runs ++ runs', (serve_eq_some_iff _).2
      ⟨ends_invoke_of_unknown hunknown reply', s₁, hfirst, s₂, hload, s₃, hsecond, rfl⟩, le_rfl, ?_, ?_, ?_, ?_, ?_⟩
    · rw [hruns', hs₂, hruns, append_assoc]
    · rcases hreply with ⟨rfl, -⟩ | rfl <;> rcases hreply' with ⟨rfl, -⟩ | rfl <;> simp
    · rcases hreply with ⟨rfl, -⟩ | rfl <;> rcases hreply' with ⟨rfl, -⟩ | rfl <;> simp
    · intro hkeeps hnil
      rcases hreply' with ⟨-, -, hlost⟩ | rfl
      · exact hlost (hkeeps _ _ hloaded)
      · simp at hnil
    · intro hknown
      rcases hreply with ⟨rfl, -⟩ | rfl
      · rcases hreply' with ⟨rfl, rfl, -⟩ | rfl <;> exact ⟨by simp, rfl⟩
      · exact absurd hunknown (hknown (i.run, reply) (by simp))
  · -- the server has run the script at the first request
    rcases hreply with ⟨-, rfl, -⟩ | rfl
    · exact absurd unknown_noScript hunknown
    · exact ⟨_, _, s₁, [_], (serve_eq_some_iff _).2 ⟨ends_invoke_of_known hunknown, s₁, hfirst, rfl⟩, by simp,
        hruns, by simp, by simp, fun _ => by simp, fun _ => ⟨le_rfl, rfl⟩⟩

end ScriptInvocation

end RedisRs
