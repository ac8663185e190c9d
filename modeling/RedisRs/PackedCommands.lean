import Mathlib.Data.Nat.Digits.Defs
import RedisRs.Decoding

/-!
# Packed commands are read back
-/

namespace RedisRs

open List Incremental Value

inductive ArgCall
  | arg (bytes : Bytes)
  | cursorArg (cursor : UInt64)
deriving DecidableEq

namespace ArgCall

def apply (c : Cmd) : ArgCall → Cmd
  | arg bytes => c.writeArg bytes
  | cursorArg cursor => c.cursorArg cursor.toNat

def stored : ArgCall → Arg Bytes
  | arg bytes => .simple bytes
  | cursorArg _ => .cursor

def cursor (cursor : Option Nat) : ArgCall → Option Nat
  | arg _ => cursor
  | cursorArg cursor => some cursor.toNat

end ArgCall

def Arg.bytes (cursor : Nat) : Arg Bytes → Bytes
  | .simple val => val
  | .cursor => itoa cursor

namespace Cmd

def ofCalls (calls : List ArgCall) : Cmd := calls.foldl ArgCall.apply new

def lastCursor (calls : List ArgCall) : Option Nat := calls.foldl ArgCall.cursor none

def sentArgs (calls : List ArgCall) : List Bytes :=
  calls.map fun call => call.stored.bytes ((lastCursor calls).getD 0)

/-- Both buffers of the command are in memory: a `Vec` holds at most `isize::MAX` bytes. -/
def InMemory (c : Cmd) : Prop := c.data.length < maxLen ∧ c.args.length < maxLen

variable {data : Bytes} {prev : Nat} {args : List (Arg Nat)} (calls : List ArgCall) (c : Cmd)

theorem argsFrom_concat_simple (h : Offsets prev args data.length) (arg : Bytes) :
    argsFrom (data ++ arg) prev (args ++ [.simple (data ++ arg).length]) = argsFrom data prev args ++ [.simple arg] := by
  induction args generalizing prev with
  | nil =>
    have hprev : prev = data.length := h
    subst hprev
    simp [argsFrom]
  | cons a args ih =>
    cases a with
    | simple i =>
      obtain ⟨hle, hrest⟩ := h
      have hi := hrest.le
      have hslice : ((data ++ arg).drop prev).take (i - prev) = (data.drop prev).take (i - prev) := by
        rw [drop_append_of_le_length (Nat.le_trans hle hi), take_append_of_le_length]
        rw [length_drop]
        omega
      simp only [cons_append, argsFrom, hslice, ih hrest]
    | cursor => simp only [cons_append, argsFrom, ih h]

theorem argsFrom_concat_cursor (data : Bytes) (prev : Nat) (args : List (Arg Nat)) :
    argsFrom data prev (args ++ [.cursor]) = argsFrom data prev args ++ [.cursor] := by
  induction args generalizing prev with
  | nil => rfl
  | cons a args ih => cases a <;> simp [argsFrom, ih]

theorem argsIter_apply (call : ArgCall) : (call.apply c).argsIter = c.argsIter ++ [call.stored] := by
  cases call with
  | arg bytes => exact argsFrom_concat_simple c.wf bytes
  | cursorArg cursor => exact argsFrom_concat_cursor c.data 0 c.args

theorem argsIter_foldl_apply : (calls.foldl ArgCall.apply c).argsIter = c.argsIter ++ calls.map ArgCall.stored := by
  induction calls generalizing c with
  | nil => simp
  | cons call calls ih => simp [ih, argsIter_apply]

theorem cursor_foldl_apply : (calls.foldl ArgCall.apply c).cursor = calls.foldl ArgCall.cursor c.cursor := by
  induction calls generalizing c with
  | nil => rfl
  | cons call calls ih => cases call <;> exact ih _

theorem argsIter_ofCalls : (ofCalls calls).argsIter = calls.map ArgCall.stored :=
  argsIter_foldl_apply calls new

theorem cursor_ofCalls : (ofCalls calls).cursor = lastCursor calls := cursor_foldl_apply calls new

theorem length_of_mem_argsFrom {val : Bytes} (h : .simple val ∈ argsFrom data prev args) : val.length ≤ data.length := by
  induction args generalizing prev with
  | nil => exact absurd h not_mem_nil
  | cons a args ih =>
    cases a with
    | simple i =>
      rcases mem_cons.1 h with hval | hrest
      · rw [Arg.simple.inj hval, length_take, length_drop]
        omega
      · exact ih hrest
    | cursor => exact ih ((mem_cons.1 h).resolve_left (by simp))

theorem length_argsIter : c.argsIter.length = c.args.length := by
  have hfrom : ∀ (prev : Nat) (args : List (Arg Nat)), (argsFrom c.data prev args).length = args.length := by
    intro prev args
    induction args generalizing prev with
    | nil => rfl
    | cons a args ih => cases a <;> simp [argsFrom, ih]
  exact hfrom 0 c.args

end Cmd

def commandValue (args : List Bytes) : Value := .array (args.map .bulkString)

variable (nilForm : NilForm) (args : List (Arg Bytes)) (cursor : Nat) (calls : List (List ArgCall))

theorem encodeAll_bulkStrings (args : List Bytes) :
    encodeAll nilForm (args.map .bulkString) = args.flatMap encodeBulkString := by
  induction args with
  | nil => rfl
  | cons arg args ih => rw [map_cons, encodeAll, ih, flatMap_cons, encode]

theorem allEncodable_bulkStrings {args : List Bytes} (h : ∀ arg ∈ args, arg.length < maxLen) :
    Value.AllEncodable (args.map .bulkString) := by
  induction args with
  | nil => trivial
  | cons arg args ih =>
    exact ⟨h arg mem_cons_self, ih fun a ha => h a (mem_cons_of_mem arg ha)⟩

theorem levelsAll_bulkStrings (args : List Bytes) : levelsAll 1 (args.map .bulkString) ≤ 1 := by
  induction args with
  | nil => exact Nat.zero_le 1
  | cons arg args ih => exact Nat.max_le.2 ⟨Nat.le_refl 1, ih⟩

theorem writeCommand_eq : writeCommand args cursor = (commandValue (args.map (Arg.bytes cursor))).encode nilForm := by
  rw [commandValue, encode, encodeAll_bulkStrings, writeCommand, length_map, length_map,
    flatMap_map]
  congr 1
  refine flatMap_congr fun item _ => ?_
  cases item <;> rfl

theorem foldl_add_eq (f : Arg Bytes → Nat) (args : List (Arg Bytes)) (n : Nat) :
    args.foldl (fun totlen item => totlen + f item) n = n + (args.map f).sum := by
  induction args generalizing n with
  | nil => rfl
  | cons item args ih =>
    rw [foldl_cons, ih, map_cons, sum_cons]
    omega

theorem argsLen_eq :
    argsLen args cursor =
      1 + countdigits args.length + 2 + (args.map fun item => bulklen (item.bytes cursor).length).sum := by
  rw [argsLen, foldl_add_eq]
  congr 2
  refine map_congr_left fun item _ => ?_
  cases item with
  | simple val => rfl
  | cursor => rw [Arg.bytes, length_itoa]

theorem length_encodeBulkString (bytes : Bytes) : (encodeBulkString bytes).length = bulklen bytes.length := by
  have hdollar : (bytesOf "$").length = 1 := rfl
  have hcrlf : crlf.length = 2 := rfl
  simp only [encodeBulkString, bulklen, length_append, length_itoa, hdollar, hcrlf]

theorem length_writeCommand : (writeCommand args cursor).length = argsLen args cursor := by
  have hstar : (bytesOf "*").length = 1 := rfl
  have hcrlf : crlf.length = 2 := rfl
  rw [writeCommand_eq .null, argsLen_eq]
  rw [commandValue, encode, encodeAll_bulkStrings, flatMap_map]
  simp only [length_append, length_flatMap, length_map, length_itoa, hstar, hcrlf, length_encodeBulkString]

namespace Cmd

theorem sentArgs_eq (calls : List ArgCall) :
    sentArgs calls = (ofCalls calls).argsIter.map (Arg.bytes ((ofCalls calls).cursor.getD 0)) := by
  rw [argsIter_ofCalls, cursor_ofCalls, map_map]
  rfl

theorem lastCursor_lt (calls : List ArgCall) : (lastCursor calls).getD 0 < 2 ^ 64 := by
  have hfold : ∀ (calls : List ArgCall) (cursor : Option Nat), cursor.getD 0 < 2 ^ 64 →
      (calls.foldl ArgCall.cursor cursor).getD 0 < 2 ^ 64 := by
    intro calls
    induction calls with
    | nil => exact fun _ h => h
    | cons call calls ih =>
      intro cursor h
      refine ih _ ?_
      cases call with
      | arg bytes => exact h
      | cursorArg cursor => exact cursor.toNat_lt
  exact hfold calls none (by decide)

theorem length_of_mem_sentArgs {calls : List ArgCall} (h : (ofCalls calls).InMemory) {arg : Bytes}
    (harg : arg ∈ sentArgs calls) : arg.length < maxLen := by
  rw [sentArgs_eq] at harg
  obtain ⟨item, hitem, rfl⟩ := mem_map.1 harg
  cases item with
  | simple val => exact Nat.lt_of_le_of_lt (length_of_mem_argsFrom hitem) h.1
  | cursor =>
    -- the digits of a `u64`
    have hlt := lastCursor_lt calls
    have hdigs := Nat.toDigits_length 10 ((lastCursor calls).getD 0) 20 (by decide) (by omega)
    have hmax : 20 < maxLen := by decide
    rw [cursor_ofCalls, Arg.bytes, itoa_eq, length_map]
    exact Nat.lt_of_le_of_lt hdigs hmax

theorem length_sentArgs (calls : List ArgCall) : (sentArgs calls).length = (ofCalls calls).args.length := by
  rw [sentArgs_eq, length_map, length_argsIter]

theorem packed_reads (nums : Resp.NumberParsers) {c : Cmd} {words : List Bytes}
    (hwords : c.argsIter.map (Arg.bytes (c.cursor.getD 0)) = words) (hargs : c.args.length < maxLen)
    (hlengths : ∀ word ∈ words, word.length < maxLen) :
    Reads (Resp.value nums none) c.writePackedCommand (commandValue words) := by
  have hlen : (words.map bulkString).length < maxLen := by
    rw [length_map, ← hwords, length_map, length_argsIter]
    exact hargs
  have hencodable : (commandValue words).Encodable := ⟨hlen, allEncodable_bulkStrings hlengths⟩
  have hlevels : (commandValue words).levels 1 ≤ Resp.maxRecurseDepth :=
    Nat.le_trans (Nat.succ_le_succ (levelsAll_bulkStrings _)) (by decide)
  rw [writePackedCommand, writeCommand_eq .null, hwords]
  exact Resp.encode_reads nums _ hencodable hlevels

theorem writePackedCommand_reads (nums : Resp.NumberParsers) {calls : List ArgCall} (h : (ofCalls calls).InMemory) :
    Reads (Resp.value nums none) (ofCalls calls).writePackedCommand (commandValue (sentArgs calls)) :=
  packed_reads nums (sentArgs_eq calls).symm h.2 fun _ => length_of_mem_sentArgs h

end Cmd

def parseValues (nums : Resp.NumberParsers) (input : Bytes) : Option (List Value) :=
  (Resp.value nums none).all input.length input

def sentCalls (calls : List (List ArgCall)) (atomic : Bool) : List (List ArgCall) :=
  if atomic then [.arg (bytesOf "MULTI")] :: calls ++ [[.arg (bytesOf "EXEC")]] else calls

theorem encodePipeline_ofCalls (atomic : Bool) :
    encodePipeline (calls.map Cmd.ofCalls) atomic =
      (sentCalls calls atomic).flatMap fun l => (Cmd.ofCalls l).writePackedCommand := by
  have hmulti : Cmd.ofCalls [.arg (bytesOf "MULTI")] = cmd "MULTI" := rfl
  have hexec : Cmd.ofCalls [.arg (bytesOf "EXEC")] = cmd "EXEC" := rfl
  cases atomic with
  | false => simp only [encodePipeline, sentCalls, flatMap_map, Bool.false_eq_true, if_false]
  | true =>
    simp only [encodePipeline, sentCalls, flatMap_map, if_true, cons_append, flatMap_cons,
      flatMap_append, flatMap_nil, append_nil, append_assoc, hmulti, hexec]

theorem inMemory_of_mem_sentCalls {calls : List (List ArgCall)} (h : ∀ l ∈ calls, (Cmd.ofCalls l).InMemory)
    {atomic : Bool} {l : List ArgCall} (hl : l ∈ sentCalls calls atomic) : (Cmd.ofCalls l).InMemory := by
  have hmulti : (Cmd.ofCalls [.arg (bytesOf "MULTI")]).InMemory := ⟨by decide, by decide⟩
  have hexec : (Cmd.ofCalls [.arg (bytesOf "EXEC")]).InMemory := ⟨by decide, by decide⟩
  cases atomic with
  | false => exact h l hl
  | true =>
    rcases mem_cons.1 hl with rfl | hl
    · exact hmulti
    rcases mem_append.1 hl with hl | hl
    · exact h l hl
    · exact mem_singleton.1 hl ▸ hexec

theorem length_le_flatMap : calls.length ≤ (calls.flatMap fun l => (Cmd.ofCalls l).writePackedCommand).length := by
  induction calls with
  | nil => exact Nat.le_refl 0
  | cons l calls ih =>
    have hpos := length_pos_of_ne_nil (Cmd.ofCalls l).writePackedCommand_ne_nil
    rw [flatMap_cons, length_append, length_cons]
    omega

theorem parseValues_encodePipeline (nums : Resp.NumberParsers) {calls : List (List ArgCall)}
    (hmem : ∀ l ∈ calls, (Cmd.ofCalls l).InMemory) (atomic : Bool) :
    parseValues nums (encodePipeline (calls.map Cmd.ofCalls) atomic) =
      some ((sentCalls calls atomic).map fun l => commandValue (Cmd.sentArgs l)) := by
  rw [encodePipeline_ofCalls]
  exact Reads.all (fun l hl => Cmd.writePackedCommand_reads nums (inMemory_of_mem_sentCalls hmem hl))
    (fun l _ => (Cmd.ofCalls l).writePackedCommand_ne_nil) (length_le_flatMap _)

/-- The bytes of a pipeline are read as its commands, with `MULTI` and `EXEC` around them if it is atomic, and each
command has the length that was computed for it. -/
theorem parseValues_packedPipeline (nums : Resp.NumberParsers) (p : Pipeline) (calls : List (List ArgCall))
    (hp : p.commands = calls.map Cmd.ofCalls) (hargs : ∀ l ∈ calls, l ≠ [])
    (hmem : ∀ l ∈ calls, (Cmd.ofCalls l).InMemory) :
    parseValues nums p.getPackedPipeline =
        some ((if p.transactionMode then [commandValue [bytesOf "MULTI"]] else []) ++
          calls.map (fun l => commandValue (Cmd.sentArgs l)) ++
          if p.transactionMode then [commandValue [bytesOf "EXEC"]] else []) ∧
      ∀ l ∈ calls, (Cmd.ofCalls l).getPackedCommand.length = cmdLen (Cmd.ofCalls l) := by
  constructor
  · have hmulti : Cmd.sentArgs [.arg (bytesOf "MULTI")] = [bytesOf "MULTI"] := rfl
    have hexec : Cmd.sentArgs [.arg (bytesOf "EXEC")] = [bytesOf "EXEC"] := rfl
    rw [Pipeline.getPackedPipeline, hp, parseValues_encodePipeline nums hmem, sentCalls]
    cases p.transactionMode <;> simp [hmulti, hexec]
  · intro l hl
    have hne : (Cmd.ofCalls l).isEmpty = false := by
      have hlen := Cmd.length_sentArgs l
      rw [Cmd.sentArgs, length_map] at hlen
      rw [Cmd.isEmpty, isEmpty_eq_false_iff]
      intro hnil
      rw [hnil] at hlen
      exact hargs l hl (length_eq_zero_iff.1 hlen)
    rw [Cmd.getPackedCommand, hne, if_neg (by decide), Cmd.writePackedCommand, length_writeCommand, cmdLen]

theorem parseValues_scan :
    parseValues ⟨fun _ => none, fun _ => none⟩
        { Pipeline.new with
          commands := [Cmd.ofCalls [.arg (bytesOf "SCAN"), .cursorArg 17]]
          transactionMode := true }.getPackedPipeline =
      some [commandValue [bytesOf "MULTI"], commandValue [bytesOf "SCAN", bytesOf "17"],
        commandValue [bytesOf "EXEC"]] := by
  have hmem : ∀ l ∈ [[ArgCall.arg (bytesOf "SCAN"), .cursorArg 17]], (Cmd.ofCalls l).InMemory := by
    intro l hl
    rw [mem_singleton.1 hl]
    exact ⟨by decide, by decide⟩
  exact (parseValues_packedPipeline ⟨fun _ => none, fun _ => none⟩
    { Pipeline.new with commands := [Cmd.ofCalls [.arg (bytesOf "SCAN"), .cursorArg 17]], transactionMode := true }
    [[.arg (bytesOf "SCAN"), .cursorArg 17]] rfl (by decide) hmem).1

end RedisRs
