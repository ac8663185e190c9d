import RedisRs.Error
import Mathlib.Data.Finset.Basic

/-!
# Commands and pipelines
-/

namespace RedisRs

abbrev Instant := Nat
abbrev Duration := Nat

def Duration.fromMillis (ms : Nat) : Duration := ms * 1000000

inductive Arg (α : Type)
  | simple (d : α)
  | cursor
deriving DecidableEq, Repr

structure CommandCacheConfig where
  enableCache : Bool
  clientSideTtl : Option Duration
deriving DecidableEq, Repr

/-- The end offsets of the arguments are ordered from `prev` on and the last one is `len`. -/
def Offsets : Nat → List (Arg Nat) → Nat → Prop
  | prev, [], len => prev = len
  | prev, .simple i :: rest, len => prev ≤ i ∧ Offsets i rest len
  | prev, .cursor :: rest, len => Offsets prev rest len

variable (c : Cmd) {prev len : Nat} {args : List (Arg Nat)}

theorem Offsets.concat_simple {len' : Nat} {args : List (Arg Nat)} (h : Offsets prev args len) (hle : len ≤ len') :
    Offsets prev (args ++ [.simple len']) len' := by
  induction args generalizing prev with
  | nil => exact ⟨(show prev = len from h) ▸ hle, rfl⟩
  | cons a rest ih =>
    cases a with
    | simple i => exact ⟨h.1, ih h.2⟩
    | cursor => exact ih h

theorem Offsets.concat_cursor (h : Offsets prev args len) : Offsets prev (args ++ [.cursor]) len := by
  induction args generalizing prev with
  | nil => exact h
  | cons a rest ih =>
    cases a with
    | simple i => exact ⟨h.1, ih h.2⟩
    | cursor => exact ih h

theorem Offsets.le (h : Offsets prev args len) : prev ≤ len := by
  induction args generalizing prev with
  | nil => exact Nat.le_of_eq h
  | cons a rest ih =>
    cases a with
    | simple i => exact Nat.le_trans h.1 (ih h.2)
    | cursor => exact ih h

structure Cmd where
  data : Bytes
  args : List (Arg Nat)
  cursor : Option Nat
  noResponse : Bool
  skipConcurrencyLimit : Bool
  cache : Option CommandCacheConfig
  wf : Offsets 0 args data.length

namespace Cmd

def new : Cmd where
  data := []
  args := []
  cursor := none
  noResponse := false
  skipConcurrencyLimit := false
  cache := none
  wf := rfl

def writeArg (c : Cmd) (arg : Bytes) : Cmd :=
  { c with
    data := c.data ++ arg
    args := c.args ++ [.simple (c.data ++ arg).length]
    wf := c.wf.concat_simple (by simp) }

def cursorArg (c : Cmd) (cursor : Nat) : Cmd :=
  { c with cursor := some cursor, args := c.args ++ [.cursor], wf := c.wf.concat_cursor }

def setCacheConfig (c : Cmd) (config : CommandCacheConfig) : Cmd := { c with cache := some config }

def isEmpty (c : Cmd) : Bool := c.args.isEmpty

def ofArgs (args : List Bytes) : Cmd := args.foldl writeArg new

def argsFrom (data : Bytes) : Nat → List (Arg Nat) → List (Arg Bytes)
  | _, [] => []
  | prev, .simple i :: rest => .simple ((data.drop prev).take (i - prev)) :: argsFrom data i rest
  | prev, .cursor :: rest => .cursor :: argsFrom data prev rest

def argsIter (c : Cmd) : List (Arg Bytes) := argsFrom c.data 0 c.args

def slice (data : Bytes) (start stop : Nat) : Ends Bytes :=
  if start ≤ stop ∧ stop ≤ data.length then .ok ((data.drop start).take (stop - start))
  else .error .sliceIndex

def endOffset : Option (Arg Nat) → Nat
  | some (.simple n) => n
  | _ => 0

def argIdx (c : Cmd) (idx : Nat) : Ends (Option Bytes) :=
  if c.args.length ≤ idx then .ok none
  else
    let start := if idx = 0 then 0 else endOffset c.args[idx - 1]?
    let stop := endOffset c.args[idx]?
    if start = 0 ∧ stop = 0 then .ok none else (slice c.data start stop).map some

end Cmd

def countdigitsLoop : Nat → Nat → Nat → Nat
  | 0, _, result => result
  | fuel + 1, v, result =>
    if v < 10 then result
    else if v < 100 then result + 1
    else if v < 1000 then result + 2
    else if v < 10000 then result + 3
    else countdigitsLoop fuel (v / 10000) (result + 4)

def countdigits (v : Nat) : Nat := countdigitsLoop v v 1

def bulklen (len : Nat) : Nat := 1 + countdigits len + 2 + len + 2

def argsLen (args : List (Arg Bytes)) (cursor : Nat) : Nat :=
  args.foldl (fun totlen item => totlen + bulklen (match item with
    | .cursor => countdigits cursor
    | .simple val => val.length)) (1 + countdigits args.length + 2)

def cmdLen (c : Cmd) : Nat := argsLen c.argsIter (c.cursor.getD 0)

def itoa (n : Nat) : Bytes := bytesOf (Nat.repr n)

def crlf : Bytes := bytesOf "\r\n"

def writeCommand (args : List (Arg Bytes)) (cursor : Nat) : Bytes :=
  bytesOf "*" ++ itoa args.length ++ crlf ++ args.flatMap fun item =>
    let bytes := match item with
      | .cursor => itoa cursor
      | .simple val => val
    bytesOf "$" ++ itoa bytes.length ++ crlf ++ bytes ++ crlf

namespace Cmd

def writePackedCommand (c : Cmd) : Bytes := writeCommand c.argsIter (c.cursor.getD 0)

def getPackedCommand (c : Cmd) : Bytes := if c.isEmpty then [] else c.writePackedCommand

end Cmd

def cmd (name : String) : Cmd := Cmd.new.writeArg (bytesOf name)

def Cmd.pttl (key : Bytes) : Cmd := (cmd "PTTL").writeArg key

structure Pipeline where
  commands : List Cmd
  transactionMode : Bool
  ignoredCommands : Finset Nat
  ignoreErrors : Bool

def encodePipeline (cmds : List Cmd) (atomic : Bool) : Bytes :=
  if atomic then
    (cmd "MULTI").writePackedCommand ++ cmds.flatMap Cmd.writePackedCommand ++
      (cmd "EXEC").writePackedCommand
  else cmds.flatMap Cmd.writePackedCommand

namespace Pipeline

def new : Pipeline := ⟨[], false, ∅, false⟩

def addCommand (p : Pipeline) (c : Cmd) : Pipeline := { p with commands := p.commands ++ [c] }

def atomic (p : Pipeline) : Pipeline := { p with transactionMode := true }

def isEmpty (p : Pipeline) : Bool := p.commands.isEmpty

def getPackedPipeline (p : Pipeline) : Bytes := encodePipeline p.commands p.transactionMode

end Pipeline

theorem foldl_add_ge (f : Arg Bytes → Nat) (args : List (Arg Bytes)) (n : Nat) :
    n ≤ args.foldl (fun totlen item => totlen + f item) n := by
  induction args generalizing n with
  | nil => exact Nat.le_refl n
  | cons a args ih => exact Nat.le_trans (Nat.le_add_right n _) (ih _)

theorem two_le_cmdLen : 2 ≤ cmdLen c :=
  Nat.le_trans (by omega) (foldl_add_ge _ _ _)

theorem Cmd.writePackedCommand_ne_nil : c.writePackedCommand ≠ [] := by
  have : (bytesOf "*") ≠ [] := by decide
  simp [writePackedCommand, writeCommand, this]

theorem encodePipeline_ne_nil {cmds : List Cmd} {atomic : Bool} (h : cmds ≠ [] ∨ atomic = true) :
    encodePipeline cmds atomic ≠ [] := by
  cases atomic with
  | true => simp [encodePipeline, Cmd.writePackedCommand_ne_nil]
  | false =>
    obtain ⟨c, cs, rfl⟩ := List.exists_cons_of_ne_nil (h.resolve_right (by simp))
    simp [encodePipeline, Cmd.writePackedCommand_ne_nil]

namespace Cmd

def offsetsFrom : Nat → List Bytes → List (Arg Nat)
  | _, [] => []
  | p, a :: l => .simple (p + a.length) :: offsetsFrom (p + a.length) l

variable {name : Bytes} (l : List Bytes) (c : Cmd)

theorem foldl_writeArg_data : (l.foldl writeArg c).data = c.data ++ l.flatten := by
  induction l generalizing c with
  | nil => simp
  | cons a l ih => rw [List.foldl_cons, ih]; simp [writeArg]

theorem foldl_writeArg_args : (l.foldl writeArg c).args = c.args ++ offsetsFrom c.data.length l := by
  induction l generalizing c with
  | nil => simp [offsetsFrom]
  | cons a l ih => rw [List.foldl_cons, ih]; simp [writeArg, offsetsFrom]

@[simp] theorem ofArgs_data : (ofArgs l).data = l.flatten := by
  rw [ofArgs, foldl_writeArg_data]; rfl

@[simp] theorem ofArgs_args : (ofArgs l).args = offsetsFrom 0 l := by
  rw [ofArgs, foldl_writeArg_args]; rfl

theorem argsFrom_offsetsFrom (pre post : Bytes) :
    argsFrom (pre ++ l.flatten ++ post) pre.length (offsetsFrom pre.length l) = l.map .simple := by
  induction l generalizing pre with
  | nil => rfl
  | cons a l ih =>
    have h := ih (pre ++ a)
    rw [List.length_append] at h
    simp only [offsetsFrom, argsFrom, List.map_cons, List.flatten_cons, List.append_assoc] at h ⊢
    rw [h]
    simp

@[simp] theorem argsIter_ofArgs : (ofArgs l).argsIter = l.map .simple := by
  have := argsFrom_offsetsFrom l [] []
  simpa [argsIter] using this

theorem argIdx_ofArgs_zero {l : List Bytes} (h : name ≠ []) : (ofArgs (name :: l)).argIdx 0 = .ok (some name) := by
  have : name.length ≠ 0 := by simpa using h
  simp [argIdx, offsetsFrom, endOffset, slice, this, Except.map]

theorem argIdx_ofArgs_one {key : Bytes} {l : List Bytes} (h : name ≠ []) :
    (ofArgs (name :: key :: l)).argIdx 1 = .ok (some key) := by
  have : name.length ≠ 0 := by simpa using h
  simp [argIdx, offsetsFrom, endOffset, slice, this, Except.map, ← Nat.add_assoc]

theorem argIdx_ofArgs_one_short : (ofArgs [name]).argIdx 1 = .ok none := by
  simp [argIdx, offsetsFrom]

end Cmd

example : (Cmd.ofArgs [bytesOf "GET", bytesOf "key"]).getPackedCommand =
    bytesOf "*2\r\n$3\r\nGET\r\n$3\r\nkey\r\n" := by decide

end RedisRs
