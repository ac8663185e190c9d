import RedisRs.PackedCommands

/-!
# The arguments of a command, one by one and all together
-/

namespace RedisRs

open List

def Arg.written : Arg Bytes → Bytes
  | .simple val => val
  | .cursor => []

def writtenBefore (l : List (Arg Bytes)) (i : Nat) : Bytes := (l.take i).flatMap Arg.written

def simpleAt (l : List (Arg Bytes)) (i : Nat) : Option Bytes :=
  match l[i]? with
  | some (.simple val) => some val
  | _ => none

def AfterCursor (l : List (Arg Bytes)) (i : Nat) : Prop := 0 < i ∧ l[i - 1]? = some .cursor

instance (l : List (Arg Bytes)) (i : Nat) : Decidable (AfterCursor l i) := inferInstanceAs (Decidable (_ ∧ _))

/-- Where `arg_idx` does not give what `args_iter` does. -/
def Misread (l : List (Arg Bytes)) (i : Nat) : Prop :=
  match l[i]? with
  | some (.simple _) => writtenBefore l (i + 1) = [] ∨ AfterCursor l i ∧ writtenBefore l i ≠ []
  | some .cursor => ¬ AfterCursor l i ∧ writtenBefore l i ≠ []
  | none => False

variable (a : Arg Bytes) (l : List (Arg Bytes)) (i : Nat)

theorem simpleAt_cons_succ : simpleAt (a :: l) (i + 1) = simpleAt l i := rfl

theorem writtenBefore_cons_succ : writtenBefore (a :: l) (i + 1) = a.written ++ writtenBefore l i := rfl

theorem writtenBefore_succ {l : List (Arg Bytes)} {i : Nat} {a : Arg Bytes} (h : l[i]? = some a) :
    writtenBefore l (i + 1) = writtenBefore l i ++ a.written := by
  simp only [writtenBefore, take_add_one, h, Option.toList_some, flatMap_append, flatMap_singleton]

theorem writtenBefore_append_drop : writtenBefore l i ++ (l.drop i).flatMap Arg.written = l.flatMap Arg.written := by
  rw [writtenBefore, ← flatMap_append, take_append_drop]

namespace Cmd

def offsets : Nat → List (Arg Bytes) → List (Arg Nat)
  | _, [] => []
  | p, .simple val :: l => .simple (p + val.length) :: offsets (p + val.length) l
  | p, .cursor :: l => .cursor :: offsets p l

variable {args : List (Arg Nat)} {data : Bytes} {prev : Nat}

theorem offsets_argsFrom (h : Offsets prev args data.length) : offsets prev (argsFrom data prev args) = args := by
  induction args generalizing prev with
  | nil => rfl
  | cons a args ih =>
    cases a with
    | simple i =>
      have hi := h.2.le
      have hlen : prev + ((data.drop prev).take (i - prev)).length = i := by
        rw [length_take, length_drop]
        have := h.1
        omega
      simp only [argsFrom, offsets, hlen, ih h.2]
    | cursor => simp only [argsFrom, offsets, ih h]

theorem written_argsFrom (h : Offsets prev args data.length) :
    (argsFrom data prev args).flatMap Arg.written = data.drop prev := by
  induction args generalizing prev with
  | nil =>
    have hprev : prev = data.length := h
    rw [hprev, drop_length]
    rfl
  | cons a args ih =>
    cases a with
    | simple i =>
      have hdrop : data.drop i = (data.drop prev).drop (i - prev) := by
        rw [drop_drop, Nat.add_sub_cancel' h.1]
      simp [argsFrom, Arg.written, ih h.2, hdrop]
    | cursor => simp [argsFrom, Arg.written, ih h]

theorem args_eq_offsets (c : Cmd) : c.args = offsets 0 c.argsIter := (offsets_argsFrom c.wf).symm

theorem data_eq_written (c : Cmd) : c.data = c.argsIter.flatMap Arg.written := (written_argsFrom c.wf).symm

theorem endOffset_offsets (l : List (Arg Bytes)) (p i : Nat) :
    endOffset (offsets p l)[i]? = if (simpleAt l i).isSome then p + (writtenBefore l (i + 1)).length else 0 := by
  induction l generalizing p i with
  | nil => rfl
  | cons a l ih =>
    cases i with
    | zero => cases a <;> simp [offsets, endOffset, simpleAt, writtenBefore, Arg.written]
    | succ i =>
      rw [simpleAt_cons_succ, writtenBefore_cons_succ]
      cases a with
      | simple val => simp only [offsets, getElem?_cons_succ, ih, Arg.written, length_append, Nat.add_assoc]
      | cursor => simp [offsets, ih, Arg.written]

section ArgIdx

variable {c : Cmd} {i : Nat}

theorem argStart_eq (hi : i ≤ c.argsIter.length) :
    (if i = 0 then 0 else endOffset c.args[i - 1]?) =
      if AfterCursor c.argsIter i then 0 else (writtenBefore c.argsIter i).length := by
  cases i with
  | zero => rw [if_pos rfl, if_neg (fun h => Nat.lt_irrefl 0 h.1)]; rfl
  | succ i =>
    rw [if_neg (Nat.succ_ne_zero i), Nat.add_sub_cancel, args_eq_offsets, endOffset_offsets, Nat.zero_add]
    obtain ⟨a, ha⟩ : ∃ a, c.argsIter[i]? = some a := ⟨_, getElem?_eq_getElem hi⟩
    cases a with
    | simple val => simp [simpleAt, AfterCursor, ha]
    | cursor => simp [simpleAt, AfterCursor, ha]

theorem argIdx_outOfRange (h : c.argsIter[i]? = none) : c.argIdx i = .ok none := by
  rw [argIdx, if_pos]
  rw [← length_argsIter]
  exact List.getElem?_eq_none_iff.1 h

theorem argIdx_cursor (h : c.argsIter[i]? = some .cursor) :
    c.argIdx i =
      if AfterCursor c.argsIter i ∨ writtenBefore c.argsIter i = [] then .ok none else .error .sliceIndex := by
  obtain ⟨hi, -⟩ := List.getElem?_eq_some_iff.1 h
  have hstop : endOffset c.args[i]? = 0 := by
    rw [args_eq_offsets, endOffset_offsets]
    simp [simpleAt, h]
  rw [argIdx, if_neg (by rw [← length_argsIter]; omega), argStart_eq hi.le, hstop]
  by_cases hcur : AfterCursor c.argsIter i
  · simp [hcur]
  · by_cases hbef : writtenBefore c.argsIter i = []
    · simp [hbef]
    · have hpos := length_pos_of_ne_nil hbef
      simp only [hcur, hbef, or_self, if_false]
      rw [if_neg (by omega), slice, if_neg (by omega)]
      rfl

theorem argIdx_simple {val : Bytes} (h : c.argsIter[i]? = some (.simple val)) :
    c.argIdx i =
      if writtenBefore c.argsIter (i + 1) = [] then .ok none
      else if AfterCursor c.argsIter i then .ok (some (writtenBefore c.argsIter (i + 1))) else .ok (some val) := by
  obtain ⟨hi, -⟩ := List.getElem?_eq_some_iff.1 h
  have hstop : endOffset c.args[i]? = (writtenBefore c.argsIter (i + 1)).length := by
    rw [args_eq_offsets, endOffset_offsets]
    simp [simpleAt, h]
  have hsucc := writtenBefore_succ h
  have hdata : c.data = writtenBefore c.argsIter (i + 1) ++ (c.argsIter.drop (i + 1)).flatMap Arg.written := by
    rw [writtenBefore_append_drop, data_eq_written]
  rw [argIdx, if_neg (by rw [← length_argsIter]; omega), argStart_eq hi.le, hstop]
  by_cases hnil : writtenBefore c.argsIter (i + 1) = []
  · have hbef := (append_eq_nil_iff.1 (hsucc ▸ hnil)).1
    simp [hnil, hbef]
  · have hpos := length_pos_of_ne_nil hnil
    rw [if_neg hnil]
    by_cases hcur : AfterCursor c.argsIter i
    · have hslice : slice c.data 0 (writtenBefore c.argsIter (i + 1)).length =
        .ok (writtenBefore c.argsIter (i + 1)) := by
        rw [slice, if_pos ⟨Nat.zero_le _, by rw [hdata, length_append]; omega⟩, hdata]
        simp
      rw [if_pos hcur, if_pos hcur, if_neg (by omega), hslice]
      rfl
    · have hslice : slice c.data (writtenBefore c.argsIter i).length (writtenBefore c.argsIter (i + 1)).length =
        .ok val := by
        rw [hsucc] at hdata ⊢
        rw [slice, if_pos ⟨by simp, by simp [hdata]⟩, hdata]
        simp [Arg.written]
      rw [if_neg hcur, if_neg hcur, if_neg (by omega), hslice]
      rfl

theorem argIdx_eq_simpleAt_iff (c : Cmd) (i : Nat) :
    c.argIdx i = .ok (simpleAt c.argsIter i) ↔ ¬ Misread c.argsIter i := by
  cases h : c.argsIter[i]? with
  | none => simp [argIdx_outOfRange h, Misread, simpleAt, h]
  | some a =>
    cases a with
    | simple val =>
      have hval : writtenBefore c.argsIter (i + 1) = val ↔ writtenBefore c.argsIter i = [] := by
        simp [writtenBefore_succ h, Arg.written]
      rw [argIdx_simple h]
      simp only [simpleAt, Misread, h]
      by_cases hnil : writtenBefore c.argsIter (i + 1) = []
      · simp [hnil]
      · by_cases hcur : AfterCursor c.argsIter i
        · simp [hnil, hcur, hval]
        · simp [hnil, hcur]
    | cursor =>
      rw [argIdx_cursor h]
      simp only [simpleAt, Misread, h]
      by_cases hcur : AfterCursor c.argsIter i
      · simp [hcur]
      · by_cases hbef : writtenBefore c.argsIter i = [] <;> simp [hcur, hbef]

theorem argIdx_of_misread (h : Misread c.argsIter i) :
    c.argIdx i =
      if (simpleAt c.argsIter i).isNone then .error .sliceIndex
      else if writtenBefore c.argsIter (i + 1) = [] then .ok none
      else .ok (some (writtenBefore c.argsIter (i + 1))) := by
  cases ha : c.argsIter[i]? with
  | none => simp [Misread, ha] at h
  | some a =>
    cases a with
    | simple val =>
      rw [argIdx_simple ha]
      simp only [Misread, ha] at h
      by_cases hnil : writtenBefore c.argsIter (i + 1) = []
      · simp [simpleAt, ha, hnil]
      · simp [simpleAt, ha, hnil, (h.resolve_left hnil).1]
    | cursor =>
      rw [argIdx_cursor ha]
      simp only [Misread, ha] at h
      simp [simpleAt, ha, h.1, h.2]

end ArgIdx

def extend (data : Bytes) (writes : List Bytes) : Bytes := writes.foldl (· ++ ·) data

theorem extend_eq (data : Bytes) (writes : List Bytes) : extend data writes = data ++ writes.flatten := by
  induction writes generalizing data with
  | nil => exact (append_nil data).symm
  | cons bytes writes ih => exact (ih (data ++ bytes)).trans (append_assoc data bytes writes.flatten)

theorem length_le_extend (data : Bytes) (writes : List Bytes) : data.length ≤ (extend data writes).length := by
  rw [extend_eq, length_append]
  exact Nat.le_add_right _ _

def writeArgFmt (c : Cmd) (pieces : List String) : Cmd :=
  { c with
    data := extend c.data (pieces.map bytesOf)
    args := c.args ++ [.simple (extend c.data (pieces.map bytesOf)).length]
    wf := c.wf.concat_simple (length_le_extend _ _) }

def writerForNextArg (c : Cmd) (writes : List Bytes) : Cmd :=
  { c with
    data := extend c.data writes
    args := c.args ++ [.simple (extend c.data writes).length]
    wf := c.wf.concat_simple (length_le_extend _ _) }

theorem writerForNextArg_eq (c : Cmd) (writes : List Bytes) : c.writerForNextArg writes = c.writeArg writes.flatten := by
  simp only [writerForNextArg, writeArg, extend_eq]

theorem writeArgFmt_eq (c : Cmd) (pieces : List String) : c.writeArgFmt pieces = c.writeArg (pieces.flatMap bytesOf) :=
  (c.writerForNextArg_eq (pieces.map bytesOf)).trans (by rw [flatMap_def])

end Cmd

inductive WriteCall
  | writeArg (arg : Bytes)
  | writeArgFmt (pieces : List String)
  | writerForNextArg (writes : List Bytes)
  | cursorArg (cursor : UInt64)
deriving DecidableEq

namespace WriteCall

def apply (c : Cmd) : WriteCall → Cmd
  | writeArg arg => c.writeArg arg
  | writeArgFmt pieces => c.writeArgFmt pieces
  | writerForNextArg writes => c.writerForNextArg writes
  | cursorArg cursor => c.cursorArg cursor.toNat

def argCall : WriteCall → ArgCall
  | writeArg arg => .arg arg
  | writeArgFmt pieces => .arg (pieces.flatMap bytesOf)
  | writerForNextArg writes => .arg writes.flatten
  | cursorArg cursor => .cursorArg cursor

theorem apply_eq (c : Cmd) (call : WriteCall) : call.apply c = call.argCall.apply c := by
  cases call with
  | writeArg arg => rfl
  | writeArgFmt pieces => exact c.writeArgFmt_eq pieces
  | writerForNextArg writes => exact c.writerForNextArg_eq writes
  | cursorArg cursor => rfl

end WriteCall

namespace Cmd

def ofWrites (calls : List WriteCall) : Cmd := calls.foldl WriteCall.apply new

theorem argsIter_ofWrites (calls : List WriteCall) :
    (ofWrites calls).argsIter = calls.map fun call => call.argCall.stored := by
  have h : ofWrites calls = ofCalls (calls.map WriteCall.argCall) := by
    rw [ofWrites, ofCalls, foldl_map]
    exact congrFun (congrFun (congrArg List.foldl (funext fun c => funext fun call => call.apply_eq c)) new) calls
  rw [h, argsIter_ofCalls, map_map]
  rfl

/-- Whatever a command was written by, `args_iter` gives what each call stored, and `arg_idx` gives the `i`-th of them but
where it is misread. There it panics at a cursor, gives nothing for an empty argument with only empty ones before it, and
gives all bytes up to its end for an argument after a cursor. -/
theorem argIdx_ofWrites_iff (calls : List WriteCall) (i : Nat) :
    (ofWrites calls).argsIter = calls.map (fun call => call.argCall.stored) ∧
    ((ofWrites calls).argIdx i = .ok (simpleAt (ofWrites calls).argsIter i) ↔ ¬ Misread (ofWrites calls).argsIter i) ∧
    (Misread (ofWrites calls).argsIter i → (ofWrites calls).argIdx i =
      if (simpleAt (ofWrites calls).argsIter i).isNone then .error .sliceIndex
      else if writtenBefore (ofWrites calls).argsIter (i + 1) = [] then .ok none
      else .ok (some (writtenBefore (ofWrites calls).argsIter (i + 1)))) := by
  exact ⟨argsIter_ofWrites calls, argIdx_eq_simpleAt_iff _ i, argIdx_of_misread⟩

theorem argIdx_ofWrites_scan :
    (ofWrites [.writeArg (bytesOf "SCAN"), .cursorArg 0, .writeArg (bytesOf "MATCH")]).argsIter =
      [.simple (bytesOf "SCAN"), .cursor, .simple (bytesOf "MATCH")] ∧
    (ofWrites [.writeArg (bytesOf "SCAN"), .cursorArg 0, .writeArg (bytesOf "MATCH")]).argIdx 1 = .error .sliceIndex ∧
    (ofWrites [.writeArg (bytesOf "SCAN"), .cursorArg 0, .writeArg (bytesOf "MATCH")]).argIdx 2 =
      .ok (some (bytesOf "SCANMATCH")) ∧
    (ofWrites [.writeArg []]).argsIter = [.simple []] ∧ (ofWrites [.writeArg []]).argIdx 0 = .ok none := by
  decide

theorem argIdx_ofWrites_iff_sscan :
    (ofWrites [.writeArg (bytesOf "SSCAN"), .writeArgFmt ["set"], .cursorArg 0]).argIdx 2 = .error .sliceIndex ∧
    (ofWrites [.writeArg (bytesOf "SSCAN"), .writeArgFmt ["set"], .cursorArg 0]).argIdx 1 = .ok (some (bytesOf "set")) :=
  ⟨(argIdx_ofWrites_iff [.writeArg (bytesOf "SSCAN"), .writeArgFmt ["set"], .cursorArg 0] 2).2.2
      ⟨by decide, by decide⟩,
    (argIdx_ofWrites_iff [.writeArg (bytesOf "SSCAN"), .writeArgFmt ["set"], .cursorArg 0] 1).2.1.2
      (by rintro (h | ⟨h, -⟩) <;> exact absurd h (by decide))⟩

end Cmd

end RedisRs
