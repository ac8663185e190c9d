import RedisRs.NestingLimit

/-!
# Negative lengths
-/

namespace RedisRs.Resp

open Incremental

inductive LengthType
  | bulkString
  | blobError
  | verbatim
  | container (kind : ContainerType)
deriving DecidableEq, Repr

namespace LengthType

def byte : LengthType → UInt8
  | bulkString => '$'.toUInt8
  | blobError => '!'.toUInt8
  | verbatim => '='.toUInt8
  | container kind => kind.byte

def isBlob : LengthType → Bool
  | blobError => true
  | verbatim => true
  | _ => false

def isPairs : LengthType → Bool
  | container kind => kind.refuses (-1)
  | _ => false

end LengthType

/-- With `n` levels left the parser comes to read a value at a place with `l` left. -/
inductive Enters (nums : NumberParsers) (n : Nat) (input : Bytes) : Nat → Bytes → Prop
  | start : Enters nums n input n input
  | element {l i : Nat} {k : ContainerType} {body rest left : Bytes} {m : Int} {items : List Value}
      (h : Enters nums n input (l + 1) (k.byte :: body)) (hint : int body = .done m rest)
      (hkeeps : k.refuses m = false) (hi : i < k.elements m)
      (hitems : (valueAt nums l).count i rest = .done items left) : Enters nums n input l left

variable {nums : NumberParsers} {n l : Nat} {input body rest : Bytes} {m : Int}

theorem Enters.halted {left : Bytes} {o : Option ParserError} (h : Enters nums n input l left)
    (hleft : valueAt nums l left = .halted o) : valueAt nums n input = .halted o := by
  induction h with
  | start => exact hleft
  | element h hint hkeeps hi hitems ih =>
    refine ih ((valueOf_container nums _ _ hint).trans ?_)
    rw [ContainerType.contents_of_not_refuses hkeeps]
    exact Parser.bind_halted _ (Parser.count_halted hitems hleft hi)

theorem blob_of_neg (hint : int body = .done m rest) (hneg : m < 0) (hlen : rest.length < 2 ^ 63) :
    blob body = .more := by
  have husize := asUsize_of_neg hneg (int_range hint).1
  refine (Parser.bind_of_done hint).trans (Parser.bind_halted (o := none) _ ?_)
  exact if_neg (by omega)

theorem valueAt_blob {t : LengthType} (ht : t.isBlob = true) (h : blob body = .more) :
    valueAt nums (l + 1) (t.byte :: body) = .more := by
  cases t with
  | blobError => exact Parser.bind_halted (o := none) _ (Parser.bind_halted (o := none) _ h)
  | verbatim => exact Parser.bind_halted (o := none) _ h
  | bulkString => cases ht
  | container kind => cases ht

theorem ContainerType.refuses_of_neg (kind : ContainerType) (hneg : m < 0) : kind.refuses m = kind.refuses (-1) := by
  cases kind <;> simp [refuses, hneg]

theorem valueAt_pairs {t : LengthType} (ht : t.isPairs = true) (hint : int body = .done m rest) (hneg : m < 0) :
    valueAt nums (l + 1) (t.byte :: body) = Parser.unexpectedAny keyValueLengthTooLarge rest := by
  rcases t with _ | _ | _ | kind
  · cases ht
  · cases ht
  · cases ht
  · refine (valueOf_container nums (valueAt nums l) kind hint).trans ?_
    rw [ContainerType.contents, kind.refuses_of_neg hneg]
    exact congrFun (if_pos ht) rest

theorem valueAt_of_neg {t : LengthType} (hblob : t.isBlob = false) (hpairs : t.isPairs = false)
    (hint : int body = .done m rest) (hneg : m < 0) : ∃ v, valueAt nums (l + 1) (t.byte :: body) = .done v rest := by
  have hle : m ≤ 0 := Int.le_of_lt hneg
  have hzero : m.toNat = 0 := Int.toNat_of_nonpos hle
  rcases t with _ | _ | _ | kind
  · exact ⟨.nil, bulkString_of_neg hint hneg⟩
  · cases hblob
  · cases hblob
  · have hread : valueAt nums (l + 1) (kind.byte :: body) = _ := valueOf_container nums (valueAt nums l) kind hint
    rw [ContainerType.contents_of_not_refuses ((kind.refuses_of_neg hneg).trans hpairs)] at hread
    rw [LengthType.byte, hread]
    cases kind <;> simp only [ContainerType.elements, ContainerType.ofElements, hneg, hle, hzero, if_true] <;>
      first | exact ⟨_, rfl⟩ | cases hpairs

/-- A negative length is decided at its header, but for a blob error and a verbatim string, and for a map and an attribute
where the input ends with the header. -/
theorem negative_lengths_decided {t : LengthType} (hat : Enters nums maxRecurseDepth input l (t.byte :: body))
    (hint : int body = .done m rest) (hneg : m < 0) :
    (l = 0 ∨ t.isBlob = false ∧ (t.isPairs = true → rest ≠ []) →
      (∃ v, valueAt nums l (t.byte :: body) = .done v rest) ∨ ∃ e, value nums none input = .fail e) ∧
    (l ≠ 0 → t.isBlob = true → rest.length < 2 ^ 63 → value nums none input = .more) ∧
    (l ≠ 0 → t.isPairs = true → rest = [] → value nums none input = .more) := by
  cases l with
  | zero =>
    have hbody : body ≠ [] := by
      rintro rfl
      cases hint
    have hdeep : valueAt nums 0 (t.byte :: body) = .fail tooDeep := Parser.unexpectedAny_of_ne_nil _ hbody
    exact ⟨fun _ => .inr ⟨tooDeep, hat.halted (o := some tooDeep) hdeep⟩, fun h => absurd rfl h, fun h => absurd rfl h⟩
  | succ l =>
    refine ⟨fun h => ?_, fun _ hblob hlen => ?_, fun _ hpairs hrest => ?_⟩
    · obtain ⟨hblob, hnext⟩ := h.resolve_left (Nat.succ_ne_zero l)
      rcases hpairs : t.isPairs with _ | _
      · exact .inl (valueAt_of_neg hblob hpairs hint hneg)
      · refine .inr ⟨_, hat.halted (o := some keyValueLengthTooLarge) ?_⟩
        exact (valueAt_pairs hpairs hint hneg).trans (Parser.unexpectedAny_of_ne_nil _ (hnext hpairs))
    · exact hat.halted (o := none) (valueAt_blob hblob (blob_of_neg hint hneg hlen))
    · subst hrest
      exact hat.halted (o := none) (valueAt_pairs hpairs hint hneg)

theorem nested_nil_decided :
    Enters ⟨fun _ => none, fun _ => none⟩ maxRecurseDepth (bytesOf "*1\r\n$-1\r\n") 99 (bytesOf "$-1\r\n") ∧
    ((∃ v, valueAt ⟨fun _ => none, fun _ => none⟩ 99 (bytesOf "$-1\r\n") = .done v []) ∨
      ∃ e, value ⟨fun _ => none, fun _ => none⟩ none (bytesOf "*1\r\n$-1\r\n") = .fail e) := by
  have hone : int (bytesOf "1\r\n$-1\r\n") = .done 1 (bytesOf "$-1\r\n") :=
    (int_reads (n := 1) (by decide) (by decide)).done _
  have hat : Enters ⟨fun _ => none, fun _ => none⟩ maxRecurseDepth (bytesOf "*1\r\n$-1\r\n") 99 (bytesOf "$-1\r\n") :=
    .element (k := .array) .start hone rfl (i := 0) Nat.one_pos rfl
  exact ⟨hat, (negative_lengths_decided (t := .bulkString) hat (minusOne_reads.done []) (by decide)).1 (.inr ⟨rfl, nofun⟩)⟩

theorem negative_blob_awaited :
    (∀ (nums : NumberParsers) (rest : Bytes), rest.length < 2 ^ 63 →
      value nums none (bytesOf "!-1\r\n" ++ rest) = .more ∧ value nums none (bytesOf "=-1\r\n" ++ rest) = .more) ∧
    ∀ nums : NumberParsers,
      value nums none (bytesOf "%-1\r\n") = .more ∧ value nums none (bytesOf "|-1\r\n") = .more :=
  ⟨fun _ rest hlen =>
      ⟨valueAt_blob (t := .blobError) rfl (blob_of_neg (minusOne_reads.done rest) (by decide) hlen),
        valueAt_blob (t := .verbatim) rfl (blob_of_neg (minusOne_reads.done rest) (by decide) hlen)⟩,
    fun _ => ⟨valueAt_pairs (t := .container .map) rfl (minusOne_reads.done []) (by decide),
      valueAt_pairs (t := .container .attribute) rfl (minusOne_reads.done []) (by decide)⟩⟩

end RedisRs.Resp
