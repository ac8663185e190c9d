import RedisRs.Decoding

/-!
# How deep a reply may be nested
-/

namespace RedisRs.Resp

open Incremental

def tooDeep : ParserError := .message "Maximum recursion depth exceeded"

inductive ContainerType
  | array
  | map
  | «attribute»
  | set
  | push
deriving DecidableEq, Repr

namespace ContainerType

def byte : ContainerType → UInt8
  | .array => '*'.toUInt8
  | .map => '%'.toUInt8
  | .attribute => '|'.toUInt8
  | .set => '~'.toUInt8
  | .push => '>'.toUInt8

def refuses : ContainerType → Int → Bool
  | .map, n => n < 0
  | .attribute, n => n < 0
  | _, _ => false

def elements : ContainerType → Int → Nat
  | .map, n => n.toNat * 2
  | .attribute, n => n.toNat * 2 + 1
  | _, n => n.toNat

def ofElements : ContainerType → Int → List Value → Except ParserError Value
  | .array, n, items => .ok (if n < 0 then .nil else .array items)
  | .map, n, items => .ok (.map (takePairs n.toNat items).1)
  | .attribute, n, items => match takePairs n.toNat items with
    | (attributes, data :: _) => .ok (.attribute data attributes)
    | (_, []) => .error (.message "called `Option::unwrap()` on a `None` value")
  | .set, n, items => .ok (if n < 0 then .nil else .set items)
  | .push, n, items => if n ≤ 0 then .ok (.push (.other "") []) else pushOf items

def contents (kind : ContainerType) (item : Parser Value) (n : Int) : Parser Value :=
  if kind.refuses n then .unexpectedAny keyValueLengthTooLarge
  else (item.count (kind.elements n)).bind fun items => .ofExcept (kind.ofElements n items)

theorem refuses_of_nonneg (kind : ContainerType) {n : Int} (h : 0 ≤ n) : kind.refuses n = false := by
  cases kind <;> simp [refuses, h]

theorem contents_of_not_refuses {kind : ContainerType} {n : Int} (h : kind.refuses n = false) (item : Parser Value) :
    kind.contents item n = (item.count (kind.elements n)).bind fun items => .ofExcept (kind.ofElements n items) := by
  rw [contents, h]
  rfl

theorem ofElements_ne_tooDeep (kind : ContainerType) (n : Int) (items : List Value) {e : ParserError}
    (h : kind.ofElements n items = .error e) : e ≠ tooDeep := by
  cases kind with
  | array => cases h
  | map => cases h
  | set => cases h
  | «attribute» =>
    rw [ofElements] at h
    split at h <;> cases h
    decide
  | push =>
    rw [ofElements] at h
    split at h
    · cases h
    · unfold pushOf at h
      split at h
      · split at h <;> cases h
        decide
      · cases h
      · cases h
        decide

end ContainerType

variable {n : Int} (nums : NumberParsers) (item : Parser Value)

theorem int_range {input rest : Bytes} (h : int input = .done n rest) : -2 ^ 63 ≤ n ∧ n ≤ 2 ^ 63 - 1 := by
  cases hline : line input with
  | done s left =>
    rw [show int input = _ from Parser.bind_of_done hline] at h
    cases hparse : parseInt (-2 ^ 63) (2 ^ 63 - 1) (trim s) <;> rw [hparse] at h <;> cases h
    exact parseInt_mem_range hparse
  | more => cases h.symm.trans (Parser.bind_halted (o := none) _ hline)
  | fail e => cases h.symm.trans (Parser.bind_halted (o := some e) _ hline)

theorem asUsize_of_nonneg (h : 0 ≤ n) (hhi : n ≤ 2 ^ 63 - 1) : asUsize n = n.toNat := by
  rw [asUsize, Int.emod_eq_of_lt h (by omega)]

theorem asUsize_of_neg (h : n < 0) (hlo : -2 ^ 63 ≤ n) : 2 ^ 63 ≤ asUsize n := by
  rw [asUsize]
  omega

theorem valueOf_container (kind : ContainerType) {input rest : Bytes} (h : int input = .done n rest) :
    valueOf nums item kind.byte input = kind.contents item n rest := by
  obtain ⟨hlo, hhi⟩ := int_range h
  have hread : ∀ f : Int → Parser Value, (int.bind f) input = f n rest := fun f => Parser.bind_of_done h
  rcases Int.lt_or_le n 0 with hneg | hnn
  · have husize := asUsize_of_neg hneg hlo
    have hlarge : ¬ asUsize n * 2 < 2 ^ 64 := by omega
    have hle : n ≤ 0 := Int.le_of_lt hneg
    have hzero : n.toNat = 0 := Int.toNat_of_nonpos hle
    cases kind <;> refine (hread _).trans ?_ <;>
      simp only [ContainerType.contents, ContainerType.refuses, ContainerType.elements, ContainerType.ofElements, hneg,
        hle, hzero, hlarge, decide_true, if_true, if_false, Bool.false_eq_true, Parser.count] <;> rfl
  · have husize := asUsize_of_nonneg hnn hhi
    have hsmall : n.toNat * 2 < 2 ^ 64 := by omega
    have hnot : ¬ n < 0 := by omega
    rw [ContainerType.contents_of_not_refuses (kind.refuses_of_nonneg hnn)]
    cases kind <;> refine (hread _).trans ?_ <;>
      simp only [ContainerType.elements, ContainerType.ofElements, hnot, husize, hsmall, if_true, if_false]
    case array => rfl
    case map => rfl
    case set => rfl
    case «attribute» =>
      refine congrFun (congrArg (Parser.bind _) (funext fun items => ?_)) rest
      rcases takePairs n.toNat items with ⟨attributes, _ | ⟨data, _⟩⟩ <;> rfl
    case push =>
      by_cases hzero : n ≤ 0
      · have hcnt : n.toNat = 0 := Int.toNat_of_nonpos hzero
        simp only [hzero, hcnt, if_true]
        rfl
      · simp only [hzero, if_false]
        rfl

theorem bulkString_of_neg {body rest : Bytes} {m : Int} (hint : int body = .done m rest) (hneg : m < 0) :
    bulkString body = .done .nil rest := by
  refine (Parser.bind_of_done hint).trans ?_
  rw [if_pos hneg]
  rfl

theorem valueOf_nil (b : UInt8) : valueOf nums item b [] = .more := by
  suffices h : ∀ p, valueOf nums item b = p → p [] = .more from h _ rfl
  intro p hp
  unfold valueOf at hp
  split at hp <;> subst hp <;> rfl

inductive Encoding
  | leaf (b : UInt8) (body : Bytes)
  | container (kind : ContainerType) (header : Bytes) (items : List Encoding)

namespace Encoding

mutual

def bytes : Encoding → Bytes
  | leaf b body => b :: body
  | container kind header items => kind.byte :: (header ++ bytesAll items)

def bytesAll : List Encoding → Bytes
  | [] => []
  | w :: ws => w.bytes ++ bytesAll ws

end

mutual

def levels : Encoding → Nat
  | leaf _ _ => 1
  | container _ _ items => levelsAll items + 1

def levelsAll : List Encoding → Nat
  | [] => 0
  | w :: ws => max w.levels (levelsAll ws)

end

section

variable (nums : NumberParsers)

mutual

/-- Every leaf is read as a value, and every container has as many elements as its length says. -/
def Complete : Encoding → Prop
  | leaf b body => ∃ v, ∀ item rest, valueOf nums item b (body ++ rest) = .done v rest
  | container kind header items =>
    ∃ n, (∀ rest, int (header ++ rest) = .done n rest) ∧ kind.refuses n = false ∧ items.length = kind.elements n ∧
      AllComplete items

def AllComplete : List Encoding → Prop
  | [] => True
  | w :: ws => w.Complete ∧ AllComplete ws

end

end

variable {nums : NumberParsers} {l : Nat}

theorem valueAt_container {kind : ContainerType} {header : Bytes} {n : Int}
    (h : ∀ rest, int (header ++ rest) = .done n rest)
    (items : List Encoding) (rest : Bytes) :
    valueAt nums (l + 1) ((container kind header items).bytes ++ rest) =
      kind.contents (valueAt nums l) n (bytesAll items ++ rest) := by
  show valueOf nums (valueAt nums l) kind.byte (header ++ bytesAll items ++ rest) = _
  rw [List.append_assoc]
  exact valueOf_container nums _ kind (h _)

variable {w : Encoding} {items : List Encoding}

theorem decided_elements {item : Parser Value} (h : AllComplete nums items) (hl : levelsAll items ≤ l)
    (hitem : ∀ w : Encoding, w.Complete nums → w.levels ≤ l → Decided (· ≠ tooDeep) item w.bytes) :
    Decided (· ≠ tooDeep) (item.count items.length) (bytesAll items) := by
  induction items with
  | nil => exact .pure []
  | cons w ws ih =>
    rw [levelsAll, Nat.max_le] at hl
    exact .count_succ (hitem w h.1 hl.1) (ih h.2 hl.2)

theorem decided_of_levels_le (h : w.Complete nums) (hl : w.levels ≤ l) :
    Decided (· ≠ tooDeep) (valueAt nums l) w.bytes := by
  induction l generalizing w with
  | zero => cases w <;> simp [levels] at hl
  | succ l ih =>
    cases w with
    | leaf b body =>
      obtain ⟨v, hv⟩ := h
      exact .inl ⟨v, hv _⟩
    | container kind header items =>
      obtain ⟨n, hn, hrefuses, hlen, hitems⟩ := h
      rw [levels, Nat.add_le_add_iff_right] at hl
      refine .congr (valueAt_container hn items) ?_
      rw [ContainerType.contents_of_not_refuses hrefuses, ← hlen, ← List.append_nil (bytesAll items)]
      refine (decided_elements hitems hl fun w => ih).bind fun vs => ?_
      cases hof : kind.ofElements n vs with
      | ok v => exact .pure v
      | error e => exact .inr ⟨e, kind.ofElements_ne_tooDeep n vs hof, ⟨fun _ => rfl⟩⟩

theorem Complete.bytes_eq (h : w.Complete nums) : ∃ b body, w.bytes = b :: body ∧ body ≠ [] := by
  cases w with
  | leaf b body =>
    obtain ⟨v, hv⟩ := h
    refine ⟨b, body, rfl, ?_⟩
    rintro rfl
    cases (valueOf_nil nums (.fail tooDeep) b).symm.trans (hv (.fail tooDeep) [])
  | container kind header items =>
    obtain ⟨n, hn, -⟩ := h
    refine ⟨kind.byte, header ++ bytesAll items, rfl, List.append_ne_nil_of_left_ne_nil ?_ _⟩
    rintro rfl
    cases hn []

theorem fails_elements (h : AllComplete nums items) (hl : l < levelsAll items)
    (hdeep : ∀ w : Encoding, w.Complete nums → l < w.levels → ∃ e, Fails (valueAt nums l) w.bytes e) :
    ∃ e, Fails ((valueAt nums l).count items.length) (bytesAll items) e := by
  induction items with
  | nil => exact absurd hl (Nat.not_lt_zero l)
  | cons w ws ih =>
    rcases Nat.lt_or_ge l w.levels with hw | hw
    · obtain ⟨e, he⟩ := hdeep w h.1 hw
      exact ⟨e, (he.count_succ _).append _⟩
    · rcases decided_of_levels_le h.1 hw with ⟨v, hv⟩ | ⟨e, -, he⟩
      · obtain ⟨e, he⟩ := ih h.2 (by rw [levelsAll] at hl; omega)
        exact ⟨e, .after hv he.bind⟩
      · exact ⟨e, (he.count_succ _).append _⟩

theorem fails_of_lt_levels (h : w.Complete nums) (hl : l < w.levels) : ∃ e, Fails (valueAt nums l) w.bytes e := by
  induction l generalizing w with
  | zero =>
    obtain ⟨b, body, hbytes, hbody⟩ := h.bytes_eq
    refine ⟨tooDeep, ⟨fun rest => ?_⟩⟩
    rw [hbytes]
    exact Parser.unexpectedAny_of_ne_nil _ (List.append_ne_nil_of_left_ne_nil hbody rest)
  | succ l ih =>
    cases w with
    | leaf b body =>
      rw [levels] at hl
      omega
    | container kind header items =>
      obtain ⟨n, hn, hrefuses, hlen, hitems⟩ := h
      rw [levels, Nat.add_lt_add_iff_right] at hl
      obtain ⟨e, he⟩ := fails_elements hitems hl fun w => ih
      refine ⟨e, ⟨fun rest => (valueAt_container hn items rest).trans ?_⟩⟩
      rw [ContainerType.contents_of_not_refuses hrefuses, ← hlen]
      exact he.bind.fail rest

end Encoding

variable (nums : NumberParsers)

def valueFrom (deep : Parser Value) : Nat → Nat → Parser Value
  | 0, _ => deep
  | fuel + 1, count => do
    let b ← Incremental.Parser.any
    if count > maxRecurseDepth then .unexpectedAny tooDeep else valueOf nums (valueFrom deep fuel (count + 1)) b

theorem valueFrom_eq (deep : Parser Value) {fuel count : Nat} (hcnt : count ≤ maxRecurseDepth + 1)
    (hfuel : maxRecurseDepth + 1 < fuel + count) :
    valueFrom nums deep fuel count = valueAt nums (maxRecurseDepth + 1 - count) := by
  induction fuel generalizing count with
  | zero => omega
  | succ fuel ih =>
    rw [valueFrom]
    by_cases hdeep : count > maxRecurseDepth
    · simp only [if_pos hdeep, show maxRecurseDepth + 1 - count = 0 by omega]
      rfl
    · have hlevels : maxRecurseDepth + 1 - count = maxRecurseDepth + 1 - (count + 1) + 1 := by omega
      rw [hlevels, valueAt]
      simp only [if_neg hdeep, ih (show count + 1 ≤ maxRecurseDepth + 1 by omega) (by omega)]

/-- What is more than 101 levels down is never looked at. A complete encoding with more than 100 levels is refused,
whatever follows it, and one with at most 100 is read or refused for another reason. -/
theorem nesting_limited :
    (∀ (deep : Parser Value) (fuel : Nat), maxRecurseDepth + 1 ≤ fuel → valueFrom nums deep fuel 1 = value nums none) ∧
    ∀ w : Encoding, w.Complete nums → ∀ rest,
      (maxRecurseDepth + 1 ≤ w.levels → ∃ e, value nums none (w.bytes ++ rest) = .fail e) ∧
      (w.levels ≤ maxRecurseDepth → (∃ v, value nums none (w.bytes ++ rest) = .done v rest) ∨
        ∃ e, e ≠ tooDeep ∧ value nums none (w.bytes ++ rest) = .fail e) := by
  refine ⟨fun deep fuel hfuel => ?_, fun w hw rest => ⟨fun hl => ?_, fun hl => ?_⟩⟩
  · exact valueFrom_eq nums deep (Nat.le_add_left 1 _) (by omega)
  · obtain ⟨e, he⟩ := Encoding.fails_of_lt_levels hw hl
    exact ⟨e, he.fail rest⟩
  · rcases Encoding.decided_of_levels_le hw hl with ⟨v, hv⟩ | ⟨e, hne, he⟩
    · exact .inl ⟨v, hv rest⟩
    · exact .inr ⟨e, hne, he.fail rest⟩

namespace Encoding

def nestedNil : Nat → Encoding
  | 0 => .leaf '$'.toUInt8 (bytesOf "-1\r\n")
  | k + 1 => .container .array (bytesOf "1\r\n") [nestedNil k]

theorem complete_nestedNil (k : Nat) : (nestedNil k).Complete nums := by
  induction k with
  | zero =>
    have hint : ∀ rest, int (bytesOf "-1\r\n" ++ rest) = .done (-1) rest := minusOne_reads.done
    exact ⟨.nil, fun _ rest => bulkString_of_neg (hint rest) (by decide)⟩
  | succ k ih => exact ⟨1, (int_reads (n := 1) (by decide) (by decide)).done, rfl, rfl, ih, trivial⟩

theorem levels_nestedNil (k : Nat) : (nestedNil k).levels = k + 1 := by
  induction k with
  | zero => rfl
  | succ k ih => simp [nestedNil, levels, levelsAll, ih]

end Encoding

theorem nestedNil_limited : ∀ nums,
    (∃ e, value nums none ((Encoding.nestedNil 100).bytes ++ []) = .fail e) ∧
      ((∃ v, value nums none ((Encoding.nestedNil 99).bytes ++ []) = .done v []) ∨
        ∃ e, e ≠ tooDeep ∧ value nums none ((Encoding.nestedNil 99).bytes ++ []) = .fail e) :=
  fun nums => ⟨((nesting_limited nums).2 _ (Encoding.complete_nestedNil nums 100) []).1 (Encoding.levels_nestedNil 100).ge,
    ((nesting_limited nums).2 _ (Encoding.complete_nestedNil nums 99) []).2 (Encoding.levels_nestedNil 99).le⟩

end RedisRs.Resp
