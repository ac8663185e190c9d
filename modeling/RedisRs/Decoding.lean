import Mathlib.Data.List.TakeWhile
import RedisRs.Parser

/-!
# Replies are decoded exactly
-/

namespace RedisRs

open List Incremental

inductive NilForm
  | bulkString
  | array
  | null
deriving DecidableEq, Repr

def NilForm.bytes : NilForm → Bytes
  | bulkString => bytesOf "$-1\r\n"
  | array => bytesOf "*-1\r\n"
  | null => bytesOf "_\r\n"

def PushKind.text : PushKind → String
  | disconnection => "disconnection"
  | other kind => kind
  | invalidate => "invalidate"
  | message => "message"
  | pMessage => "pmessage"
  | sMessage => "smessage"
  | unsubscribe => "unsubscribe"
  | pUnsubscribe => "punsubscribe"
  | sUnsubscribe => "sunsubscribe"
  | subscribe => "subscribe"
  | pSubscribe => "psubscribe"
  | sSubscribe => "ssubscribe"

def PushKind.knownTexts : List String :=
  ["invalidate", "message", "pmessage", "smessage", "unsubscribe", "punsubscribe", "sunsubscribe", "subscribe",
    "psubscribe", "ssubscribe"]

def VerbatimFormat.name : VerbatimFormat → String
  | unknown format => format
  | markdown => "mkd"
  | text => "txt"

def ServerError.line (err : ServerError) : String :=
  match err.details with
  | some detail => err.code ++ " " ++ detail
  | none => err.code

def encodeBulkString (bytes : Bytes) : Bytes := bytesOf "$" ++ itoa bytes.length ++ crlf ++ bytes ++ crlf

/-- The text has no line break. -/
def OneLine (s : String) : Prop := ¬ crlf <:+: bytesOf s

instance (s : String) : Decidable (OneLine s) := inferInstanceAs (Decidable (¬ crlf <:+: bytesOf s))

/-- The kind is sent by a server, under its own text. -/
def PushKind.Encodable (kind : PushKind) : Prop :=
  kind ≠ .disconnection ∧ ∀ text, kind = .other text → text ∉ knownTexts

/-- The error is one line, with the code of its kind. -/
def ServerError.Encodable (err : ServerError) : Prop :=
  OneLine err.code ∧ ' ' ∉ err.code.toList ∧ (∀ detail, err.details = some detail → OneLine detail) ∧
    ∀ code detail, err = .extension code detail → ∀ kind : ServerErrorKind, code ≠ kind.code

namespace Value

mutual

def encode (nilForm : NilForm) : Value → Bytes
  | nil => nilForm.bytes
  | int n => bytesOf ":" ++ bytesOf n.toInt.repr ++ crlf
  | bulkString bytes => encodeBulkString bytes
  | array items => bytesOf "*" ++ itoa items.length ++ crlf ++ encodeAll nilForm items
  | simpleString s => bytesOf "+" ++ bytesOf s ++ crlf
  | okay => bytesOf "+" ++ bytesOf "OK" ++ crlf
  | map items => bytesOf "%" ++ itoa items.length ++ crlf ++ encodePairs nilForm items
  | .attribute data attributes =>
    bytesOf "|" ++ itoa attributes.length ++ crlf ++ (encodePairs nilForm attributes ++ encode nilForm data)
  | set items => bytesOf "~" ++ itoa items.length ++ crlf ++ encodeAll nilForm items
  | boolean b => bytesOf "#" ++ bytesOf (if b then "t" else "f") ++ crlf
  | verbatimString format text =>
    let bytes := bytesOf (format.name ++ ":" ++ text)
    bytesOf "=" ++ itoa bytes.length ++ crlf ++ bytes ++ crlf
  | push kind data =>
    bytesOf ">" ++ itoa (data.length + 1) ++ crlf ++ (encodeBulkString (bytesOf kind.text) ++ encodeAll nilForm data)
  | serverError err => bytesOf "-" ++ bytesOf err.line ++ crlf
  | double _ => []
  | bigNumber _ => []

def encodeAll (nilForm : NilForm) : List Value → Bytes
  | [] => []
  | v :: vs => encode nilForm v ++ encodeAll nilForm vs

def encodePairs (nilForm : NilForm) : List (Value × Value) → Bytes
  | [] => []
  | (k, v) :: items => encode nilForm k ++ (encode nilForm v ++ encodePairs nilForm items)

end

def maxLen : Nat := 2 ^ 63

mutual

/-- The value can be sent by a server and read back. -/
def Encodable : Value → Prop
  | nil => True
  | int _ => True
  | bulkString bytes => bytes.length < maxLen
  | array items => items.length < maxLen ∧ AllEncodable items
  | simpleString s => OneLine s ∧ s ≠ "OK"
  | okay => True
  | map items => items.length < maxLen ∧ PairsEncodable items
  | .attribute data attributes => attributes.length < maxLen ∧ PairsEncodable attributes ∧ Encodable data
  | set items => items.length < maxLen ∧ AllEncodable items
  | boolean _ => True
  | verbatimString format text =>
    (bytesOf (format.name ++ ":" ++ text)).length < maxLen ∧ ':' ∉ format.name.toList ∧
      format ≠ .unknown "txt" ∧ format ≠ .unknown "mkd"
  | push kind data =>
    kind.Encodable ∧ (bytesOf kind.text).length < maxLen ∧ data.length + 1 < maxLen ∧ AllEncodable data
  | serverError err => err.Encodable
  | double _ => False
  | bigNumber _ => False

def AllEncodable : List Value → Prop
  | [] => True
  | v :: vs => Encodable v ∧ AllEncodable vs

def PairsEncodable : List (Value × Value) → Prop
  | [] => True
  | (k, v) :: items => Encodable k ∧ Encodable v ∧ PairsEncodable items

end

mutual

def levels (kindLevels : Nat) : Value → Nat
  | array items => levelsAll kindLevels items + 1
  | map items => levelsPairs kindLevels items + 1
  | .attribute data attributes => max (levels kindLevels data) (levelsPairs kindLevels attributes) + 1
  | set items => levelsAll kindLevels items + 1
  | push _ data => max kindLevels (levelsAll kindLevels data) + 1
  | _ => 1

def levelsAll (kindLevels : Nat) : List Value → Nat
  | [] => 0
  | v :: vs => max (levels kindLevels v) (levelsAll kindLevels vs)

def levelsPairs (kindLevels : Nat) : List (Value × Value) → Nat
  | [] => 0
  | (k, v) :: items => max (levels kindLevels k) (max (levels kindLevels v) (levelsPairs kindLevels items))

end

def nested : Nat → Value → Value
  | 0, v => v
  | k + 1, v => array [nested k v]

end Value

namespace Resp

theorem crlf_eq : crlf = ['\r'.toUInt8, '\n'.toUInt8] := rfl

variable {sep : Char} {s : String} {err : ServerError}

theorem line_reads (h : OneLine s) : Reads line (bytesOf s ++ crlf) s := by
  have hutf := fromUtf8_bytesOf s
  refine (Reads.takeUntil (x := '\r'.toUInt8) (y := '\n'.toUInt8) h (by decide)).bind_nil ?_
  simp only [hutf]
  exact .pure s

theorem crlfToken_reads : Reads crlfToken crlf () :=
  (Reads.token '\r'.toUInt8 ParserError.expectedCrlf).bind (.token '\n'.toUInt8 _)

theorem trim_of_not_whitespace (h : ∀ c ∈ s.toList, isWhitespace c = false) : trim s = s := by
  have hdrop : ∀ l : List Char, (∀ c ∈ l, isWhitespace c = false) → l.dropWhile isWhitespace = l := by
    intro l hl
    rcases l with _ | ⟨c, l⟩
    · rfl
    · rw [dropWhile_cons_of_neg (by simp [hl c mem_cons_self])]
  rw [trim, hdrop _ h, hdrop _ fun c hc => h c (mem_reverse.1 hc), reverse_reverse, String.ofList_toList]

theorem isWhitespace_intText {n : Int} {c : Char} (h : c ∈ n.repr.toList) : isWhitespace c = false := by
  rcases mem_intText h with hd | rfl
  · have hle : 48 ≤ c.toNat ∧ c.toNat ≤ 57 := (isDigit_iff c).1 hd
    simp only [isWhitespace, contains_cons, contains_nil, Bool.or_false, beq_iff_eq,
      decide_eq_false_iff_not, Bool.or_eq_true]
    omega
  · decide

theorem int_reads {n : Int} (hlo : -2 ^ 63 ≤ n) (hhi : n ≤ 2 ^ 63 - 1) : Reads int (bytesOf n.repr ++ crlf) n := by
  have hline : OneLine n.repr := by
    refine not_crlf_infix fun b hb hcr => ?_
    have hrange := mem_bytesOf_intText hb
    rw [hcr] at hrange
    exact absurd hrange (by decide)
  refine (line_reads hline).bind_nil ?_
  simp only [trim_of_not_whitespace fun _ => isWhitespace_intText, parseInt_intText hlo hhi]
  exact .pure n

theorem len_reads {n : Nat} (h : n < Value.maxLen) : Reads int (itoa n ++ crlf) n := by
  have hlt : n < 2 ^ 63 := h
  exact int_reads (n := (n : Int)) (by omega) (by omega)

theorem asUsize_natCast {n : Nat} (h : n < Value.maxLen) : asUsize n = n := by
  have hlt : n < 2 ^ 63 := h
  rw [asUsize]
  omega

theorem bulkString_reads {bytes : Bytes} (h : bytes.length < Value.maxLen) :
    Reads bulkString (itoa bytes.length ++ crlf ++ (bytes ++ crlf)) (.bulkString bytes) := by
  refine (len_reads h).bind ?_
  have hnn : ¬ ((bytes.length : Int) < 0) := by omega
  simp only [if_neg hnn, asUsize_natCast h]
  exact (Reads.take rfl).bind (crlfToken_reads.bind_nil (.pure _))

theorem blob_reads (h : (bytesOf s).length < Value.maxLen) :
    Reads blob (itoa (bytesOf s).length ++ crlf ++ (bytesOf s ++ crlf)) s := by
  refine (len_reads h).bind ?_
  simp only [asUsize_natCast h]
  refine (Reads.take rfl).bind (crlfToken_reads.bind_nil ?_)
  simp only [fromUtf8Lossy_bytesOf]
  exact .pure s

theorem splitFirst_append {first : String} (h : sep ∉ first.toList) (rest : String) :
    splitFirst sep (first ++ String.ofList [sep] ++ rest) = (first, some rest) := by
  have hspan : (first ++ String.ofList [sep] ++ rest).toList.span (· ≠ sep) = (first.toList, sep :: rest.toList) := by
    rw [String.toList_append, String.toList_append, String.toList_ofList, append_assoc, span_eq_takeWhile_dropWhile]
    have hall : ∀ c ∈ first.toList, decide (c ≠ sep) = true := by
      intro c hc
      exact decide_eq_true fun heq => h (heq ▸ hc)
    rw [takeWhile_append_of_pos hall, dropWhile_append_of_pos hall]
    simp
  rw [splitFirst, hspan]
  simp

theorem splitFirst_self (h : sep ∉ s.toList) : splitFirst sep s = (s, none) := by
  have hall : ∀ c ∈ s.toList, decide (c ≠ sep) = true := by
    intro c hc
    exact decide_eq_true fun heq => h (heq ▸ hc)
  have htake : s.toList.takeWhile (· ≠ sep) = s.toList := takeWhile_eq_self_iff.2 hall
  have hdrop : s.toList.dropWhile (· ≠ sep) = [] := dropWhile_eq_nil_iff.2 hall
  rw [splitFirst, span_eq_takeWhile_dropWhile, htake, hdrop]
  simp

theorem errKind_code (kind : ServerErrorKind) : errKind kind.code = some kind := by cases kind <;> rfl

theorem errKind_eq_some {code : String} {kind : ServerErrorKind} (h : errKind code = some kind) : code = kind.code := by
  unfold errKind at h
  split at h <;> cases h <;> rfl

theorem errParser_line (h : err.Encodable) : errParser err.line = err := by
  obtain ⟨-, hspace, -, hext⟩ := h
  have hsplit : splitFirst ' ' err.line = (err.code, err.details) := by
    unfold ServerError.line
    rcases hd : err.details with _ | detail
    · exact splitFirst_self hspace
    · exact splitFirst_append hspace detail
  rw [errParser, hsplit]
  rcases err with ⟨code, detail⟩ | ⟨kind, detail⟩
  · have hnone : errKind code = none := by
      rcases hk : errKind code with _ | kind
      · rfl
      · exact absurd (errKind_eq_some hk) (hext code detail rfl kind)
    simp only [ServerError.code, hnone, ServerError.details]
  · simp only [ServerError.code, errKind_code, ServerError.details]

theorem oneLine_line (h : err.Encodable) : OneLine err.line := by
  obtain ⟨hcode, -, hdetail, -⟩ := h
  unfold ServerError.line
  rcases hd : err.details with _ | detail
  · exact hcode
  · -- the space between the two is no part of CRLF
    have hbytes : bytesOf (err.code ++ " " ++ detail) = bytesOf err.code ++ ' '.toUInt8 :: bytesOf detail := by
      rw [bytesOf_append, bytesOf_append, append_assoc]
      rfl
    rw [OneLine, hbytes]
    rintro ⟨s, t, hst⟩
    have happ : s ++ ('\r'.toUInt8 :: '\n'.toUInt8 :: t) = bytesOf err.code ++ ' '.toUInt8 :: bytesOf detail := by
      rw [← hst, crlf_eq]
      simp
    rcases append_eq_append_iff.1 happ with ⟨u, hcode', hrest⟩ | ⟨u, hs, hrest⟩
    · rcases u with _ | ⟨a, _ | ⟨b, u⟩⟩
      · exact absurd (List.cons.inj hrest).1 (by decide)
      · exact absurd (List.cons.inj (List.cons.inj hrest).2).1 (by decide)
      · have ha : '\r'.toUInt8 = a := (List.cons.inj hrest).1
        have hb : '\n'.toUInt8 = b := (List.cons.inj (List.cons.inj hrest).2).1
        exact hcode ⟨s, u, by rw [hcode', crlf_eq, ha, hb]; simp⟩
    · rcases u with _ | ⟨a, u⟩
      · exact absurd (List.cons.inj hrest).1 (by decide)
      · have hdet : bytesOf detail = u ++ '\r'.toUInt8 :: '\n'.toUInt8 :: t := (List.cons.inj hrest).2
        exact hdetail detail hd ⟨u, t, by rw [hdet, crlf_eq]; simp⟩

theorem error_reads (h : err.Encodable) : Reads error (bytesOf err.line ++ crlf) err := by
  refine (line_reads (oneLine_line h)).bind_nil ?_
  simp only [errParser_line h]
  exact .pure err

theorem getPushKind_text {kind : PushKind} (h : kind.Encodable) : getPushKind kind.text = kind := by
  obtain ⟨hne, hother⟩ := h
  cases kind with
  | disconnection => exact absurd rfl hne
  | other text =>
    have hunknown := hother text rfl
    simp only [PushKind.knownTexts, mem_cons, not_or] at hunknown
    unfold getPushKind PushKind.text
    split <;> simp_all
  | _ => rfl

theorem verbatim_reads {format : VerbatimFormat} {text : String}
    (h : (bytesOf (format.name ++ ":" ++ text)).length < Value.maxLen) (hcolon : ':' ∉ format.name.toList)
    (htxt : format ≠ .unknown "txt") (hmkd : format ≠ .unknown "mkd") :
    Reads verbatim (itoa (bytesOf (format.name ++ ":" ++ text)).length ++ crlf ++
      (bytesOf (format.name ++ ":" ++ text) ++ crlf)) (.verbatimString format text) := by
  refine (blob_reads h).bind_nil ?_
  have hsplit : splitFirst ':' (format.name ++ ":" ++ text) = (format.name, some text) :=
    splitFirst_append hcolon text
  simp only [hsplit]
  cases format with
  | unknown name =>
    unfold VerbatimFormat.name
    split <;> simp_all
    exact .pure _
  | markdown => exact .pure _
  | text => exact .pure _

theorem boolean_reads (b : Bool) : Reads boolean (bytesOf (if b then "t" else "f") ++ crlf) b := by
  cases b <;> exact (line_reads (by decide)).bind_nil (.pure _)

section Containers

variable {item : Parser Value} {enc : Bytes}

variable {items : List Value}

theorem listed_reads (wrap : List Value → Value) (hlen : items.length < Value.maxLen)
    (h : Reads (item.count items.length) enc items) : Reads (int >>= fun length =>
        if length < 0 then pure .nil else item.count (asUsize length) >>= fun items => pure (wrap items))
      (itoa items.length ++ crlf ++ enc) (wrap items) := by
  refine (len_reads hlen).bind ?_
  have hnn : ¬ ((items.length : Int) < 0) := by omega
  simp only [if_neg hnn, asUsize_natCast hlen]
  exact h.bind_nil (.pure _)

def elements (items : List (Value × Value)) : List Value := items.flatMap fun kv => [kv.1, kv.2]

theorem takePairs_elements (items : List (Value × Value)) (rest : List Value) :
    takePairs items.length (elements items ++ rest) = (items, rest) := by
  induction items with
  | nil => cases rest <;> rfl
  | cons kv items ih =>
    have hstep : takePairs (items.length + 1) (kv.1 :: kv.2 :: (elements items ++ rest)) =
        (kv :: (takePairs items.length (elements items ++ rest)).1,
          (takePairs items.length (elements items ++ rest)).2) := rfl
    rw [ih] at hstep
    exact hstep

theorem map_reads {items : List (Value × Value)} (hlen : items.length < Value.maxLen)
    (h : Reads (item.count (items.length * 2)) enc (elements items)) :
    Reads (map item) (itoa items.length ++ crlf ++ enc) (.map items) := by
  refine (len_reads hlen).bind ?_
  have hlt : items.length < 2 ^ 63 := hlen
  have hfits : items.length * 2 < 2 ^ 64 := by omega
  have hpairs := takePairs_elements items []
  rw [append_nil] at hpairs
  simp only [asUsize_natCast hlen, if_pos hfits]
  refine h.bind_nil ?_
  simp only [Int.toNat_natCast, hpairs]
  exact .pure _

theorem attributeValue_reads {data : Value} {attributes : List (Value × Value)} (hlen : attributes.length < Value.maxLen)
    (h : Reads (item.count (attributes.length * 2 + 1)) enc (elements attributes ++ [data])) :
    Reads (attributeValue item) (itoa attributes.length ++ crlf ++ enc) (.attribute data attributes) := by
  refine (len_reads hlen).bind ?_
  have hlt : attributes.length < 2 ^ 63 := hlen
  have hfits : attributes.length * 2 < 2 ^ 64 := by omega
  simp only [asUsize_natCast hlen, if_pos hfits]
  refine h.bind_nil ?_
  simp only [Int.toNat_natCast, takePairs_elements]
  exact .pure _

theorem push_reads {kind : PushKind} {data : List Value} (hkind : kind.Encodable) (hlen : data.length + 1 < Value.maxLen)
    (h : Reads (item.count (data.length + 1)) enc (.bulkString (bytesOf kind.text) :: data)) :
    Reads (push item) (itoa (data.length + 1) ++ crlf ++ enc) (.push kind data) := by
  refine (len_reads hlen).bind ?_
  have hpos : ¬ (((data.length + 1 : Nat) : Int) ≤ 0) := by omega
  simp only [if_neg hpos, asUsize_natCast hlen]
  refine h.bind_nil (.ofExcept ?_)
  simp only [pushOf, fromUtf8_bytesOf, getPushKind_text hkind]

end Containers

section Values

variable (nums : NumberParsers) {nilForm : NilForm} {n : Nat}

theorem valueAt_reads {b : UInt8} {enc : Bytes} {v : Value} (h : Reads (valueOf nums (valueAt nums n) b) enc v) :
    Reads (valueAt nums (n + 1)) (b :: enc) v := (Reads.any b).bind h

theorem minusOne_reads : Reads int (bytesOf "-1" ++ crlf) (-1) := by
  have htext : (-1 : Int).repr = "-1" := by decide
  exact htext ▸ int_reads (by decide) (by decide)

theorem nil_reads (nilForm : NilForm) : Reads (valueAt nums (n + 1)) nilForm.bytes .nil := by
  cases nilForm with
  | bulkString => exact valueAt_reads nums (b := '$'.toUInt8) (minusOne_reads.bind_nil (.pure _))
  | array => exact valueAt_reads nums (b := '*'.toUInt8) (minusOne_reads.bind_nil (.pure _))
  | null => exact valueAt_reads nums (b := '_'.toUInt8) ((line_reads (s := "") (by decide)).bind_nil (.pure _))

theorem encodeBulkString_reads {bytes : Bytes} (h : bytes.length < Value.maxLen) :
    Reads (valueAt nums (n + 1)) (encodeBulkString bytes) (.bulkString bytes) := by
  have henc : encodeBulkString bytes = '$'.toUInt8 :: (itoa bytes.length ++ crlf ++ (bytes ++ crlf)) := by
    simp only [encodeBulkString, append_assoc]
    rfl
  rw [henc]
  exact valueAt_reads nums (bulkString_reads h)

section Items

variable {item : Parser Value}
  (hitem : ∀ v : Value, v.Encodable → v.levels 1 ≤ n → Reads item (v.encode nilForm) v)

include hitem

theorem encodeAll_reads {items : List Value} (h : Value.AllEncodable items) (hn : Value.levelsAll 1 items ≤ n) :
    Reads (item.count items.length) (Value.encodeAll nilForm items) items := by
  induction items with
  | nil => exact .count_zero item
  | cons v items ih =>
    simp only [Value.levelsAll, Nat.max_le] at hn
    exact .count_succ (hitem v h.1 hn.1) (ih h.2 hn.2)

theorem encodePairs_reads {items : List (Value × Value)} (h : Value.PairsEncodable items)
    (hn : Value.levelsPairs 1 items ≤ n) :
    Reads (item.count (items.length * 2)) (Value.encodePairs nilForm items) (elements items) := by
  induction items with
  | nil => exact .count_zero item
  | cons kv items ih =>
    obtain ⟨hk, hv, hitems⟩ := h
    simp only [Value.levelsPairs, Nat.max_le] at hn
    have hlen : (kv :: items).length * 2 = items.length * 2 + 1 + 1 := by
      rw [length_cons]
      omega
    rw [hlen]
    exact .count_succ (hitem kv.1 hk hn.1) (.count_succ (hitem kv.2 hv hn.2.1) (ih hitems hn.2.2))

end Items

theorem encode_reads (v : Value) (h : v.Encodable) (hn : v.levels 1 ≤ n) :
    Reads (valueAt nums n) (v.encode nilForm) v := by
  induction n generalizing v with
  | zero => cases v <;> simp [Value.levels] at hn
  | succ n ih =>
    cases v with
    | nil => exact nil_reads nums nilForm
    | int k =>
      have hk : Reads int (bytesOf k.toInt.repr ++ crlf) k.toInt :=
        int_reads k.le_toInt (by have := k.toInt_lt; omega)
      refine valueAt_reads nums (b := ':'.toUInt8) (hk.bind_nil ?_)
      rw [Int64.ofInt_toInt]
      exact .pure _
    | bulkString bytes => exact encodeBulkString_reads nums h
    | array items =>
      simp only [Value.levels, Nat.add_le_add_iff_right] at hn
      exact valueAt_reads nums (b := '*'.toUInt8) (listed_reads .array h.1 (encodeAll_reads ih h.2 hn))
    | simpleString s =>
      refine valueAt_reads nums (b := '+'.toUInt8) ((line_reads h.1).bind_nil ?_)
      rw [if_neg h.2]
      exact .pure _
    | okay => exact valueAt_reads nums (b := '+'.toUInt8) ((line_reads (by decide)).bind_nil (.pure _))
    | map items =>
      simp only [Value.levels, Nat.add_le_add_iff_right] at hn
      exact valueAt_reads nums (b := '%'.toUInt8) (map_reads h.1 (encodePairs_reads ih h.2 hn))
    | «attribute» data attributes =>
      simp only [Value.levels, Nat.add_le_add_iff_right, Nat.max_le] at hn
      have hdata : Reads ((valueAt nums n).count 1) (data.encode nilForm) [data] :=
        (ih data h.2.2 hn.1).bind_nil (.pure _)
      exact valueAt_reads nums (b := '|'.toUInt8)
        (attributeValue_reads h.1 ((encodePairs_reads ih h.2.1 hn.2).count_add hdata))
    | set items =>
      simp only [Value.levels, Nat.add_le_add_iff_right] at hn
      exact valueAt_reads nums (b := '~'.toUInt8) (listed_reads .set h.1 (encodeAll_reads ih h.2 hn))
    | boolean b => exact valueAt_reads nums (b := '#'.toUInt8) ((boolean_reads b).bind_nil (.pure _))
    | verbatimString format text =>
      obtain ⟨hlen, hcolon, htxt, hmkd⟩ := h
      have hread := valueAt_reads nums (n := n) (b := '='.toUInt8) (verbatim_reads hlen hcolon htxt hmkd)
      simp only [Value.encode, append_assoc] at hread ⊢
      exact hread
    | push kind data =>
      obtain ⟨hkind, htext, hlen, hdata⟩ := h
      simp only [Value.levels, Nat.add_le_add_iff_right, Nat.max_le] at hn
      -- the kind is read one level deeper, so there is a level for it
      obtain ⟨m, rfl⟩ : ∃ m, n = m + 1 := ⟨n - 1, by omega⟩
      exact valueAt_reads nums (b := '>'.toUInt8)
        (push_reads hkind hlen (.count_succ (encodeBulkString_reads nums htext) (encodeAll_reads ih hdata hn.2)))
    | serverError err => exact valueAt_reads nums (b := '-'.toUInt8) ((error_reads h).bind_nil (.pure _))
    | double _ => exact h.elim
    | bigNumber _ => exact h.elim

theorem array_singleton_fails {item : Parser Value} {e : ParserError} {enc : Bytes} (h : Fails item enc e) :
    Fails (array item) (itoa 1 ++ crlf ++ enc) e := by
  have hlen : 1 < Value.maxLen := by decide
  refine .after (len_reads hlen).done ?_
  have hnn : ¬ (((1 : Nat) : Int) < 0) := by decide
  simp only [if_neg hnn, asUsize_natCast hlen]
  exact (h.count_succ 0).bind

theorem nested_fails {v : Value} {e : ParserError} (h : Fails (valueAt nums n) (v.encode nilForm) e) (k : Nat) :
    Fails (valueAt nums (n + k)) ((v.nested k).encode nilForm) e := by
  induction k with
  | zero => exact h
  | succ k ih =>
    have henc : (v.nested (k + 1)).encode nilForm =
        ['*'.toUInt8] ++ (itoa 1 ++ crlf ++ (v.nested k).encode nilForm) := by
      simp only [Value.nested, Value.encode, Value.encodeAll, append_nil, append_assoc, length_singleton]
      rfl
    rw [henc]
    exact .after (Reads.any '*'.toUInt8).done (array_singleton_fails ih)

theorem push_kind_fails (kind : PushKind) :
    Fails (valueAt nums 1) ((Value.push kind []).encode nilForm) (.message "Maximum recursion depth exceeded") := by
  have hlen : 1 < Value.maxLen := by decide
  have henc : (Value.push kind []).encode nilForm =
      ['>'.toUInt8] ++ (itoa 1 ++ crlf ++ encodeBulkString (bytesOf kind.text)) := by
    simp only [Value.encode, Value.encodeAll, append_nil, append_assoc, length_nil]
    rfl
  have hkind : Fails (valueAt nums 0) (encodeBulkString (bytesOf kind.text))
    (.message "Maximum recursion depth exceeded") :=
    ⟨fun _ => Parser.unexpectedAny_of_ne_nil _ (by simp [show crlf ≠ [] by decide])⟩
  rw [henc]
  refine .after (Reads.any '>'.toUInt8).done (.after (len_reads hlen).done ?_)
  have hpos : ¬ (((1 : Nat) : Int) ≤ 0) := by decide
  simp only [if_neg hpos, asUsize_natCast hlen]
  exact (hkind.count_succ 0).bind

theorem levels_nested (kindLevels k : Nat) (v : Value) : (v.nested k).levels kindLevels = v.levels kindLevels + k := by
  induction k with
  | zero => rfl
  | succ k ih =>
    simp only [Value.nested, Value.levels, Value.levelsAll, ih, Nat.max_zero]
    omega

theorem encodable_nested {v : Value} (h : v.Encodable) (k : Nat) : (v.nested k).Encodable := by
  induction k with
  | zero => exact h
  | succ k ih => exact ⟨(by decide : 1 < Value.maxLen), ih, trivial⟩

/-- A value that can be written is read back from its encoding with nothing of what follows, and every proper part of
the encoding is waited on. -/
theorem value_decodes_encode (nilForm : NilForm) (v : Value) (h : v.Encodable) (hdepth : v.levels 1 ≤ maxRecurseDepth) :
    (∀ r, value nums none (v.encode nilForm ++ r) = .done v r) ∧
      ∀ part, part <+: v.encode nilForm → part ≠ v.encode nilForm → value nums none part = .more := by
  have hreads : Reads (value nums none) (v.encode nilForm) v := encode_reads nums v h hdepth
  exact ⟨hreads.done, fun _ => hreads.more⟩

theorem value_decodes_message :
    ∃ v : Value, v.Encodable ∧ v.levels 1 ≤ maxRecurseDepth ∧
      (∀ r, value ⟨fun _ => none, fun _ => none⟩ none (v.encode .null ++ r) = .done v r) ∧
      ∀ part, part <+: v.encode .null → part ≠ v.encode .null →
        value ⟨fun _ => none, fun _ => none⟩ none part = .more := by
  have hkind : PushKind.Encodable .message := ⟨by decide, by simp⟩
  have htext : (Value.bulkString (bytesOf "a\r\n")).Encodable := by
    show (bytesOf "a\r\n").length < Value.maxLen
    decide
  have hv : (Value.push .message [.bulkString (bytesOf "a\r\n"), .array [.int 5, .nil]]).Encodable :=
    ⟨hkind, by decide, by decide, htext, ⟨by decide, trivial, trivial, trivial⟩, trivial⟩
  exact ⟨_, hv, by decide, value_decodes_encode _ .null _ hv (by decide)⟩

theorem kind_of_push_too_deep :
    ∃ v : Value, v.Encodable ∧ v.levels 0 ≤ maxRecurseDepth ∧ ∀ (nums : NumberParsers) (nilForm : NilForm) (r : Bytes),
      value nums none (v.encode nilForm ++ r) = .fail (.message "Maximum recursion depth exceeded") := by
  have hkind : PushKind.Encodable .message := ⟨by decide, by simp⟩
  refine ⟨(Value.push .message []).nested 99, encodable_nested ?_ 99, ?_, fun nums nilForm r => ?_⟩
  · exact ⟨hkind, by decide, by decide, trivial⟩
  · exact Nat.le_of_eq (levels_nested 0 99 _)
  · exact (nested_fails nums (push_kind_fails nums .message) 99).fail r

end Values

end Resp

end RedisRs
