import Mathlib.Data.List.TakeWhile
import RedisRs.ClusterRouting
import RedisRs.Texts

/-!
# Slots of keys and texts of addresses
-/

namespace RedisRs

open List

/-- What stands between the first opening brace of the key and the first closing brace after it. -/
def HasTag (key tag : Bytes) : Prop :=
  ∃ before after, key = before ++ '{'.toUInt8 :: (tag ++ '}'.toUInt8 :: after) ∧ '{'.toUInt8 ∉ before ∧
    '}'.toUInt8 ∉ tag ∧ tag ≠ []

def keyHashSlot [Crc16] (key : Bytes) : Nat :=
  let rest := (key.dropWhile (· ≠ '{'.toUInt8)).tail
  let tag := rest.takeWhile (· ≠ '}'.toUInt8)
  if tag = rest ∨ tag = [] then (crc16 key).toNat % 16384 else (crc16 tag).toNat % 16384

section Tags

variable {key before tag after rest : Bytes}

theorem all_ne_of_not_mem {α : Type} [DecidableEq α] {x : α} {l : List α} (h : x ∉ l) : ∀ y ∈ l, decide (y ≠ x) = true :=
  fun y hy => by simpa using fun heq : y = x => h (heq ▸ hy)

variable {x : UInt8} {l : Bytes}

theorem findIdx?_of_not_mem (h : x ∉ l) : l.findIdx? (· = x) = none :=
  findIdx?_eq_none_iff.2 fun y hy => by simpa using all_ne_of_not_mem h y hy

theorem findIdx?_first (h : x ∉ l) (r : Bytes) : (l ++ x :: r).findIdx? (· = x) = some l.length := by
  simp [findIdx?_append, findIdx?_cons, findIdx?_of_not_mem h]

theorem getHashtag_closed (hopen : '{'.toUInt8 ∉ before) (hclose : '}'.toUInt8 ∉ tag) :
    getHashtag (before ++ '{'.toUInt8 :: (tag ++ '}'.toUInt8 :: after)) = if tag.isEmpty then none else some tag := by
  have hsecond : ('{'.toUInt8 :: (tag ++ '}'.toUInt8 :: after)).findIdx? (· = '}'.toUInt8) = some (tag.length + 1) := by
    rw [findIdx?_cons, findIdx?_first hclose]
    rfl
  simp [getHashtag, findIdx?_first hopen, hsecond]

theorem getHashtag_unclosed (hopen : '{'.toUInt8 ∉ before) (hclose : '}'.toUInt8 ∉ rest) :
    getHashtag (before ++ '{'.toUInt8 :: rest) = none := by
  have hsecond : ('{'.toUInt8 :: rest).findIdx? (· = '}'.toUInt8) = none := by
    rw [findIdx?_cons, findIdx?_of_not_mem hclose]
    rfl
  simp [getHashtag, findIdx?_first hopen, hsecond]

theorem getHashtag_of_not_mem (h : '{'.toUInt8 ∉ key) : getHashtag key = none := by
  simp [getHashtag, findIdx?_of_not_mem h]

theorem brace_cases (key : Bytes) :
    (∃ before tag after, key = before ++ '{'.toUInt8 :: (tag ++ '}'.toUInt8 :: after) ∧ '{'.toUInt8 ∉ before ∧
      '}'.toUInt8 ∉ tag) ∨
    (∃ before rest, key = before ++ '{'.toUInt8 :: rest ∧ '{'.toUInt8 ∉ before ∧ '}'.toUInt8 ∉ rest) ∨
    '{'.toUInt8 ∉ key := by
  by_cases hopen : '{'.toUInt8 ∈ key
  · obtain ⟨before, rest, rfl, hbef⟩ := eq_append_cons_of_mem hopen
    by_cases hclose : '}'.toUInt8 ∈ rest
    · obtain ⟨tag, after, rfl, htag⟩ := eq_append_cons_of_mem hclose
      exact .inl ⟨before, tag, after, rfl, hbef, htag⟩
    · exact .inr (.inl ⟨before, rest, rfl, hbef, hclose⟩)
  · exact .inr (.inr hopen)

theorem getHashtag_eq_some_iff : getHashtag key = some tag ↔ HasTag key tag := by
  constructor
  · rcases brace_cases key with ⟨before, tag', after, rfl, hopen, hclose⟩ | ⟨before, rest, rfl, hopen, hclose⟩ | h
    · rw [getHashtag_closed hopen hclose]
      intro h
      split_ifs at h with hempty
      cases h
      exact ⟨before, after, rfl, hopen, hclose, by simpa using hempty⟩
    · rw [getHashtag_unclosed hopen hclose]
      exact nofun
    · rw [getHashtag_of_not_mem h]
      exact nofun
  · rintro ⟨before, after, rfl, hopen, hclose, hne⟩
    rw [getHashtag_closed hopen hclose, if_neg (by simpa using hne)]

theorem takeWhile_first (h : x ∉ l) (r : Bytes) : (l ++ x :: r).takeWhile (· ≠ x) = l := by
  rw [takeWhile_append_of_pos (all_ne_of_not_mem h)]
  simp

theorem dropWhile_first (h : x ∉ l) (r : Bytes) : (l ++ x :: r).dropWhile (· ≠ x) = x :: r := by
  rw [dropWhile_append_of_pos (all_ne_of_not_mem h)]
  simp

theorem keyHashSlot_eq [Crc16] (key : Bytes) : keyHashSlot key = (crc16 ((getHashtag key).getD key)).toNat % 16384 := by
  rcases brace_cases key with ⟨before, tag, after, rfl, hopen, hclose⟩ | ⟨before, rest, rfl, hopen, hclose⟩ | h
  · have hne : tag ≠ tag ++ '}'.toUInt8 :: after := by simp
    rw [getHashtag_closed hopen hclose]
    simp only [keyHashSlot, dropWhile_first hopen, tail_cons, takeWhile_first hclose, hne, false_or]
    cases tag <;> simp
  · have htag : rest.takeWhile (· ≠ '}'.toUInt8) = rest :=
      takeWhile_eq_self_iff.2 (all_ne_of_not_mem hclose)
    rw [getHashtag_unclosed hopen hclose]
    simp only [keyHashSlot, dropWhile_first hopen, tail_cons, htag, true_or, if_true, Option.getD_none]
  · have hnil : key.dropWhile (· ≠ '{'.toUInt8) = [] :=
      dropWhile_eq_nil_iff.2 (all_ne_of_not_mem h)
    rw [getHashtag_of_not_mem h, keyHashSlot, hnil]
    rfl

end Tags

/-- The slot of a key is that of the server: it is computed from what stands between the braces, if something does, and
from the whole key otherwise. -/
theorem slot_of_key [Crc16] (key : Bytes) :
    (Slot.forKey key).val.toNat < 16384 ∧ (Slot.forKey key).val.toNat = keyHashSlot key ∧
    (∀ tag, HasTag key tag → (Slot.forKey key).val.toNat = (crc16 tag).toNat % 16384) ∧
    ((∀ tag, ¬ HasTag key tag) → (Slot.forKey key).val.toNat = (crc16 key).toNat % 16384) ∧
    ∀ tag key', HasTag key tag → HasTag key' tag → Slot.forKey key = Slot.forKey key' := by
  have hval : ∀ key, (Slot.forKey key).val.toNat = (crc16 ((getHashtag key).getD key)).toNat % 16384 :=
    fun key => UInt16.toNat_mod _ _
  refine ⟨?_, ?_, ?_, ?_, ?_⟩
  · rw [hval]
    exact Nat.mod_lt _ (by decide)
  · rw [hval, keyHashSlot_eq]
  · intro tag htag
    rw [hval, getHashtag_eq_some_iff.2 htag, Option.getD_some]
  · intro hno
    have hnone : getHashtag key = none := Option.eq_none_iff_forall_ne_some.2 fun tag h =>
      hno tag (getHashtag_eq_some_iff.1 h)
    rw [hval, hnone, Option.getD_none]
  · intro tag key' htag htag'
    have hkey := getHashtag_eq_some_iff.2 htag
    have hkey' := getHashtag_eq_some_iff.2 htag'
    simp [Slot.forKey, hkey, hkey']

/-- A host that is not in brackets. -/
structure PlainHost (host : String) : Prop where
  ne : host ≠ ""
  first : host.toList.head? ≠ some '['
  last : host.toList.getLast? ≠ some ']'

namespace NodeAddress

def bracketed (addr : NodeAddress) : String := "[" ++ addr.host ++ "]:" ++ toString addr.port.toNat

theorem parseU16_text (port : UInt16) : parseU16 (String.ofList (Nat.toDigits 10 port.toNat)) = some port := by
  have hlt := port.toNat_lt
  rw [parseU16, ← Nat.repr_eq_ofList_toDigits, parseInt_natText (by omega) (by omega)]
  simp

theorem tryFrom_of_toList {node : String} {chars host : List Char} {port : UInt16}
    (hnode : node.toList = chars ++ ':' :: Nat.toDigits 10 port.toNat)
    (hhost : (chars.reverse.dropWhile (· = ']')).reverse.dropWhile (· = '[') = host) (hne : host ≠ []) :
    tryFrom node = .ok ⟨String.ofList host, port⟩ := by
  have hcolon : ':' ∉ (Nat.toDigits 10 port.toNat).reverse := fun h =>
    absurd (isDigit_of_mem_toDigits (mem_reverse.1 h)) (by decide)
  have hall := all_ne_of_not_mem hcolon
  have hspan : node.toList.reverse.span (· ≠ ':') = ((Nat.toDigits 10 port.toNat).reverse, ':' :: chars.reverse) := by
    rw [span_eq_takeWhile_dropWhile, hnode, reverse_append, reverse_cons, append_assoc,
      takeWhile_append_of_pos hall, dropWhile_append_of_pos hall]
    simp
  have hempty : host.isEmpty = false := by simpa using hne
  rw [tryFrom, splitNodeAddress, hspan]
  simp only [reverse_reverse, parseU16_text, hhost, hempty, Bool.false_eq_true, if_false]
  rfl

theorem dropWhile_of_head? {c : Char} {l : List Char} (h : l.head? ≠ some c) : l.dropWhile (· = c) = l := by
  cases l with
  | nil => rfl
  | cons d l => exact dropWhile_cons_of_neg (by simpa using h)

theorem tryFrom_text (addr : NodeAddress) (h : PlainHost addr.host) : tryFrom addr.text = .ok addr := by
  have hhead : addr.host.toList.reverse.head? ≠ some ']' := by rw [head?_reverse]; exact h.last
  have hnode : addr.text.toList = addr.host.toList ++ ':' :: Nat.toDigits 10 addr.port.toNat := by simp [text]
  have hhost : (addr.host.toList.reverse.dropWhile (· = ']')).reverse.dropWhile (· = '[') = addr.host.toList := by
    rw [dropWhile_of_head? hhead, reverse_reverse, dropWhile_of_head? h.first]
  have hparse := tryFrom_of_toList hnode hhost (by simpa using h.ne)
  rwa [String.ofList_toList] at hparse

theorem tryFrom_bracketed (addr : NodeAddress) (h : PlainHost addr.host) : tryFrom addr.bracketed = .ok addr := by
  have hhead : addr.host.toList.reverse.head? ≠ some ']' := by rw [head?_reverse]; exact h.last
  have hnil : addr.host.toList.reverse ≠ [] := by simpa using h.ne
  have hrest : (addr.host.toList.reverse ++ ['[']).head? ≠ some ']' := by rwa [head?_append_of_ne_nil _ hnil]
  have hnode : addr.bracketed.toList =
      ('[' :: addr.host.toList ++ [']']) ++ ':' :: Nat.toDigits 10 addr.port.toNat := by simp [bracketed]
  have hhost : (('[' :: addr.host.toList ++ [']']).reverse.dropWhile (· = ']')).reverse.dropWhile (· = '[') =
      addr.host.toList := by
    have hstart : ('[' :: addr.host.toList ++ [']']).reverse = ']' :: (addr.host.toList.reverse ++ ['[']) := by simp
    rw [hstart, dropWhile_cons_of_pos rfl, dropWhile_of_head? hrest]
    simp [dropWhile_of_head? h.first]
  have hparse := tryFrom_of_toList hnode hhost (by simpa using h.ne)
  rwa [String.ofList_toList] at hparse

/-- The text of an address is read back, also with its host in brackets, so no two addresses have the same text. -/
theorem address_text_read_back (addr other : NodeAddress) (h : PlainHost addr.host) (hother : PlainHost other.host) :
    tryFrom addr.text = .ok addr ∧ tryFrom addr.bracketed = .ok addr ∧ (addr.text = other.text → addr = other) := by
  refine ⟨tryFrom_text addr h, tryFrom_bracketed addr h, fun htext => ?_⟩
  have heq := tryFrom_text addr h
  rw [htext, tryFrom_text other hother] at heq
  exact (Except.ok.inj heq).symm

theorem address_text_zone :
    tryFrom "fe80::cafe%en1:30001" = .ok ⟨"fe80::cafe%en1", 30001⟩ ∧
      tryFrom "[fe80::cafe%en1]:30001" = .ok ⟨"fe80::cafe%en1", 30001⟩ := by
  have hplain : PlainHost "fe80::cafe%en1" := ⟨by decide, by decide, by decide⟩
  have h := address_text_read_back ⟨"fe80::cafe%en1", 30001⟩ ⟨"fe80::cafe%en1", 30001⟩ hplain hplain
  exact ⟨h.1, h.2.1⟩

end NodeAddress

end RedisRs
