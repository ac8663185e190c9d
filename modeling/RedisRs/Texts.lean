import RedisRs.Cmd
import RedisRs.Convert

/-!
# Texts and their bytes
-/

namespace RedisRs

open List

def utf8Sequence (b : UInt8) (rest : Bytes) : Option Char × Nat :=
  let continues (c : UInt8) : Bool := 0x80 ≤ c ∧ c ≤ 0xbf
  let scalar (bytes : Bytes) : Option Char :=
    some (Char.ofNat (bytes.foldl (fun n c => n * 64 + (c.toNat - 0x80))
      (b.toNat - if b < 0xe0 then 0xc0 else if b < 0xf0 then 0xe0 else 0xf0)))
  -- the second byte has a smaller range after some first bytes
  let second (c : UInt8) : Bool :=
    if b = 0xe0 then 0xa0 ≤ c ∧ c ≤ 0xbf
    else if b = 0xed then 0x80 ≤ c ∧ c ≤ 0x9f
    else if b = 0xf0 then 0x90 ≤ c ∧ c ≤ 0xbf
    else if b = 0xf4 then 0x80 ≤ c ∧ c ≤ 0x8f
    else continues c
  let length := if b < 0xc2 then 0 else if b < 0xe0 then 1 else if b < 0xf0 then 2 else if b < 0xf5 then 3 else 0
  match rest with
  | [] => (none, 0)
  | c :: rest =>
    if length = 0 ∨ !second c then (none, 0)
    else
      let more := (rest.take (length - 1)).takeWhile continues
      if more.length = length - 1 then (scalar (c :: more), length) else (none, 1 + more.length)

def fromUtf8LossyFrom : Nat → Bytes → List Char
  | fuel + 1, b :: rest =>
    if b < 0x80 then Char.ofNat b.toNat :: fromUtf8LossyFrom fuel rest
    else
      let (c, n) := utf8Sequence b rest
      c.getD (Char.ofNat 0xfffd) :: fromUtf8LossyFrom fuel (rest.drop n)
  | _, _ => []

def fromUtf8Lossy (bytes : Bytes) : String := String.ofList (fromUtf8LossyFrom bytes.length bytes)

example : fromUtf8Lossy [0x61, 0xf0, 0x9f, 0x98, 0x62] = "a�b" := by decide

variable {v : Nat} {lo hi : Int} {n : Nat} {b c d : UInt8} (s : String)

theorem bytesOf_eq : bytesOf s = s.toList.flatMap String.utf8EncodeChar := by
  have h : s.toUTF8 = s.toList.utf8Encode := String.utf8Encode_toList.symm
  rw [bytesOf, h, List.utf8Encode, data_toByteArray]

theorem bytesOf_ofList (l : List Char) : bytesOf (String.ofList l) = l.flatMap String.utf8EncodeChar := by
  rw [bytesOf_eq, String.toList_ofList]

theorem bytesOf_append (t : String) : bytesOf (s ++ t) = bytesOf s ++ bytesOf t := by
  rw [bytesOf_eq, String.toList_append, flatMap_append, ← bytesOf_eq, ← bytesOf_eq]

theorem fromUtf8_bytesOf : fromUtf8 (bytesOf s) = some s := by
  show String.fromUTF8? s.toUTF8 = some s
  have hvalid : s.toUTF8.IsValidUTF8 := s.isValidUTF8
  rw [String.fromUTF8?, dif_pos hvalid]
  rfl

def Continues (c : UInt8) : Prop := 0x80 ≤ c.toNat ∧ c.toNat ≤ 0xbf

theorem utf8Sequence_two (hb : 0xc2 ≤ b.toNat ∧ b.toNat < 0xe0) (hc : Continues c) (rest : Bytes) :
    utf8Sequence b (c :: rest) = (some (Char.ofNat ((b.toNat - 0xc0) * 64 + (c.toNat - 0x80))), 1) := by
  have h1 : ¬ b.toNat < 194 := by omega
  have h3 : b.toNat ≠ 224 ∧ b.toNat ≠ 237 ∧ b.toNat ≠ 240 ∧ b.toNat ≠ 244 := by omega
  simp [utf8Sequence, UInt8.lt_iff_toNat_lt, UInt8.le_iff_toNat_le, ← UInt8.toNat_inj, h1, hb, h3, hc.1, hc.2]

theorem utf8Sequence_three (hb : 0xe0 ≤ b.toNat ∧ b.toNat < 0xf0) (hc : Continues c)
    (hlo : b.toNat = 0xe0 → 0xa0 ≤ c.toNat) (hhi : b.toNat = 0xed → c.toNat ≤ 0x9f) (hd : Continues d) (rest : Bytes) :
    utf8Sequence b (c :: d :: rest) =
      (some (Char.ofNat (((b.toNat - 0xe0) * 64 + (c.toNat - 0x80)) * 64 + (d.toNat - 0x80))), 2) := by
  have h1 : ¬ b.toNat < 194 := by omega
  have h2 : ¬ b.toNat < 224 := by omega
  have h3 : b.toNat ≠ 240 ∧ b.toNat ≠ 244 := by omega
  have hsecond : ¬ (if b.toNat = 224 then 160 ≤ c.toNat → 191 < c.toNat else
      if b.toNat = 237 then 128 ≤ c.toNat → 159 < c.toNat else 128 ≤ c.toNat → 191 < c.toNat) := by
    obtain ⟨hc1, hc2⟩ := hc
    split_ifs with h h' <;> omega
  simp [utf8Sequence, UInt8.lt_iff_toNat_lt, UInt8.le_iff_toNat_le, ← UInt8.toNat_inj, h1, h2, hb, h3, hsecond, hd.1,
    hd.2]

theorem utf8Sequence_four {e : UInt8} (hb : 0xf0 ≤ b.toNat ∧ b.toNat < 0xf5) (hc : Continues c)
    (hlo : b.toNat = 0xf0 → 0x90 ≤ c.toNat) (hhi : b.toNat = 0xf4 → c.toNat ≤ 0x8f) (hd : Continues d)
    (he : Continues e) (rest : Bytes) :
    utf8Sequence b (c :: d :: e :: rest) =
      (some (Char.ofNat ((((b.toNat - 0xf0) * 64 + (c.toNat - 0x80)) * 64 + (d.toNat - 0x80)) * 64 +
        (e.toNat - 0x80))), 3) := by
  have h1 : ¬ b.toNat < 194 := by omega
  have h2 : ¬ b.toNat < 224 := by omega
  have h3 : ¬ b.toNat < 240 := by omega
  have h4 : b.toNat ≠ 224 ∧ b.toNat ≠ 237 := by omega
  have hsecond : ¬ (if b.toNat = 240 then 144 ≤ c.toNat → 191 < c.toNat else
      if b.toNat = 244 then 128 ≤ c.toNat → 143 < c.toNat else 128 ≤ c.toNat → 191 < c.toNat) := by
    obtain ⟨hc1, hc2⟩ := hc
    split_ifs with h h' <;> omega
  simp [utf8Sequence, UInt8.lt_iff_toNat_lt, UInt8.le_iff_toNat_le, ← UInt8.toNat_inj, h1, h2, h3, hb, h4, hsecond,
    hd.1, hd.2, he.1, he.2]

theorem fromUtf8LossyFrom_sequence {m rest : Bytes} {c : Char} (hb : 0x80 ≤ b.toNat)
    (h : utf8Sequence b (m ++ rest) = (some c, m.length)) (fuel : Nat) :
    fromUtf8LossyFrom (fuel + 1) (b :: (m ++ rest)) = c :: fromUtf8LossyFrom fuel rest := by
  have hlt : ¬ b < 0x80 := by
    rw [UInt8.lt_iff_toNat_lt]
    exact Nat.not_lt.2 hb
  simp [fromUtf8LossyFrom, if_neg hlt, h]

theorem lossy_cons (c : Char) (fuel : Nat) (rest : Bytes) :
    fromUtf8LossyFrom (fuel + 1) (String.utf8EncodeChar c ++ rest) = c :: fromUtf8LossyFrom fuel rest := by
  have hc : Char.ofNat c.val.toNat = c := Char.ofNat_toNat c
  have hvalid : c.val.toNat < 0xd800 ∨ 0xdfff < c.val.toNat ∧ c.val.toNat < 0x110000 := c.valid
  unfold String.utf8EncodeChar
  generalize c.val.toNat = v at hc hvalid
  have hbyte : ∀ n, n < 256 → (UInt8.ofNat n).toNat = n := by
    intro n hn
    rw [UInt8.toNat_ofNat']
    exact Nat.mod_eq_of_lt hn
  have hlast : ∀ n, (UInt8.ofNat (n % 64 + 128)).toNat = n % 64 + 128 := fun n => hbyte _ (by omega)
  have hcont : ∀ n, Continues (UInt8.ofNat (n % 64 + 128)) := by
    intro n
    rw [Continues, hlast]
    omega
  dsimp only
  split_ifs with h1 h2 h3
  · have hb := hbyte v (by omega)
    have hlt : UInt8.ofNat v < 0x80 := by
      rw [UInt8.lt_iff_toNat_lt, hb]
      exact Nat.lt_succ_of_le h1
    simp [fromUtf8LossyFrom, if_pos hlt, hb, hc]
  · have hb := hbyte (v / 64 % 32 + 192) (by omega)
    refine fromUtf8LossyFrom_sequence (m := [_]) (by omega)
      ((utf8Sequence_two (by omega) (hcont v) _).trans ?_) fuel
    have hnum : (v / 64 % 32 + 192 - 192) * 64 + (v % 64 + 128 - 128) = v := by omega
    rw [hb, hlast, hnum, hc]
    rfl
  · have hb := hbyte (v / 4096 % 16 + 224) (by omega)
    refine fromUtf8LossyFrom_sequence (m := [_, _]) (by omega)
      ((utf8Sequence_three (by omega) (hcont (v / 64)) ?_ ?_ (hcont v) _).trans ?_) fuel
    · rw [hb, hlast]
      omega
    · rw [hb, hlast]
      omega
    · have hnum : ((v / 4096 % 16 + 224 - 224) * 64 + (v / 64 % 64 + 128 - 128)) * 64 + (v % 64 + 128 - 128) = v := by
        omega
      rw [hb, hlast, hlast, hnum, hc]
      rfl
  · have hb := hbyte (v / 262144 % 8 + 240) (by omega)
    refine fromUtf8LossyFrom_sequence (m := [_, _, _]) (by omega)
      ((utf8Sequence_four (by omega) (hcont (v / 4096)) ?_ ?_ (hcont (v / 64)) (hcont v) _).trans ?_) fuel
    · rw [hb, hlast]
      omega
    · rw [hb, hlast]
      omega
    · have hnum : (((v / 262144 % 8 + 240 - 240) * 64 + (v / 4096 % 64 + 128 - 128)) * 64 +
          (v / 64 % 64 + 128 - 128)) * 64 + (v % 64 + 128 - 128) = v := by omega
      rw [hb, hlast, hlast, hlast, hnum, hc]
      rfl

theorem utf8EncodeChar_ne_nil (c : Char) : 0 < (String.utf8EncodeChar c).length := by
  unfold String.utf8EncodeChar
  dsimp only
  split_ifs <;> simp

theorem fromUtf8Lossy_bytesOf : fromUtf8Lossy (bytesOf s) = s := by
  have hfrom : ∀ (l : List Char) (fuel : Nat), (l.flatMap String.utf8EncodeChar).length ≤ fuel →
      fromUtf8LossyFrom fuel (l.flatMap String.utf8EncodeChar) = l := by
    intro l
    induction l with
    | nil => intro fuel _; cases fuel <;> rfl
    | cons c l ih =>
      intro fuel hfuel
      have hpos := utf8EncodeChar_ne_nil c
      rw [flatMap_cons, length_append] at hfuel
      obtain ⟨fuel, rfl⟩ := Nat.exists_eq_add_one_of_ne_zero (by omega : fuel ≠ 0)
      rw [flatMap_cons, lossy_cons, ih fuel (by omega)]
  rw [fromUtf8Lossy, bytesOf_eq, hfrom s.toList _ (le_rfl), String.ofList_toList]

theorem fromUtf8_of_ascii {bytes : Bytes} (h : ∀ b ∈ bytes, b < 128) : (fromUtf8 bytes).isSome := by
  have hbytes : bytesOf (String.ofList (bytes.map fun b => Char.ofNat b.toNat)) = bytes := by
    rw [bytesOf_ofList]
    induction bytes with
    | nil => rfl
    | cons b bytes ih =>
      have hb : String.utf8EncodeChar (Char.ofNat b.toNat) = [b] := by
        have hlt : b.toNat < 128 := UInt8.lt_iff_toNat_lt.1 (h b mem_cons_self)
        have hvalid : b.toNat.isValidChar := .inl (by omega)
        have hcode : (Char.ofNat b.toNat).val.toNat = b.toNat := by
          rw [Char.ofNat, dif_pos hvalid]
          rfl
        simp only [String.utf8EncodeChar, hcode]
        rw [if_pos (by omega), UInt8.ofNat_toNat]
      rw [map_cons, flatMap_cons, hb, ih fun x hx => h x (mem_cons_of_mem b hx)]
      rfl
  rw [← hbytes, fromUtf8_bytesOf]
  rfl

theorem isDigit_iff (c : Char) : c.isDigit = true ↔ 48 ≤ c.val.toNat ∧ c.val.toNat ≤ 57 := by
  simp [Char.isDigit, UInt32.le_iff_toNat_le]

theorem utf8EncodeChar_digit {c : Char} (h : c.isDigit = true) :
    String.utf8EncodeChar c = [UInt8.ofNat c.val.toNat] := by
  have hle := ((isDigit_iff c).1 h).2
  simp only [String.utf8EncodeChar]
  rw [if_pos (by omega)]

theorem flatMap_utf8EncodeChar_digits {l : List Char} (h : ∀ c ∈ l, c.isDigit = true) :
    l.flatMap String.utf8EncodeChar = l.map fun c => UInt8.ofNat c.val.toNat := by
  induction l with
  | nil => rfl
  | cons c l ih =>
    rw [flatMap_cons, utf8EncodeChar_digit (h c mem_cons_self),
      ih fun d hd => h d (mem_cons_of_mem _ hd)]
    rfl

theorem isDigit_of_mem_toDigits {c : Char} (h : c ∈ Nat.toDigits 10 n) : c.isDigit = true :=
  Nat.isDigit_of_mem_toDigits (by decide) (by decide) h

theorem itoa_eq (n : Nat) : itoa n = (Nat.toDigits 10 n).map fun c => UInt8.ofNat c.val.toNat := by
  rw [itoa, Nat.repr_eq_ofList_toDigits, bytesOf_ofList]
  exact flatMap_utf8EncodeChar_digits fun _ => isDigit_of_mem_toDigits

theorem mem_itoa (h : b ∈ itoa n) : 48 ≤ b.toNat ∧ b.toNat ≤ 57 := by
  rw [itoa_eq] at h
  obtain ⟨c, hc, rfl⟩ := mem_map.1 h
  have hd := (isDigit_iff c).1 (isDigit_of_mem_toDigits hc)
  rw [UInt8.toNat_ofNat']
  omega

theorem length_toDigits_of_le (h : 10 ≤ v) : (Nat.toDigits 10 v).length = (Nat.toDigits 10 (v / 10)).length + 1 := by
  rw [Nat.toDigits_of_base_le (by decide) h, length_append]
  rfl

theorem length_toDigits_of_lt (h : v < 10) : (Nat.toDigits 10 v).length = 1 := by
  rw [Nat.toDigits_of_lt_base h]
  rfl

theorem countdigitsLoop_eq {fuel v : Nat} (h : v ≤ fuel) (result : Nat) :
    countdigitsLoop fuel v (result + 1) = result + (Nat.toDigits 10 v).length := by
  induction fuel generalizing v result with
  | zero =>
    obtain rfl : v = 0 := by omega
    rfl
  | succ fuel ih =>
    have hone := @length_toDigits_of_lt
    have hmore := @length_toDigits_of_le
    rw [countdigitsLoop]
    split_ifs with h1 h2 h3 h4
    · rw [hone h1]
    · rw [hmore (by omega), hone (by omega)]
    · rw [hmore (by omega), hmore (by omega), hone (by omega)]
    · rw [hmore (by omega), hmore (by omega), hmore (by omega), hone (by omega)]
    · have hdiv : v / 10 / 10 / 10 / 10 = v / 10000 := by omega
      have hfour : (Nat.toDigits 10 v).length = (Nat.toDigits 10 (v / 10000)).length + 4 := by
        rw [hmore (by omega), hmore (by omega), hmore (by omega), hmore (by omega), hdiv]
      have hnext : countdigitsLoop fuel (v / 10000) (result + 1 + 4) =
          result + 4 + (Nat.toDigits 10 (v / 10000)).length := ih (by omega) (result + 4)
      omega

theorem length_itoa (n : Nat) : (itoa n).length = countdigits n := by
  rw [itoa_eq, length_map, countdigits, countdigitsLoop_eq (Nat.le_refl n) 0, Nat.zero_add]

theorem parseDigits_toDigits (n : Nat) : parseDigits (Nat.toDigits 10 n) = some n := by
  have hall : (Nat.toDigits 10 n).all Char.isDigit = true := all_eq_true.2 fun _ => isDigit_of_mem_toDigits
  have hval : (Nat.toDigits 10 n).foldl (fun n c => 10 * n + (c.toNat - 48)) 0 = n :=
    Nat.ofDigitChars_eq_foldl.symm.trans Nat.ofDigitChars_ten_toDigits
  unfold parseDigits
  split
  · next hnil => exact absurd hnil Nat.toDigits_ne_nil
  · rw [if_pos hall, hval]

theorem head_toDigits_ne {c : Char} {l : List Char} (h : Nat.toDigits 10 n = c :: l) : c ≠ '-' ∧ c ≠ '+' := by
  have hd : c.isDigit = true := isDigit_of_mem_toDigits (n := n) (by rw [h]; exact mem_cons_self)
  constructor <;> rintro rfl <;> exact absurd hd (by decide)

theorem parseInt_natText (hlo : lo ≤ n) (hhi : (n : Int) ≤ hi) : parseInt lo hi (Nat.repr n) = some (n : Int) := by
  have hdigs := parseDigits_toDigits n
  rw [Nat.repr_eq_ofList_toDigits, parseInt, String.toList_ofList]
  rcases hl : Nat.toDigits 10 n with _ | ⟨c, l⟩
  · exact absurd hl Nat.toDigits_ne_nil
  · rw [hl] at hdigs
    obtain ⟨hm, hp⟩ := head_toDigits_ne hl
    split
    · next heq => exact absurd (List.cons.inj heq).1 hm
    · next heq => exact absurd (List.cons.inj heq).1 hp
    · rw [hdigs]
      simp [Option.filter, hlo, hhi]

theorem intText_negSucc (n : Nat) : (Int.negSucc n).repr = String.ofList ('-' :: Nat.toDigits 10 (n + 1)) := by
  show "-" ++ (n + 1).repr = _
  have hminus : "-" = String.ofList ['-'] := rfl
  rw [Nat.repr_eq_ofList_toDigits, hminus, ← String.ofList_append]
  rfl

theorem parseInt_mem_range {m : Int} {s : String} (h : parseInt lo hi s = some m) : lo ≤ m ∧ m ≤ hi := by
  rw [parseInt] at h
  exact of_decide_eq_true (Option.filter_eq_some_iff.1 h).2

theorem parseInt_intText {n : Int} (hlo : lo ≤ n) (hhi : n ≤ hi) : parseInt lo hi n.repr = some n := by
  rcases n with n | n
  · exact parseInt_natText hlo hhi
  · have hneg : lo < 0 := by omega
    rw [intText_negSucc, parseInt, String.toList_ofList]
    simp only [if_pos hneg, parseDigits_toDigits]
    show Option.filter _ (some (Int.negSucc n)) = _
    rw [Option.filter_some, if_pos (decide_eq_true ⟨hlo, hhi⟩)]

theorem mem_intText {n : Int} {c : Char} (h : c ∈ n.repr.toList) : c.isDigit = true ∨ c = '-' := by
  rcases n with n | n
  · have hrepr : (Int.ofNat n).repr = String.ofList (Nat.toDigits 10 n) := Nat.repr_eq_ofList_toDigits
    rw [hrepr, String.toList_ofList] at h
    exact .inl (isDigit_of_mem_toDigits h)
  · rw [intText_negSucc, String.toList_ofList] at h
    rcases mem_cons.1 h with rfl | h
    · exact .inr rfl
    · exact .inl (isDigit_of_mem_toDigits h)

theorem mem_bytesOf_intText {n : Int} {b : UInt8} (h : b ∈ bytesOf n.repr) : 45 ≤ b.toNat ∧ b.toNat ≤ 57 := by
  rw [bytesOf_eq] at h
  obtain ⟨c, hc, hb⟩ := mem_flatMap.1 h
  rcases mem_intText hc with hd | rfl
  · rw [utf8EncodeChar_digit hd] at hb
    have hle := (isDigit_iff c).1 hd
    rw [mem_singleton.1 hb, UInt8.toNat_ofNat']
    omega
  · have hminus : String.utf8EncodeChar '-' = [45] := by decide
    rw [hminus] at hb
    rw [mem_singleton.1 hb]
    decide

theorem not_crlf_infix {l : Bytes} (h : ∀ b ∈ l, b ≠ '\r'.toUInt8) : ¬ crlf <:+: l := by
  intro hin
  exact h _ (hin.subset mem_cons_self) rfl

end RedisRs
