import RedisRs.JsonText
import RedisRs.Texts

/-!
# The object id in a JSON web token
-/

namespace RedisRs

open List JsonText

inductive JwtError
  | notThreeParts
  | decode (e : String)
  | notUtf8
  | oidNotFound
deriving DecidableEq, Repr

def isWhitespace (c : Char) : Bool :=
  let n := c.toNat
  (9 ≤ n && n ≤ 13) || n == 0x20 || n == 0x85 || n == 0xa0 || n == 0x1680 || (0x2000 ≤ n && n ≤ 0x200a) ||
    n == 0x2028 || n == 0x2029 || n == 0x202f || n == 0x205f || n == 0x3000

def afterFirst (x : Char) : List Char → Option (List Char)
  | [] => none
  | c :: cs => if c = x then some cs else afterFirst x cs

def beforeFirst (x : Char) : List Char → Option (List Char)
  | [] => none
  | c :: cs => if c = x then some [] else (beforeFirst x cs).map (c :: ·)

def oid : List Char := ['o', 'i', 'd']

def oidValueStr (payload : List Char) : Option (List Char) := (fromFirst (quoted oid) payload).bind (afterFirst ':')

def strippedOidValue (value : List Char) : Option (List Char) :=
  match value.dropWhile isWhitespace with
  | '"' :: stripped => beforeFirst '"' stripped
  | _ => none

def findOid (payload : List Char) : Option (List Char) := (oidValueStr payload).bind strippedOidValue

def extractOidFromJwt (decode : String → Except String Bytes) (jwt : String) : Except JwtError String :=
  match jwt.toList.splitOn '.' with
  | [_, payload, _] =>
    match decode (String.ofList payload) with
    | .error e => .error (.decode e)
    | .ok payloadBytes =>
      match fromUtf8 payloadBytes with
      | none => .error .notUtf8
      | some payloadStr =>
        match findOid payloadStr.toList with
        | some value => .ok (String.ofList value)
        | none => .error .oidNotFound
  | _ => .error .notThreeParts

structure Jwt where
  header : List Char
  payload : List Char
  signature : List Char
  noDot : ∀ part ∈ [header, payload, signature], '.' ∉ part

def Jwt.text (jwt : Jwt) : String := String.ofList (['.'].intercalate [jwt.header, jwt.payload, jwt.signature])

structure JwtPayload where
  before : Blanks
  blanks : Blanks
  members : List Member
  after : Blanks

namespace JwtPayload

def tokens (p : JwtPayload) : List Token := (Element.mk p.before (.object p.blanks p.members) p.after).tokens

def text (p : JwtPayload) : String := String.ofList (textOf p.tokens)

def memberNames (p : JwtPayload) : List Str := membersNames p.members

/-- After the first string that ends with the word, the first colon is followed by `u` in quotation marks. -/
def Finds (p : JwtPayload) (u : List Char) : Prop :=
  ∃ ts s ts' gap value rest, p.tokens = ts ++ .str s :: ts' ∧ (∀ s' ∈ strings ts, ¬ Str.Reads oid s') ∧
    Str.Reads oid s ∧ textOf ts' = gap ++ ':' :: value ∧ ':' ∉ gap ∧
    value.dropWhile isWhitespace = '"' :: (u ++ '"' :: rest) ∧ '"' ∉ u

def compact (members : List Member) : JwtPayload := ⟨noBlanks, noBlanks, members, noBlanks⟩

end JwtPayload

/-- The name of a member is `oid`, however it is spelled. -/
def IsOid (name : Str) : Prop := name.units = oid.map Char.toNat

instance (name : Str) : Decidable (IsOid name) := inferInstanceAs (Decidable (_ = _))

structure OidClaim (p : JwtPayload) (v : List Char) where
  earlier : List Member
  before : Blanks
  name : Str
  between : Blanks
  valueBefore : Blanks
  value : Str
  valueAfter : Blanks
  later : List Member
  members : p.members =
    earlier ++ .mk before name between (.mk valueBefore (.string value) valueAfter) :: later
  isOid : IsOid name
  unescaped : Str.Spells v value
  only : ∀ m ∈ earlier ++ later, ¬ IsOid m.name

namespace OidClaim

variable {p : JwtPayload} {v : List Char}

def front (c : OidClaim p v) : List Token :=
  .blanks p.before :: .mark .openBrace :: .blanks p.blanks :: membersTokens [] c.earlier ++
    (if c.earlier.isEmpty then [] else [.mark .comma]) ++ [.blanks c.before, .str c.name, .blanks c.between]

def rest (c : OidClaim p v) : List Token :=
  .blanks c.valueBefore :: .str c.value :: .blanks c.valueAfter ::
    (membersTokens [.mark .comma] c.later ++ [.mark .closeBrace, .blanks p.after])

/-- The first colon after the first string that ends with the word is that of the claim. -/
def Reached (c : OidClaim p v) : Prop :=
  ∃ ts s ts', c.front = ts ++ .str s :: ts' ∧ (∀ s' ∈ strings ts, ¬ Str.Reads oid s') ∧ Str.Reads oid s ∧
    ':' ∉ textOf ts'

theorem tokens_eq (c : OidClaim p v) : p.tokens = c.front ++ .mark .colon :: c.rest := by
  rw [JwtPayload.tokens, Element.tokens, Value.tokens, c.members, membersTokens_append, membersTokens, Member.tokens,
    Element.tokens, Value.tokens, front, rest]
  simp

end OidClaim

section Search

variable {x : Char} {gap cs cs' pat : List Char}

theorem afterFirst_append (h : x ∉ gap) : afterFirst x (gap ++ cs) = afterFirst x cs := by
  induction gap with
  | nil => rfl
  | cons c gap ih =>
    rw [mem_cons, not_or] at h
    rw [cons_append, afterFirst, if_neg (Ne.symm h.1), ih h.2]

theorem append_of_afterFirst (h : afterFirst x cs = some cs') : ∃ gap, cs = gap ++ x :: cs' ∧ x ∉ gap := by
  induction cs with
  | nil => cases h
  | cons c cs ih =>
    rw [afterFirst] at h
    by_cases hc : c = x
    · rw [if_pos hc] at h
      cases h
      exact ⟨[], by rw [hc]; rfl, not_mem_nil⟩
    · rw [if_neg hc] at h
      obtain ⟨gap, heq, hgap⟩ := ih h
      refine ⟨c :: gap, by rw [heq]; rfl, ?_⟩
      rw [mem_cons, not_or]
      exact ⟨Ne.symm hc, hgap⟩

theorem beforeFirst_append (h : x ∉ gap) : beforeFirst x (gap ++ x :: cs) = some gap := by
  induction gap with
  | nil => exact if_pos rfl
  | cons c gap ih =>
    rw [mem_cons, not_or] at h
    rw [cons_append, beforeFirst, if_neg (Ne.symm h.1), ih h.2]
    rfl

theorem append_of_beforeFirst (h : beforeFirst x cs = some gap) : ∃ rest, cs = gap ++ x :: rest ∧ x ∉ gap := by
  induction cs generalizing gap with
  | nil => cases h
  | cons c cs ih =>
    rw [beforeFirst] at h
    by_cases hc : c = x
    · rw [if_pos hc] at h
      cases h
      exact ⟨cs, by rw [hc]; rfl, not_mem_nil⟩
    · rw [if_neg hc] at h
      obtain ⟨gap, hgap, rfl⟩ := Option.map_eq_some_iff.1 h
      obtain ⟨rest, rfl, hx⟩ := ih hgap
      refine ⟨rest, rfl, ?_⟩
      rw [mem_cons, not_or]
      exact ⟨Ne.symm hc, hx⟩

theorem isWhitespace_of_isBlank {c : Char} (h : isBlank c = true) : isWhitespace c = true := by
  have hall : [' ', '\t', '\n', '\r'].all isWhitespace = true := by decide
  exact all_eq_true.1 hall c (contains_iff_mem.1 h)

theorem dropWhile_blanks (b : Blanks) {c : Char} (hc : isWhitespace c = false) :
    (b.1 ++ c :: cs).dropWhile isWhitespace = c :: cs := by
  rw [dropWhile_append_of_pos fun c hc => isWhitespace_of_isBlank (b.2 c hc),
    dropWhile_cons_of_neg (by simp [hc])]

end Search

theorem isPlain_oid : oid.all isPlain = true := by decide

theorem isWord_oid : IsWord oid where
  plain := all_eq_true.1 isPlain_oid
  nonempty := cons_ne_nil _ _
  outside c hc := by
    cases hc
    decide

section Found

variable {ts ts' : List Token} {s : Str} {t : List Char}

theorem oidValueStr_of_reads (h : ∀ s' ∈ strings ts, ¬ Str.Reads oid s') (hs : Str.Reads oid s) :
    oidValueStr (textOf (ts ++ .str s :: ts') ++ t) = afterFirst ':' (textOf ts' ++ t) := by
  have htext : textOf (ts ++ .str s :: ts') ++ t = textOf ts ++ (s.text ++ (textOf ts' ++ t)) := by
    simp [textOf, Token.text]
  rw [oidValueStr, htext, fromFirst_tokens isWord_oid h (by simp [oid, Str.text]),
    fromFirst_reads isWord_oid hs]
  exact afterFirst_append (by decide)

theorem oidValueStr_of_forall_not (h : ∀ s' ∈ strings ts, ¬ Str.Reads oid s') (ht : oid.head? ≠ t.head?) :
    oidValueStr (textOf ts ++ t) = oidValueStr t := by
  rw [oidValueStr, fromFirst_tokens isWord_oid h ht]
  rfl

theorem oidValueStr_length {t' : List Char} (h : oidValueStr t = some t') : t'.length < t.length := by
  obtain ⟨claim, hclaim, hval⟩ := Option.bind_eq_some_iff.1 h
  obtain ⟨gap, rfl, -⟩ := append_of_afterFirst hval
  have hle := (suffix_of_fromFirst hclaim).length_le
  rw [length_append, length_cons] at hle
  omega

theorem findOid_of_value {payload : List Char} {b : Blanks} {v : List Char} (hv : Str.Spells v s)
    (h : oidValueStr payload = some (b.1 ++ (s.text ++ t))) : findOid payload = some v := by
  have htext : s.text ++ t = '"' :: (v ++ '"' :: t) := by
    rw [hv.text_eq, quoted]
    simp
  rw [findOid, h, Option.bind_some, htext, strippedOidValue, dropWhile_blanks b (by decide)]
  exact beforeFirst_append hv.quote_not_mem

end Found

namespace OidClaim

variable {p : JwtPayload} {v : List Char} (c : OidClaim p v)

theorem text_eq : textOf p.tokens = textOf c.front ++ ':' :: textOf c.rest := by
  rw [c.tokens_eq, textOf_append]
  rfl

theorem oidValueStr_of_reached (h : c.Reached) : oidValueStr (textOf p.tokens) = some (textOf c.rest) := by
  obtain ⟨ts, s, ts', hfront, hts, hs, hcolon⟩ := h
  rw [c.text_eq, hfront, oidValueStr_of_reads hts hs, afterFirst_append hcolon]
  exact if_pos rfl

theorem reached_iff : oidValueStr (textOf p.tokens) = some (textOf c.rest) ↔ c.Reached := by
  refine ⟨fun h => ?_, c.oidValueStr_of_reached⟩
  rw [c.text_eq] at h
  rcases first_string (Str.Reads oid) c.front with hnone | ⟨ts, s, ts', hfront, hts, hs⟩
  · -- the search would begin after this colon
    rw [oidValueStr_of_forall_not hnone (by simp [oid])] at h
    have hrest : oidValueStr (':' :: textOf c.rest) = oidValueStr (textOf c.rest) := by
      rw [oidValueStr, quoted, fromFirst_cons_of_ne (by decide)]
      rfl
    exact absurd (oidValueStr_length (hrest.symm.trans h)) (Nat.lt_irrefl _)
  · refine ⟨ts, s, ts', hfront, hts, hs, fun hcolon => ?_⟩
    rw [hfront, oidValueStr_of_reads hts hs] at h
    obtain ⟨gap, heq, hgap⟩ := append_of_afterFirst h
    have hgap' : textOf ts' = gap := append_cancel_right heq
    exact hgap (hgap' ▸ hcolon)

theorem reached_of_forall_not (hname : Str.Spells oid c.name)
    (h : ∀ s ∈ strings (membersTokens [] c.earlier), ¬ Str.Reads oid s) : c.Reached := by
  refine ⟨.blanks p.before :: .mark .openBrace :: .blanks p.blanks :: membersTokens [] c.earlier ++
    (if c.earlier.isEmpty then [] else [.mark .comma]) ++ [.blanks c.before], c.name, [.blanks c.between], ?_, ?_,
    .inl hname, ?_⟩
  · rw [front]
    simp
  · rw [strings_append, strings_append]
    have hseparator : strings (if c.earlier.isEmpty then [] else [.mark .comma]) = [] := by split <;> rfl
    rw [hseparator, append_nil]
    exact forall_mem_append.2 ⟨h, forall_mem_nil _⟩
  · show ':' ∉ c.between.1 ++ []
    rw [append_nil]
    intro hcolon
    cases c.between.2 ':' hcolon

theorem findOid_of_reached (h : c.Reached) : findOid (textOf p.tokens) = some v := by
  have hval := c.oidValueStr_of_reached h
  have hrest : textOf c.rest = c.valueBefore.1 ++ (c.value.text ++ textOf (.blanks c.valueAfter ::
      (membersTokens [.mark .comma] c.later ++ [.mark .closeBrace, .blanks p.after]))) := rfl
  rw [hrest] at hval
  exact findOid_of_value c.unescaped hval

end OidClaim

theorem strippedOidValue_iff {value u : List Char} :
    strippedOidValue value = some u ↔
      ∃ rest, value.dropWhile isWhitespace = '"' :: (u ++ '"' :: rest) ∧ '"' ∉ u := by
  rw [strippedOidValue]
  constructor
  · intro h
    split at h
    · next heq =>
      obtain ⟨rest, rfl, hquote⟩ := append_of_beforeFirst h
      exact ⟨rest, heq, hquote⟩
    · cases h
  · rintro ⟨rest, heq, hquote⟩
    rw [heq]
    exact beforeFirst_append hquote

namespace JwtPayload

variable {p : JwtPayload} {u : List Char}

theorem findOid_iff : findOid (textOf p.tokens) = some u ↔ p.Finds u := by
  rw [findOid, ← append_nil (textOf p.tokens), Option.bind_eq_some_iff]
  constructor
  · rintro ⟨value, hval, hu⟩
    rcases first_string (Str.Reads oid) p.tokens with hnone | ⟨ts, s, ts', htoks, hts, hs⟩
    · rw [oidValueStr_of_forall_not hnone (by decide)] at hval
      cases hval
    · rw [htoks, oidValueStr_of_reads hts hs, append_nil] at hval
      obtain ⟨gap, hts', hgap⟩ := append_of_afterFirst hval
      obtain ⟨rest, hrest, hquote⟩ := strippedOidValue_iff.1 hu
      exact ⟨ts, s, ts', gap, value, rest, htoks, hts, hs, hts', hgap, hrest, hquote⟩
  · rintro ⟨ts, s, ts', gap, value, rest, htoks, hts, hs, hts', hgap, hrest, hquote⟩
    refine ⟨value, ?_, strippedOidValue_iff.2 ⟨rest, hrest, hquote⟩⟩
    rw [htoks, oidValueStr_of_reads hts hs, append_nil, hts', afterFirst_append hgap]
    exact if_pos rfl

theorem not_finds_of_forall_not (h : ∀ s ∈ strings p.tokens, ¬ Str.Reads oid s) : ¬ p.Finds u := by
  rintro ⟨ts, s, ts', _, _, _, htoks, -, hs, -⟩
  refine h s ?_ hs
  rw [htoks, strings_append]
  exact mem_append_right _ mem_cons_self

end JwtPayload

theorem extractOidFromJwt_text {decode : String → Except String Bytes} {jwt : Jwt} {p : JwtPayload}
    {found : Option (List Char)} (h : decode (String.ofList jwt.payload) = .ok (bytesOf p.text))
    (hfound : findOid (textOf p.tokens) = found) :
    extractOidFromJwt decode jwt.text = (found.map String.ofList).elim (.error .oidNotFound) .ok := by
  have hsplit : jwt.text.toList.splitOn '.' = [jwt.header, jwt.payload, jwt.signature] := by
    rw [Jwt.text, String.toList_ofList, splitOn_intercalate '.' jwt.noDot (cons_ne_nil _ _)]
  rw [extractOidFromJwt, hsplit]
  simp only [h, fromUtf8_bytesOf, JwtPayload.text, String.toList_ofList, hfound]
  cases found <;> rfl

def oidStr : Str := .ofPlain oid isPlain_oid

def top : List Char := ['t', 'o', 'p']

def topStr : Str := .ofPlain top (by decide)

def JwtPayload.withTop (earlier : List Member) (name : Str) : JwtPayload :=
  compact (earlier ++ [.compact name (.string topStr)])

def OidClaim.ofTop (earlier : List Member) (name : Str) (hname : IsOid name) (h : ∀ m ∈ earlier, ¬ IsOid m.name) :
    OidClaim (JwtPayload.withTop earlier name) top where
  earlier := earlier
  before := noBlanks
  name := name
  between := noBlanks
  valueBefore := noBlanks
  value := topStr
  valueAfter := noBlanks
  later := []
  members := rfl
  isOid := hname
  unescaped := Str.spells_ofPlain _
  only := by rwa [append_nil]

def subMembers : List Member :=
  [.compact (.ofPlain ['s', 'u', 'b'] (by decide)) (.string (.ofPlain ['b', 'o', 'b'] (by decide)))]

def nestedMembers : List Member :=
  [.compact (.ofPlain ['x'] (by decide))
    (.object noBlanks [.compact oidStr (.string (.ofPlain ['i', 'n', 'n', 'e', 'r'] (by decide)))])]

def valueMembers : List Member :=
  [.compact (.ofPlain ['a'] (by decide)) (.string oidStr),
    .compact (.ofPlain ['b'] (by decide)) (.string (.ofPlain ['e', 'v', 'e'] (by decide)))]

def escapedOidStr : Str :=
  .escape (.unicode ⟨'0', by decide⟩ ⟨'0', by decide⟩ ⟨'6', by decide⟩ ⟨'f', by decide⟩) ::
    Str.ofPlain ['i', 'd'] (by decide)

example : (JwtPayload.withTop nestedMembers oidStr).text =
    "\x7b\"x\":\x7b\"oid\":\"inner\"\x7d,\"oid\":\"top\"\x7d" := by decide +kernel

/-- The string that is returned, and when there is none. The search stops at the value of the claim exactly if this is
`Reached`, and then its value is what is found. -/
theorem oid_claim_extracted (decode : String → Except String Bytes) (jwt : Jwt) (p : JwtPayload)
    (hdecode : decode (String.ofList jwt.payload) = .ok (bytesOf p.text)) :
    (∀ u, extractOidFromJwt decode jwt.text = .ok (String.ofList u) ↔ p.Finds u) ∧
    (extractOidFromJwt decode jwt.text = .error .oidNotFound ↔ ∀ u, ¬ p.Finds u) ∧
    ∀ v, ∀ c : OidClaim p v, (oidValueStr p.text.toList = some (textOf c.rest) ↔ c.Reached) ∧
      (c.Reached → p.Finds v) := by
  rw [JwtPayload.text, String.toList_ofList, extractOidFromJwt_text hdecode rfl]
  refine ⟨fun u => ?_, ?_, fun v c => ⟨c.reached_iff, fun h => JwtPayload.findOid_iff.1 (c.findOid_of_reached h)⟩⟩
  · rw [← JwtPayload.findOid_iff]
    cases findOid (textOf p.tokens) <;> simp [String.ofList_inj]
  · simp only [← JwtPayload.findOid_iff]
    cases findOid (textOf p.tokens) <;> simp

theorem oid_of_bob_extracted :
    (∀ jwt : Jwt, extractOidFromJwt (fun _ => .ok (bytesOf (JwtPayload.withTop subMembers oidStr).text)) jwt.text =
      .ok "top") ∧
    ∀ jwt : Jwt, extractOidFromJwt (fun _ => .ok (bytesOf (JwtPayload.compact subMembers).text)) jwt.text =
      .error .oidNotFound := by
  have hsub : ∀ s ∈ strings (membersTokens [] subMembers), ¬ Str.Reads oid s := by
    have hsuffix : ∀ s ∈ strings (membersTokens [] subMembers), ¬ oid <:+ s.body := by decide +kernel
    exact fun s hs hreads => hsuffix s hs hreads.suffix
  refine ⟨fun jwt => ?_, fun jwt => ?_⟩
  · have hreached : (OidClaim.ofTop subMembers oidStr (by decide) (by decide)).Reached :=
      OidClaim.reached_of_forall_not _ (Str.spells_ofPlain isPlain_oid) hsub
    obtain ⟨hfound, -, hclaim⟩ := oid_claim_extracted (fun _ => .ok _) jwt (.withTop subMembers oidStr) rfl
    exact (hfound top).2 ((hclaim top _).2 hreached)
  · exact (oid_claim_extracted _ jwt (.compact subMembers) rfl).2.1.2 fun u => JwtPayload.not_finds_of_forall_not hsub

theorem oid_taken_from_elsewhere :
    (Nonempty (OidClaim (JwtPayload.withTop nestedMembers oidStr) top) ∧
      Nonempty (OidClaim (JwtPayload.withTop valueMembers oidStr) top) ∧
      (∀ name ∈ (JwtPayload.compact valueMembers).memberNames, ¬ IsOid name) ∧
      Nonempty (OidClaim (JwtPayload.withTop [] escapedOidStr) top)) ∧
    ∀ jwt : Jwt,
      extractOidFromJwt (fun _ => .ok (bytesOf (JwtPayload.withTop nestedMembers oidStr).text)) jwt.text =
        .ok "inner" ∧
      extractOidFromJwt (fun _ => .ok (bytesOf (JwtPayload.withTop valueMembers oidStr).text)) jwt.text = .ok "eve" ∧
      extractOidFromJwt (fun _ => .ok (bytesOf (JwtPayload.compact valueMembers).text)) jwt.text = .ok "eve" ∧
      extractOidFromJwt (fun _ => .ok (bytesOf (JwtPayload.withTop [] escapedOidStr).text)) jwt.text =
        .error .oidNotFound := by
  have hnested : findOid (textOf (JwtPayload.withTop nestedMembers oidStr).tokens) = some ['i', 'n', 'n', 'e', 'r'] := by
    decide +kernel
  have hvalue : findOid (textOf (JwtPayload.withTop valueMembers oidStr).tokens) = some ['e', 'v', 'e'] := by
    decide +kernel
  have hnone : findOid (textOf (JwtPayload.compact valueMembers).tokens) = some ['e', 'v', 'e'] := by decide +kernel
  have hescaped : findOid (textOf (JwtPayload.withTop [] escapedOidStr).tokens) = none := by decide +kernel
  refine ⟨⟨⟨.ofTop nestedMembers oidStr (by decide) (by decide)⟩, ⟨.ofTop valueMembers oidStr (by decide) (by decide)⟩,
    by decide +kernel, ⟨.ofTop [] escapedOidStr (by decide) (by decide)⟩⟩, fun jwt => ⟨?_, ?_, ?_, ?_⟩⟩
  · exact extractOidFromJwt_text rfl hnested
  · exact extractOidFromJwt_text rfl hvalue
  · exact extractOidFromJwt_text rfl hnone
  · exact extractOidFromJwt_text rfl hescaped

end RedisRs
