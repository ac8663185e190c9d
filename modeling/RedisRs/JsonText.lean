import Mathlib.Data.List.Forall2

/-!
# JSON texts
-/

namespace JsonText

open List

def fromFirst (pat : List Char) : List Char → Option (List Char)
  | [] => if pat = [] then some [] else none
  | c :: cs => if pat.isPrefixOf (c :: cs) then some (c :: cs) else fromFirst pat cs

section Search

variable {x c : Char} {pat cs gap : List Char}

theorem fromFirst_cons_of_not (h : ¬ pat <+: c :: cs) : fromFirst pat (c :: cs) = fromFirst pat cs := by
  rw [fromFirst, if_neg (by rwa [List.isPrefixOf_iff_prefix])]

theorem fromFirst_cons_of_ne (h : c ≠ x) : fromFirst (x :: pat) (c :: cs) = fromFirst (x :: pat) cs :=
  fromFirst_cons_of_not fun hpfx => h (cons_prefix_cons.1 hpfx).1.symm

theorem fromFirst_append (h : x ∉ gap) : fromFirst (x :: pat) (gap ++ cs) = fromFirst (x :: pat) cs := by
  induction gap with
  | nil => rfl
  | cons c gap ih =>
    rw [mem_cons, not_or] at h
    rw [cons_append, fromFirst_cons_of_ne (Ne.symm h.1), ih h.2]

theorem fromFirst_self (pat cs : List Char) : fromFirst (x :: pat) (x :: pat ++ cs) = some (x :: pat ++ cs) := by
  rw [cons_append, fromFirst, if_pos]
  rw [List.isPrefixOf_iff_prefix]
  exact prefix_append (x :: pat) cs

theorem suffix_of_fromFirst (h : fromFirst pat cs = some gap) : gap <:+ cs := by
  induction cs with
  | nil =>
    by_cases hpat : pat = []
    · rw [fromFirst, if_pos hpat] at h
      cases h
      exact suffix_refl _
    · rw [fromFirst, if_neg hpat] at h
      cases h
  | cons c cs ih =>
    by_cases hpat : pat.isPrefixOf (c :: cs) = true
    · rw [fromFirst, if_pos hpat] at h
      cases h
      exact suffix_refl _
    · rw [fromFirst, if_neg hpat] at h
      exact (ih h).trans (suffix_cons c cs)

end Search

def isBlank (c : Char) : Bool := [' ', '\t', '\n', '\r'].contains c

def isDigit (c : Char) : Bool := "0123456789".toList.contains c

def isHex (c : Char) : Bool := "0123456789abcdefABCDEF".toList.contains c

def isPlain (c : Char) : Bool := c != '"' && c != '\\' && 0x20 ≤ c.toNat

def isOutside (c : Char) : Bool := " \t\n\r\x7b\x7d[],:0123456789+-.eEtrufalsn".toList.contains c

inductive Escape
  | quote
  | backslash
  | slash
  | backspace
  | formFeed
  | newline
  | carriageReturn
  | tab
  | unicode (a b c d : { c : Char // isHex c = true })

namespace Escape

def text : Escape → List Char
  | quote => ['"']
  | backslash => ['\\']
  | slash => ['/']
  | backspace => ['b']
  | formFeed => ['f']
  | newline => ['n']
  | carriageReturn => ['r']
  | tab => ['t']
  | unicode a b c d => ['u', a, b, c, d]

def hexValue (c : Char) : Nat := "0123456789abcdef".toList.idxOf c.toLower

def unit : Escape → Nat
  | quote => 0x22
  | backslash => 0x5c
  | slash => 0x2f
  | backspace => 8
  | formFeed => 12
  | newline => 10
  | carriageReturn => 13
  | tab => 9
  | unicode a b c d => [a, b, c, d].foldl (fun n x => 16 * n + hexValue x) 0

end Escape

inductive Item
  | plain (c : { c : Char // isPlain c = true })
  | escape (e : Escape)

namespace Item

def text : Item → List Char
  | plain c => [c.1]
  | escape e => '\\' :: e.text

def unit : Item → Nat
  | plain c => c.1.toNat
  | escape e => e.unit

end Item

abbrev Str := List Item

namespace Str

def body (s : Str) : List Char := s.flatMap Item.text

def text (s : Str) : List Char := '"' :: s.body ++ ['"']

def units (s : Str) : List Nat := s.map Item.unit

/-- The string is spelled like the word, without escapes. -/
def Spells (w : List Char) (s : Str) : Prop := List.Forall₂ (fun c item => item.text = [c]) w s

/-- The text of the string ends with the quoted word. -/
def Reads (w : List Char) (s : Str) : Prop := Spells w s ∨ ∃ s₁ s₂, s = s₁ ++ .escape .quote :: s₂ ∧ Spells w s₂

def ofPlain (cs : List Char) (h : cs.all isPlain = true) : Str :=
  cs.pmap (fun c hc => .plain ⟨c, hc⟩) (all_eq_true.1 h)

end Str

def quoted (w : List Char) : List Char := '"' :: (w ++ ['"'])

abbrev Blanks := { cs : List Char // ∀ c ∈ cs, isBlank c = true }

abbrev Digits := { cs : List Char // cs ≠ [] ∧ ∀ c ∈ cs, isDigit c = true }

structure Number where
  negative : Bool
  int : Digits
  noLeadingZero : int.1.head? = some '0' → int.1 = ['0']
  fraction : Option Digits
  exponent : Option (Bool × Option Bool × Digits)

def Number.text (n : Number) : List Char :=
  (if n.negative then ['-'] else []) ++ n.int.1 ++ (n.fraction.elim [] fun ds => '.' :: ds.1) ++
    n.exponent.elim [] fun (upper, sign, ds) =>
      (if upper then 'E' else 'e') :: (sign.elim [] fun minus => [if minus then '-' else '+']) ++ ds.1

inductive Literal
  | null
  | true
  | false

def Literal.text : Literal → List Char
  | null => ['n', 'u', 'l', 'l']
  | true => ['t', 'r', 'u', 'e']
  | false => ['f', 'a', 'l', 's', 'e']

inductive Mark
  | openBrace
  | closeBrace
  | openBracket
  | closeBracket
  | comma
  | colon

def Mark.char : Mark → Char
  | openBrace => '\x7b'
  | closeBrace => '\x7d'
  | openBracket => '['
  | closeBracket => ']'
  | comma => ','
  | colon => ':'

inductive Token
  | blanks (cs : Blanks)
  | mark (m : Mark)
  | literal (l : Literal)
  | number (n : Number)
  | str (s : Str)

namespace Token

def text : Token → List Char
  | blanks cs => cs.1
  | mark m => [m.char]
  | literal l => l.text
  | number n => n.text
  | str s => s.text

def str? : Token → Option Str
  | str s => some s
  | _ => none

end Token

def textOf (ts : List Token) : List Char := ts.flatMap Token.text

theorem textOf_append (ts ts' : List Token) : textOf (ts ++ ts') = textOf ts ++ textOf ts' := flatMap_append

def strings (ts : List Token) : List Str := ts.filterMap Token.str?

theorem strings_append (ts ts' : List Token) : strings (ts ++ ts') = strings ts ++ strings ts' := filterMap_append

theorem first_string (P : Str → Prop) (ts : List Token) :
    (∀ s ∈ strings ts, ¬ P s) ∨
      ∃ ts₁ s ts₂, ts = ts₁ ++ .str s :: ts₂ ∧ (∀ s' ∈ strings ts₁, ¬ P s') ∧ P s := by
  induction ts with
  | nil => exact .inl (forall_mem_nil _)
  | cons token ts ih =>
    by_cases htoken : ∃ s, token = .str s ∧ P s
    · obtain ⟨s, rfl, hs⟩ := htoken
      exact .inr ⟨[], s, ts, rfl, forall_mem_nil _, hs⟩
    · have hcons : ∀ ts, (∀ s ∈ strings ts, ¬ P s) → ∀ s ∈ strings (token :: ts), ¬ P s := by
        intro ts h
        cases token with
        | str s => exact forall_mem_cons.2 ⟨fun hs => htoken ⟨s, rfl, hs⟩, h⟩
        | _ => exact h
      rcases ih with h | ⟨ts₁, s, ts₂, rfl, h, hs⟩
      · exact .inl (hcons ts h)
      · exact .inr ⟨token :: ts₁, s, ts₂, rfl, hcons ts₁ h, hs⟩

mutual

inductive Value
  | literal (l : Literal)
  | number (n : Number)
  | string (s : Str)
  | array (blanks : Blanks) (elements : List Element)
  | object (blanks : Blanks) (members : List Member)

inductive Element
  | mk (before : Blanks) (value : Value) (after : Blanks)

inductive Member
  | mk (before : Blanks) (name : Str) (between : Blanks) (element : Element)

end

mutual

def Value.tokens : Value → List Token
  | .literal l => [.literal l]
  | .number n => [.number n]
  | .string s => [.str s]
  | .array blanks elements =>
    .mark .openBracket :: .blanks blanks :: elementsTokens [] elements ++ [.mark .closeBracket]
  | .object blanks members => .mark .openBrace :: .blanks blanks :: membersTokens [] members ++ [.mark .closeBrace]

def Element.tokens : Element → List Token
  | .mk before value after => .blanks before :: value.tokens ++ [.blanks after]

def Member.tokens : Member → List Token
  | .mk before name between element =>
    .blanks before :: .str name :: .blanks between :: .mark .colon :: element.tokens

def elementsTokens (separator : List Token) : List Element → List Token
  | [] => []
  | element :: elements => separator ++ element.tokens ++ elementsTokens [.mark .comma] elements

def membersTokens (separator : List Token) : List Member → List Token
  | [] => []
  | member :: members => separator ++ member.tokens ++ membersTokens [.mark .comma] members

end

theorem membersTokens_append (separator : List Token) (members members' : List Member) :
    membersTokens separator (members ++ members') = membersTokens separator members ++
      membersTokens (if members.isEmpty then separator else [.mark .comma]) members' := by
  induction members generalizing separator with
  | nil => rfl
  | cons member members ih =>
    rw [cons_append, membersTokens, membersTokens, ih, append_assoc _ (membersTokens _ members)]
    cases members <;> rfl

def noBlanks : Blanks := ⟨[], forall_mem_nil _⟩

def Member.compact (name : Str) (value : Value) : Member := .mk noBlanks name noBlanks (.mk noBlanks value noBlanks)

def Member.name : Member → Str
  | .mk _ name _ _ => name

mutual

def Value.memberNames : Value → List Str
  | .array _ elements => elementsNames elements
  | .object _ members => membersNames members
  | _ => []

def Element.memberNames : Element → List Str
  | .mk _ value _ => value.memberNames

def Member.memberNames : Member → List Str
  | .mk _ name _ element => name :: element.memberNames

def elementsNames : List Element → List Str
  | [] => []
  | element :: elements => element.memberNames ++ elementsNames elements

def membersNames : List Member → List Str
  | [] => []
  | member :: members => member.memberNames ++ membersNames members

end

/-- A word that cannot be taken for something outside of a string. -/
structure IsWord (w : List Char) : Prop where
  plain : ∀ c ∈ w, isPlain c = true
  nonempty : w ≠ []
  outside : ∀ c ∈ w.head?, isOutside c = false

section Strings

variable {w t : List Char} {s s₁ s₂ : Str}

theorem ne_quote_of_isPlain {c : Char} (h : isPlain c = true) : c ≠ '"' := by
  rintro rfl
  cases h

theorem ne_backslash_of_isPlain {c : Char} (h : isPlain c = true) : c ≠ '\\' := by
  rintro rfl
  cases h

theorem Str.Spells.body_eq (h : Str.Spells w s) : s.body = w := by
  induction h with
  | nil => rfl
  | @cons c item w s hitem _ ih =>
    show item.text ++ Str.body s = c :: w
    rw [hitem, ih]
    rfl

theorem Str.Spells.text_eq (h : Str.Spells w s) : s.text = quoted w := by
  rw [Str.text, h.body_eq]
  rfl

theorem Str.Spells.escape_not_mem (h : Str.Spells w s) (e : Escape) : Item.escape e ∉ s := by
  induction h with
  | nil => exact not_mem_nil
  | @cons c item w s hitem _ ih =>
    rw [mem_cons, not_or]
    refine ⟨?_, ih⟩
    rintro rfl
    cases e <;> cases hitem

theorem Str.spells_ofPlain (hw : w.all isPlain = true) : Str.Spells w (.ofPlain w hw) := by
  induction w with
  | nil => exact .nil
  | cons c w ih =>
    have htail : w.all isPlain = true := by
      rw [all_cons, Bool.and_eq_true] at hw
      exact hw.2
    exact .cons rfl (ih htail)

theorem Str.Reads.suffix (h : Str.Reads w s) : w <:+ s.body := by
  rcases h with h | ⟨s₁, s₂, rfl, h⟩
  · exact h.body_eq.symm ▸ suffix_refl w
  · have hbody : Str.body (s₁ ++ .escape .quote :: s₂) = Str.body (s₁ ++ [.escape .quote]) ++ Str.body s₂ := by
      simp [Str.body]
    rw [hbody, h.body_eq]
    exact suffix_append _ w

theorem Str.Spells.quote_not_mem (h : Str.Spells w s) : '"' ∉ w := by
  induction h with
  | nil => exact not_mem_nil
  | @cons c item w s hitem _ ih =>
    rw [mem_cons, not_or]
    refine ⟨?_, ih⟩
    rintro rfl
    cases item with
    | plain c => exact ne_quote_of_isPlain c.2 (List.cons.inj hitem).1
    | escape e => cases e <;> cases hitem

theorem Str.spells_of_prefix (hw : ∀ c ∈ w, isPlain c = true) (h : w ++ ['"'] <+: s.body ++ '"' :: t) :
    Str.Spells w s := by
  induction w generalizing s with
  | nil =>
    rcases s with _ | ⟨item, s⟩
    · exact .nil
    · exfalso
      cases item with
      | plain c =>
        have hquote := (cons_prefix_cons.1 h).1
        exact ne_quote_of_isPlain c.2 hquote.symm
      | escape e => cases (cons_prefix_cons.1 h).1
  | cons c w ih =>
    rcases s with _ | ⟨item, s⟩
    · have hquote := (cons_prefix_cons.1 h).1
      exact absurd hquote (ne_quote_of_isPlain (hw c mem_cons_self))
    · cases item with
      | plain c' =>
        obtain ⟨hc, h⟩ := cons_prefix_cons.1 h
        refine .cons ?_ (ih (fun c hc => hw c (mem_cons_of_mem _ hc)) h)
        rw [hc]
        rfl
      | escape e =>
        have hbackslash := (cons_prefix_cons.1 h).1
        exact absurd hbackslash (ne_backslash_of_isPlain (hw c mem_cons_self))

theorem Escape.quote_not_mem_text {e : Escape} (h : e ≠ .quote) : '"' ∉ e.text := by
  cases e with
  | quote => exact absurd rfl h
  | unicode a b c d =>
    have hhex : ∀ x : { c : Char // isHex c = true }, '"' ≠ x.1 := by
      rintro ⟨x, hx⟩ rfl
      cases hx
    simp [Escape.text, hhex]
  | _ => decide

theorem fromFirst_items (hw : ∀ c ∈ w, isPlain c = true)
    (h : ∀ p q, s₁ = p ++ .escape .quote :: q → ¬ Str.Spells w (q ++ s₂)) :
    fromFirst (quoted w) (Str.body s₁ ++ (Str.body s₂ ++ '"' :: t)) = fromFirst (quoted w) (Str.body s₂ ++ '"' :: t) := by
  induction s₁ with
  | nil => rfl
  | cons item s₁ ih =>
    have hrest := ih fun p q heq => h (item :: p) q (by rw [heq]; rfl)
    cases item with
    | plain c => exact (fromFirst_cons_of_ne (ne_quote_of_isPlain c.2)).trans hrest
    | escape e =>
      show fromFirst (quoted w) ('\\' :: (e.text ++ Str.body s₁) ++ (Str.body s₂ ++ '"' :: t)) = _
      rw [cons_append, quoted, fromFirst_cons_of_ne (by decide), append_assoc]
      by_cases he : e = .quote
      · subst he
        refine (fromFirst_cons_of_not fun hpfx => ?_).trans hrest
        have hspells := (cons_prefix_cons.1 hpfx).2
        rw [← append_assoc, ← nil_append (Str.body s₁ ++ Str.body s₂)] at hspells
        have hbody : ([] : List Char) ++ (Str.body s₁ ++ Str.body s₂) = Str.body (s₁ ++ s₂) := by
          simp [Str.body]
        rw [hbody] at hspells
        exact h [] s₁ rfl (Str.spells_of_prefix hw hspells)
      · rw [fromFirst_append (Escape.quote_not_mem_text he)]
        exact hrest

theorem fromFirst_open (hw : ∀ c ∈ w, isPlain c = true) (h : ¬ Str.Spells w s) :
    fromFirst (quoted w) (s.text ++ t) = fromFirst (quoted w) (s.body ++ '"' :: t) := by
  have htext : s.text ++ t = '"' :: (s.body ++ '"' :: t) := by simp [Str.text]
  rw [htext]
  exact fromFirst_cons_of_not fun hpfx => h (Str.spells_of_prefix hw (cons_prefix_cons.1 hpfx).2)

theorem fromFirst_str (hw : IsWord w) (h : ¬ Str.Reads w s) (ht : w.head? ≠ t.head?) :
    fromFirst (quoted w) (s.text ++ t) = fromFirst (quoted w) t := by
  rw [Str.Reads, not_or] at h
  have hitems : fromFirst (quoted w) (s.body ++ (Str.body [] ++ '"' :: t)) =
      fromFirst (quoted w) (Str.body [] ++ '"' :: t) :=
    fromFirst_items hw.plain fun p q heq hspells => h.2 ⟨p, q, heq, by rwa [append_nil] at hspells⟩
  rw [fromFirst_open hw.plain h.1]
  refine hitems.trans (fromFirst_cons_of_not fun hpfx => ht ?_)
  obtain ⟨c, cs, rfl⟩ := exists_cons_of_ne_nil hw.nonempty
  obtain ⟨rest, hrest⟩ := (cons_prefix_cons.1 hpfx).2
  rw [← hrest]
  rfl

theorem fromFirst_reads (hw : IsWord w) (h : Str.Reads w s) :
    fromFirst (quoted w) (s.text ++ t) = some (quoted w ++ t) := by
  rcases h with h | ⟨s₁, s₂, rfl, h⟩
  · rw [h.text_eq]
    exact fromFirst_self _ _
  have hescape : ∀ q : Str, ¬ Str.Spells w (q ++ .escape .quote :: s₂) := fun q hspells =>
    hspells.escape_not_mem .quote (mem_append_right _ mem_cons_self)
  have hbody : Str.body (s₁ ++ .escape .quote :: s₂) ++ '"' :: t =
      Str.body s₁ ++ (Str.body (.escape .quote :: s₂) ++ '"' :: t) := by simp [Str.body]
  have hword : Str.body (.escape .quote :: s₂) ++ '"' :: t = '\\' :: (quoted w ++ t) := by
    show '\\' :: '"' :: (Str.body s₂ ++ '"' :: t) = _
    rw [h.body_eq, quoted]
    simp
  rw [fromFirst_open hw.plain (hescape s₁), hbody, fromFirst_items hw.plain fun p q _ => hescape q, hword]
  refine (fromFirst_cons_of_ne (by decide)).trans ?_
  exact fromFirst_self _ _

end Strings

section Tokens

variable {w t : List Char} {ts : List Token}

theorem outside_of_isBlank {c : Char} (h : isBlank c = true) : isOutside c = true := by
  have hall : [' ', '\t', '\n', '\r'].all isOutside = true := by decide
  exact all_eq_true.1 hall c (contains_iff_mem.1 h)

theorem outside_of_isDigit {c : Char} (h : isDigit c = true) : isOutside c = true := by
  have hall : "0123456789".toList.all isOutside = true := by decide
  exact all_eq_true.1 hall c (contains_iff_mem.1 h)

theorem Digits.outside (ds : Digits) : ∀ c ∈ ds.1, isOutside c = true :=
  fun c hc => outside_of_isDigit (ds.2.2 c hc)

theorem Number.outside (n : Number) : ∀ c ∈ n.text, isOutside c = true := by
  have hsign : ∀ b : Bool, (if b then ['-'] else []).all isOutside = true := by decide
  rw [Number.text]
  refine forall_mem_append.2 ⟨forall_mem_append.2 ⟨forall_mem_append.2
    ⟨all_eq_true.1 (hsign n.negative), Digits.outside n.int⟩, ?_⟩, ?_⟩
  · cases n.fraction with
    | none => exact forall_mem_nil _
    | some ds => exact forall_mem_cons.2 ⟨by decide, Digits.outside ds⟩
  · cases n.exponent with
    | none => exact forall_mem_nil _
    | some exponent =>
      obtain ⟨upper, sign, ds⟩ := exponent
      refine forall_mem_append.2 ⟨all_eq_true.1 ?_, Digits.outside ds⟩
      cases upper <;> rcases sign with _ | _ | _ <;> decide

theorem Token.outside {token : Token} (h : token.str? = none) : ∀ c ∈ token.text, isOutside c = true := by
  cases token with
  | str s => cases h
  | blanks cs => exact fun c hc => outside_of_isBlank (cs.2 c hc)
  | mark m =>
    refine all_eq_true.1 ?_
    cases m <;> decide
  | literal l =>
    refine all_eq_true.1 ?_
    cases l <;> decide
  | number n => exact n.outside

theorem quote_not_outside : isOutside '"' = false := by decide

theorem head?_textOf (hw : IsWord w) (ht : w.head? ≠ t.head?) : w.head? ≠ (textOf ts ++ t).head? := by
  induction ts with
  | nil => exact ht
  | cons token ts ih =>
    show w.head? ≠ (token.text ++ textOf ts ++ t).head?
    rcases htext : token.text with _ | ⟨c, cs⟩
    · exact ih
    · intro hhead
      have hplain : isPlain c = true := hw.plain c (mem_of_mem_head? hhead)
      have houtside : isOutside c = false := hw.outside c hhead
      cases token with
      | str s =>
        have hc : '"' = c := (List.cons.inj htext).1
        rw [← hc] at hplain
        cases hplain
      | _ =>
        have houtside' := Token.outside rfl c (htext ▸ mem_cons_self)
        cases houtside.symm.trans houtside'

theorem fromFirst_tokens (hw : IsWord w) (h : ∀ s ∈ strings ts, ¬ Str.Reads w s) (ht : w.head? ≠ t.head?) :
    fromFirst (quoted w) (textOf ts ++ t) = fromFirst (quoted w) t := by
  induction ts with
  | nil => rfl
  | cons token ts ih =>
    show fromFirst (quoted w) (token.text ++ textOf ts ++ t) = _
    rw [append_assoc]
    cases token with
    | str s =>
      have h : ∀ s' ∈ s :: strings ts, ¬ Str.Reads w s' := h
      refine (fromFirst_str hw (h s mem_cons_self) (head?_textOf hw ht)).trans (ih fun s' hs' => ?_)
      exact h s' (mem_cons_of_mem _ hs')
    | _ =>
      refine (fromFirst_append fun hquote => ?_).trans (ih h)
      cases quote_not_outside.symm.trans (Token.outside rfl _ hquote)

end Tokens

end JsonText
