import Mathlib.Data.List.Infix

/-!
# Incremental parsers

A parser ends on a part of the input that has arrived, fails on it, or needs more of it.
-/

namespace Incremental

open List

inductive Outcome (ε τ α : Type)
  | done (a : α) (rest : List τ)
  | more
  | fail (e : ε)
deriving DecidableEq

def Outcome.halted {ε τ α : Type} : Option ε → Outcome ε τ α
  | none => .more
  | some e => .fail e

def Parser (ε τ α : Type) := List τ → Outcome ε τ α

namespace Parser

variable {ε τ α β : Type}

def pure (a : α) : Parser ε τ α := fun input => .done a input

def fail (e : ε) : Parser ε τ α := fun _ => .fail e

def unexpectedAny (e : ε) : Parser ε τ α
  | [] => .more
  | _ :: _ => .fail e

def bind (p : Parser ε τ α) (f : α → Parser ε τ β) : Parser ε τ β := fun input =>
  match p input with
  | .done a rest => f a rest
  | .more => .more
  | .fail e => .fail e

instance : Monad (Parser ε τ) where
  pure := pure
  bind := bind

def ofExcept : Except ε α → Parser ε τ α
  | .ok a => pure a
  | .error e => fail e

def any : Parser ε τ τ
  | [] => .more
  | t :: rest => .done t rest

def take (n : Nat) : Parser ε τ (List τ) := fun input =>
  if n ≤ input.length then .done (input.take n) (input.drop n) else .more

def token [DecidableEq τ] (t : τ) (e : ε) : Parser ε τ Unit
  | [] => .more
  | u :: rest => if u = t then .done () rest else .fail e

def takeUntil [DecidableEq τ] (x y : τ) : Parser ε τ (List τ)
  | [] => .more
  | [_] => .more
  | t :: u :: rest =>
    if t = x ∧ u = y then .done [] rest
    else match takeUntil x y (u :: rest) with
      | .done l rest => .done (t :: l) rest
      | .more => .more
      | .fail e => .fail e

def count (p : Parser ε τ α) : Nat → Parser ε τ (List α)
  | 0 => pure []
  | n + 1 => p.bind fun a => (count p n).bind fun as => pure (a :: as)

def all (p : Parser ε τ α) : Nat → List τ → Option (List α)
  | _, [] => some []
  | 0, _ :: _ => none
  | fuel + 1, t :: input => match p (t :: input) with
    | .done a rest => (all p fuel rest).map (a :: ·)
    | _ => none

theorem unexpectedAny_of_ne_nil (e : ε) {input : List τ} (h : input ≠ []) :
    (unexpectedAny e : Parser ε τ α) input = .fail e := by
  obtain ⟨t, input, rfl⟩ := exists_cons_of_ne_nil h
  rfl

theorem bind_assoc {γ : Type} (p : Parser ε τ α) (f : α → Parser ε τ β) (g : β → Parser ε τ γ) :
    (p.bind f).bind g = p.bind fun a => (f a).bind g := by
  funext input
  simp only [bind]
  cases p input <;> rfl

theorem count_add (p : Parser ε τ α) (m n : Nat) :
    p.count (m + n) = (p.count m).bind fun as => (p.count n).bind fun bs => pure (as ++ bs) := by
  induction m with
  | zero =>
    rw [Nat.zero_add]
    funext input
    simp only [count, bind, pure, nil_append]
    cases p.count n input <;> rfl
  | succ m ih =>
    rw [Nat.add_right_comm, count, ih]
    simp only [count, bind_assoc]
    rfl

section Halted

variable {p : Parser ε τ α} {input left : List τ} {o : Option ε}

theorem bind_of_done {f : α → Parser ε τ β} {a : α} (h : p input = .done a left) : (p.bind f) input = f a left := by
  rw [bind, h]

theorem bind_halted (f : α → Parser ε τ β) (h : p input = .halted o) : (p.bind f) input = .halted o := by
  rw [bind, h]
  cases o <;> rfl

theorem count_halted {m n : Nat} {as : List α} (hm : p.count m input = .done as left) (h : p left = .halted o)
    (hlt : m < n) : p.count n input = .halted o := by
  obtain ⟨k, rfl⟩ := Nat.exists_eq_add_of_lt hlt
  rw [Nat.add_assoc, count_add, bind_of_done hm]
  exact bind_halted _ (bind_halted _ h)

end Halted

end Parser

/-- The parser reads the encoding exactly, and sees that it is incomplete when it is. -/
structure Reads {ε τ α : Type} (p : Parser ε τ α) (enc : List τ) (a : α) : Prop where
  done : ∀ rest, p (enc ++ rest) = .done a rest
  more : ∀ {part}, part <+: enc → part ≠ enc → p part = .more

namespace Reads

variable {ε τ α β : Type} {p : Parser ε τ α} {enc enc₁ enc₂ : List τ} {a : α} {b : β}

theorem pure (a : α) : Reads (Parser.pure a : Parser ε τ α) [] a where
  done _ := rfl
  more h hne := absurd (prefix_nil.1 h) hne

theorem bind {f : α → Parser ε τ β} (hp : Reads p enc₁ a) (hf : Reads (f a) enc₂ b) :
    Reads (p.bind f) (enc₁ ++ enc₂) b where
  done rest := by
    rw [append_assoc, Parser.bind, hp.done]
    exact hf.done rest
  more {part} h hne := by
    -- the part ends in the first encoding or in the second one
    rcases prefix_or_prefix_of_prefix h (prefix_append enc₁ enc₂) with h₁ | ⟨part₂, rfl⟩
    · by_cases hwhole : part = enc₁
      · subst hwhole
        have hrest := hp.done []
        rw [append_nil] at hrest
        rw [Parser.bind, hrest]
        exact hf.more nil_prefix fun hnil => hne (by rw [← hnil, append_nil])
      · rw [Parser.bind, hp.more h₁ hwhole]
    · rw [Parser.bind, hp.done]
      exact hf.more ((prefix_append_right_inj enc₁).1 h) fun heq => hne (by rw [heq])

theorem bind_nil {f : α → Parser ε τ β} (hp : Reads p enc a) (hf : Reads (f a) [] b) : Reads (p.bind f) enc b := by
  have h := hp.bind hf
  rwa [append_nil] at h

theorem ofExcept {r : Except ε α} (h : r = .ok a) : Reads (Parser.ofExcept r : Parser ε τ α) [] a := by
  subst h
  exact pure a

theorem any (t : τ) : Reads (Parser.any : Parser ε τ τ) [t] t where
  done _ := rfl
  more {part} h hne := by
    rcases part with _ | ⟨u, part⟩
    · rfl
    · obtain ⟨rfl, hnil⟩ := cons_prefix_cons.1 h
      exact absurd (by rw [prefix_nil.1 hnil]) hne

theorem take {n : Nat} {l : List τ} (h : l.length = n) : Reads (Parser.take n : Parser ε τ (List τ)) l l where
  done rest := by
    have hle : n ≤ (l ++ rest).length := by
      rw [length_append]
      omega
    rw [Parser.take, if_pos hle, ← h, take_left, drop_left]
  more {part} hpre hne := by
    have hlt : part.length < l.length :=
      Nat.lt_of_le_of_ne hpre.length_le fun heq => hne (hpre.eq_of_length heq)
    rw [Parser.take, if_neg (by omega)]

theorem token [DecidableEq τ] (t : τ) (e : ε) : Reads (Parser.token t e : Parser ε τ Unit) [t] () where
  done rest := by
    show (if t = t then _ else _) = _
    rw [if_pos rfl]
    rfl
  more {part} h hne := by
    rcases part with _ | ⟨u, part⟩
    · rfl
    · obtain ⟨rfl, hnil⟩ := cons_prefix_cons.1 h
      exact absurd (by rw [prefix_nil.1 hnil]) hne

theorem not_infix_of_part {x y : τ} {l part : List τ} (h : ¬ [x, y] <:+: l) (hxy : x ≠ y) (hpre : part <+: l ++ [x, y])
    (hne : part ≠ l ++ [x, y]) : ¬ [x, y] <:+: part := by
  have hpart : part <+: l ++ [x] := by
    have happ : l ++ [x, y] = (l ++ [x]) ++ [y] := by simp
    rw [happ] at hpre hne
    rcases prefix_concat_iff.1 hpre with heq | hpre
    · exact absurd heq hne
    · exact hpre
  intro hin
  obtain ⟨s, t, hst⟩ := hin.trans hpart.isInfix
  rcases eq_nil_or_concat t with rfl | ⟨t, z, rfl⟩
  · have hlast := congrArg List.getLast? hst
    simp only [append_nil, getLast?_append, getLast?_cons_cons, getLast?_singleton,
      Option.some_or] at hlast
    exact hxy (Option.some.inj hlast).symm
  · refine h ⟨s, t, ?_⟩
    have happ : (s ++ [x, y] ++ t) ++ [z] = l ++ [x] := by
      rw [← hst]
      simp
    exact (append_inj' happ rfl).1

section TakeUntil

variable [DecidableEq τ] {x y : τ}

theorem takeUntil_done {l : List τ} (h : ¬ [x, y] <:+: l) (hxy : x ≠ y) (rest : List τ) :
    (Parser.takeUntil x y : Parser ε τ (List τ)) (l ++ x :: y :: rest) = .done l rest := by
  induction l with
  | nil =>
    show (if x = x ∧ y = y then _ else _) = _
    rw [if_pos ⟨rfl, rfl⟩]
  | cons t l ih =>
    have hl := ih fun hin => h (hin.trans (suffix_cons t l).isInfix)
    rcases l with _ | ⟨u, l⟩
    · have hne : ¬ (t = x ∧ x = y) := fun hh => hxy hh.2
      rw [nil_append] at hl
      simp only [cons_append, nil_append, Parser.takeUntil, if_neg hne] at hl ⊢
      simp only [hl]
    · have hne : ¬ (t = x ∧ u = y) := by
        rintro ⟨rfl, rfl⟩
        exact h ⟨[], l, rfl⟩
      simp only [cons_append, Parser.takeUntil, if_neg hne] at hl ⊢
      simp only [hl]

theorem takeUntil_more {l : List τ} (h : ¬ [x, y] <:+: l) :
    (Parser.takeUntil x y : Parser ε τ (List τ)) l = .more := by
  induction l with
  | nil => rfl
  | cons t l ih =>
    have hl := ih fun hin => h (hin.trans (suffix_cons t l).isInfix)
    rcases l with _ | ⟨u, l⟩
    · rfl
    · have hne : ¬ (t = x ∧ u = y) := by
        rintro ⟨rfl, rfl⟩
        exact h ⟨[], l, rfl⟩
      simp only [Parser.takeUntil, if_neg hne, hl]

theorem takeUntil {l : List τ} (h : ¬ [x, y] <:+: l) (hxy : x ≠ y) :
    Reads (Parser.takeUntil x y : Parser ε τ (List τ)) (l ++ [x, y]) l where
  done rest := by
    rw [append_assoc]
    exact takeUntil_done h hxy rest
  more hpre hne := takeUntil_more (not_infix_of_part h hxy hpre hne)

end TakeUntil

theorem count_zero (p : Parser ε τ α) : Reads (p.count 0) [] [] := pure []

theorem count_succ {n : Nat} {as : List α} (hp : Reads p enc₁ a) (hs : Reads (p.count n) enc₂ as) :
    Reads (p.count (n + 1)) (enc₁ ++ enc₂) (a :: as) := hp.bind (hs.bind_nil (pure _))

theorem count_add {m n : Nat} {as bs : List α} (hs : Reads (p.count m) enc₁ as) (ht : Reads (p.count n) enc₂ bs) :
    Reads (p.count (m + n)) (enc₁ ++ enc₂) (as ++ bs) := by
  rw [Parser.count_add]
  exact hs.bind (ht.bind_nil (pure _))

theorem all {encode : β → List τ} {decode : β → α} {bs : List β} (hp : ∀ b ∈ bs, Reads p (encode b) (decode b))
    (hne : ∀ b ∈ bs, encode b ≠ []) {fuel : Nat} (hfuel : bs.length ≤ fuel) :
    p.all fuel (bs.flatMap encode) = some (bs.map decode) := by
  induction bs generalizing fuel with
  | nil => cases fuel <;> rfl
  | cons b bs ih =>
    obtain ⟨fuel, rfl⟩ : ∃ k, fuel = k + 1 := ⟨fuel - 1, by simp only [length_cons] at hfuel; omega⟩
    have htail := ih (fun c hc => hp c (mem_cons_of_mem b hc)) (fun c hc => hne c (mem_cons_of_mem b hc))
      (Nat.le_of_succ_le_succ hfuel)
    have hhead := (hp b mem_cons_self).done (bs.flatMap encode)
    obtain ⟨t, enc, henc⟩ := exists_cons_of_ne_nil (hne b mem_cons_self)
    rw [henc, cons_append] at hhead
    rw [flatMap_cons, henc, cons_append, Parser.all, hhead]
    simp [htail]

end Reads

/-- The parser fails on the encoding, whatever follows it. -/
structure Fails {ε τ α : Type} (p : Parser ε τ α) (enc : List τ) (e : ε) : Prop where
  fail : ∀ rest, p (enc ++ rest) = .fail e

namespace Fails

variable {ε τ α β : Type} {p : Parser ε τ α} {enc enc₁ enc₂ : List τ} {a : α} {e : ε}

theorem bind {f : α → Parser ε τ β} (h : Fails p enc e) : Fails (p.bind f) enc e where
  fail rest := by rw [Parser.bind, h.fail]

theorem after {f : α → Parser ε τ β} (hp : ∀ rest, p (enc₁ ++ rest) = .done a rest) (hf : Fails (f a) enc₂ e) :
    Fails (p.bind f) (enc₁ ++ enc₂) e where
  fail rest := by
    rw [append_assoc]
    exact (Parser.bind_of_done (hp _)).trans (hf.fail rest)

theorem count_succ (n : Nat) (h : Fails p enc e) : Fails (p.count (n + 1)) enc e := h.bind

theorem append (h : Fails p enc₁ e) (enc₂ : List τ) : Fails p (enc₁ ++ enc₂) e where
  fail rest := by
    rw [append_assoc]
    exact h.fail _

end Fails

/-- The parser reads the encoding, or refuses it with one of the errors `allowed`. -/
def Decided {ε τ α : Type} (allowed : ε → Prop) (p : Parser ε τ α) (enc : List τ) : Prop :=
  (∃ a, ∀ rest, p (enc ++ rest) = .done a rest) ∨ ∃ e, allowed e ∧ Fails p enc e

namespace Decided

variable {ε τ α β : Type} {allowed : ε → Prop} {p : Parser ε τ α} {enc₁ enc₂ : List τ}

theorem pure (a : α) : Decided allowed (Parser.pure a : Parser ε τ α) [] := .inl ⟨a, fun _ => rfl⟩

theorem congr {q : Parser ε τ α} (h : ∀ rest, p (enc₁ ++ rest) = q (enc₂ ++ rest)) (hq : Decided allowed q enc₂) :
    Decided allowed p enc₁ := by
  rcases hq with ⟨a, hdone⟩ | ⟨e, he, hfail⟩
  · exact .inl ⟨a, fun rest => (h rest).trans (hdone rest)⟩
  · exact .inr ⟨e, he, ⟨fun rest => (h rest).trans (hfail.fail rest)⟩⟩

theorem bind {f : α → Parser ε τ β} (hp : Decided allowed p enc₁) (hf : ∀ a, Decided allowed (f a) enc₂) :
    Decided allowed (p.bind f) (enc₁ ++ enc₂) := by
  rcases hp with ⟨a, hdone⟩ | ⟨e, he, hfail⟩
  · refine .congr (fun rest => ?_) (hf a)
    rw [append_assoc]
    exact Parser.bind_of_done (hdone _)
  · exact .inr ⟨e, he, hfail.bind.append enc₂⟩

theorem count_succ {n : Nat} (hp : Decided allowed p enc₁) (hs : Decided allowed (p.count n) enc₂) :
    Decided allowed (p.count (n + 1)) (enc₁ ++ enc₂) := by
  refine hp.bind fun a => ?_
  rw [← append_nil enc₂]
  exact hs.bind fun as => pure (a :: as)

end Decided

end Incremental
