import Mathlib.Tactic.Common

/-!
# Programs that ask questions

A dialogue asks questions, goes on as the answers tell it, and ends with a value.
-/

inductive Dialogue (Q A α : Type) : Type
  | done (a : α)
  | ask (q : Q) (k : A → Dialogue Q A α)

namespace Dialogue

variable {Q A α β : Type}

protected def bind : Dialogue Q A α → (α → Dialogue Q A β) → Dialogue Q A β
  | done a, f => f a
  | ask q k, f => ask q fun answer => (k answer).bind f

instance : Monad (Dialogue Q A) where
  pure := done
  bind := Dialogue.bind

def answerTo (q : Q) : Dialogue Q A A := ask q done

/-- The dialogue ends with this value after these questions and answers. -/
def Ends : Dialogue Q A α → List (Q × A) → α → Prop
  | done a, [], b => a = b
  | ask q k, (q', answer) :: t, b => q = q' ∧ (k answer).Ends t b
  | _, _, _ => False

variable {t : List (Q × A)}

theorem ends_done {a b : α} : (done a : Dialogue Q A α).Ends t b ↔ t = [] ∧ a = b := by
  cases t with
  | nil => exact (and_iff_right rfl).symm
  | cons x t => exact iff_of_false id fun h => by cases h.1

theorem ends_pure {a b : α} : (pure a : Dialogue Q A α).Ends t b ↔ t = [] ∧ a = b := ends_done

theorem ends_answerTo {q : Q} {answer : A} : (answerTo q).Ends t answer ↔ t = [(q, answer)] := by
  cases t with
  | nil => exact iff_of_false id nofun
  | cons x t =>
    rcases x with ⟨q', answer'⟩
    show q = q' ∧ (done answer' : Dialogue Q A A).Ends t answer ↔ _
    rw [ends_done, List.cons.injEq, Prod.mk.injEq]
    constructor
    · rintro ⟨rfl, rfl, rfl⟩
      exact ⟨⟨rfl, rfl⟩, rfl⟩
    · rintro ⟨⟨rfl, rfl⟩, rfl⟩
      exact ⟨rfl, rfl, rfl⟩

theorem ends_bind {d : Dialogue Q A α} {f : α → Dialogue Q A β} {b : β} :
    (d >>= f).Ends t b ↔ ∃ t₁ t₂ a, t = t₁ ++ t₂ ∧ d.Ends t₁ a ∧ (f a).Ends t₂ b := by
  induction d generalizing t with
  | done a =>
    constructor
    · exact fun h => ⟨[], t, a, rfl, rfl, h⟩
    · rintro ⟨t₁, t₂, a', rfl, ha, h⟩
      obtain ⟨rfl, rfl⟩ := ends_done.1 ha
      exact h
  | ask q k ih =>
    constructor
    · intro h
      rcases t with _ | ⟨⟨q', answer⟩, t⟩
      · exact h.elim
      · obtain ⟨rfl, h⟩ := h
        obtain ⟨t₁, t₂, a, rfl, hd, hf⟩ := (ih answer).1 h
        exact ⟨(q, answer) :: t₁, t₂, a, rfl, ⟨rfl, hd⟩, hf⟩
    · rintro ⟨t₁, t₂, a, rfl, hd, hf⟩
      rcases t₁ with _ | ⟨⟨q', answer⟩, t₁⟩
      · exact hd.elim
      · obtain ⟨rfl, hd⟩ := hd
        exact ⟨rfl, (ih answer).2 ⟨t₁, t₂, a, rfl, hd, hf⟩⟩

theorem ends_answerTo_bind {q : Q} {f : A → Dialogue Q A β} {b : β} :
    (answerTo q >>= f).Ends t b ↔ ∃ answer t', t = (q, answer) :: t' ∧ (f answer).Ends t' b := by
  rw [ends_bind]
  constructor
  · rintro ⟨t₁, t₂, answer, rfl, hq, hf⟩
    rw [ends_answerTo.1 hq]
    exact ⟨answer, t₂, rfl, hf⟩
  · rintro ⟨answer, t', rfl, hf⟩
    exact ⟨[(q, answer)], t', answer, rfl, ends_answerTo.2 rfl, hf⟩

section Serve

variable {σ : Type} (answer : Q → σ → Option (A × σ))

def serve : Dialogue Q A α → σ → Option (α × List (Q × A) × σ)
  | done a, s => some (a, [], s)
  | ask q k, s => do
    let (x, s) ← answer q s
    let (a, t, s) ← (k x).serve s
    return (a, (q, x) :: t, s)

/-- The answers are those of a party that goes through these states. -/
def Answered : σ → List (Q × A) → σ → Prop
  | s, [], s' => s = s'
  | s, (q, x) :: t, s' => ∃ s₁, answer q s = some (x, s₁) ∧ Answered s₁ t s'

theorem serve_eq_some_iff {d : Dialogue Q A α} {s s' : σ} {a : α} {t : List (Q × A)} :
    d.serve answer s = some (a, t, s') ↔ d.Ends t a ∧ Answered answer s t s' := by
  induction d generalizing s t with
  | done b =>
    rw [serve, ends_done, Option.some.injEq, Prod.mk.injEq, Prod.mk.injEq]
    constructor
    · rintro ⟨rfl, rfl, rfl⟩
      exact ⟨⟨rfl, rfl⟩, rfl⟩
    · rintro ⟨⟨rfl, rfl⟩, hs⟩
      exact ⟨rfl, rfl, hs⟩
  | ask q k ih =>
    constructor
    · intro h
      simp only [serve, Option.bind_eq_bind, Option.bind_eq_some_iff, Option.pure_def, Option.some.injEq,
        Prod.mk.injEq] at h
      obtain ⟨⟨x, s₁⟩, hx, ⟨b, t₁, s₂⟩, hk, rfl, rfl, rfl⟩ := h
      obtain ⟨hends, hserved⟩ := (ih x).1 hk
      exact ⟨⟨rfl, hends⟩, s₁, hx, hserved⟩
    · rintro ⟨hends, hserved⟩
      rcases t with _ | ⟨⟨q', x⟩, t⟩
      · exact hends.elim
      · obtain ⟨rfl, hends⟩ := hends
        obtain ⟨s₁, hx, hserved⟩ := hserved
        simp [serve, hx, (ih x).2 ⟨hends, hserved⟩]

end Serve

end Dialogue
