import Mathlib.Data.List.Forall2

/-!
# Stateful computations that can end in a panic

A computation ends with a value or in a panic and keeps its state.
-/

def Prog (ε σ α : Type) : Type := σ → Except ε α × σ

namespace Prog

open List

variable {ε σ α β : Type}

protected def pure (a : α) : Prog ε σ α := fun s => (.ok a, s)

protected def bind (m : Prog ε σ α) (f : α → Prog ε σ β) : Prog ε σ β := fun s =>
  match m s with
  | (.ok a, s) => f a s
  | (.error e, s) => (.error e, s)

instance : Monad (Prog ε σ) where
  pure := Prog.pure
  bind := Prog.bind

def get : Prog ε σ σ := fun s => (.ok s, s)

def modify (f : σ → σ) : Prog ε σ Unit := fun s => (.ok (), f s)

def ofExcept (r : Except ε α) : Prog ε σ α := fun s => (r, s)

def forEach (f : α → Prog ε σ β) : List α → Prog ε σ (List β)
  | [] => Prog.pure []
  | a :: as => Prog.bind (f a) fun b => Prog.bind (forEach f as) fun bs => Prog.pure (b :: bs)

@[simp] theorem get_apply (s : σ) : (get : Prog ε σ σ) s = (.ok s, s) := rfl

variable {m : Prog ε σ α} {f : α → Prog ε σ β}

theorem bind_of_ok {s s' : σ} {a : α} (h : m s = (.ok a, s')) : (m >>= f) s = f a s' := by
  show (match m s with
    | (.ok a, s) => f a s
    | (.error e, s) => (.error e, s)) = _
  rw [h]

theorem bind_of_error {s s' : σ} {e : ε} (h : m s = (.error e, s')) : (m >>= f) s = (.error e, s') := by
  show (match m s with
    | (.ok a, s) => f a s
    | (.error e, s) => (.error e, s)) = _
  rw [h]

theorem bind_error_iff {e : ε} (hf : ∀ a s, (f a s).1 ≠ .error e) (s : σ) :
    ((m >>= f) s).1 = .error e ↔ (m s).1 = .error e := by
  rcases hms : m s with ⟨e' | a, s'⟩
  · rw [bind_of_error hms]
    simp
  · rw [bind_of_ok hms]
    exact ⟨fun h => absurd h (hf a s'), nofun⟩

theorem elim_ok {p : Prop} {a : α} {e : ε} (h : (.ok a : Except ε α) = .error e) : p := by cases h

/-- On a state with `I` the computation ends in one, with a value in `Q` or an error in `E`. -/
structure Keeps (I : σ → Prop) (E : ε → Prop) (Q : α → Prop) (m : Prog ε σ α) : Prop where
  inv : ∀ s, I s → I (m s).2
  value : ∀ s, I s → ∀ a, (m s).1 = .ok a → Q a
  error : ∀ s, I s → ∀ e, (m s).1 = .error e → E e

/-- A value in `Q` or an error in `E`. -/
def EndsIn (E : ε → Prop) (Q : α → Prop) : Except ε α → Prop
  | .ok a => Q a
  | .error e => E e

namespace Keeps

variable {I : σ → Prop} {E : ε → Prop} {Q : α → Prop} {R : β → Prop} {m : Prog ε σ α}

theorem ends (h : Keeps I E Q m) {s : σ} (hs : I s) : EndsIn E Q (m s).1 := by
  cases hr : (m s).1 with
  | ok a => exact h.value s hs a hr
  | error e => exact h.error s hs e hr

theorem of_run (h : ∀ s, I s → I (m s).2 ∧ EndsIn E Q (m s).1) : Keeps I E Q m where
  inv s hs := (h s hs).1
  value s hs a ha := by
    have hends := (h s hs).2
    rwa [ha] at hends
  error s hs e he := by
    have hends := (h s hs).2
    rwa [he] at hends

theorem pure {a : α} (h : Q a) : Keeps I E Q (pure a : Prog ε σ α) := of_run fun _ hs => ⟨hs, h⟩

theorem get : Keeps I E I (get : Prog ε σ σ) := of_run fun _ hs => ⟨hs, hs⟩

theorem modify {f : σ → σ} (h : ∀ s, I s → I (f s)) : Keeps I E (fun _ => True) (modify f : Prog ε σ Unit) :=
  of_run fun s hs => ⟨h s hs, trivial⟩

theorem ofExcept {r : Except ε α} (h : EndsIn E Q r) : Keeps I E Q (ofExcept r : Prog ε σ α) := of_run fun _ hs => ⟨hs, h⟩

theorem bind {f : α → Prog ε σ β} (hm : Keeps I E Q m) (hf : ∀ a, Q a → Keeps I E R (f a)) : Keeps I E R (m >>= f) := by
  refine of_run fun s hs => ?_
  have hinv := hm.inv s hs
  have hends := hm.ends hs
  rcases hms : m s with ⟨e | a, s'⟩ <;> rw [hms] at hinv hends
  · rw [bind_of_error hms]
    exact ⟨hinv, hends⟩
  · rw [bind_of_ok hms]
    exact ⟨(hf a hends).inv s' hinv, (hf a hends).ends hinv⟩

theorem mono {Q' : α → Prop} (h : Keeps I E Q m) (hQ : ∀ a, Q a → Q' a) : Keeps I E Q' m where
  inv := h.inv
  value s hs a ha := hQ a (h.value s hs a ha)
  error := h.error

theorem forEach {f : α → Prog ε σ β} {as : List α} (h : ∀ a ∈ as, Keeps I E R (f a)) :
    Keeps I E (fun bs => ∀ b ∈ bs, R b) (forEach f as) := by
  induction as with
  | nil => exact pure fun _ hb => absurd hb not_mem_nil
  | cons a as ih =>
    refine bind (h a mem_cons_self) fun b hb => ?_
    refine bind (ih fun a' ha' => h a' (mem_cons_of_mem _ ha')) fun bs hbs => pure ?_
    intro b' hb'
    rcases mem_cons.1 hb' with rfl | hb'
    · exact hb
    · exact hbs b' hb'

end Keeps

/-- The computation returns on `s`, with a value and a state in `Q`. -/
def wp (m : Prog ε σ α) (Q : α → σ → Prop) (s : σ) : Prop := ∃ a s', m s = (.ok a, s') ∧ Q a s'

section Wp

variable {Q : α → σ → Prop} {R : β → σ → Prop} {s : σ}

theorem wp_pure {a : α} (h : Q a s) : wp (pure a : Prog ε σ α) Q s := ⟨a, s, rfl, h⟩

theorem wp_bind {m : Prog ε σ α} {f : α → Prog ε σ β} (h : wp m (fun a s' => wp (f a) R s') s) :
    wp (m >>= f) R s := by
  obtain ⟨a, s', hm, b, s'', hf, hb⟩ := h
  exact ⟨b, s'', (bind_of_ok hm).trans hf, hb⟩

theorem wp_mono {Q' : α → σ → Prop} {m : Prog ε σ α} (h : wp m Q s) (hQ : ∀ a s', Q a s' → Q' a s') : wp m Q' s := by
  obtain ⟨a, s', hm, ha⟩ := h
  exact ⟨a, s', hm, hQ a s' ha⟩

end Wp

/-- On `g s` the computation ends in `e` if it raises `mark` on `s`, and does the same as on `s` otherwise. -/
structure Trips (g : σ → σ) (mark : σ → Nat) (e : ε) (D : σ → Prop) (m : Prog ε σ α) : Prop where
  dom : ∀ s, D s → D (m s).2
  le : ∀ s, D s → mark s ≤ mark (m s).2
  same : ∀ s, D s → mark (m s).2 = mark s → m (g s) = ((m s).1, g (m s).2)
  trip : ∀ s, D s → mark s < mark (m s).2 → (m (g s)).1 = .error e

namespace Trips

variable {g : σ → σ} {mark : σ → Nat} {e : ε} {D : σ → Prop}

theorem of_same {m : Prog ε σ α} (hD : ∀ s, D s → D (m s).2) (hmark : ∀ s, mark (m s).2 = mark s)
    (h : ∀ s, m (g s) = ((m s).1, g (m s).2)) : Trips g mark e D m where
  dom := hD
  le s _ := Nat.le_of_eq (hmark s).symm
  same s _ _ := h s
  trip s _ hlt := absurd (hmark s) (Nat.ne_of_gt hlt)

theorem pure (a : α) : Trips g mark e D (pure a : Prog ε σ α) :=
  of_same (fun _ hs => hs) (fun _ => rfl) fun _ => rfl

theorem ofExcept (r : Except ε α) : Trips g mark e D (ofExcept r : Prog ε σ α) :=
  of_same (fun _ hs => hs) (fun _ => rfl) fun _ => rfl

theorem get_bind {f : σ → Prog ε σ α} (hf : ∀ s, f (g s) = f s) (h : ∀ s, Trips g mark e D (f s)) :
    Trips g mark e D (get >>= f) where
  dom s hs := (h s).dom s hs
  le s hs := (h s).le s hs
  same s hs hmark := by
    have hsame := (h s).same s hs hmark
    show f (g s) (g s) = _
    rw [hf, hsame]
    rfl
  trip s hs hlt := by
    have htrip := (h s).trip s hs hlt
    show (f (g s) (g s)).1 = _
    rw [hf, htrip]

theorem bind {m : Prog ε σ α} {f : α → Prog ε σ β} (hm : Trips g mark e D m) (hf : ∀ a, Trips g mark e D (f a)) :
    Trips g mark e D (m >>= f) := by
  -- one split for the four parts: `m` may end the computation or go on with `f`
  have hparts : ∀ s, D s → D ((m >>= f) s).2 ∧ mark s ≤ mark ((m >>= f) s).2 ∧
      (mark ((m >>= f) s).2 = mark s → (m >>= f) (g s) = (((m >>= f) s).1, g ((m >>= f) s).2)) ∧
      (mark s < mark ((m >>= f) s).2 → ((m >>= f) (g s)).1 = .error e) := by
    intro s hs
    have hdom := hm.dom s hs
    have hle := hm.le s hs
    have hsame := hm.same s hs
    have htrip := hm.trip s hs
    rcases hms : m s with ⟨e' | a, s'⟩
    · simp only [hms] at hdom hle hsame htrip
      rw [bind_of_error hms]
      refine ⟨hdom, hle, fun hmark => bind_of_error (hsame hmark), fun hlt => ?_⟩
      rcases hmg : m (g s) with ⟨r, t⟩
      rw [hmg] at htrip
      rw [bind_of_error (hmg.trans (Prod.ext (htrip hlt) rfl))]
    · simp only [hms] at hdom hle hsame htrip
      rw [bind_of_ok hms]
      have hfle := (hf a).le s' hdom
      refine ⟨(hf a).dom s' hdom, Nat.le_trans hle hfle, fun hmark => ?_, fun hlt => ?_⟩
      · have hmark' : mark s' = mark s := by omega
        rw [bind_of_ok (hsame hmark'), (hf a).same s' hdom (hmark.trans hmark'.symm)]
      · rcases Nat.lt_or_ge (mark s) (mark s') with hlt' | hge
        · rcases hmg : m (g s) with ⟨r, t⟩
          rw [hmg] at htrip
          rw [bind_of_error (hmg.trans (Prod.ext (htrip hlt') rfl))]
        · rw [bind_of_ok (hsame (Nat.le_antisymm hge hle))]
          exact (hf a).trip s' hdom (Nat.lt_of_le_of_lt hge hlt)
  exact ⟨fun s hs => (hparts s hs).1, fun s hs => (hparts s hs).2.1, fun s hs => (hparts s hs).2.2.1,
    fun s hs => (hparts s hs).2.2.2⟩

theorem forEach {f : α → Prog ε σ β} (h : ∀ a, Trips g mark e D (f a)) (as : List α) :
    Trips g mark e D (forEach f as) := by
  induction as with
  | nil => exact pure []
  | cons a as ih => exact bind (h a) fun b => bind ih fun bs => pure (b :: bs)

end Trips

/-- A run that returns adds elements to the list at `view`, related to its value by `R`. -/
def Appends {γ : Type} (view : σ → List γ) (R : α → List γ → Prop) (m : Prog ε σ α) : Prop :=
  ∀ s a s', m s = (.ok a, s') → ∃ xs, view s' = view s ++ xs ∧ R a xs

theorem exists_of_forall₂ {R : α → β → Prop} {as : List α} {bs : List β} (h : List.Forall₂ R as bs) {b : β}
    (hb : b ∈ bs) : ∃ a ∈ as, R a b := by
  induction h with
  | nil => cases hb
  | @cons a b' as bs hab _ ih =>
    rcases mem_cons.1 hb with rfl | hb
    · exact ⟨a, mem_cons_self, hab⟩
    · obtain ⟨a', ha', hR⟩ := ih hb
      exact ⟨a', mem_cons_of_mem _ ha', hR⟩

namespace Appends

variable {γ : Type} {view : σ → List γ} {R : α → List γ → Prop} {S : β → List γ → Prop}

theorem pure {a : α} (h : R a []) : Appends view R (pure a : Prog ε σ α) := by
  rintro s a' s' hrun
  cases hrun
  exact ⟨[], (append_nil _).symm, h⟩

theorem of_keeps {Q : α → Prop} {m : Prog ε σ α} {E : ε → Prop} (h : ∀ l, Keeps (fun s => view s = l) E Q m) :
    Appends view (fun a xs => xs = [] ∧ Q a) m := by
  intro s a s' hrun
  have hinv := (h (view s)).inv s rfl
  have hval := (h (view s)).value s rfl a
  rw [hrun] at hinv hval
  exact ⟨[], hinv.trans (append_nil _).symm, rfl, hval rfl⟩

theorem mono {R' : α → List γ → Prop} {m : Prog ε σ α} (h : Appends view R m) (hR : ∀ a xs, R a xs → R' a xs) :
    Appends view R' m := by
  intro s a s' hrun
  obtain ⟨xs, hview, hxs⟩ := h s a s' hrun
  exact ⟨xs, hview, hR a xs hxs⟩

theorem bind {m : Prog ε σ α} {f : α → Prog ε σ β} (hm : Appends view R m)
    (hf : ∀ a xs, R a xs → Appends view (fun b ys => S b (xs ++ ys)) (f a)) : Appends view S (m >>= f) := by
  intro s b s' hrun
  rcases hms : m s with ⟨e | a, s₁⟩
  · rw [bind_of_error hms] at hrun
    cases hrun
  · rw [bind_of_ok hms] at hrun
    obtain ⟨xs, hxs, hR⟩ := hm s a s₁ hms
    obtain ⟨ys, hys, hS⟩ := hf a xs hR s₁ b s' hrun
    exact ⟨xs ++ ys, by rw [hys, hxs, append_assoc], hS⟩

theorem get_bind {f : σ → Prog ε σ α} (h : ∀ s, Appends view R (f s)) : Appends view R (get >>= f) :=
  fun s a s' hrun => h s s a s' hrun

theorem modify {f : σ → σ} {xs : List γ} (h : ∀ s, view (f s) = view s ++ xs) :
    Appends view (fun _ ys => ys = xs) (modify f : Prog ε σ Unit) := by
  rintro s a s' hrun
  cases hrun
  exact ⟨xs, h s, rfl⟩

theorem forEach {f : α → Prog ε σ β} {T : α → β → List γ → Prop} {as : List α}
    (h : ∀ a ∈ as, Appends view (T a) (f a)) :
    Appends view (fun bs xs => ∃ parts : List (β × List γ), bs = parts.map Prod.fst ∧
      xs = (parts.map Prod.snd).flatten ∧ List.Forall₂ (fun a part => T a part.1 part.2) as parts) (forEach f as) := by
  induction as with
  | nil => exact pure ⟨[], rfl, rfl, .nil⟩
  | cons a as ih =>
    refine bind (h a mem_cons_self) fun b xs hb => ?_
    refine bind (ih fun a' ha' => h a' (mem_cons_of_mem _ ha')) ?_
    rintro bs ys ⟨parts, rfl, rfl, hparts⟩
    refine pure ⟨(b, xs) :: parts, rfl, ?_, .cons hb hparts⟩
    rw [append_nil, map_cons, flatten_cons]

end Appends

end Prog
