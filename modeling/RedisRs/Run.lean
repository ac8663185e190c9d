/-!
# Runs of a step function

What one step of a step function keeps, a whole run keeps.
-/

namespace Run

variable {σ α β : Type} {step : σ → α → Option (β × σ)} {P Q : σ → α → β → σ → Prop} {I : σ → Prop}

def run (step : σ → α → Option (β × σ)) : σ → List α → Option (List β × σ)
  | s, [] => some ([], s)
  | s, a :: as => do
    let (b, s) ← step s a
    let (bs, s) ← run step s as
    return (b :: bs, s)

/-- `P` holds at each step of the run. -/
def Along (step : σ → α → Option (β × σ)) (P : σ → α → β → σ → Prop) : σ → List α → Prop
  | _, [] => True
  | s, a :: as => ∀ b s', step s a = some (b, s') → P s a b s' ∧ Along step P s' as

theorem run_isSome (h : ∀ s a, (step s a).isSome = true) (s : σ) (as : List α) : (run step s as).isSome = true := by
  induction as generalizing s with
  | nil => rfl
  | cons a as ih =>
    obtain ⟨⟨b, s'⟩, hstep⟩ := Option.isSome_iff_exists.1 (h s a)
    obtain ⟨⟨bs, s''⟩, hrun⟩ := Option.isSome_iff_exists.1 (ih s')
    simp [run, hstep, hrun]

variable {s : σ} {as : List α}

variable {C : α → Prop} {s' : σ} {bs : List β}

theorem along_cons {a : α} {b : β} (hstep : step s a = some (b, s')) (h : P s a b s') (hal : Along step P s' as) :
    Along step P s (a :: as) := by
  intro b₁ s₁ hstep₁
  cases hstep.symm.trans hstep₁
  exact ⟨h, hal⟩

theorem along_of_forall (h : ∀ a ∈ as, C a) (s : σ) : Along step (fun _ a _ _ => C a) s as := by
  induction as generalizing s with
  | nil => trivial
  | cons a as ih =>
    intro b s' _
    exact ⟨h a List.mem_cons_self, ih (fun a ha => h a (List.mem_cons_of_mem _ ha)) s'⟩

theorem run_inv (h : ∀ s a b s', I s → C a → step s a = some (b, s') → I s') (hs : I s) (hC : ∀ a ∈ as, C a)
    (hrun : run step s as = some (bs, s')) : I s' := by
  induction as generalizing s bs with
  | nil =>
    cases hrun
    exact hs
  | cons a as ih =>
    simp only [run, Option.bind_eq_bind, Option.bind_eq_some_iff] at hrun
    obtain ⟨⟨b, s₁⟩, hstep, ⟨bs₁, s₂⟩, hrun, heq⟩ := hrun
    cases heq
    exact ih (h _ _ _ _ hs (hC a List.mem_cons_self) hstep) (fun a ha => hC a (List.mem_cons_of_mem _ ha)) hrun

theorem run_inv_of_along (h : ∀ s a b s', I s → P s a b s' → step s a = some (b, s') → I s') (hs : I s)
    (hal : Along step P s as) (hrun : run step s as = some (bs, s')) : I s' := by
  induction as generalizing s bs with
  | nil =>
    cases hrun
    exact hs
  | cons a as ih =>
    simp only [run, Option.bind_eq_bind, Option.bind_eq_some_iff] at hrun
    obtain ⟨⟨b, s₁⟩, hstep, ⟨bs₁, s₂⟩, hrun, heq⟩ := hrun
    cases heq
    obtain ⟨hp, hal⟩ := hal b s₁ hstep
    exact ih (h _ _ _ _ hs hp hstep) hal hrun

theorem along_mono (h : ∀ s a b s', I s → step s a = some (b, s') → P s a b s' → Q s a b s' ∧ I s') (hs : I s)
    (hal : Along step P s as) : Along step Q s as := by
  induction as generalizing s with
  | nil => trivial
  | cons a as ih =>
    intro b s' hstep
    obtain ⟨hp, hal⟩ := hal b s' hstep
    obtain ⟨hq, hs'⟩ := h s a b s' hs hstep hp
    exact ⟨hq, ih hs' hal⟩

theorem along_of_inv (h : ∀ s a b s', I s → step s a = some (b, s') → Q s a b s' ∧ I s') (hs : I s) (as : List α) :
    Along step Q s as := by
  induction as generalizing s with
  | nil => trivial
  | cons a as ih =>
    intro b s' hstep
    obtain ⟨hq, hs'⟩ := h s a b s' hs hstep
    exact ⟨hq, ih hs'⟩

theorem along_iff_of_forall
    (h : ∀ s a b s', I s → C a → step s a = some (b, s') → (P s a b s' ↔ Q s a b s') ∧ (P s a b s' → I s'))
    (hs : I s) (hC : ∀ a ∈ as, C a) : Along step P s as ↔ Along step Q s as := by
  induction as generalizing s with
  | nil => exact Iff.rfl
  | cons a as ih =>
    have hCas : ∀ a ∈ as, C a := fun a ha => hC a (List.mem_cons_of_mem _ ha)
    constructor <;> intro hal b s' hstep <;>
      obtain ⟨hiff, hinv⟩ := h s a b s' hs (hC a List.mem_cons_self) hstep <;> obtain ⟨h₁, h₂⟩ := hal b s' hstep
    · exact ⟨hiff.1 h₁, (ih (hinv h₁) hCas).1 h₂⟩
    · exact ⟨hiff.2 h₁, (ih (hinv (hiff.2 h₁)) hCas).2 h₂⟩

theorem along_iff (h : ∀ s a b s', I s → step s a = some (b, s') → (P s a b s' ↔ Q s a b s') ∧ (P s a b s' → I s'))
    (hs : I s) (as : List α) : Along step P s as ↔ Along step Q s as :=
  along_iff_of_forall (C := fun _ => True) (fun s a b s' hs _ => h s a b s' hs) hs fun _ _ => trivial

theorem run_iff_along {R : σ → Prop}
    (h : ∀ s a b s', step s a = some (b, s') → R s' → R s ∧ (I s' ↔ I s ∧ Q s a b s'))
    (hrun : run step s as = some (bs, s')) (hR : R s') : R s ∧ (I s' ↔ I s ∧ Along step Q s as) := by
  induction as generalizing s bs with
  | nil =>
    cases hrun
    exact ⟨hR, (and_iff_left trivial).symm⟩
  | cons a as ih =>
    simp only [run, Option.bind_eq_bind, Option.bind_eq_some_iff] at hrun
    obtain ⟨⟨b, s₁⟩, hstep, ⟨bs₁, s₂⟩, hrun, heq⟩ := hrun
    cases heq
    obtain ⟨hR₁, hiff₁⟩ := ih hrun
    obtain ⟨hR₀, hiff₀⟩ := h s a b s₁ hstep hR₁
    refine ⟨hR₀, ?_⟩
    rw [hiff₁, hiff₀, and_assoc]
    refine and_congr_right fun _ => ⟨fun hal b' s' hstep' => ?_, fun hal => hal b s₁ hstep⟩
    cases hstep.symm.trans hstep'
    exact hal

end Run
