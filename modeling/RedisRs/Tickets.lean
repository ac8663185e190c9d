import Mathlib.Algebra.Order.Group.Multiset

/-!
# Tickets that are redeemed once

A holder makes attempts, one for each retry and one more, until it redeems its ticket.
-/

namespace Tickets

open Function

variable {τ : Type} [DecidableEq τ] {n : ℕ}

structure Book (τ : Type) where
  issued : Set τ
  closed : Set τ
  redeemed : τ → ℕ
  attempts : τ → ℕ

structure Ticket (τ : Type) where
  id : τ
  retry : ℕ
  ready : Bool

namespace Book

def issue (book : Book τ) (t : τ) : Book τ := { book with issued := insert t book.issued }

def close (book : Book τ) (t : τ) : Book τ := { book with closed := insert t book.closed }

def redeem (book : Book τ) (t : τ) : Book τ :=
  { book with redeemed := update book.redeemed t (book.redeemed t + 1) }

def attempt (book : Book τ) (t : τ) : Book τ :=
  { book with attempts := update book.attempts t (book.attempts t + 1) }

end Book

theorem update_succ_apply (f : τ → ℕ) (t u : τ) :
    update f t (f t + 1) u = f u + if t = u then 1 else 0 := by
  by_cases heq : t = u
  · subst heq
    rw [update_self, if_pos rfl]
  · rw [update_of_ne (Ne.symm heq), if_neg heq, Nat.add_zero]

def holders (M : Multiset (Ticket τ)) (t : τ) : ℕ := M.countP (·.id = t)

@[simp] theorem holders_zero (t : τ) : holders (0 : Multiset (Ticket τ)) t = 0 := Multiset.countP_zero _

@[simp] theorem holders_add (M N : Multiset (Ticket τ)) (t : τ) : holders (M + N) t = holders M t + holders N t :=
  Multiset.countP_add _ M N

@[simp] theorem holders_cons (h : Ticket τ) (M : Multiset (Ticket τ)) (t : τ) :
    holders (h ::ₘ M) t = holders M t + if h.id = t then 1 else 0 :=
  Multiset.countP_cons _ h M

theorem holders_eq_zero {M : Multiset (Ticket τ)} {t : τ} : holders M t = 0 ↔ ∀ h ∈ M, h.id ≠ t :=
  Multiset.countP_eq_zero

/-- Each ticket has one holder until it is redeemed, and no holder has been tried too often. -/
structure Balanced (n : ℕ) (M : Multiset (Ticket τ)) (book : Book τ) : Prop where
  fresh : ∀ t, t ∉ book.issued → holders M t = 0 ∧ book.redeemed t = 0 ∧ book.attempts t = 0
  once : ∀ t, holders M t + book.redeemed t ≤ 1
  kept : ∀ t ∈ book.issued, t ∉ book.closed → holders M t + book.redeemed t = 1
  budget : ∀ h ∈ M, h.retry ≤ n ∧ book.attempts h.id + h.ready.toNat ≤ h.retry + 1
  bounded : ∀ t, book.attempts t ≤ n + 1

theorem balanced_zero (n : ℕ) : Balanced n 0 (⟨∅, ∅, fun _ => 0, fun _ => 0⟩ : Book τ) where
  fresh _ _ := ⟨rfl, rfl, rfl⟩
  once _ := Nat.zero_le _
  kept _ ht := ht.elim
  budget _ hh := absurd hh (Multiset.notMem_zero _)
  bounded _ := Nat.zero_le _

namespace Balanced

variable {M : Multiset (Ticket τ)} {book : Book τ} {t : τ} {r : ℕ} {ready ready' : Bool}

theorem ne_of_mem (hb : Balanced n (⟨t, r, ready⟩ ::ₘ M) book) : ∀ h ∈ M, h.id ≠ t := by
  refine holders_eq_zero.1 ?_
  have honce := hb.once t
  simp only [holders_cons, if_true] at honce
  omega

theorem issue (hb : Balanced n M book) (ht : t ∉ book.issued) :
    Balanced n (⟨t, 0, true⟩ ::ₘ M) (book.issue t) := by
  obtain ⟨hnone, hredeemed, hatt⟩ := hb.fresh t ht
  refine ⟨fun u hu => ?_, fun u => ?_, fun u hu hopen => ?_, fun h hh => ?_, hb.bounded⟩
  · have hne : t ≠ u := fun heq => hu (heq ▸ Set.mem_insert t _)
    simpa [Book.issue, hne] using hb.fresh u fun hmem => hu (Set.mem_insert_of_mem _ hmem)
  · by_cases heq : t = u
    · subst heq
      simp [Book.issue, hnone, hredeemed]
    · simpa [Book.issue, heq] using hb.once u
  · by_cases heq : t = u
    · subst heq
      simp [Book.issue, hnone, hredeemed]
    · simpa [Book.issue, heq] using hb.kept u (Set.mem_of_mem_insert_of_ne hu (Ne.symm heq)) hopen
  · rcases Multiset.mem_cons.1 hh with rfl | hh
    · simp [Book.issue, hatt]
    · exact hb.budget h hh

theorem close (hb : Balanced n M book) (t : τ) : Balanced n M (book.close t) :=
  ⟨hb.fresh, hb.once, fun u hu hopen => hb.kept u hu fun hmem => hopen (Set.mem_insert_of_mem _ hmem), hb.budget,
    hb.bounded⟩

theorem discard (hb : Balanced n (⟨t, r, ready⟩ ::ₘ M) book) (ht : t ∈ book.closed) : Balanced n M book := by
  refine ⟨fun u hu => ?_, fun u => ?_, fun u hu hopen => ?_, fun h hh => hb.budget h (Multiset.mem_cons_of_mem hh),
    hb.bounded⟩
  · obtain ⟨hnone, hrest⟩ := hb.fresh u hu
    rw [holders_cons] at hnone
    exact ⟨(Nat.add_eq_zero_iff.1 hnone).1, hrest⟩
  · have honce := hb.once u
    rw [holders_cons] at honce
    omega
  · have hne : t ≠ u := fun heq => hopen (heq ▸ ht)
    simpa [hne] using hb.kept u hu hopen

theorem attempt (hb : Balanced n (⟨t, r, true⟩ ::ₘ M) book) : Balanced n (⟨t, r, false⟩ ::ₘ M) (book.attempt t) := by
  obtain ⟨hretry, hbudget⟩ := hb.budget _ (Multiset.mem_cons_self _ _)
  dsimp only [Bool.toNat_true] at hretry hbudget
  refine ⟨fun u hu => ?_, fun u => by simpa [Book.attempt] using hb.once u,
    fun u hu hopen => by simpa [Book.attempt] using hb.kept u hu hopen, fun h hh => ?_, fun u => ?_⟩
  · have hfresh := hb.fresh u hu
    have hne : t ≠ u := fun heq => by simp [heq] at hfresh
    simpa [Book.attempt, update_succ_apply, hne] using hfresh
  · rcases Multiset.mem_cons.1 hh with rfl | hmem
    · simpa [Book.attempt] using ⟨hretry, by omega⟩
    · simpa [Book.attempt, update_succ_apply, (hb.ne_of_mem h hmem).symm] using hb.budget h (Multiset.mem_cons_of_mem hmem)
  · have hle := hb.bounded u
    simp only [Book.attempt, update_succ_apply]
    split_ifs with heq
    · subst heq
      omega
    · exact hle

theorem retry (hb : Balanced n (⟨t, r, ready⟩ ::ₘ M) book) (hr : r < n) :
    Balanced n (⟨t, r + 1, ready'⟩ ::ₘ M) book := by
  refine ⟨fun u hu => by simpa using hb.fresh u hu, fun u => by simpa using hb.once u,
    fun u hu hopen => by simpa using hb.kept u hu hopen, fun h hh => ?_, hb.bounded⟩
  rcases Multiset.mem_cons.1 hh with rfl | hmem
  · obtain ⟨-, hbudget⟩ := hb.budget _ (Multiset.mem_cons_self _ _)
    have hle := Bool.toNat_le ready'
    refine ⟨hr, ?_⟩
    dsimp only at hbudget ⊢
    omega
  · exact hb.budget h (Multiset.mem_cons_of_mem hmem)

theorem redeem (hb : Balanced n (⟨t, r, ready⟩ ::ₘ M) book) : Balanced n M (book.redeem t) := by
  have hmoved : ∀ u, holders M u + (book.redeem t).redeemed u =
      holders (⟨t, r, ready⟩ ::ₘ M) u + book.redeemed u := by
    intro u
    simp only [Book.redeem, update_succ_apply, holders_cons]
    omega
  refine ⟨fun u hu => ?_, fun u => (hmoved u).trans_le (hb.once u),
    fun u hu hopen => (hmoved u).trans (hb.kept u hu hopen),
    fun h hh => hb.budget h (Multiset.mem_cons_of_mem hh), hb.bounded⟩
  obtain ⟨hnone, hredeemed, hatt⟩ := hb.fresh u hu
  have hsum := hmoved u
  rw [hnone, hredeemed] at hsum
  exact ⟨(Nat.add_eq_zero_iff.1 hsum).1, (Nat.add_eq_zero_iff.1 hsum).2, hatt⟩

end Balanced

end Tickets
