import RedisRs.Error
import Mathlib.Algebra.Group.Nat.Defs

/-!
# Waiting between the attempts of a cluster connection
-/

namespace RedisRs

structure RetryParams where
  numberOfRetries : UInt32 := 16
  maxWaitTime : UInt64 := 655360
  minWaitTime : UInt64 := 1280
  exponentBase : UInt64 := 2
  factor : UInt64 := 10

def checkedU64 (n : Nat) : Ends Nat := if n < 2 ^ 64 then .ok n else .error .overflow

def randomRange (pick lo hi : Nat) : Ends Nat :=
  if lo < hi then .ok (lo + pick % (hi - lo)) else .error .emptyRange

def clusterRetryWaitUpperMs (baseWait minWait maxWait : Nat) : Ends Nat := do
  let next ← checkedU64 (minWait + 1)
  let capped := min (max baseWait next) maxWait
  return if capped ≤ minWait then min (minWait + 1) (2 ^ 64 - 1) else capped

namespace RetryParams

variable (p : RetryParams) (retry : UInt32)

abbrev limit : Nat := p.numberOfRetries.toNat

def lastRetry : UInt32 := .ofNat (min (p.limit + 1) (2 ^ 32 - 1))

def clampedWait : Ends Nat := do
  let power ← checkedU64 (p.exponentBase.toNat ^ retry.toNat)
  let baseWait ← checkedU64 (power * p.factor.toNat)
  clusterRetryWaitUpperMs baseWait p.minWaitTime.toNat p.maxWaitTime.toNat

def waitTimeForRetry (pick : Nat) : Ends Nat := do
  randomRange pick p.minWaitTime.toNat (← p.clampedWait retry)

def upperFor (baseWait : Nat) : Nat :=
  max (p.minWaitTime.toNat + 1) (min baseWait p.maxWaitTime.toNat)

def baseWait : Nat := p.exponentBase.toNat ^ retry.toNat * p.factor.toNat

/-- The computation of the bound does not overflow. -/
structure NoOverflow : Prop where
  power : p.exponentBase.toNat ^ retry.toNat < 2 ^ 64
  product : p.baseWait retry < 2 ^ 64
  next : p.minWaitTime.toNat + 1 < 2 ^ 64

variable {p retry}

theorem clusterRetryWaitUpperMs_eq {baseWait : Nat} (h : p.minWaitTime.toNat + 1 < 2 ^ 64) :
    clusterRetryWaitUpperMs baseWait p.minWaitTime.toNat p.maxWaitTime.toNat = .ok (p.upperFor baseWait) := by
  simp only [clusterRetryWaitUpperMs, checkedU64, if_pos h, upperFor]
  refine congrArg Except.ok ?_
  split <;> omega

theorem clampedWait_of_noOverflow (h : p.NoOverflow retry) :
    p.clampedWait retry = .ok (p.upperFor (p.baseWait retry)) := by
  have hproduct := h.product
  rw [baseWait] at hproduct
  rw [clampedWait, checkedU64, if_pos h.power]
  show (checkedU64 _ >>= fun _ => _) = _
  rw [checkedU64, if_pos hproduct]
  exact clusterRetryWaitUpperMs_eq h.next

theorem noOverflow_of_clampedWait {upper : Nat} (h : p.clampedWait retry = .ok upper) : p.NoOverflow retry := by
  have hchecked : ∀ {n m : Nat}, checkedU64 n = .ok m → n < 2 ^ 64 ∧ n = m := by
    intro n m hn
    rw [checkedU64] at hn
    split_ifs at hn with hlt
    exact ⟨hlt, Except.ok.inj hn⟩
  obtain ⟨power, hpower, h⟩ := exists_of_bind_eq_ok h
  obtain ⟨base, hbase, h⟩ := exists_of_bind_eq_ok h
  obtain ⟨next, hnext, -⟩ := exists_of_bind_eq_ok h
  obtain ⟨hlt, rfl⟩ := hchecked hpower
  exact ⟨hlt, (hchecked hbase).1, (hchecked hnext).1⟩

theorem waitTimeForRetry_of_noOverflow (h : p.NoOverflow retry) (pick : Nat) :
    ∃ ms, p.waitTimeForRetry retry pick = .ok ms ∧ p.minWaitTime.toNat ≤ ms ∧
      ms ≤ max p.maxWaitTime.toNat p.minWaitTime.toNat := by
  have hlt : p.minWaitTime.toNat < p.upperFor (p.baseWait retry) := by
    rw [upperFor]
    omega
  refine ⟨p.minWaitTime.toNat + pick % (p.upperFor (p.baseWait retry) - p.minWaitTime.toNat), ?_, by omega, ?_⟩
  · rw [waitTimeForRetry, clampedWait_of_noOverflow h]
    exact if_pos hlt
  · have hpick := Nat.mod_lt pick (Nat.sub_pos_of_lt hlt)
    rw [upperFor] at hpick ⊢
    omega

variable (p) in
/-- Every wait is within the bounds, and the bounds do not get smaller. -/
structure WaitsRightly : Prop where
  returns : ∀ retry ≤ p.numberOfRetries, ∀ pick, ∃ ms, p.waitTimeForRetry retry pick = .ok ms ∧
    p.minWaitTime.toNat ≤ ms ∧ ms ≤ max p.maxWaitTime.toNat p.minWaitTime.toNat
  grows : ∀ retry retry', retry ≤ retry' → retry' ≤ p.numberOfRetries → ∀ upper upper',
    p.clampedWait retry = .ok upper → p.clampedWait retry' = .ok upper' → upper ≤ upper'

variable (p) in
/-- With the base 0 the wait before the first retry is the only one that is not minimal. -/
def Grows : Prop :=
  p.exponentBase ≠ 0 ∨ p.numberOfRetries = 0 ∨ p.factor.toNat ≤ p.minWaitTime.toNat + 1 ∨
    p.maxWaitTime.toNat ≤ p.minWaitTime.toNat + 1

theorem pow_mono (hbase : p.exponentBase ≠ 0) {retry' : UInt32} (h : retry ≤ retry') :
    p.exponentBase.toNat ^ retry.toNat ≤ p.exponentBase.toNat ^ retry'.toNat := by
  have hpos : p.exponentBase.toNat ≠ 0 := fun hzero => hbase (UInt64.toNat_inj.1 hzero)
  exact Nat.pow_le_pow_right (Nat.pos_of_ne_zero hpos) (UInt32.le_iff_toNat_le.1 h)

theorem pow_of_base_zero (hbase : p.exponentBase = 0) :
    p.exponentBase.toNat ^ retry.toNat = if retry = 0 then 1 else 0 := by
  rw [hbase]
  split_ifs with hzero
  · rw [hzero]
    rfl
  · exact Nat.zero_pow (Nat.pos_of_ne_zero fun h => hzero (UInt32.toNat_inj.1 h))

theorem NoOverflow.of_last {last : UInt32} (h : p.NoOverflow last) (hle : retry ≤ last) : p.NoOverflow retry := by
  by_cases hbase : p.exponentBase = 0
  · have hfactor := p.factor.toNat_lt
    have hpow : p.exponentBase.toNat ^ retry.toNat = if retry = 0 then 1 else 0 := pow_of_base_zero hbase
    refine ⟨?_, ?_, h.next⟩
    · rw [hpow]
      split <;> omega
    · rw [baseWait, hpow]
      split <;> omega
  · have hpow := pow_mono hbase hle
    exact ⟨Nat.lt_of_le_of_lt hpow h.power, Nat.lt_of_le_of_lt (Nat.mul_le_mul_right _ hpow) h.product, h.next⟩

theorem upperFor_mono_iff (p : RetryParams) :
    (∀ retry retry', retry ≤ retry' → retry' ≤ p.numberOfRetries →
      p.upperFor (p.baseWait retry) ≤ p.upperFor (p.baseWait retry')) ↔ p.Grows := by
  by_cases hbase : p.exponentBase = 0
  · have hwait : ∀ retry, p.baseWait retry = if retry = 0 then p.factor.toNat else 0 := fun retry => by
      rw [baseWait, pow_of_base_zero hbase]
      split <;> omega
    simp only [Grows, hbase, hwait, upperFor]
    constructor
    · intro hmono
      by_cases hnone : p.numberOfRetries = 0
      · exact .inr (.inl hnone)
      · have hlast := hmono 0 p.numberOfRetries (UInt32.zero_le) (UInt32.le_refl _)
        rw [if_pos rfl, if_neg hnone] at hlast
        omega
    · intro hgrows retry retry' hle hle'
      split_ifs with hzero hzero'
      · exact Nat.le_refl _
      · have hnone : p.numberOfRetries ≠ 0 := fun h => hzero' (UInt32.le_antisymm (h ▸ hle') UInt32.zero_le)
        simp only [ne_eq, not_true_eq_false, hnone, false_or] at hgrows
        omega
      · omega
      · omega
  · refine ⟨fun _ => .inl hbase, fun _ retry retry' hle _ => ?_⟩
    have hwait : p.baseWait retry ≤ p.baseWait retry' := Nat.mul_le_mul_right _ (pow_mono hbase hle)
    rw [upperFor, upperFor]
    omega

/-- Every wait is within its bounds, and these grow, exactly if the bound of the last retry can be computed and the base
is not 0 where that makes a difference. -/
theorem waits_rightly_iff (p : RetryParams) : p.WaitsRightly ↔ p.NoOverflow p.numberOfRetries ∧ p.Grows := by
  constructor
  · intro h
    obtain ⟨ms, hms, -⟩ := h.returns p.numberOfRetries (UInt32.le_refl _) 0
    obtain ⟨upper, hupper, -⟩ := exists_of_bind_eq_ok hms
    have hlast := noOverflow_of_clampedWait hupper
    refine ⟨hlast, (upperFor_mono_iff p).1 fun retry retry' hle hle' => ?_⟩
    exact h.grows retry retry' hle hle' _ _ (clampedWait_of_noOverflow (hlast.of_last (UInt32.le_trans hle hle')))
      (clampedWait_of_noOverflow (hlast.of_last hle'))
  · rintro ⟨hlast, hgrows⟩
    refine ⟨fun retry hle pick => waitTimeForRetry_of_noOverflow (hlast.of_last hle) pick, ?_⟩
    intro retry retry' hle hle' upper upper' hupper hupper'
    rw [clampedWait_of_noOverflow (hlast.of_last (UInt32.le_trans hle hle'))] at hupper
    rw [clampedWait_of_noOverflow (hlast.of_last hle')] at hupper'
    cases hupper
    cases hupper'
    exact (upperFor_mono_iff p).2 hgrows retry retry' hle hle'

theorem waits_overflow_or_fall :
    waitTimeForRetry { numberOfRetries := 64 } 64 0 = .error .overflow ∧
    waitTimeForRetry { minWaitTime := 18446744073709551615 } 0 0 = .error .overflow ∧
    clampedWait { exponentBase := 0, factor := 5000 } 0 = .ok 5000 ∧
    clampedWait { exponentBase := 0, factor := 5000 } 1 = .ok 1281 :=
  ⟨rfl, rfl, rfl, rfl⟩

end RetryParams

end RedisRs
