import Mathlib.Data.List.GetD
import Mathlib.Data.List.Sort
import Mathlib.Order.Bounds.Basic
import Mathlib.Data.Rat.Floor
import Motte.Foundation.Sampling

/-! Quantiles and pass@k.

A quantile is read off the ordered values, on a straight line between two of them. The share
of the draws of `k` trials that have a success is one minus the share of those without. -/
namespace Motte.Comparison
open Foundation

/-- `ValueError` of a quantile -/
structure OutOfRange where
  q : ℚ
deriving DecidableEq

/-- The value at an index of the list. -/
def valueAt (ordered : List ℚ) (index : ℕ) : ℚ := ordered.getD index 0

/-- `quantile` -/
def quantile (values : List ℚ) (q : ℚ) : Except OutOfRange (Option ℚ) :=
  if ¬(0 ≤ q ∧ q ≤ 1) then .error ⟨q⟩
  else if values = [] then .ok none
  else
    let ordered := values.insertionSort (· ≤ ·)
    let position := ((ordered.length - 1 : ℕ) : ℚ) * q
    let lower := ⌊position⌋₊
    let upper := ⌈position⌉₊
    if lower = upper then .ok (some (valueAt ordered lower))
    else
      let weight := position - lower
      .ok (some (valueAt ordered lower + (valueAt ordered upper - valueAt ordered lower) * weight))

inductive PassAtK where
  | notApplicable (reason : String)
  | estimate (value : ℚ) (n c k : ℤ)
deriving DecidableEq

/-- `pass_at_k`, with what rounds to ten digits -/
def passAtK (round : ℚ → ℚ) (n c k : ℤ) : PassAtK :=
  if ¬(1 ≤ k ∧ k ≤ n) then .notApplicable "k_out_of_range"
  else if ¬(0 ≤ c ∧ c ≤ n) then .notApplicable "invalid_counts"
  else
    let totalCombinations := n.toNat.choose k.toNat
    let failCombinations := if k ≤ n - c then (n - c).toNat.choose k.toNat else 0
    .estimate (round (1 - failCombinations / totalCombinations)) n c k

/-! ### Quantiles -/

/-- Ordered values climb. -/
theorem climbs_of_ordered {ordered : List ℚ} (h : ordered.Pairwise (· ≤ ·)) : Climbs (valueAt ordered) ordered.length := by
  intro i j hij hj
  have hi : i < ordered.length := lt_of_le_of_lt hij hj
  unfold valueAt
  rw [List.getD_eq_getElem _ _ hi, List.getD_eq_getElem _ _ hj]
  rcases hij.eq_or_lt with heq | hlt
  · subst heq
    exact le_refl _
  · exact List.pairwise_iff_getElem.1 h i j hi hj hlt

section
variable {values : List ℚ} {q q' : ℚ}

/-- The position of a quantile is between the first index and the last. -/
theorem position_mem (hne : values ≠ []) (h0 : 0 ≤ q) (h1 : q ≤ 1) :
    0 ≤ ((values.length - 1 : ℕ) : ℚ) * q ∧ ⌈((values.length - 1 : ℕ) : ℚ) * q⌉₊ < values.length := by
  have hlast : (0 : ℚ) ≤ ((values.length - 1 : ℕ) : ℚ) := Nat.cast_nonneg _
  refine ⟨mul_nonneg hlast h0, ?_⟩
  have hceil : ⌈((values.length - 1 : ℕ) : ℚ) * q⌉₊ ≤ values.length - 1 := Nat.ceil_le.2 (mul_le_of_le_one_right hlast h1)
  have hpos : 0 < values.length := List.length_pos_of_ne_nil hne
  omega

/-- A quantile is interpolated between the ordered values. -/
theorem quantile_eq (hne : values ≠ []) (h0 : 0 ≤ q) (h1 : q ≤ 1) :
    quantile values q =
      .ok (some (interpolated (valueAt (values.insertionSort (· ≤ ·))) (((values.length - 1 : ℕ) : ℚ) * q))) := by
  unfold quantile
  rw [if_neg (not_not.2 ⟨h0, h1⟩), if_neg hne]
  simp only [List.length_insertionSort]
  split
  · rename_i hwhole
    rw [interpolated_of_whole hwhole]
  · rfl

/-- Each value of the order is one of the values. -/
theorem valueAt_mem {index : ℕ} (h : index < values.length) : valueAt (values.insertionSort (· ≤ ·)) index ∈ values := by
  have hindex : index < (values.insertionSort (· ≤ ·)).length := by rwa [List.length_insertionSort]
  unfold valueAt
  rw [List.getD_eq_getElem _ _ hindex]
  exact (List.mem_insertionSort _).1 (List.getElem_mem hindex)

/-- A quantile is between the least value and the greatest. -/
theorem quantile_mem (hne : values ≠ []) (h0 : 0 ≤ q) (h1 : q ≤ 1) {m M : ℚ} (hm : IsLeast {x | x ∈ values} m)
    (hM : IsGreatest {x | x ∈ values} M) : ∃ v, quantile values q = .ok (some v) ∧ m ≤ v ∧ v ≤ M := by
  obtain ⟨hposition, hceil⟩ := position_mem hne h0 h1
  have hclimbs := climbs_of_ordered (List.pairwise_insertionSort (· ≤ ·) values)
  obtain ⟨hlower, hupper⟩ := interpolated_mem hclimbs hposition (by rwa [List.length_insertionSort])
  refine ⟨_, quantile_eq hne h0 h1, ?_, ?_⟩
  · exact (hm.2 (valueAt_mem (lt_of_le_of_lt (Nat.floor_le_ceil _) hceil))).trans hlower
  · exact hupper.trans (hM.2 (valueAt_mem hceil))

theorem quantile_perm {other : List ℚ} (h : values.Perm other) : quantile other q = quantile values q := by
  have hordered : other.insertionSort (· ≤ ·) = values.insertionSort (· ≤ ·) :=
    ((List.perm_insertionSort _ other).trans (h.symm.trans (List.perm_insertionSort _ values).symm)).eq_of_pairwise
      (fun _ _ _ _ hab hba => le_antisymm hab hba) (List.pairwise_insertionSort _ other) (List.pairwise_insertionSort _ values)
  have hnil : other = [] ↔ values = [] := by
    constructor
    · exact fun hother => (hother ▸ h).eq_nil
    · exact fun hvalues => (hvalues ▸ h.symm).eq_nil
  unfold quantile
  simp only [hordered, hnil]

theorem quantile_mono (hne : values ≠ []) (h0 : 0 ≤ q) (hq : q ≤ q') (h1 : q' ≤ 1) :
    ∃ v v', quantile values q = .ok (some v) ∧ quantile values q' = .ok (some v') ∧ v ≤ v' := by
  refine ⟨_, _, quantile_eq hne h0 (hq.trans h1), quantile_eq hne (h0.trans hq) h1, ?_⟩
  refine interpolated_mono (climbs_of_ordered (List.pairwise_insertionSort (· ≤ ·) values)) (position_mem hne h0 (hq.trans h1)).1 ?_ ?_
  · exact mul_le_mul_of_nonneg_left hq (Nat.cast_nonneg _)
  · rw [List.length_insertionSort]
    exact (position_mem hne (h0.trans hq) h1).2

end

/-! ### Pass at k -/

section
variable {n c k : ℕ}

/-- The estimate before it is rounded. -/
theorem passAtK_eq (hc : c ≤ n) (h1 : 1 ≤ k) (hk : k ≤ n) :
    passAtK id n c k = .estimate (1 - ((n - c).choose k : ℚ) / (n.choose k : ℚ)) n c k := by
  have hfail : (if (k : ℤ) ≤ n - c then ((n : ℤ) - c).toNat.choose k else 0) = (n - c).choose k := by
    have hsub : ((n : ℤ) - c).toNat = n - c := by omega
    rw [hsub]
    split
    · rfl
    · exact (Nat.choose_eq_zero_of_lt (by omega)).symm
  unfold passAtK
  rw [if_neg (not_not.2 ⟨by omega, by omega⟩), if_neg (not_not.2 ⟨by omega, by omega⟩)]
  simp only [Int.toNat_natCast, hfail, id_eq]

/-- The estimate is the share of the draws of `k` trials that have a success. -/
theorem passAtK_share {τ : Type} (trials : Finset τ) (succeeded : τ → Prop) [DecidablePred succeeded] (h1 : 1 ≤ k)
    (hk : k ≤ trials.card) :
    passAtK id trials.card (trials.filter succeeded).card k =
      .estimate ((((trials.powersetCard k).filter (fun drawn => ∃ i ∈ drawn, succeeded i)).card : ℚ) / (trials.powersetCard k).card)
        trials.card (trials.filter succeeded).card k := by
  rw [passAtK_eq (Finset.card_filter_le _ _) h1 hk, share_of_draws trials succeeded hk]

theorem passAtK_mono_successes {c' : ℕ} (hcc : c ≤ c') (hc' : c' ≤ n) (h1 : 1 ≤ k) (hk : k ≤ n) :
    ∃ v v', passAtK id n c k = .estimate v n c k ∧ passAtK id n c' k = .estimate v' n c' k ∧ v ≤ v' := by
  refine ⟨_, _, passAtK_eq (hcc.trans hc') h1 hk, passAtK_eq hc' h1 hk, ?_⟩
  have hchoose : (n - c').choose k ≤ (n - c).choose k := Nat.choose_le_choose k (Nat.sub_le_sub_left hcc n)
  gcongr

theorem passAtK_mono_drawn {k' : ℕ} (hc : c ≤ n) (h1 : 1 ≤ k) (hkk : k ≤ k') (hk' : k' ≤ n) :
    ∃ v v', passAtK id n c k = .estimate v n c k ∧ passAtK id n c k' = .estimate v' n c k' ∧ v ≤ v' := by
  refine ⟨_, _, passAtK_eq hc h1 (hkk.trans hk'), passAtK_eq hc (h1.trans hkk) hk', ?_⟩
  exact sub_le_sub_left (share_antitone (Nat.sub_le n c) hkk hk') 1

end

/-! ### The laws -/

/-- What holds of the quantiles of values that are not empty. -/
structure QuantileLaws (values : List ℚ) : Prop where
  within : ∀ q, 0 ≤ q → q ≤ 1 → ∀ m M, IsLeast {x | x ∈ values} m → IsGreatest {x | x ∈ values} M →
    ∃ v, quantile values q = .ok (some v) ∧ m ≤ v ∧ v ≤ M
  permuted : ∀ other, values.Perm other → ∀ q, quantile other q = quantile values q
  rising : ∀ q q', 0 ≤ q → q ≤ q' → q' ≤ 1 →
    ∃ v v', quantile values q = .ok (some v) ∧ quantile values q' = .ok (some v') ∧ v ≤ v'

/-- What holds of the estimate from `n` trials of which `c` succeeded, before it is rounded. -/
structure PassAtKLaws (n c k : ℕ) : Prop where
  share : ∀ {τ : Type} (trials : Finset τ) (succeeded : τ → Prop) [DecidablePred succeeded], trials.card = n →
    (trials.filter succeeded).card = c → passAtK id n c k =
      .estimate ((((trials.powersetCard k).filter (fun drawn => ∃ i ∈ drawn, succeeded i)).card : ℚ) / (trials.powersetCard k).card) n c k
  moreSucceeded : ∀ c', c ≤ c' → c' ≤ n →
    ∃ v v', passAtK id n c k = .estimate v n c k ∧ passAtK id n c' k = .estimate v' n c' k ∧ v ≤ v'
  moreDrawn : ∀ k', k ≤ k' → k' ≤ n →
    ∃ v v', passAtK id n c k = .estimate v n c k ∧ passAtK id n c k' = .estimate v' n c k' ∧ v ≤ v'

theorem statistics_exact : (∀ values, values ≠ [] → QuantileLaws values) ∧ ∀ n c k, c ≤ n → 1 ≤ k → k ≤ n → PassAtKLaws n c k := by
  constructor
  · intro values hne
    exact {
      within := fun q h0 h1 m M hm hM => quantile_mem hne h0 h1 hm hM
      permuted := fun other hperm q => quantile_perm hperm
      rising := fun q q' h0 hq h1 => quantile_mono hne h0 hq h1 }
  · intro n c k hc h1 hk
    refine {
      share := ?_
      moreSucceeded := fun c' hcc hc' => passAtK_mono_successes hcc hc' h1 hk
      moreDrawn := fun k' hkk hk' => passAtK_mono_drawn hc h1 hkk hk' }
    intro τ trials succeeded _ htrials hsucceeded
    subst htrials hsucceeded
    exact passAtK_share trials succeeded h1 hk

/-- Of four values, and of two out of three trials of which one succeeded. -/
theorem statistics_exact_few : QuantileLaws [4, 1, 2, 8] ∧ PassAtKLaws 3 1 2 :=
  ⟨statistics_exact.1 _ (by decide), statistics_exact.2 3 1 2 (by decide) (by decide) (by decide)⟩

end Motte.Comparison
