import Mathlib.Algebra.Order.Field.Basic
import Mathlib.Algebra.Order.Floor.Semifield
import Mathlib.Algebra.Order.Ring.Rat
import Mathlib.Data.Finset.Powerset
import Mathlib.Data.Nat.Choose.Basic
import Mathlib.Tactic.GCongr
import Mathlib.Tactic.Linarith
import Mathlib.Tactic.Ring

/-! Draws without repetition, and linear interpolation.

A draw is a set of so many things out of all of them. The draws without any of a kind are the
draws from the others, and the more is drawn the smaller their share.

Between two whole positions a sequence goes in a straight line. A sequence that does not fall
does not fall between its positions either. -/
namespace Motte.Foundation

section Draws
variable {τ : Type} (all : Finset τ) (p : τ → Prop) [DecidablePred p]

/-- The draws without any of the kind are draws from the others. -/
theorem draws_without (k : ℕ) :
    (all.powersetCard k).filter (fun drawn => ¬∃ i ∈ drawn, p i) = (all.filter (fun i => ¬p i)).powersetCard k := by
  ext drawn
  rw [Finset.mem_filter, Finset.mem_powersetCard, Finset.mem_powersetCard]
  constructor
  · rintro ⟨⟨hsub, hcard⟩, hnone⟩
    exact ⟨fun i hi => Finset.mem_filter.2 ⟨hsub hi, fun hp => hnone ⟨i, hi, hp⟩⟩, hcard⟩
  · rintro ⟨hsub, hcard⟩
    refine ⟨⟨fun i hi => (Finset.mem_filter.1 (hsub hi)).1, hcard⟩, ?_⟩
    rintro ⟨i, hi, hp⟩
    exact (Finset.mem_filter.1 (hsub hi)).2 hp

/-- The share of the draws that have one of the kind. -/
theorem share_of_draws {k : ℕ} (hk : k ≤ all.card) :
    (((all.powersetCard k).filter (fun drawn => ∃ i ∈ drawn, p i)).card : ℚ) / (all.powersetCard k).card =
      1 - ((all.card - (all.filter p).card).choose k : ℚ) / (all.card.choose k : ℚ) := by
  have hothers : (all.filter (fun i => ¬p i)).card = all.card - (all.filter p).card := by
    have hsplit : (all.filter p).card + (all.filter (fun i => ¬p i)).card = all.card := Finset.card_filter_add_card_filter_not p
    omega
  have hdraws : ((all.powersetCard k).filter (fun drawn => ∃ i ∈ drawn, p i)).card +
      (all.card - (all.filter p).card).choose k = all.card.choose k := by
    rw [← hothers, ← Finset.card_powersetCard k (all.filter (fun i => ¬p i)), ← draws_without, ← Finset.card_powersetCard k all]
    exact Finset.card_filter_add_card_filter_not _
  have hpos : (0 : ℚ) < all.card.choose k := Nat.cast_pos.2 (Nat.choose_pos hk)
  rw [Finset.card_powersetCard, eq_sub_iff_add_eq, ← add_div, div_eq_one_iff_eq hpos.ne']
  exact_mod_cast hdraws

/-- One more that is drawn makes the share of the draws from fewer smaller. -/
theorem share_succ_le {m n k : ℕ} (hmn : m ≤ n) (hk : k + 1 ≤ n) :
    (m.choose (k + 1) : ℚ) / n.choose (k + 1) ≤ m.choose k / n.choose k := by
  have hpos : (0 : ℚ) < n.choose (k + 1) := Nat.cast_pos.2 (Nat.choose_pos hk)
  have hpos' : (0 : ℚ) < n.choose k := Nat.cast_pos.2 (Nat.choose_pos (Nat.le_of_succ_le hk))
  have hcross : m.choose (k + 1) * n.choose k ≤ m.choose k * n.choose (k + 1) := by
    refine Nat.le_of_mul_le_mul_right ?_ (Nat.succ_pos k)
    calc m.choose (k + 1) * n.choose k * (k + 1) = m.choose (k + 1) * (k + 1) * n.choose k := by ring
      _ = m.choose k * (m - k) * n.choose k := by rw [Nat.choose_succ_right_eq]
      _ ≤ m.choose k * (n - k) * n.choose k := by gcongr
      _ = m.choose k * (n.choose k * (n - k)) := by ring
      _ = m.choose k * (n.choose (k + 1) * (k + 1)) := by rw [Nat.choose_succ_right_eq]
      _ = m.choose k * n.choose (k + 1) * (k + 1) := by ring
  rw [div_le_div_iff₀ hpos hpos']
  exact_mod_cast hcross

theorem share_antitone {m n k l : ℕ} (hmn : m ≤ n) (hkl : k ≤ l) (hl : l ≤ n) :
    (m.choose l : ℚ) / n.choose l ≤ m.choose k / n.choose k := by
  induction l, hkl using Nat.le_induction with
  | base => exact le_refl _
  | succ l _ ih => exact (share_succ_le hmn hl).trans (ih (Nat.le_of_succ_le hl))

end Draws

section Interpolation
variable {K : Type} [Field K] [LinearOrder K] [FloorSemiring K]

/-- The sequence at a position, on the straight line between the two whole positions around it. -/
def interpolated (v : ℕ → K) (x : K) : K := v ⌊x⌋₊ + (v ⌈x⌉₊ - v ⌊x⌋₊) * (x - ⌊x⌋₊)

variable [IsStrictOrderedRing K] {v : ℕ → K} {n : ℕ} {x y : K}

/-- The sequence does not fall before the bound. -/
def Climbs (v : ℕ → K) (n : ℕ) : Prop := ∀ i j, i ≤ j → j < n → v i ≤ v j

omit [IsStrictOrderedRing K] in
theorem interpolated_of_whole (h : ⌊x⌋₊ = ⌈x⌉₊) : interpolated v x = v ⌊x⌋₊ := by
  unfold interpolated
  rw [← h, sub_self, zero_mul, add_zero]

theorem weight_mem (hx : 0 ≤ x) : 0 ≤ x - ⌊x⌋₊ ∧ x - ⌊x⌋₊ ≤ 1 := by
  have hlower : (⌊x⌋₊ : K) ≤ x := Nat.floor_le hx
  have hupper : x < ⌊x⌋₊ + 1 := Nat.lt_floor_add_one x
  constructor <;> linarith

/-- Neither below the position before nor above the one after. -/
theorem interpolated_mem (climbs : Climbs v n) (hx : 0 ≤ x) (hn : ⌈x⌉₊ < n) :
    v ⌊x⌋₊ ≤ interpolated v x ∧ interpolated v x ≤ v ⌈x⌉₊ := by
  obtain ⟨hweight, hone⟩ := weight_mem hx
  have hstep : 0 ≤ v ⌈x⌉₊ - v ⌊x⌋₊ := sub_nonneg.2 (climbs _ _ (Nat.floor_le_ceil x) hn)
  have hlower : 0 ≤ (v ⌈x⌉₊ - v ⌊x⌋₊) * (x - ⌊x⌋₊) := mul_nonneg hstep hweight
  have hupper : (v ⌈x⌉₊ - v ⌊x⌋₊) * (x - ⌊x⌋₊) ≤ v ⌈x⌉₊ - v ⌊x⌋₊ := mul_le_of_le_one_right hstep hone
  unfold interpolated
  constructor <;> linarith

theorem interpolated_mono (climbs : Climbs v n) (hx : 0 ≤ x) (hxy : x ≤ y) (hn : ⌈y⌉₊ < n) : interpolated v x ≤ interpolated v y := by
  have hy : 0 ≤ y := hx.trans hxy
  have hxn : ⌈x⌉₊ < n := lt_of_le_of_lt (Nat.ceil_mono hxy) hn
  rcases (Nat.floor_mono hxy).eq_or_lt with hsame | hbefore
  · by_cases hwhole : ⌊x⌋₊ = ⌈x⌉₊
    · rw [interpolated_of_whole hwhole, hsame]
      exact (interpolated_mem climbs hy hn).1
    · -- Both lie on one line.
      have hceil : ⌈x⌉₊ = ⌈y⌉₊ := by
        have hxceil : ⌈x⌉₊ ≤ ⌊x⌋₊ + 1 := Nat.ceil_le_floor_add_one x
        have hyceil : ⌈y⌉₊ ≤ ⌊y⌋₊ + 1 := Nat.ceil_le_floor_add_one y
        have hxle : ⌊x⌋₊ ≤ ⌈x⌉₊ := Nat.floor_le_ceil x
        have hmono : ⌈x⌉₊ ≤ ⌈y⌉₊ := Nat.ceil_mono hxy
        omega
      have hstep : 0 ≤ v ⌈x⌉₊ - v ⌊x⌋₊ := sub_nonneg.2 (climbs _ _ (Nat.floor_le_ceil x) hxn)
      unfold interpolated
      rw [← hsame, ← hceil]
      have hmul : (v ⌈x⌉₊ - v ⌊x⌋₊) * (x - ⌊x⌋₊) ≤ (v ⌈x⌉₊ - v ⌊x⌋₊) * (y - ⌊x⌋₊) :=
        mul_le_mul_of_nonneg_left (sub_le_sub_right hxy _) hstep
      linarith
  · have hgap : ⌈x⌉₊ ≤ ⌊y⌋₊ := (Nat.ceil_le_floor_add_one x).trans hbefore
    calc interpolated v x ≤ v ⌈x⌉₊ := (interpolated_mem climbs hx hxn).2
      _ ≤ v ⌊y⌋₊ := climbs _ _ hgap (lt_of_le_of_lt (Nat.floor_le_ceil y) hn)
      _ ≤ interpolated v y := (interpolated_mem climbs hy hn).1

end Interpolation

end Motte.Foundation
