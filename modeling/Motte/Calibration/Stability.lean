import Mathlib.Algebra.Order.Field.Basic
import Mathlib.Data.Fintype.EquivFin
import Motte.Calibration.Calls

/-! Whether stability is earned by real calls.

A consistent pair always is: both calls answered, each with ledger references of its own,
so neither a failed call nor a call entered twice adds one. A stable sample need not be:
calls that all failed have one signature, and so have the two entries of one call. -/
namespace Motte.Calibration
open Foundation

/-! ### Real repetitions and real swaps -/

/-- The samples that two answered calls of distinct invocations score alike. -/
def realRepeats (calls : List CalibrationCall) : Finset String :=
  (scoredSamples calls).filter (fun s => ∃ a ∈ scoringsOf calls s, ∃ b ∈ scoringsOf calls s,
    a.invocationId ≠ b.invocationId ∧ a.answered = true ∧ b.answered = true ∧
      sortedCriteria a.criteria = sortedCriteria b.criteria)

/-- The samples for which a call in each order, of distinct invocations, named the same winner. -/
def realSwaps (calls : List CalibrationCall) : Finset String :=
  (swappedSamples calls).filter (fun s => ∃ a ∈ swapsOf calls s, ∃ b ∈ swapsOf calls s,
    a.kind = .orderForward ∧ b.kind = .orderReverse ∧ a.invocationId ≠ b.invocationId ∧
      a.outcome = .succeeded ∧ b.outcome = .succeeded ∧
      a.winnerCandidateId.isSome = true ∧ a.winnerCandidateId = b.winnerCandidateId)

/-- `l` has the calls and others, each of them failed or an entry made again. -/
structure Padded (calls l : List CalibrationCall) : Prop where
  added : ∃ added, l.Perm (calls ++ added) ∧ ∀ c ∈ added, c.outcome = .failed ∨ c ∈ calls

/-- What is counted as stable or consistent was earned, and no padding raises a rate. A rate that
was not measured counts as nothing, as the qualification of a judge takes it. -/
structure EarnedByRealCalls (calls : List CalibrationCall) : Prop where
  stable : (repeatStability calls).stable ≤ (realRepeats calls).card
  consistent : (positionSwap calls).consistent ≤ (realSwaps calls).card
  repeatRate : ∀ l, Padded calls l → (repeatStability l).rate.getD 0 ≤ (repeatStability calls).rate.getD 0
  swapRate : ∀ l, Padded calls l → (positionSwap l).rate.getD 0 ≤ (positionSwap calls).rate.getD 0

/-- Some sample was scored again, and all calls of every such sample look alike, two of them answered
and of distinct invocations. -/
def AnsweredThroughout (calls : List CalibrationCall) : Prop :=
  (∃ s, 2 ≤ (scoringsOf calls s).length) ∧
  ∀ s, 2 ≤ (scoringsOf calls s).length →
    (∀ a ∈ scoringsOf calls s, ∀ b ∈ scoringsOf calls s, a.signature = b.signature) ∧
    ∃ a ∈ scoringsOf calls s, ∃ b ∈ scoringsOf calls s,
      a.invocationId ≠ b.invocationId ∧ a.answered = true ∧ b.answered = true

section
variable {calls l added : List CalibrationCall} {s : String}

theorem mem_scoringsOf {c : CalibrationCall} :
    c ∈ scoringsOf calls s ↔ c ∈ calls ∧ c.scores = true ∧ c.sampleId = s := by
  unfold scoringsOf
  rw [mem_ofKey, List.mem_filter, and_assoc]

theorem mem_swapsOf {c : CalibrationCall} :
    c ∈ swapsOf calls s ↔ c ∈ calls ∧ c.swaps = true ∧ c.sampleId = s := by
  unfold swapsOf
  rw [mem_ofKey, List.mem_filter, and_assoc]

theorem mem_scoredSamples : s ∈ scoredSamples calls ↔ scoringsOf calls s ≠ [] := by
  unfold scoredSamples scoringsOf
  rw [List.mem_toFinset, ofKey_ne_nil_iff]

theorem mem_swappedSamples : s ∈ swappedSamples calls ↔ swapsOf calls s ≠ [] := by
  unfold swappedSamples swapsOf
  rw [List.mem_toFinset, ofKey_ne_nil_iff]

theorem mem_repeatedSamples : s ∈ repeatedSamples calls ↔ 2 ≤ (scoringsOf calls s).length := by
  unfold repeatedSamples
  rw [Finset.mem_filter, mem_scoredSamples]
  constructor
  · exact fun h => h.2
  · intro h
    refine ⟨fun hnil => ?_, h⟩
    rw [hnil] at h
    simp at h

theorem mem_stableSamples :
    s ∈ stableSamples calls ↔ 2 ≤ (scoringsOf calls s).length ∧ isStable (scoringsOf calls s) = true := by
  unfold stableSamples
  rw [Finset.mem_filter, mem_repeatedSamples]

theorem stable_le_repeated (calls : List CalibrationCall) :
    (stableSamples calls).card ≤ (repeatedSamples calls).card :=
  Finset.card_le_card (Finset.filter_subset _ _)

/-- Two distinct calls were made, so the sample was scored more than once. -/
theorem realRepeats_subset (calls : List CalibrationCall) : realRepeats calls ⊆ repeatedSamples calls := by
  intro s h
  obtain ⟨-, a, ha, b, hb, hdistinct, -⟩ := Finset.mem_filter.1 h
  rw [mem_repeatedSamples]
  match hitems : scoringsOf calls s with
  | [] =>
    rw [hitems] at ha
    cases ha
  | [c] =>
    rw [hitems, List.mem_singleton] at ha hb
    rw [ha, hb] at hdistinct
    exact absurd rfl hdistinct
  | _ :: _ :: items => simp

/-! ### Consistent pairs -/

/-- What a consistent pair comes to. -/
theorem swapVerdict_consistent_iff {items : List CalibrationCall} :
    swapVerdict calls items = .consistent ↔ ∃ first second,
      items.filter (·.kind = .orderForward) = [first] ∧ items.filter (·.kind = .orderReverse) = [second] ∧
      (∀ c ∈ items, c.ownReferences calls = true) ∧ (∀ c ∈ items, c.answered = true) ∧
      reversesPair first second = true ∧ (∀ c ∈ items, winsWithin first.presentationOrder c = true) ∧
      first.winnerCandidateId = second.winnerCandidateId := by
  unfold swapVerdict
  constructor
  · intro h
    split at h
    · rename_i first second hfirst hsecond
      split at h
      · cases h
      · rename_i hown
        split at h
        · cases h
        · rename_i hanswered
          split at h
          · cases h
          · rename_i hpair
            split at h
            · cases h
            · rename_i hwins
              split at h
              · rename_i hwinner
                simp only [Bool.not_eq_true, Bool.not_eq_false', List.all_eq_true] at hown hanswered hpair hwins
                exact ⟨first, second, hfirst, hsecond, hown, hanswered, hpair, hwins, hwinner⟩
              · cases h
    · cases h
  · rintro ⟨first, second, hfirst, hsecond, hown, hanswered, hpair, hwins, hwinner⟩
    rw [hfirst, hsecond]
    simp only
    rw [if_neg (by simpa using hown), if_neg (by simpa using hanswered), if_neg (by simp [hpair]),
      if_neg (by simpa using hwins), if_pos hwinner]

theorem mem_consistentSamples : s ∈ consistentSamples calls ↔ swapVerdict calls (swapsOf calls s) = .consistent := by
  unfold consistentSamples
  rw [Finset.mem_filter, mem_swappedSamples]
  constructor
  · exact fun h => h.2
  · intro h
    refine ⟨fun hnil => ?_, h⟩
    rw [hnil] at h
    cases h

/-- A call's references are its own only when no other call has its invocation. -/
theorem own_invocation {a b : CalibrationCall} (ha : a ∈ calls) (hb : b ∈ calls) (hne : a ≠ b)
    (hown : a.ownReferences calls = true) : a.invocationId ≠ b.invocationId := by
  intro hsame
  have hone : calls.countP (·.invocationId = a.invocationId) = 1 := by
    simp only [CalibrationCall.ownReferences, Bool.and_eq_true, decide_eq_true_eq] at hown
    exact hown.1
  rw [List.countP_eq_length_filter] at hone
  obtain ⟨c, hc⟩ := List.length_eq_one_iff.1 hone
  have hac : a ∈ calls.filter (·.invocationId = a.invocationId) := by simpa using ha
  have hbc : b ∈ calls.filter (·.invocationId = a.invocationId) := by simpa [hsame] using hb
  rw [hc, List.mem_singleton] at hac hbc
  exact hne (hac.trans hbc.symm)

/-- A consistent pair is two real calls. -/
theorem consistent_real (calls : List CalibrationCall) : consistentSamples calls ⊆ realSwaps calls := by
  intro s h
  rw [mem_consistentSamples] at h
  obtain ⟨first, second, hfirst, hsecond, hown, hanswered, -, hwins, hwinner⟩ := swapVerdict_consistent_iff.1 h
  have hone : first ∈ (swapsOf calls s).filter (·.kind = .orderForward) := by rw [hfirst]; exact .head _
  have htwo : second ∈ (swapsOf calls s).filter (·.kind = .orderReverse) := by rw [hsecond]; exact .head _
  simp only [List.mem_filter, decide_eq_true_eq] at hone htwo
  have hne : first ≠ second := by
    intro heq
    have hkind := hone.2.symm.trans ((congrArg CalibrationCall.kind heq).trans htwo.2)
    cases hkind
  have hdistinct := own_invocation (mem_swapsOf.1 hone.1).1 (mem_swapsOf.1 htwo.1).1 hne (hown _ hone.1)
  have hsucceeded : ∀ c ∈ swapsOf calls s, c.outcome = .succeeded := by
    intro c hc
    have hc' := hanswered c hc
    simp only [CalibrationCall.answered, Bool.and_eq_true, decide_eq_true_eq] at hc'
    exact hc'.1
  have hsome : first.winnerCandidateId.isSome = true := by
    have hwin := hwins _ hone.1
    unfold winsWithin at hwin
    cases hwinner : first.winnerCandidateId with
    | none =>
      rw [hwinner] at hwin
      cases hwin
    | some => rfl
  refine Finset.mem_filter.2 ⟨mem_swappedSamples.2 (List.ne_nil_of_mem hone.1), first, hone.1, second, htwo.1, ?_⟩
  exact ⟨hone.2, htwo.2, hdistinct, hsucceeded _ hone.1, hsucceeded _ htwo.1, hsome, hwinner⟩

theorem swapsOf_perm (h : l.Perm calls) (s : String) : (swapsOf l s).Perm (swapsOf calls s) :=
  ofKey_perm (h.filter _) s

theorem swapsOf_append (calls added : List CalibrationCall) (s : String) :
    swapsOf (calls ++ added) s = swapsOf calls s ++ swapsOf added s := by
  unfold swapsOf
  rw [List.filter_append, ofKey_append]

/-- A call with references of its own was not entered a second time. -/
theorem own_added {c : CalibrationCall} (hl : l.Perm (calls ++ added)) (hown : c.ownReferences l = true)
    (hc : c ∈ calls) : c ∉ added := by
  intro hadded
  simp only [CalibrationCall.ownReferences, Bool.and_eq_true, decide_eq_true_eq] at hown
  have hcount := hown.1
  rw [hl.countP_eq, List.countP_append] at hcount
  have hbefore : 0 < calls.countP (·.invocationId = c.invocationId) := List.countP_pos_iff.2 ⟨c, hc, by simp⟩
  have hafter : 0 < added.countP (·.invocationId = c.invocationId) := List.countP_pos_iff.2 ⟨c, hadded, by simp⟩
  omega

/-- The references that are a call's own among more calls are its own among fewer. -/
theorem own_fewer {c : CalibrationCall} (hl : l.Perm (calls ++ added)) (hown : c.ownReferences l = true)
    (hc : c ∈ calls) : c.ownReferences calls = true := by
  simp only [CalibrationCall.ownReferences, Bool.and_eq_true, decide_eq_true_eq] at hown ⊢
  obtain ⟨hinvocation, hcall⟩ := hown
  rw [hl.countP_eq, List.countP_append] at hinvocation hcall
  have hone : 0 < calls.countP (·.invocationId = c.invocationId) := List.countP_pos_iff.2 ⟨c, hc, by simp⟩
  have htwo : 0 < calls.countP (fun c' => c'.judgeJobId = c.judgeJobId && c'.callId = c.callId) :=
    List.countP_pos_iff.2 ⟨c, hc, by simp⟩
  omega

/-- Padding adds no consistent pair: the calls of one were there before, and are there once. -/
theorem consistent_padded (h : Padded calls l) : consistentSamples l ⊆ consistentSamples calls := by
  obtain ⟨added, hl, hadded⟩ := h
  intro s hs
  rw [mem_consistentSamples] at hs ⊢
  obtain ⟨first, second, hfirst, hsecond, hown, hanswered, hpair, hwins, hwinner⟩ := swapVerdict_consistent_iff.1 hs
  have hitems : (swapsOf l s).Perm (swapsOf calls s ++ swapsOf added s) := by
    rw [← swapsOf_append]
    exact swapsOf_perm hl s
  have hnone : swapsOf added s = [] := by
    refine List.eq_nil_iff_forall_not_mem.2 (fun c hc => ?_)
    have hmem : c ∈ swapsOf l s := hitems.mem_iff.2 (List.mem_append_right _ hc)
    have hc' := hanswered c hmem
    simp only [CalibrationCall.answered, Bool.and_eq_true, decide_eq_true_eq] at hc'
    have hthere := (mem_swapsOf.1 hc).1
    obtain hfailed | hbefore := hadded c hthere
    · rw [hfailed] at hc'
      cases hc'.1
    · exact own_added hl (hown c hmem) hbefore hthere
  rw [hnone, List.append_nil] at hitems
  refine swapVerdict_consistent_iff.2 ⟨first, second, ?_, ?_, ?_, ?_, hpair, ?_, hwinner⟩
  · have hperm := (hitems.filter (·.kind = .orderForward)).symm
    rw [hfirst] at hperm
    exact List.perm_singleton.1 hperm
  · have hperm := (hitems.filter (·.kind = .orderReverse)).symm
    rw [hsecond] at hperm
    exact List.perm_singleton.1 hperm
  · exact fun c hc => own_fewer hl (hown c (hitems.mem_iff.2 hc)) (mem_swapsOf.1 hc).1
  · exact fun c hc => hanswered c (hitems.mem_iff.2 hc)
  · exact fun c hc => hwins c (hitems.mem_iff.2 hc)

theorem swapped_padded (h : Padded calls l) : swappedSamples calls ⊆ swappedSamples l := by
  obtain ⟨added, hl, -⟩ := h
  intro s hs
  rw [mem_swappedSamples] at hs ⊢
  obtain ⟨c, hc⟩ := List.exists_mem_of_ne_nil _ hs
  have hmem : c ∈ swapsOf l s := by
    refine (swapsOf_perm hl s).mem_iff.2 ?_
    rw [swapsOf_append]
    exact List.mem_append_left _ hc
  exact List.ne_nil_of_mem hmem

theorem consistent_le_swapped (calls : List CalibrationCall) :
    (consistentSamples calls).card ≤ (swappedSamples calls).card :=
  Finset.card_le_card (Finset.filter_subset _ _)

/-- Padding does not raise the rate of consistent pairs. -/
theorem swapRate_padded (h : Padded calls l) :
    (positionSwap l).rate.getD 0 ≤ (positionSwap calls).rate.getD 0 := by
  rw [positionSwap_rate, positionSwap_rate]
  have hconsistent : (consistentSamples l).card ≤ (consistentSamples calls).card :=
    Finset.card_le_card (consistent_padded h)
  have hswapped : (swappedSamples calls).card ≤ (swappedSamples l).card := Finset.card_le_card (swapped_padded h)
  by_cases hnone : (swappedSamples calls).card = 0
  · have hzero : (consistentSamples l).card = 0 := by
      have := consistent_le_swapped calls
      omega
    rw [hzero, Nat.cast_zero, zero_div]
    exact div_nonneg (Nat.cast_nonneg _) (Nat.cast_nonneg _)
  · have hpos : (0 : ℚ) < (swappedSamples calls).card := by
      rw [Nat.cast_pos]
      omega
    calc ((consistentSamples l).card : ℚ) / (swappedSamples l).card
        ≤ (consistentSamples calls).card / (swappedSamples l).card :=
          div_le_div_of_nonneg_right (Nat.cast_le.2 hconsistent) (Nat.cast_nonneg _)
      _ ≤ (consistentSamples calls).card / (swappedSamples calls).card :=
          div_le_div_of_nonneg_left (Nat.cast_nonneg _) hpos (Nat.cast_le.2 hswapped)

/-! ### Stable samples -/

theorem realRepeats_of_answered (h : AnsweredThroughout calls) : realRepeats calls = repeatedSamples calls := by
  refine Finset.Subset.antisymm (realRepeats_subset calls) (fun s hs => ?_)
  rw [mem_repeatedSamples] at hs
  obtain ⟨halike, a, ha, b, hb, hdistinct, hanswered⟩ := h.2 s hs
  have hsignature := halike a ha b hb
  refine Finset.mem_filter.2 ⟨mem_scoredSamples.2 (List.ne_nil_of_mem ha), a, ha, b, hb, hdistinct, hanswered.1, hanswered.2, ?_⟩
  exact congrArg Prod.snd hsignature

theorem stable_of_answered (h : AnsweredThroughout calls) : stableSamples calls = repeatedSamples calls := by
  refine Finset.Subset.antisymm (Finset.filter_subset _ _) (fun s hs => ?_)
  rw [mem_repeatedSamples] at hs
  exact mem_stableSamples.2 ⟨hs, isStable_iff.2 (h.2 s hs).1⟩

theorem repeatRate_le_one (calls : List CalibrationCall) : (repeatStability calls).rate.getD 0 ≤ 1 := by
  rw [repeatStability_rate]
  refine div_le_one_of_le₀ ?_ (Nat.cast_nonneg _)
  exact Nat.cast_le.2 (stable_le_repeated calls)

theorem repeatRate_of_answered (h : AnsweredThroughout calls) : (repeatStability calls).rate.getD 0 = 1 := by
  rw [repeatStability_rate, stable_of_answered h]
  obtain ⟨s, hs⟩ := h.1
  have hpos : 0 < (repeatedSamples calls).card := Finset.card_pos.2 ⟨s, mem_repeatedSamples.2 hs⟩
  exact div_self (Nat.cast_ne_zero.2 (by omega))

/-- A call of a sample that got no answer. -/
def failedCall (sample invocation : String) : CalibrationCall :=
  { callId := invocation, sampleId := sample, kind := .single, judgeJobId := "judge-job-1", invocationId := invocation,
    outcome := .failed }

/-- Two failed calls of a sample. -/
def failedTwice (sample : String) : List CalibrationCall :=
  [failedCall sample "invocation-1", failedCall sample "invocation-2"]

theorem scoringsOf_append (calls added : List CalibrationCall) (s : String) :
    scoringsOf (calls ++ added) s = scoringsOf calls s ++ scoringsOf added s := by
  unfold scoringsOf
  rw [List.filter_append, ofKey_append]

theorem scoringsOf_failedTwice (sample s : String) :
    scoringsOf (failedTwice sample) s = if s = sample then failedTwice sample else [] := by
  split
  · rename_i h
    rw [h]
    simp [scoringsOf, ofKey, failedTwice, failedCall, CalibrationCall.scores]
  · rename_i h
    simp [scoringsOf, ofKey, failedTwice, failedCall, CalibrationCall.scores, Ne.symm h]

theorem isStable_failedTwice (sample : String) : isStable (failedTwice sample) = true := by
  rw [isStable_iff]
  intro a ha b hb
  simp only [failedTwice, List.mem_cons, List.not_mem_nil, or_false] at ha hb
  obtain rfl | rfl := ha <;> obtain rfl | rfl := hb <;> rfl

/-- Two failed calls of a new sample are a stable sample more. -/
theorem repeated_failedTwice {sample : String} (hnew : scoringsOf calls sample = []) :
    repeatedSamples (calls ++ failedTwice sample) = insert sample (repeatedSamples calls) := by
  ext s
  rw [Finset.mem_insert, mem_repeatedSamples, mem_repeatedSamples, scoringsOf_append, scoringsOf_failedTwice]
  by_cases hs : s = sample
  · rw [if_pos hs, hs, hnew]
    simp [failedTwice]
  · simp [hs]

theorem stable_failedTwice {sample : String} (hnew : scoringsOf calls sample = []) :
    stableSamples (calls ++ failedTwice sample) = insert sample (stableSamples calls) := by
  ext s
  rw [Finset.mem_insert, mem_stableSamples, mem_stableSamples, scoringsOf_append, scoringsOf_failedTwice]
  by_cases hs : s = sample
  · rw [if_pos hs, hs, hnew, List.nil_append]
    exact ⟨fun _ => .inl rfl, fun _ => ⟨Nat.le_refl 2, isStable_failedTwice sample⟩⟩
  · simp [hs]

theorem padded_failedTwice (calls : List CalibrationCall) (sample : String) :
    Padded calls (calls ++ failedTwice sample) := by
  refine ⟨failedTwice sample, .refl _, fun c hc => .inl ?_⟩
  simp only [failedTwice, List.mem_cons, List.not_mem_nil, or_false] at hc
  obtain rfl | rfl := hc <;> rfl

/-- When no padding raises the rate, every sample scored again is stable, and there is one: two
failed calls of a new sample raise any smaller rate. -/
theorem all_stable (h : ∀ l, Padded calls l → (repeatStability l).rate.getD 0 ≤ (repeatStability calls).rate.getD 0) :
    0 < (repeatedSamples calls).card ∧ stableSamples calls = repeatedSamples calls := by
  obtain ⟨sample, hsample⟩ := Infinite.exists_notMem_finset (scoredSamples calls)
  have hnew : scoringsOf calls sample = [] := not_not.1 (fun hsome => hsample (mem_scoredSamples.2 hsome))
  have hrate := h _ (padded_failedTwice calls sample)
  have hrepeated : sample ∉ repeatedSamples calls := fun hin => hsample (Finset.mem_filter.1 hin).1
  have hstable : sample ∉ stableSamples calls := fun hin => hrepeated (Finset.mem_filter.1 hin).1
  rw [repeatStability_rate, repeatStability_rate, repeated_failedTwice hnew, stable_failedTwice hnew,
    Finset.card_insert_of_notMem hrepeated, Finset.card_insert_of_notMem hstable] at hrate
  have hle := stable_le_repeated calls
  have hpos : 0 < (repeatedSamples calls).card := by
    by_contra hzero
    have hnone : (repeatedSamples calls).card = 0 := by omega
    have hnone' : (stableSamples calls).card = 0 := by omega
    rw [hnone, hnone'] at hrate
    exact absurd hrate (by norm_num)
  refine ⟨hpos, Finset.eq_of_subset_of_card_le (Finset.filter_subset _ _) ?_⟩
  rw [div_le_div_iff₀ (Nat.cast_pos.2 (Nat.succ_pos _)) (Nat.cast_pos.2 hpos)] at hrate
  have hrate' : ((stableSamples calls).card + 1) * (repeatedSamples calls).card ≤
      (stableSamples calls).card * ((repeatedSamples calls).card + 1) := by exact_mod_cast hrate
  show (repeatedSamples calls).card ≤ (stableSamples calls).card
  rw [Nat.add_one_mul, Nat.mul_add_one] at hrate'
  omega

/-- Stability is earned by real calls exactly when some sample was scored again and every such
sample was answered. -/
theorem earned_iff (calls : List CalibrationCall) : EarnedByRealCalls calls ↔ AnsweredThroughout calls := by
  constructor
  · intro h
    obtain ⟨hpos, hall⟩ := all_stable h.repeatRate
    have hcount := h.stable
    rw [repeatStability_stable, hall] at hcount
    have hreal : realRepeats calls = repeatedSamples calls :=
      Finset.eq_of_subset_of_card_le (realRepeats_subset calls) hcount
    constructor
    · obtain ⟨s, hs⟩ := Finset.card_pos.1 hpos
      exact ⟨s, mem_repeatedSamples.1 hs⟩
    · intro s hs
      have hrepeated := mem_repeatedSamples.2 hs
      have hstable := (mem_stableSamples.1 (by rw [hall]; exact hrepeated)).2
      rw [← hreal] at hrepeated
      obtain ⟨-, a, ha, b, hb, hdistinct, hanswered, hanswered', -⟩ := Finset.mem_filter.1 hrepeated
      exact ⟨isStable_iff.1 hstable, a, ha, b, hb, hdistinct, hanswered, hanswered'⟩
  · intro h
    refine ⟨?_, ?_, ?_, ?_⟩
    · rw [repeatStability_stable, stable_of_answered h, realRepeats_of_answered h]
    · rw [positionSwap_consistent]
      exact Finset.card_le_card (consistent_real calls)
    · intro l hl
      rw [repeatRate_of_answered h]
      exact repeatRate_le_one l
    · exact fun l hl => swapRate_padded hl

/-- A judge that answers nothing is perfectly stable. -/
theorem failed_calls_stable : ¬ ∀ calls, EarnedByRealCalls calls := by
  intro h
  have hcount := (h (failedTwice "sample-1")).stable
  have hstable : (repeatStability (failedTwice "sample-1")).stable = 1 := by decide +kernel
  have hreal : (realRepeats (failedTwice "sample-1")).card = 0 := by decide +kernel
  omega

end

end Motte.Calibration
