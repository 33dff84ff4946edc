import Motte.Storage.CallLedger
import Motte.Storage.JobLifecycle

/-! The call ledgers agree with the invocation table.

A call in flight has an invocation in flight, at the revision the call recorded;
a call that landed has an invocation that did. No two calls share an invocation,
so settling one call never spoils the record of another, and neither a settlement
of a call in flight nor a recovery can lose the compare-and-set on an invocation. -/
namespace Motte.Storage
open Foundation

/-! ### Ledgers over a table -/

/-- The members of a call that say where its invocation stands. -/
def Call.link (c : Call) : String × String × Int × InvocationStatus :=
  (c.callId, c.invocationId, c.invocationRevision, c.status)

/-- The invocation of a call is in flight at the recorded revision, or has landed with the call. -/
def Linked (t : Invocations) (c : Call) : Prop :=
  ∃ i, t.get c.invocationId = some i ∧
    ((c.status = .dispatching ∧ i.1.status = .dispatching ∧ i.1.revision = c.invocationRevision) ∨
      (c.status = .settled ∧ i.1.status ≠ .dispatching))

/-- The ledgers, one for each key, agree with the table. -/
structure Agrees (calls : String → List Call) (t : Invocations) : Prop where
  linked : ∀ k, ∀ c ∈ calls k, Linked t c
  callIds : ∀ k, ((calls k).map (·.callId)).Nodup
  distinct : ∀ k, ((calls k).map (·.invocationId)).Nodup
  apart : ∀ k k', k ≠ k' → ∀ c ∈ calls k, ∀ c' ∈ calls k', c.invocationId ≠ c'.invocationId

theorem Linked.of_link {t : Invocations} {c c' : Call} (h : Linked t c) (he : c'.link = c.link) :
    Linked t c' := by
  obtain ⟨-, hid, hrev, hst⟩ : c'.callId = c.callId ∧ c'.invocationId = c.invocationId ∧
      c'.invocationRevision = c.invocationRevision ∧ c'.status = c.status := by
    simpa [Call.link] using he
  unfold Linked
  rw [hid, hrev, hst]
  exact h

theorem Linked.frame {t t' : Invocations} {c : Call} (h : Linked t c)
    (he : t'.get c.invocationId = t.get c.invocationId) : Linked t' c := by
  unfold Linked
  rw [he]
  exact h

/-- The invocation of a call is never one that is not there. -/
theorem Linked.ne_fresh {t : Invocations} {c : Call} {id : String} (h : Linked t c) (fresh : t.get id = none) :
    c.invocationId ≠ id := by
  rintro rfl
  obtain ⟨i, hi, -⟩ := h
  cases fresh.symm.trans hi

namespace Agrees
variable {calls calls' : String → List Call} {t t' : Invocations}

/-- Agreement reads nothing of a call but its link. -/
theorem of_links (h : Agrees calls t) (same : ∀ k, (calls' k).map Call.link = (calls k).map Call.link) :
    Agrees calls' t := by
  have old {k : String} {c' : Call} (hc : c' ∈ calls' k) : ∃ c ∈ calls k, c'.link = c.link := by
    have hm : c'.link ∈ (calls k).map Call.link := same k ▸ List.mem_map_of_mem hc
    obtain ⟨c, hc, he⟩ := List.mem_map.1 hm
    exact ⟨c, hc, he.symm⟩
  refine ⟨fun k c' hc' => ?_, fun k => ?_, fun k => ?_, fun k k' hne c' hc' d' hd' => ?_⟩
  · obtain ⟨c, hc, he⟩ := old hc'
    exact (h.linked k c hc).of_link he
  · have := congrArg (List.map Prod.fst) (same k)
    rw [List.map_map, List.map_map] at this
    exact this ▸ h.callIds k
  · have := congrArg (List.map (fun link => link.2.1)) (same k)
    rw [List.map_map, List.map_map] at this
    exact this ▸ h.distinct k
  · obtain ⟨c, hc, he⟩ := old hc'
    obtain ⟨d, hd, hf⟩ := old hd'
    rw [show c'.invocationId = c.invocationId from congrArg (·.2.1) he,
      show d'.invocationId = d.invocationId from congrArg (·.2.1) hf]
    exact h.apart k k' hne c hc d hd

/-- A row that no call refers to may be added. -/
theorem create (h : Agrees calls t) {id : String} (fresh : t.get id = none) (i : StoredInvocation) :
    Agrees calls (t.set id i) where
  linked k c hc :=
    (h.linked k c hc).frame (Table.get_set_ne t i ((h.linked k c hc).ne_fresh fresh))
  callIds := h.callIds
  distinct := h.distinct
  apart := h.apart

/-- One ledger may be replaced along with the rows of its own calls. -/
theorem replace (h : Agrees calls t) {key : String} {ledger : List Call}
    (self : calls' key = ledger) (others : ∀ k, k ≠ key → calls' k = calls k)
    (linked : ∀ c ∈ ledger, Linked t' c) (callIds : (ledger.map (·.callId)).Nodup)
    (distinct : (ledger.map (·.invocationId)).Nodup)
    (known : ∀ c ∈ ledger, (∃ old ∈ calls key, old.invocationId = c.invocationId) ∨ t.get c.invocationId = none)
    (frame : ∀ id, (∀ c ∈ ledger, c.invocationId ≠ id) → t'.get id = t.get id) : Agrees calls' t' := by
  have apart (k : String) (hne : k ≠ key) (c : Call) (hc : c ∈ calls k) (c' : Call) (hc' : c' ∈ ledger) :
      c'.invocationId ≠ c.invocationId := by
    rcases known c' hc' with ⟨old, hold, hid⟩ | hfresh
    · rw [← hid]
      exact h.apart key k (Ne.symm hne) old hold c hc
    · exact ((h.linked k c hc).ne_fresh hfresh).symm
  refine ⟨fun k c hc => ?_, fun k => ?_, fun k => ?_, fun k k' hkk c hc c' hc' => ?_⟩
  · by_cases hk : k = key
    · subst hk
      exact linked c (self ▸ hc)
    · rw [others k hk] at hc
      exact (h.linked k c hc).frame (frame _ (apart k hk c hc))
  · by_cases hk : k = key
    · rw [hk, self]
      exact callIds
    · rw [others k hk]
      exact h.callIds k
  · by_cases hk : k = key
    · rw [hk, self]
      exact distinct
    · rw [others k hk]
      exact h.distinct k
  · by_cases hk : k = key
    · have hk' : k' ≠ key := fun h => hkk (hk.trans h.symm)
      rw [others k' hk'] at hc'
      rw [hk, self] at hc
      exact apart k' hk' c' hc' c hc
    · rw [others k hk] at hc
      by_cases hk' : k' = key
      · rw [hk', self] at hc'
        exact (apart k hk c hc c' hc').symm
      · rw [others k' hk'] at hc'
        exact h.apart k k' hkk c hc c' hc'

/-- With distinct invocations, another call of the same ledger has another one. -/
theorem ne_of_callId (h : Agrees calls t) {key : String} {c c' : Call} (hc : c ∈ calls key) (hc' : c' ∈ calls key)
    (hne : c.callId ≠ c'.callId) : c.invocationId ≠ c'.invocationId := by
  intro he
  exact hne (congrArg (fun c : Call => c.callId) (List.inj_on_of_nodup_map (h.distinct key) hc hc' he))

end Agrees

/-! ### Sending, settling, sweeping -/

theorem findCall_some {calls : List Call} {callId : String} {c : Call} (h : findCall calls callId = some c) :
    c ∈ calls ∧ c.callId = callId :=
  ⟨List.mem_of_find?_eq_some h, by simpa using List.find?_some h⟩

/-- A call that is sent gets an invocation of its own, in flight. -/
theorem Agrees.send {calls calls' : String → List Call} {t t₁ t' : Invocations} (h : Agrees calls t)
    (key : String) {r : BeginCallRequest} {created dispatched : StoredInvocation} {rev : Int}
    {changes : InvocationChanges} (hc : t.create r.invocation = .ok (created, t₁))
    (hd : t₁.transition created.1.id rev .prepared .dispatching changes = .ok (dispatched, t'))
    (unsent : ∀ c ∈ calls key, c.callId ≠ r.call.callId)
    (self : calls' key = calls key ++ [dispatchedCall r dispatched.1])
    (others : ∀ k, k ≠ key → calls' k = calls k) : Agrees calls' t' := by
  obtain ⟨hnew, rfl, hcid, -, -⟩ := Invocations.create_ok hc
  obtain ⟨⟨current, hcur, -, -, hdid⟩, hst, -, rfl⟩ := Invocations.transition_ok hd
  rw [hcid, Table.get_set_self] at hcur
  cases hcur
  have hid : (dispatchedCall r dispatched.1).invocationId = r.invocation.id := hdid.trans hcid
  have fresh (c : Call) (hc : c ∈ calls key) : c.invocationId ≠ r.invocation.id :=
    (h.linked key c hc).ne_fresh hnew
  have get_ne (id : String) (hne : id ≠ r.invocation.id) :
      ((t.set r.invocation.id created).set created.1.id dispatched).get id = t.get id := by
    rw [hcid, Table.get_set_ne _ _ hne, Table.get_set_ne _ _ hne]
  refine h.replace self others (fun c hc => ?_) ?_ ?_ (fun c hc => ?_) (fun id hne => ?_)
  · rcases List.mem_append.1 hc with hc | hc
    · exact (h.linked key c hc).frame (get_ne _ (fresh c hc))
    · rw [List.mem_singleton.1 hc]
      exact ⟨dispatched, by rw [hid, hcid, Table.get_set_self], .inl ⟨rfl, hst, rfl⟩⟩
  · rw [List.map_append]
    refine List.nodup_append.2 ⟨h.callIds key, List.nodup_singleton _, ?_⟩
    rintro a ha b hb rfl
    obtain ⟨c, hc, rfl⟩ := List.mem_map.1 ha
    exact unsent c hc (List.mem_singleton.1 hb)
  · rw [List.map_append]
    refine List.nodup_append.2 ⟨h.distinct key, List.nodup_singleton _, ?_⟩
    rintro a ha b hb rfl
    obtain ⟨c, hc, rfl⟩ := List.mem_map.1 ha
    exact fresh c hc ((List.mem_singleton.1 hb).trans hid)
  · rcases List.mem_append.1 hc with hc | hc
    · exact .inl ⟨c, hc, rfl⟩
    · rw [List.mem_singleton.1 hc, hid]
      exact .inr hnew
  · exact get_ne id (fun he => hne (dispatchedCall r dispatched.1) (by simp) (hid.trans he.symm))

/-- A call that is settled takes its invocation with it. -/
theorem Agrees.settle {calls calls' : String → List Call} {t t' : Invocations} (h : Agrees calls t)
    (key : String) {r : SettleCallRequest} {target : Call} {i : StoredInvocation} {rev : Int}
    {changes : InvocationChanges} (hf : findCall (calls key) r.callId = some target)
    (hs : t.transition target.invocationId rev .dispatching .settled changes = .ok (i, t'))
    (self : calls' key = editCall (calls key) r.callId (settledCall r))
    (others : ∀ k, k ≠ key → calls' k = calls k) : Agrees calls' t' := by
  obtain ⟨-, hst, -, rfl⟩ := Invocations.transition_ok hs
  obtain ⟨hmem, hid⟩ := findCall_some hf
  have hn := h.callIds key
  have named {old : Call} (hold : old ∈ calls key) (he : old.callId = r.callId) : old = target :=
    List.inj_on_of_nodup_map hn hold hmem (he.trans hid.symm)
  refine h.replace self others (fun c hc => ?_) ?_ ?_ (fun c hc => ?_) (fun id hne => ?_)
  · rcases (mem_editCall hn).1 hc with ⟨hc, hne⟩ | ⟨old, hold, he, rfl⟩
    · refine (h.linked key c hc).frame (Table.get_set_ne _ _ ?_)
      exact h.ne_of_callId hc hmem (fun he => hne (he.trans hid))
    · obtain rfl := named hold he
      exact ⟨i, Table.get_set_self _ _ _, .inr ⟨rfl, by rw [hst]; decide⟩⟩
  · rw [editCall_map (f := settledCall r) (fun _ => rfl)]
    exact hn
  · rw [editCall_map (f := settledCall r) (fun _ => rfl)]
    exact h.distinct key
  · rcases (mem_editCall hn).1 hc with ⟨hc, -⟩ | ⟨old, hold, -, rfl⟩
    · exact .inl ⟨c, hc, rfl⟩
    · exact .inl ⟨old, hold, rfl⟩
  · refine Table.get_set_ne _ _ (fun he => ?_)
    exact hne (settledCall r target) ((mem_editCall hn).2 (.inr ⟨target, hmem, hid, rfl⟩)) he.symm

/-- A sweep that selects no call does nothing. -/
theorem sweep_none {w : Sweep} {calls : List Call} (h : ∀ c ∈ calls, c.status ≠ w.status) (t : Invocations) :
    sweep w calls t = (calls, t, .ok ()) := by
  induction calls with
  | nil => rfl
  | cons c rest ih =>
    rw [sweep, if_neg (h c (List.mem_cons_self ..)), ih (fun c' hc' => h c' (List.mem_cons_of_mem _ hc'))]

/-- What a sweep that goes through makes of a call. -/
def Sweep.apply (w : Sweep) (c : Call) : Call := if c.status = w.status then w.mark c else c

/-- A sweep whose calls are linked, each to an invocation of its own, goes through. -/
theorem sweep_settles {w : Sweep} (hw : .settled ∈ w.status.transitions) {calls : List Call} {t : Invocations}
    (hn : ((calls.filter (fun c => c.status = w.status)).map (·.invocationId)).Nodup)
    (hl : ∀ c ∈ calls, c.status = w.status → ∃ i, t.get c.invocationId = some i ∧
      i.1.revision = c.invocationRevision ∧ i.1.status = w.status) :
    ∃ t', sweep w calls t = (calls.map w.apply, t', .ok ()) ∧
      (∀ id, (∀ c ∈ calls, c.status = w.status → c.invocationId ≠ id) → t'.get id = t.get id) ∧
      ∀ c ∈ calls, c.status = w.status → ∃ i, t'.get c.invocationId = some i ∧ i.1.status = .settled := by
  induction calls generalizing t with
  | nil => exact ⟨t, rfl, fun _ _ => rfl, fun c hc => nomatch hc⟩
  | cons c rest ih =>
    by_cases hs : c.status = w.status
    · rw [List.filter_cons_of_pos (by simp [hs]), List.map_cons, List.nodup_cons] at hn
      have hrest (c' : Call) (hc' : c' ∈ rest) (hs' : c'.status = w.status) : c'.invocationId ≠ c.invocationId :=
        fun he => hn.1 (he ▸ List.mem_map_of_mem (List.mem_filter.2 ⟨hc', by simp [hs']⟩))
      obtain ⟨row, hrow, hrev, hst⟩ := hl c (List.mem_cons_self ..) hs
      obtain ⟨i, hi⟩ := Invocations.settle_of_match hrow hrev hst hw w.outcome w.summary w.now
      obtain ⟨-, hist, -, -⟩ := Invocations.transition_ok hi
      obtain ⟨t', hsweep, hframe, hsettled⟩ := ih (t := t.set c.invocationId i) hn.2 (fun c' hc' hs' => by
        rw [Table.get_set_ne _ _ (hrest c' hc' hs')]
        exact hl c' (List.mem_cons_of_mem _ hc') hs')
      have hc : t'.get c.invocationId = some i := by
        rw [hframe _ hrest, Table.get_set_self]
      refine ⟨t', ?_, fun id hne => ?_, fun c' hc' hs' => ?_⟩
      · rw [sweep, if_pos hs, hi]
        simp only [hsweep, List.map_cons, Sweep.apply, if_pos hs]
      · rw [hframe id (fun c' hc' => hne c' (List.mem_cons_of_mem _ hc')),
          Table.get_set_ne _ _ (hne c (List.mem_cons_self ..) hs).symm]
      · rcases List.mem_cons.1 hc' with rfl | hc'
        · exact ⟨i, hc, hist⟩
        · exact hsettled c' hc' hs'
    · rw [List.filter_cons_of_neg (by simp [hs])] at hn
      obtain ⟨t', hsweep, hframe, hsettled⟩ := ih hn (fun c' hc' => hl c' (List.mem_cons_of_mem _ hc'))
      refine ⟨t', ?_, fun id hne => hframe id (fun c' hc' => hne c' (List.mem_cons_of_mem _ hc')), ?_⟩
      · rw [sweep, if_neg hs, hsweep]
        simp only [List.map_cons, Sweep.apply, if_neg hs]
      · intro c' hc' hs'
        rcases List.mem_cons.1 hc' with rfl | hc'
        · exact absurd hs' hs
        · exact hsettled c' hc' hs'

theorem Sweep.apply_map {β : Type} {g : Call → β} {w : Sweep} (hg : ∀ c, g (w.mark c) = g c) (calls : List Call) :
    (calls.map w.apply).map g = calls.map g := by
  rw [List.map_map]
  refine List.map_congr_left (fun c _ => ?_)
  simp only [Function.comp_apply, Sweep.apply]
  split
  · exact hg c
  · rfl

/-- Sweeping the calls in flight of one ledger goes through, and takes their invocations along. -/
theorem Agrees.sweep {calls : String → List Call} {t : Invocations} (h : Agrees calls t) (key : String)
    {w : Sweep} (hw : w.status = .dispatching) :
    ∃ t', Storage.sweep w (calls key) t = ((calls key).map w.apply, t', .ok ()) ∧
      ∀ calls', calls' key = (calls key).map w.apply → (∀ k, k ≠ key → calls' k = calls k) → Agrees calls' t' := by
  have hl (c : Call) (hc : c ∈ calls key) (hst : c.status = w.status) : ∃ i, t.get c.invocationId = some i ∧
      i.1.revision = c.invocationRevision ∧ i.1.status = w.status := by
    obtain ⟨i, hi, ⟨-, hist, hrev⟩ | ⟨hsettled, -⟩⟩ := h.linked key c hc
    · exact ⟨i, hi, hrev, hist.trans hw.symm⟩
    · rw [hsettled, hw] at hst
      cases hst
  obtain ⟨t', hsweep, hframe, hdone⟩ := sweep_settles (by rw [hw]; decide)
    ((h.distinct key).sublist (List.filter_sublist.map _)) hl
  refine ⟨t', hsweep, fun calls' self others => ?_⟩
  refine h.replace self others (fun c hc => ?_) ?_ ?_ (fun c hc => ?_) (fun id hne => ?_)
  · obtain ⟨old, hold, rfl⟩ := List.mem_map.1 hc
    unfold Sweep.apply
    split
    · rename_i hst
      obtain ⟨i, hi, hist⟩ := hdone old hold hst
      exact ⟨i, hi, .inr ⟨rfl, by rw [hist]; decide⟩⟩
    · rename_i hst
      refine (h.linked key old hold).frame (hframe _ (fun c hc hcst he => hst ?_))
      rw [← List.inj_on_of_nodup_map (h.distinct key) hc hold he]
      exact hcst
  · rw [Sweep.apply_map (fun _ => rfl)]
    exact h.callIds key
  · rw [Sweep.apply_map (fun _ => rfl)]
    exact h.distinct key
  · obtain ⟨old, hold, rfl⟩ := List.mem_map.1 hc
    refine .inl ⟨old, hold, ?_⟩
    unfold Sweep.apply
    split <;> rfl
  · refine hframe id (fun c hc hst he => hne (w.apply c) (List.mem_map_of_mem hc) ?_)
    rw [Sweep.apply, if_pos hst]
    exact he

/-! ### The operations keep the agreement -/

/-- The requests that send or settle calls. -/
def Request.movesCalls : Request → Bool
  | .job (.beginCall _) | .job (.settleCall _) | .job (.recoverInterrupted _) => true
  | _ => false

/-- The other requests leave every link as it is: a ledger has no call that was prepared and not sent. -/
theorem JobEdit.links {q : Request} {key : String} {j u : StoredJob} (h : JobEdit q key j u)
    (hq : q.movesCalls = false) (hcalls : LeavesCalls q) (sent : ∀ c ∈ j.1.calls, c.status ≠ .prepared) :
    u.1.calls.map Call.link = j.1.calls.map Call.link := by
  have kept (hu : u.1.calls = j.1.calls) : u.1.calls.map Call.link = j.1.calls.map Call.link := by rw [hu]
  have unswept {r : CancelRequest} {calls : List Call} (hw : Swept (cancelSweep r) j.1.calls calls) :
      calls.map Call.link = j.1.calls.map Call.link := by rw [hw.eq_of_none sent]
  cases h with
  | claim h => rcases claimRecord_ok h with ⟨-, hu⟩ | ⟨-, hu⟩ <;> exact kept (by rw [hu])
  | claimNext h => rcases claimRecord_ok h with ⟨-, hu⟩ | ⟨-, hu⟩ <;> exact kept (by rw [hu])
  | transition h =>
    refine kept ?_
    rw [(transitionRecord_ok h).2.2.2]
    exact congrArg (fun o => Option.getD o j.1.calls) (hcalls _ rfl)
  | beginCall => cases hq
  | settleCall => cases hq
  | abandon _ _ hw h => rw [nextRevision_ok_iff.1 h]; exact unswept hw
  | request _ h => exact kept (by rw [nextRevision_ok_iff.1 h])
  | withdraw _ h => exact kept (by rw [nextRevision_ok_iff.1 h])
  | requeue => cases hq
  | interrupt => cases hq
  | publish _ _ h => exact kept (by rw [nextRevision_ok_iff.1 h])
  | cancelStopped _ _ hw => exact unswept hw
  | recoveryStopped => cases hq

namespace Backend
variable {ρ : Type} (b : Backend ρ)

/-- The ledger of the job under a key. -/
def calls (l : Ledgers ρ) (k : String) : List Call := ((b.job l k).map (·.1.calls)).getD []

/-- Every ledger agrees with the invocation table. -/
def Agreed (l : Ledgers ρ) : Prop := Agrees (b.calls l) l.invocations

variable {b} {l l' : Ledgers ρ}

theorem calls_of_job {k : String} {j : StoredJob} (h : b.job l k = some j) : b.calls l k = j.1.calls := by
  rw [calls, h]
  rfl

theorem calls_put {key k : String} {u : StoredJob} (hk : k ≠ key) : b.calls (b.put key u l) k = b.calls l k := by
  rw [calls, job_put, if_neg hk]
  rfl

theorem calls_put_self {key : String} {u : StoredJob} : b.calls (b.put key u l) key = u.1.calls :=
  calls_of_job (by rw [job_put, if_pos rfl])

theorem Agreed.sent (h : b.Agreed l) {k : String} {j : StoredJob} (hj : b.job l k = some j) :
    ∀ c ∈ j.1.calls, c.status ≠ .prepared := by
  intro c hc hst
  obtain ⟨i, -, ⟨hd, -⟩ | ⟨hs, -⟩⟩ := h.linked k c (by rw [calls_of_job hj]; exact hc)
  · cases hd.symm.trans hst
  · cases hs.symm.trans hst

/-- Moves that leave the table and the links keep the agreement. -/
theorem Agreed.moved {q : Request} (h : b.Agreed l) (hk : b.Keyed l) (hm : b.Moved q l l')
    (ht : l'.invocations = l.invocations) (hq : q.movesCalls = false) (hcalls : LeavesCalls q)
    (hid : b.transactional = true → KeepsId q)
    (submitted : ∀ j : StoredJob, q = .job (.submit j.1) → j.1.calls = []) : b.Agreed l' := by
  unfold Agreed
  rw [ht]
  refine Agrees.of_links h (fun k => ?_)
  rcases hm k with hs | ⟨u, hu, hc⟩
  · rw [calls, hs]
    rfl
  · rw [calls_of_job hu]
    rcases hc with ⟨hnone, hsub, -⟩ | ⟨key, j, hj, he, -, hkey⟩
    · rw [submitted u hsub, calls, hnone]
      rfl
    · rw [target_of_keepsId hk hj he hid] at hkey
      subst hkey
      rw [calls_of_job hj]
      exact he.links hq hcalls (h.sent hj)

/-! Operations that do not touch the table. -/

section Keeps
variable {α : Type} {x : Op (Ledgers ρ) Err α}

theorem commit_keeps (h : Op.wp x l (fun _ l' => l'.invocations = l.invocations)
      (fun _ l' => l'.invocations = l.invocations)) :
    Op.wp (b.commit x) l (fun _ l' => l'.invocations = l.invocations)
      (fun _ l' => l'.invocations = l.invocations) := by
  rw [wp_commit]
  refine Op.wp_mono h (fun _ _ hm => hm) (fun e l' hm => ?_)
  split
  · rfl
  · exact hm

theorem write_keeps {key : String} {u : StoredJob} {rev : Int} {st : JobStatus} :
    Op.wp (b.write key u rev st) l (fun _ l' => l'.invocations = l.invocations)
      (fun _ l' => l'.invocations = l.invocations) := wp_write (fun _ => rfl) (fun _ => rfl)

end Keeps

theorem submit_keeps (record : ScoringJob) :
    Op.wp (b.submit record) l (fun _ l' => l'.invocations = l.invocations)
      (fun _ l' => l'.invocations = l.invocations) := by
  simp only [submit, Op.wp_bind, Op.wp_lift]
  refine ⟨fun stored _ => commit_keeps ?_, fun _ _ => trivial⟩
  simp only [Op.wp_bind, Op.wp_gets]
  split
  · simp only [Op.wp_bind, Op.wp_lift, Op.wp_pure]
    exact ⟨fun _ _ => trivial, fun _ _ => trivial⟩
  · simp only [Op.wp_bind, Op.wp_gets, Op.wp_lift, Op.wp_modify, Op.wp_pure]
    exact ⟨fun _ _ => rfl, fun _ _ => trivial⟩

theorem claim_keeps (key : String) (now : Timestamp) :
    Op.wp (b.claim key now) l (fun _ l' => l'.invocations = l.invocations)
      (fun _ l' => l'.invocations = l.invocations) := by
  refine commit_keeps ?_
  simp only [Op.wp_bind, Op.wp_gets]
  split
  · rfl
  · simp only [Op.wp_bind, Op.wp_lift]
    refine ⟨fun claimed _ => ?_, fun _ _ => trivial⟩
    split
    · rfl
    · simp only [Op.wp_bind, Op.wp_pure]
      exact write_keeps

theorem claimFirst_keeps (status : JobStatus) (now : Timestamp) :
    Op.wp (b.claimFirst status now) l (fun _ l' => l'.invocations = l.invocations)
      (fun _ l' => l'.invocations = l.invocations) := by
  simp only [claimFirst, Op.wp_bind, Op.wp_gets]
  split
  · rfl
  · exact claim_keeps _ now

theorem claimNext_keeps (now : Timestamp) :
    Op.wp (b.claimNext now) l (fun _ l' => l'.invocations = l.invocations)
      (fun _ l' => l'.invocations = l.invocations) := by
  simp only [claimNext, Op.wp_bind]
  refine Op.wp_mono (claimFirst_keeps .queued now) (fun claimed l' h => ?_) (fun _ _ h => h)
  split
  · exact h
  · exact Op.wp_mono (claimFirst_keeps .settled now) (fun _ _ h' => h'.trans h) (fun _ _ h' => h'.trans h)

theorem transition_keeps (r : TransitionRequest) :
    Op.wp (b.transition r) l (fun _ l' => l'.invocations = l.invocations)
      (fun _ l' => l'.invocations = l.invocations) := by
  refine commit_keeps ?_
  simp only [Op.wp_bind]
  refine wp_require (fun j hj => ?_) (fun _ => rfl)
  simp only [Op.wp_lift, Op.wp_pure]
  exact ⟨fun u _ => write_keeps, fun _ _ => trivial⟩

/-- A cancellation finds no call to settle. -/
theorem cancel_keeps (r : CancelRequest) (h : b.Agreed l) :
    Op.wp (b.cancel r) l (fun _ l' => l'.invocations = l.invocations)
      (fun _ l' => l'.invocations = l.invocations) := by
  refine commit_keeps ?_
  simp only [Op.wp_bind]
  refine wp_require (fun j hj => ?_) (fun _ => rfl)
  have abandoned : Op.wp (b.abandon r j) l (fun _ l' => l'.invocations = l.invocations)
      (fun _ l' => l'.invocations = l.invocations) := by
    have table : (if b.transactional then {l with invocations := (sweep (cancelSweep r) j.1.calls l.invocations).2.1}
        else b.put r.jobId (j.withCalls (sweep (cancelSweep r) j.1.calls l.invocations).1)
          {l with invocations := (sweep (cancelSweep r) j.1.calls l.invocations).2.1}).invocations =
        l.invocations := by
      rw [sweep_none (h.sent hj)]
      split <;> rfl
    simp only [abandon, Op.wp_bind, Op.wp_lift, Op.wp_pure, wp_sweepCalls]
    refine ⟨fun _ _ => ⟨fun _ => ⟨fun u _ => ?_, fun _ _ => table⟩, fun _ _ => table⟩, fun _ _ => trivial⟩
    exact Op.wp_mono write_keeps (fun _ _ hw => hw.trans table) (fun _ _ hw => hw.trans table)
  have withdrawn : Op.wp (b.withdraw r j) l (fun _ l' => l'.invocations = l.invocations)
      (fun _ l' => l'.invocations = l.invocations) := by
    simp only [withdraw, Op.wp_bind, Op.wp_lift, Op.wp_pure]
    exact ⟨fun u _ => write_keeps, fun _ _ => trivial⟩
  split
  · rfl
  · rfl
  · rfl
  · exact abandoned
  · exact abandoned
  · unfold requestCancel
    split
    · rfl
    · simp only [Op.wp_bind, Op.wp_lift, Op.wp_pure]
      exact ⟨fun u _ => write_keeps, fun _ _ => trivial⟩
  · exact withdrawn
  · exact withdrawn

/-! Operations that send or settle calls. -/

/-- A raising operation of a store without transactions has to keep the agreement by itself. -/
theorem commit_agreed {α : Type} {x : Op (Ledgers ρ) Err α} (h : b.Agreed l)
    (hx : Op.wp x l (fun _ l' => b.Agreed l') (fun _ l' => b.transactional = false → b.Agreed l')) :
    Op.wp (b.commit x) l (fun _ l' => b.Agreed l') (fun _ l' => b.Agreed l') := by
  rw [wp_commit]
  refine Op.wp_mono hx (fun _ _ hm => hm) (fun e l' hm => ?_)
  split
  · exact h
  · rename_i ht
    exact hm (by simpa using ht)

theorem beginCall_agreed (r : BeginCallRequest) (h : b.Agreed l) (hk : b.Keyed l) :
    Op.wp (b.beginCall r) l (fun _ l' => b.Agreed l') (fun _ l' => b.Agreed l') := by
  refine commit_agreed h ?_
  simp only [Op.wp_bind]
  refine wp_require (fun j hj => ?_) (fun _ _ => h)
  simp only [Op.wp_lift, Op.wp_pure, wp_onInvocations]
  refine ⟨fun _ hc => ⟨fun created t₁ hcreate => ⟨fun dispatched t' hd => ⟨fun u hu => ?_, fun e he => ?_⟩,
    fun _ _ _ => ?_⟩, fun _ _ _ => h⟩, fun _ _ _ => h⟩
  · have unsent := reserve_fresh (checkDispatch_ok hc).2.2.2
    have hrec := nextRevision_ok_iff.1 hu
    have htarget : b.target r.jobId u = r.jobId :=
      target_of_keepsId hk hj (.beginCall dispatched.1 hc hu) (fun _ _ hc => (by cases hc))
    have hm : b.Matches {l with invocations := t'} u r.expectedRevision j.1.status := by
      intro ht
      rw [target, if_pos ht] at htarget
      exact ⟨j, by rw [htarget]; exact hj, rfl, (checkDispatch_ok hc).1⟩
    rw [wp_write_of_match hm, htarget]
    refine Agrees.send h r.jobId hcreate hd ?_ ?_ (fun k hne => calls_put hne)
    · rw [calls_of_job hj]
      exact unsent
    · rw [calls_put_self, hrec, calls_of_job hj]
  · -- what was sent passes validation again, so only the invocation can be refused
    obtain ⟨u, hu⟩ := beginRecord_ok dispatched.1 hc
    rw [hu] at he
    cases he
  · obtain ⟨hnew, rfl, -⟩ := Invocations.create_ok hcreate
    exact Agrees.create h hnew created

/-- What a settlement in a store without transactions must not run into once it has settled the invocation. -/
def Settles (b : Backend ρ) (l : Ledgers ρ) (r : SettleCallRequest) : Prop :=
  b.transactional = false → ∀ j target, b.job l r.jobId = some j → settleTarget r j = .ok target →
    ∃ u, settleRecord r j = .ok u

theorem settleCall_agreed (r : SettleCallRequest) (h : b.Agreed l) (hk : b.Keyed l)
    (hcalls : r.jobChanges.calls = none) (hid : b.transactional = true → r.jobChanges.jobId = none)
    (hs : b.Settles l r) :
    Op.wp (b.settleCall r) l (fun _ l' => b.Agreed l') (fun _ l' => b.Agreed l') := by
  refine commit_agreed h ?_
  simp only [Op.wp_bind]
  refine wp_require (fun j hj => ?_) (fun _ _ => h)
  simp only [Op.wp_lift, Op.wp_pure, wp_onInvocations]
  refine ⟨fun target ht => ⟨fun i t' hsettle => ⟨fun u hu => ?_, fun e he hb => ?_⟩, fun _ _ _ => h⟩,
    fun _ _ _ => h⟩
  · obtain ⟨hrev, hst, hfind⟩ := settleTarget_ok ht
    have htarget : b.target r.jobId u = r.jobId :=
      target_of_keepsId hk hj (.settleCall target ht hu) (fun hb c hc => by cases hc; exact hid hb)
    have hm : b.Matches {l with invocations := t'} u r.expectedRevision .dispatching := by
      intro hb
      rw [Backend.target, if_pos hb] at htarget
      exact ⟨j, by rw [htarget]; exact hj, hst, hrev⟩
    rw [wp_write_of_match hm, htarget]
    refine Agrees.settle h r.jobId (r := r) ?_ hsettle ?_ (fun k hne => calls_put hne)
    · rw [calls_of_job hj]
      exact hfind
    · rw [calls_put_self, calls_of_job hj]
      exact settledLedger_calls hu hcalls
  · obtain ⟨u, hu⟩ := hs hb j target hj ht
    rw [hu] at he
    cases he

/-- A job rewritten with the ledger it had. -/
theorem Agreed.rewrite (h : b.Agreed l) {key : String} {j u : StoredJob} (hj : b.job l key = some j)
    (hu : u.1.calls = j.1.calls) : b.Agreed (b.put key u l) := by
  refine Agrees.of_links h (fun k => ?_)
  by_cases hk : k = key
  · rw [hk, calls_put_self, hu, calls_of_job hj]
  · rw [calls_put hk]

/-- What the recovery of one row leaves: the agreement, and every other row. -/
structure Recovers (b : Backend ρ) (key : String) (l l' : Ledgers ρ) : Prop where
  agreed : b.Agreed l'
  keyed : b.Keyed l'
  others : ∀ k, k ≠ key → b.job l' k = b.job l k

/-- A job edited by recovery is written back where it was found. -/
theorem write_recovered {l₁ : Ledgers ρ} {key : String} {now : Timestamp} {j u : StoredJob} (hk : b.Keyed l)
    (hj : b.job l key = some j) (he : JobEdit (.job (.recoverInterrupted now)) key j u)
    (hsame : ∀ k, k ≠ key → b.job l₁ k = b.job l k)
    (hrow : b.transactional = true → b.job l₁ key = some j)
    (agreed : b.Agreed (b.put key u l₁)) :
    Op.wp (b.write key u j.1.revision j.1.status) l₁ (fun _ l' => b.Recovers key l l') (fun _ _ => False) := by
  have htarget : b.target key u = key := target_of_keepsId hk hj he (fun _ _ hc => nomatch hc)
  have hid (ht : b.transactional = true) : u.1.jobId = key := by
    rw [target, if_pos ht] at htarget
    exact htarget
  have hm : b.Matches l₁ u j.1.revision j.1.status := fun ht =>
    ⟨j, by rw [hid ht, hrow ht], rfl, rfl⟩
  rw [wp_write_of_match hm, htarget]
  have others (k : String) (hne : k ≠ key) : b.job (b.put key u l₁) k = b.job l k := by
    rw [job_put, if_neg hne, hsame k hne]
  refine ⟨agreed, fun ht k j' hj' => ?_, others⟩
  by_cases hne : k = key
  · rw [hne, job_put, if_pos rfl] at hj'
    cases hj'
    rw [hne, hid ht]
  · exact hk ht k j' ((others k hne).symm.trans hj')

theorem recoverOne_recovers {key : String} {j : StoredJob} (now : Timestamp) (h : b.Agreed l) (hk : b.Keyed l)
    (hj : b.job l key = some j) :
    Op.wp (b.recoverOne now key j) l (fun _ l' => b.Recovers key l l') (fun _ _ => False) := by
  have same : b.Recovers key l l := ⟨h, hk, fun _ _ => rfl⟩
  unfold recoverOne
  dsimp only
  split
  · rename_i hst
    split
    · exact same
    · rename_i quiet
      obtain ⟨u, hu⟩ := requeueRecord_ok now j
      simp only [Op.wp_bind, Op.wp_lift, Op.wp_pure, hu]
      refine ⟨fun u' he => ?_, fun _ he => (by cases he)⟩
      cases he
      refine write_recovered hk hj (.requeue hst (by simpa using quiet) hu) (fun _ _ => rfl) (fun _ => hj) ?_
      exact h.rewrite hj (by rw [nextRevision_ok_iff.1 hu])
  · rename_i hst
    have hsweep := Agrees.sweep h key (w := recoverySweep now) rfl
    rw [calls_of_job hj] at hsweep
    obtain ⟨t', hsweep, hagrees⟩ := hsweep
    obtain ⟨u, hu⟩ := interruptRecord_ok now (j.withCalls (j.1.calls.map (recoverySweep now).apply))
    have hcalls : u.1.calls = j.1.calls.map (recoverySweep now).apply := by
      rw [nextRevision_ok_iff.1 hu]
      rfl
    simp only [Op.wp_bind, wp_sweepCalls, Op.wp_lift, Op.wp_pure, hsweep, hu]
    refine ⟨fun _ => ⟨fun u' he => ?_, fun _ he => (by cases he)⟩, fun _ he => (by cases he)⟩
    cases he
    have hswept : Swept (recoverySweep now) j.1.calls (j.1.calls.map (recoverySweep now).apply) := by
      have := sweep_swept (recoverySweep now) j.1.calls l.invocations
      rwa [hsweep] at this
    refine write_recovered hk hj (.interrupt hst hswept hu) (fun k hne => ?_) (fun ht => ?_) ?_
    · rw [job_swept, if_neg (fun h => hne h.2)]
    · rw [job_swept, if_neg (fun h => by rw [ht] at h; cases h.1), hj]
    · have table : (b.put key u (if b.transactional then {l with invocations := t'}
          else b.put key (j.withCalls (j.1.calls.map (recoverySweep now).apply))
            {l with invocations := t'})).invocations = t' := by
        split <;> rfl
      unfold Agreed
      rw [table]
      refine hagrees _ (calls_put_self.trans hcalls) (fun k hne => ?_)
      rw [calls_put hne, calls, job_swept, if_neg (fun h => hne h.2)]
      rfl
  · exact same

theorem recoverRows_recovers (now : Timestamp) (rows : List (String × ρ)) (hn : (rows.map Prod.fst).Nodup)
    (h : b.Agreed l) (hk : b.Keyed l) (hrows : ∀ r ∈ rows, b.job l r.1 = some (b.payload r.2)) :
    Op.wp (b.recoverRows now rows) l (fun _ l' => b.Agreed l') (fun _ _ => False) := by
  induction rows generalizing l with
  | nil => exact h
  | cons r rest ih =>
    obtain ⟨key, row⟩ := r
    rw [List.map_cons, List.nodup_cons] at hn
    simp only [recoverRows, Op.wp_bind, Op.wp_pure]
    refine Op.wp_mono (recoverOne_recovers now h hk (hrows (key, row) (List.mem_cons_self ..)))
      (fun touched l' hl => ?_) (fun _ _ hf => hf)
    refine ih hn.2 hl.agreed hl.keyed (fun r hr => ?_)
    have hne : r.1 ≠ key := by
      rintro rfl
      exact hn.1 (List.mem_map.2 ⟨r, hr, rfl⟩)
    rw [hl.others r.1 hne]
    exact hrows r (List.mem_cons_of_mem _ hr)

/-- Recovery never raises, and keeps the agreement. -/
theorem recoverInterrupted_agreed (now : Timestamp) (h : b.Agreed l) (hk : b.Keyed l) :
    Op.wp (b.recoverInterrupted now) l (fun _ l' => b.Agreed l') (fun _ _ => False) := by
  simp only [recoverInterrupted, wp_commit, Op.wp_bind, Op.wp_gets]
  refine recoverRows_recovers now l.jobs.rows l.jobs.nodup h hk (fun r hr => ?_)
  rw [job, Table.get_of_mem hr]
  rfl

/-- Jobs are submitted with an empty ledger; changes name neither the calls nor, in
a transactional store, the job id; and without transactions a settlement asks for
a job that can be stored. -/
def InvocationRule (b : Backend ρ) (l : Ledgers ρ) : JobCommand → Prop
  | .submit record => record.calls = []
  | .transition r => r.changes.calls = none ∧ (b.transactional = true → r.changes.jobId = none)
  | .settleCall r => r.jobChanges.calls = none ∧ (b.transactional = true → r.jobChanges.jobId = none) ∧
      b.Settles l r
  | _ => True

theorem InvocationRule.leavesCalls {c : JobCommand} (h : b.InvocationRule l c) : LeavesCalls (.job c) := by
  intro changes hc
  cases c <;> cases hc
  · exact h.1
  · exact h.1

theorem InvocationRule.keepsId {c : JobCommand} (h : b.InvocationRule l c) (ht : b.transactional = true) :
    KeepsId (.job c) := by
  intro changes hc
  cases c <;> cases hc
  · exact h.2 ht
  · exact h.2.1 ht

theorem serve_agreed (c : JobCommand) (h : b.Agreed l) (hk : b.Keyed l) (hc : b.InvocationRule l c) :
    Op.wp (b.serve c) l (fun _ l' => b.Agreed l') (fun _ l' => b.Agreed l') := by
  have kept (hq : Request.movesCalls (.job c) = false)
      (hx : Op.wp (b.serve c) l (fun _ l' => l'.invocations = l.invocations)
        (fun _ l' => l'.invocations = l.invocations)) :
      Op.wp (b.serve c) l (fun _ l' => b.Agreed l') (fun _ l' => b.Agreed l') := by
    have agreed {l' : Ledgers ρ} (ht : l'.invocations = l.invocations) (hm : b.Moved (.job c) l l') :
        b.Agreed l' := by
      refine h.moved hk hm ht hq hc.leavesCalls hc.keepsId (fun j hj => ?_)
      cases hj
      exact hc
    exact Op.wp_mono (Op.wp_and hx (serve_moved c hk)) (fun _ _ h => agreed h.1 h.2) (fun _ _ h => agreed h.1 h.2)
  cases c with
  | submit record =>
    refine kept rfl ?_
    simp only [serve, Op.wp_bind, Op.wp_pure]
    exact submit_keeps record
  | claim key now =>
    refine kept rfl ?_
    simp only [serve, Op.wp_bind, Op.wp_pure]
    exact claim_keeps key now
  | claimNext now =>
    refine kept rfl ?_
    simp only [serve, Op.wp_bind, Op.wp_pure]
    exact claimNext_keeps now
  | transition r =>
    refine kept rfl ?_
    simp only [serve, Op.wp_bind, Op.wp_pure]
    exact transition_keeps r
  | cancel r =>
    refine kept rfl ?_
    simp only [serve, Op.wp_bind, Op.wp_pure]
    exact cancel_keeps r h
  | beginCall r =>
    simp only [serve, Op.wp_bind, Op.wp_pure]
    exact beginCall_agreed r h hk
  | settleCall r =>
    simp only [serve, Op.wp_bind, Op.wp_pure]
    exact settleCall_agreed r h hk hc.1 hc.2.1 hc.2.2
  | recoverInterrupted now =>
    simp only [serve, Op.wp_bind, Op.wp_pure]
    exact Op.wp_mono (recoverInterrupted_agreed now h hk) (fun _ _ h => h) (fun _ _ h => h.elim)

/-- A settlement of a call in flight is decided by the job alone: its invocation cannot be refused. -/
theorem settleCall_result (h : b.Agreed l) (hk : b.Keyed l) {r : SettleCallRequest} {j : StoredJob} {target : Call}
    (hid : b.transactional = true → r.jobChanges.jobId = none) (hj : b.job l r.jobId = some j)
    (ht : settleTarget r j = .ok target) (hst : target.status = .dispatching) :
    (b.settleCall r l).1 = settleRecord r j := by
  obtain ⟨hrev, hjob, hfind⟩ := settleTarget_ok ht
  obtain ⟨i, hi, ⟨-, hist, hirev⟩ | ⟨hs, -⟩⟩ := h.linked r.jobId target (by
    rw [calls_of_job hj]
    exact (findCall_some hfind).1)
  · obtain ⟨i', hsettle⟩ := Invocations.settle_of_match hi hirev hist (by decide) r.outcome r.resultSummary r.now
    refine Op.wp_result ?_
    simp only [settleCall, wp_commit, Op.wp_bind]
    refine wp_require (fun j' hj' => ?_) (fun hnone => (by cases hnone.symm.trans hj))
    cases hj.symm.trans hj'
    simp only [Op.wp_lift, Op.wp_pure, wp_onInvocations, ht]
    refine ⟨fun c hc => ?_, fun _ hc => (by cases hc)⟩
    cases hc
    refine ⟨fun _ t' _ => ⟨fun u hu => ?_, fun e he => he.symm⟩, fun e he => ?_⟩
    · have htarget : b.target r.jobId u = r.jobId :=
        target_of_keepsId hk hj (.settleCall target ht hu) (fun hb c hc => by cases hc; exact hid hb)
      have hm : b.Matches {l with invocations := t'} u r.expectedRevision .dispatching := by
        intro hb
        rw [Backend.target, if_pos hb] at htarget
        exact ⟨j, by rw [htarget]; exact hj, hjob, hrev⟩
      rw [wp_write_of_match hm]
      exact hu.symm
    · rw [hsettle] at he
      cases he
  · cases hs.symm.trans hst

end Backend

/-! ### Runs -/

/-- The rule on the job commands of a request; other requests do not reach the ledgers' calls. -/
def InvocationRule {σ : Type} (S : JobSystem σ) (s : σ) : Request → Prop
  | .job c => S.backend.InvocationRule (S.ledgers s) c
  | _ => True

section Runs
variable {σ : Type} {S : JobSystem σ} {s : σ}

theorem agreed_step {q : Request} (hk : S.Keyed s) (h : S.backend.Agreed (S.ledgers s))
    (hq : InvocationRule S s q) : S.backend.Agreed (S.ledgers (S.step q s)) := by
  have other (hc : ∀ c, q ≠ .job c) (hmoves : q.movesCalls = false) (hchanges : q.changes = none) :
      S.backend.Agreed (S.ledgers (S.step q s)) := by
    refine h.moved hk (S.moves q s hk) (S.invocations q s hc) hmoves (fun _ h => ?_) (fun _ _ h => ?_)
      (fun j hj => absurd hj (hc _))
    · rw [hchanges] at h
      cases h
    · rw [hchanges] at h
      cases h
  cases q with
  | job c =>
    rw [JobSystem.step, S.leaves]
    exact Op.wp_state (Backend.serve_agreed c h hk hq)
  | run => exact other (fun _ h => (by cases h)) rfl rfl
  | attempt => exact other (fun _ h => (by cases h)) rfl rfl
  | append => exact other (fun _ h => (by cases h)) rfl rfl
  | publish => exact other (fun _ h => (by cases h)) rfl rfl

theorem JobSystem.Empty.agreed (h : S.Empty s) : S.backend.Agreed (S.ledgers s) := by
  have none (k : String) : S.backend.calls (S.ledgers s) k = [] := by
    rw [Backend.calls, show S.backend.job (S.ledgers s) k = none from h k]
    rfl
  refine ⟨fun k c hc => ?_, fun k => ?_, fun k => ?_, fun k _ _ c hc => ?_⟩
  · rw [none] at hc
    cases hc
  · rw [none]
    exact List.nodup_nil
  · rw [none]
    exact List.nodup_nil
  · rw [none] at hc
    cases hc

theorem agreed_run {requests : List Request} (start : S.Empty s)
    (h : Along S.step (InvocationRule S) s requests) :
    S.Keyed (run S.step s requests) ∧ S.backend.Agreed (S.ledgers (run S.step s requests)) :=
  Along.keeps (I := fun s => S.Keyed s ∧ S.backend.Agreed (S.ledgers s))
    (fun _ q hs hq => ⟨JobSystem.keyed_step q hs.1, agreed_step hs.1 hs.2 hq⟩) h ⟨start.keyed, start.agreed⟩

end Runs

/-- In a state that requests within the rule reach, the two ledgers agree, and no
settlement of a call in flight and no recovery is refused by an invocation. -/
structure LedgersAgree {σ : Type} (S : JobSystem σ) (s : σ) : Prop where
  inFlight : ∀ k j, S.job s k = some j → ∀ c ∈ j.1.calls, c.status = .dispatching →
    ∃ i, (S.ledgers s).invocations.get c.invocationId = some i ∧ i.1.status = .dispatching ∧
      i.1.revision = c.invocationRevision
  landed : ∀ k j, S.job s k = some j → ∀ c ∈ j.1.calls, c.status = .settled →
    ∃ i, (S.ledgers s).invocations.get c.invocationId = some i ∧ i.1.status ≠ .dispatching
  settles : ∀ r j target, (S.backend.transactional = true → r.jobChanges.jobId = none) →
    S.job s r.jobId = some j → settleTarget r j = .ok target → target.status = .dispatching →
    (S.serve (.job (.settleCall r)) s).1 = (settleRecord r j).map (fun u => .job (.updated u.1))
  recovers : ∀ now, ∃ ids, (S.serve (.job (.recoverInterrupted now)) s).1 = .ok (.job (.recovered ids))

theorem Backend.Agreed.ledgersAgree {σ : Type} {S : JobSystem σ} {s : σ} (hk : S.Keyed s)
    (h : S.backend.Agreed (S.ledgers s)) : LedgersAgree S s where
  inFlight := by
    intro k j hj c hc hst
    obtain ⟨i, hi, ⟨-, hist, hrev⟩ | ⟨hs, -⟩⟩ := h.linked k c (by rw [calls_of_job hj]; exact hc)
    · exact ⟨i, hi, hist, hrev⟩
    · cases hs.symm.trans hst
  landed := by
    intro k j hj c hc hst
    obtain ⟨i, hi, ⟨hd, -⟩ | ⟨-, hist⟩⟩ := h.linked k c (by rw [calls_of_job hj]; exact hc)
    · cases hd.symm.trans hst
    · exact ⟨i, hi, hist⟩
  settles := by
    intro r j target hid hj ht hst
    rw [S.replies]
    simp only [Backend.serve]
    rw [Op.bind_pure_result (x := S.backend.settleCall r) (g := fun u => JobReply.updated u.1),
      settleCall_result h hk hid hj ht hst]
    cases settleRecord r j <;> rfl
  recovers := by
    intro now
    rw [S.replies]
    simp only [Backend.serve]
    rw [Op.bind_pure_result (x := S.backend.recoverInterrupted now) (g := JobReply.recovered)]
    have hr := recoverInterrupted_agreed now h hk
    rcases hx : S.backend.recoverInterrupted now (S.ledgers s) with ⟨e | ids, l⟩
    · rw [Op.wp_of_error hx] at hr
      exact hr.elim
    · exact ⟨ids, rfl⟩

/-- The statuses the two ledgers record agree in every state that requests within the rule reach. -/
def KeepsLedgers {σ : Type} (S : JobSystem σ) (start : σ) : Prop :=
  ∀ requests, Along S.step (InvocationRule S) start requests → LedgersAgree S (run S.step start requests)

/-- The error a request is answered with. -/
def errorOf : Except Err Reply → Option Err
  | .error e => some e
  | .ok _ => none

/-- One of two calls has landed. -/
def landedOnce : List Request := twoCalls ++ [.job (.settleCall (sampleSettle "a" 4 .succeeded .dispatching))]

/-- The sample job, submitted with a call in flight that was never sent. -/
def submittedInFlight : List Request := [.job (.submit {sampleJob with
  calls := [{callId := "a", invocationId := "a", invocationRevision := 2, status := .dispatching}]})]

end Motte.Storage
