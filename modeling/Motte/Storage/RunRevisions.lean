import Motte.Storage.RunMoves

/-! Runs are revised by compare-and-set.

Under any interleaving a write of a run is computed from the run that is stored,
one revision on, and the revision counts the writes; so none is lost. A queued run
is claimed once, and again only after it has returned to the queue. In SQLite this
holds of every run. In memory a request that raises after its first write, or a
publication that gives the run another id, breaks it. -/
namespace Motte.Storage
open Foundation

/-! ### The two stores as systems of runs -/

structure RunSystem (σ : Type) where
  serve : Request → Op σ Err Reply
  runAt : σ → String → Option Run
  /-- What holds of every state that is reached. -/
  Sound : σ → Prop
  /-- The requests that are served as one write. -/
  Rule : σ → Request → Prop
  served : ∀ s q, Sound s → Rule s q → Op.wp (serve q) s
    (fun reply t => RunsServed q reply (runAt s) (runAt t) ∧ Sound t)
    (fun _ t => runAt t = runAt s ∧ Sound t ∧ ((∀ c, q ≠ .job c) → t = s))

def sqliteRuns : RunSystem Sqlite.Database where
  serve := Sqlite.serve
  runAt s := s.run
  Sound s := Sqlite.Columns s.toRunLog
  Rule _ _ := True
  served s q hs _ := Op.wp_mono (Sqlite.serve_runs q s) (fun _ _ h => ⟨h.toRunsServed, h.columns hs⟩)
    (fun _ _ h => ⟨by rw [h.1], by rw [h.1]; exact hs, h.2⟩)

def memoryRuns : RunSystem Memory.Store where
  serve := Memory.serve
  runAt s := s.run
  Sound s := KeyedRuns s.run
  Rule := Memory.RunRule
  served s q hs rule := Op.wp_mono (Memory.serve_runs q s hs rule) (fun _ _ h => h)
    (fun _ _ h => ⟨h.1, by rw [h.1]; exact hs, h.2⟩)

/-! ### Claims -/

/-- The run is waiting to be claimed. -/
def Queued (runs : String → Option Run) (k : String) : Prop := ∃ a, runs k = some a ∧ a.status = some "queued"

/-- What a successful claim of the run under `k` answers: the run itself, or the next one in the queue. -/
def Claims (k : String) (s t : String → Option Run) : Request → Reply → Prop
  | .run (.claim runId), .run (some _) => runId = k
  | .run .claimNextQueued, .run (some u) => t k = some u ∧ s k ≠ some u
  | _, _ => False

/-- A run that changed was created or rewritten. -/
theorem RunsMoved.changed {q : Request} {s t : String → Option Run} (h : RunsMoved q s t) {k : String}
    (hk : t k ≠ s k) : Created q k s t ∨ Revised q k s t := (h k).resolve_left hk

/-- A successful claim takes the run out of the queue. -/
theorem Claims.takes {q : Request} {reply : Reply} {s t : String → Option Run} {k : String}
    (h : Claims k s t q reply) (served : RunsServed q reply s t) : Queued s k ∧ ¬ Queued t k := by
  have taken {a u : Run} (ha : s k = some a) (hu : t k = some u) (hc : claimRun k a = .ok u) :
      Queued s k ∧ ¬ Queued t k := by
    obtain ⟨hst, rfl⟩ := claimRun_ok hc
    refine ⟨⟨a, ha, hst⟩, ?_⟩
    rintro ⟨u', hu', hst'⟩
    cases hu.symm.trans hu'
    revert hst'
    simp [storedRun]
  unfold Claims at h
  split at h
  · subst h
    obtain ⟨⟨a, u, ha, hu, he⟩, -⟩ := served.wrote
    cases he with
    | claim hc => exact taken ha hu hc
  · rcases served.moved.changed (by rw [h.1]; exact fun he => h.2 he.symm) with hnew | ⟨a, u, ha, hu, he⟩
    · obtain ⟨-, _, _, _, _, _, _, hq⟩ := hnew
      cases hq
    · cases he with
      | claimNext hc => exact taken ha hu hc
  · exact h.elim

namespace RunSystem
variable {σ : Type} (S : RunSystem σ)

def step (q : Request) (s : σ) : σ := (S.serve q s).2

/-- The requests may follow one another from the state. -/
def Allowed (s : σ) (requests : List Request) : Prop := Along S.step S.Rule s requests

/-- The state holds no run. -/
def Empty (s : σ) : Prop := S.Sound s ∧ ∀ k, S.runAt s k = none

/-- How often the run under the key is written. -/
def writes (k : String) (s : σ) : List Request → Nat
  | [] => 0
  | q :: rest => (if S.runAt (S.step q s) k = S.runAt s k then 0 else 1) + writes k (S.step q s) rest

/-- The request claims the run under the key. -/
def Claimed (k : String) (s : σ) (q : Request) : Prop :=
  ∃ reply, (S.serve q s).1 = .ok reply ∧ Claims k (S.runAt s) (S.runAt (S.step q s)) q reply

variable {S}

theorem sound_step {s : σ} {q : Request} (hs : S.Sound s) (rule : S.Rule s q) : S.Sound (S.step q s) :=
  Op.wp_state (Op.wp_mono (S.served s q hs rule) (fun _ _ h => h.2) (fun _ _ h => h.2.1))

theorem sound_run {s : σ} {requests : List Request} (hs : S.Sound s) (h : S.Allowed s requests) :
    S.Sound (run S.step s requests) :=
  Along.keeps (I := S.Sound) (fun _ _ hs rule => sound_step hs rule) h hs

theorem served_of_ok {s : σ} {q : Request} {reply : Reply} (hs : S.Sound s) (rule : S.Rule s q)
    (h : (S.serve q s).1 = .ok reply) : RunsServed q reply (S.runAt s) (S.runAt (S.step q s)) :=
  ((Op.wp_of_ok (Prod.ext h rfl)).1 (S.served s q hs rule)).1

theorem moved_step {s : σ} {q : Request} (hs : S.Sound s) (rule : S.Rule s q) :
    RunsMoved q (S.runAt s) (S.runAt (S.step q s)) :=
  Op.wp_state (Q := fun t => RunsMoved q (S.runAt s) (S.runAt t))
    (Op.wp_mono (S.served s q hs rule) (fun _ _ h => h.1.moved) (fun _ _ h => .same h.1))

/-- One step adds one to the revision of each run that it writes. -/
theorem revision_step {s : σ} {q : Request} (hs : S.Sound s) (rule : S.Rule s q) {k : String} {a : Run}
    (ha : S.runAt s k = some a) : ∃ u, S.runAt (S.step q s) k = some u ∧
      u.revision = a.revision + (if S.runAt (S.step q s) k = S.runAt s k then 0 else 1 : Nat) := by
  by_cases hk : S.runAt (S.step q s) k = S.runAt s k
  · exact ⟨a, hk.trans ha, by rw [if_pos hk]; simp⟩
  · rw [if_neg hk]
    rcases (moved_step hs rule).changed hk with ⟨hnone, -⟩ | ⟨b, u, hb, hu, he⟩
    · cases hnone.symm.trans ha
    · cases hb.symm.trans ha
      exact ⟨u, hu, he.revision⟩

/-- The revision of a run counts its writes. -/
theorem revision_run {s : σ} {requests : List Request} (hs : S.Sound s) (h : S.Allowed s requests) {k : String}
    {a : Run} (ha : S.runAt s k = some a) : ∃ u, S.runAt (run S.step s requests) k = some u ∧
      u.revision = a.revision + S.writes k s requests := by
  induction requests generalizing s a with
  | nil => exact ⟨a, ha, by simp [writes]⟩
  | cons q rest ih =>
    obtain ⟨b, hb, hrev⟩ := revision_step hs h.1 ha
    obtain ⟨u, hu, hrest⟩ := ih (sound_step hs h.1) h.2 hb
    refine ⟨u, hu, ?_⟩
    rw [hrest, hrev, writes]
    push_cast
    omega

theorem Claimed.takes {k : String} {s : σ} {q : Request} (h : S.Claimed k s q) (hs : S.Sound s)
    (rule : S.Rule s q) : Queued (S.runAt s) k ∧ ¬ Queued (S.runAt (S.step q s)) k := by
  obtain ⟨reply, hreply, hc⟩ := h
  exact hc.takes (served_of_ok hs rule hreply)

/-- Between two claims of a run there is a step that returns it to the queue. -/
theorem claimed_between {s : σ} {q q' : Request} {between : List Request} {k : String} (hs : S.Sound s)
    (h : S.Allowed s (q :: between ++ [q'])) (first : S.Claimed k s q)
    (second : S.Claimed k (run S.step s (q :: between)) q') :
    ∃ a r b, between = a ++ r :: b ∧ ¬ Queued (S.runAt (run S.step s (q :: a))) k ∧
      Queued (S.runAt (run S.step s (q :: (a ++ [r])))) k := by
  obtain ⟨before, last⟩ := along_append.1 h
  have out : ¬ Queued (S.runAt (S.step q s)) k := (first.takes hs before.1).2
  have back : Queued (S.runAt (run S.step s (q :: between))) k := (second.takes (sound_run hs before) last.1).1
  exact run_enters (P := fun s => Queued (S.runAt s) k) out back

end RunSystem

/-- Runs are revised by compare-and-set by whatever follows the given requests, all of them allowed. -/
structure ComparesAndSets {σ : Type} (S : RunSystem σ) (start : σ) (requests : List Request) : Prop where
  sound : S.Allowed start requests → S.Sound (run S.step start requests)
  /-- Each run that an answered request changes is created at revision one, or computed from
  the run that is stored; the run that the request was to write is among them. -/
  written : ∀ q reply, S.Allowed start (requests ++ [q]) →
    (S.serve q (run S.step start requests)).1 = .ok reply →
    RunsServed q reply (S.runAt (run S.step start requests)) (S.runAt (run S.step start (requests ++ [q])))
  /-- A write is one revision on. -/
  revised : ∀ q k a, S.Allowed start (requests ++ [q]) →
    S.runAt (run S.step start requests) k = some a →
    S.runAt (run S.step start (requests ++ [q])) k ≠ some a →
    ∃ u, S.runAt (run S.step start (requests ++ [q])) k = some u ∧ u.revision = a.revision + 1
  /-- No write is lost: the revision counts them. -/
  counted : ∀ after k a, S.Allowed start (requests ++ after) →
    S.runAt (run S.step start requests) k = some a →
    ∃ u, S.runAt (run S.step start (requests ++ after)) k = some u ∧
      u.revision = a.revision + S.writes k (run S.step start requests) after
  /-- A request that raises changes no run, and one that is not about jobs changes nothing at all. -/
  refused : ∀ q e t, S.Allowed start (requests ++ [q]) →
    S.serve q (run S.step start requests) = (.error e, t) →
    S.runAt t = S.runAt (run S.step start requests) ∧ ((∀ c, q ≠ .job c) → t = run S.step start requests)
  /-- A run that is claimed twice has returned to the queue in between. -/
  claimed : ∀ q between q' k, S.Allowed start (requests ++ (q :: between ++ [q'])) →
    S.Claimed k (run S.step start requests) q → S.Claimed k (run S.step start (requests ++ q :: between)) q' →
    ∃ a r b, between = a ++ r :: b ∧ ¬ Queued (S.runAt (run S.step start (requests ++ q :: a))) k ∧
      Queued (S.runAt (run S.step start (requests ++ q :: (a ++ [r])))) k

theorem RunSystem.Empty.comparesAndSets {σ : Type} {S : RunSystem σ} {start : σ} (h : S.Empty start)
    (requests : List Request) : ComparesAndSets S start requests := by
  have reached {after : List Request} (hall : S.Allowed start (requests ++ after)) :
      S.Sound (run S.step start requests) ∧ S.Allowed (run S.step start requests) after :=
    ⟨RunSystem.sound_run h.1 (along_append.1 hall).1, (along_append.1 hall).2⟩
  constructor
  case sound => exact fun hall => RunSystem.sound_run h.1 hall
  case written =>
    intro q reply hall hreply
    obtain ⟨hs, rule⟩ := reached hall
    rw [run_append]
    exact RunSystem.served_of_ok hs rule.1 hreply
  case revised =>
    intro q k a hall ha hchanged
    obtain ⟨hs, rule⟩ := reached hall
    rw [run_append] at hchanged ⊢
    obtain ⟨u, hu, hrev⟩ := RunSystem.revision_step hs rule.1 ha
    rw [if_neg (by rw [ha]; exact hchanged)] at hrev
    exact ⟨u, hu, hrev⟩
  case counted =>
    intro after k a hall ha
    obtain ⟨hs, rule⟩ := reached hall
    rw [run_append]
    exact RunSystem.revision_run hs rule ha
  case refused =>
    intro q e t hall herr
    obtain ⟨hs, rule⟩ := reached hall
    have hserved := (Op.wp_of_error herr).1 (S.served _ q hs rule.1)
    exact ⟨hserved.1, hserved.2.2⟩
  case claimed =>
    intro q between q' k hall first second
    obtain ⟨hs, rule⟩ := reached hall
    rw [run_append] at second
    obtain ⟨a, r, b, hsplit, hout, hback⟩ := RunSystem.claimed_between hs rule first second
    refine ⟨a, r, b, hsplit, ?_, ?_⟩ <;> rw [run_append] <;> assumption

theorem runs_compared_and_set (requests : List Request) :
    ComparesAndSets sqliteRuns ∅ requests ∧ ComparesAndSets memoryRuns ∅ requests ∧
      Sqlite.Columns (run Sqlite.step ∅ requests).toRunLog := by
  have sqlite : ComparesAndSets sqliteRuns ∅ requests :=
    RunSystem.Empty.comparesAndSets ⟨(fun _ _ h => nomatch h), fun _ => rfl⟩ requests
  have memory : ComparesAndSets memoryRuns ∅ requests :=
    RunSystem.Empty.comparesAndSets ⟨(fun _ _ h => nomatch h), fun _ => rfl⟩ requests
  exact ⟨sqlite, memory, sqlite.sound (along_of_forall (fun _ _ => trivial))⟩

/-- A run is created and waits. -/
def waiting : List Request := [.run (.create {id := "run", status := some "queued"} none)]

/-- Two clients claim one run; the second is refused, and claims it after it was requeued. -/
def contested : List Request := [
  .run (.claim "run"),
  .run (.claim "run"),
  .run .requeueInterrupted,
  .run .claimNextQueued]

/-- The contested run has been written three times since it was created. -/
theorem contested_run_counted :
    ∃ u, (run Memory.step ∅ (waiting ++ contested)).run "run" = some u ∧ u.revision = 4 := by
  have created : ∃ a, (run Memory.step ∅ waiting).run "run" = some a ∧ a.revision = 1 := by
    rw [← Option.map_eq_some_iff (f := Run.revision)]
    decide
  obtain ⟨a, ha, hrev⟩ := created
  have allowed : memoryRuns.Allowed ∅ (waiting ++ contested) := ⟨trivial, trivial, trivial, trivial, trivial, trivial⟩
  obtain ⟨u, hu, hcount⟩ := (runs_compared_and_set waiting).2.1.counted contested "run" a allowed ha
  have three : memoryRuns.writes "run" (run memoryRuns.step ∅ waiting) contested = 3 := by decide
  rw [three, hrev] at hcount
  exact ⟨u, hu, hcount⟩

/-- A publication that raises because its pass exists has moved the run on. -/
theorem refused_publication_moves_run :
    ¬ ∀ requests q e t, Memory.serve q (run Memory.step ∅ requests) = (.error e, t) →
      t.run = (run Memory.step ∅ requests).run := by
  intro h
  have raised : (Memory.serve (.publish samplePublish) takenPass).1.toOption.isNone = true := by decide
  have moved : ((Memory.serve (.publish samplePublish) takenPass).2.run "run").map Run.revision = some 2 := by decide
  rcases hx : Memory.serve (.publish samplePublish) takenPass with ⟨e | reply, t⟩
  · rw [hx] at moved
    rw [h _ _ e t hx] at moved
    revert moved
    decide
  · rw [hx] at raised
    cases raised

end Motte.Storage
