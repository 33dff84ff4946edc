import Motte.Storage.Publish

/-! The two stores as systems of jobs.

A `JobSystem` is a store seen through its job table, with the proof that every
request moves that table as `Moved` allows. What is proved of every job system
holds of the SQLite and of the in-memory store. -/
namespace Motte.Storage
open Foundation

structure JobSystem (σ : Type) where
  {ρ : Type}
  backend : Backend ρ
  ledgers : σ → Ledgers ρ
  serve : Request → Op σ Err Reply
  /-- A job command is served by the backend. -/
  replies : ∀ c s, (serve (.job c) s).1 = (backend.serve c (ledgers s)).1.map .job
  leaves : ∀ c s, ledgers (serve (.job c) s).2 = (backend.serve c (ledgers s)).2
  /-- The other requests leave the invocations alone. -/
  invocations : ∀ q s, (∀ c, q ≠ .job c) → (ledgers (serve q s).2).invocations = (ledgers s).invocations
  moves : ∀ q s, backend.Keyed (ledgers s) → backend.Moved q (ledgers s) (ledgers (serve q s).2)

namespace JobSystem
variable {σ : Type} (S : JobSystem σ)

def step (q : Request) (s : σ) : σ := (S.serve q s).2

/-- The job stored under a key. -/
def job (s : σ) (key : String) : Option StoredJob := S.backend.job (S.ledgers s) key

/-- The state holds no job. -/
def Empty (s : σ) : Prop := ∀ k, S.job s k = none

def Keyed (s : σ) : Prop := S.backend.Keyed (S.ledgers s)

variable {S}

theorem Empty.keyed {s : σ} (h : S.Empty s) : S.Keyed s := by
  intro _ k j hj
  cases (h k).symm.trans hj

theorem keyed_step {s : σ} (q : Request) (h : S.Keyed s) : S.Keyed (S.step q s) := (S.moves q s h).keyed h

/-- A job command that returns ran so in the backend. -/
theorem serve_of_ok {s : σ} {c : JobCommand} {reply : JobReply} (h : (S.serve (.job c) s).1 = .ok (.job reply)) :
    S.backend.serve c (S.ledgers s) = (.ok reply, S.ledgers (S.step (.job c) s)) := by
  rw [S.replies] at h
  rw [step, S.leaves]
  rcases hx : S.backend.serve c (S.ledgers s) with ⟨e | reply', l⟩
  · rw [hx] at h
    cases h
  · rw [hx] at h
    cases h
    rfl

/-- An edit that does not name the job id is written back where the job was found. -/
theorem target_of_keepsId {s : σ} {q : Request} {key : String} {j u : StoredJob} (hk : S.Keyed s)
    (hj : S.job s key = some j) (he : JobEdit q key j u) (hq : KeepsId q) : S.backend.target key u = key :=
  Backend.target_of_keepsId hk hj he (fun _ => hq)

/-- A property of the job under each key is kept by a step if submitted jobs have it
and an edit passes it on to the key that is written. -/
theorem forall_jobs_step {P : String → StoredJob → Prop} {s : σ} {q : Request} (hk : S.Keyed s)
    (hs : ∀ k j, S.job s k = some j → P k j)
    (submitted : ∀ j : StoredJob, q = .job (.submit j.1) → P j.1.jobId j)
    (edited : ∀ key j u, S.job s key = some j → P key j → JobEdit q key j u → P (S.backend.target key u) u) :
    ∀ k j, S.job (S.step q s) k = some j → P k j := by
  intro k j hj
  rcases S.moves q s hk k with h | ⟨j', hj', hc⟩
  · exact hs k j (h.symm.trans hj)
  · obtain rfl : j' = j := Option.some.inj (hj'.symm.trans hj)
    rcases hc with ⟨_, hq, rfl⟩ | ⟨key, old, hold, he, _, rfl⟩
    · exact submitted j' hq
    · exact edited key old j' hold (hs key old hold) he

/-- The run rule of such a property: it holds in every state that a run under the rule reaches. -/
theorem forall_jobs_run {P : String → StoredJob → Prop} {Rule : σ → Request → Prop} {s : σ}
    {requests : List Request} (start : S.Empty s) (h : Along S.step Rule s requests)
    (submitted : ∀ s (j : StoredJob), Rule s (.job (.submit j.1)) → P j.1.jobId j)
    (edited : ∀ s q key j u, Rule s q → S.Keyed s → S.job s key = some j → P key j → JobEdit q key j u →
      P (S.backend.target key u) u) :
    ∀ k j, S.job (run S.step s requests) k = some j → P k j := by
  have inv : S.Keyed (run S.step s requests) ∧
      ∀ k j, S.job (run S.step s requests) k = some j → P k j := by
    refine Along.keeps (I := fun s => S.Keyed s ∧ ∀ k j, S.job s k = some j → P k j)
      (fun s q hs hq => ⟨keyed_step q hs.1, ?_⟩) h ⟨start.keyed, fun k j hj => ?_⟩
    · exact forall_jobs_step hs.1 hs.2 (fun j hj => submitted s j (hj ▸ hq))
        (fun key j u hkey hp he => edited s q key j u hq hs.1 hkey hp he)
    · cases (start k).symm.trans hj
  exact inv.2

theorem keyed_run {s : σ} (requests : List Request) (h : S.Keyed s) : S.Keyed (run S.step s requests) :=
  run_keeps (I := S.Keyed) (fun _ q hs => keyed_step q hs) requests h

theorem Empty.keyed_run {s : σ} (h : S.Empty s) (requests : List Request) :
    S.Keyed (run S.step s requests) := JobSystem.keyed_run requests h.keyed

end JobSystem

/-! ### The instances -/

namespace Sqlite

theorem serve_job (c : JobCommand) (s : Database) :
    (serve (.job c) s).1 = (sqliteJobs.serve c s.toLedgers).1.map .job :=
  Op.bind_pure_result (x := onJobs (sqliteJobs.serve c)) (g := Reply.job)

theorem serve_job_ledgers (c : JobCommand) (s : Database) :
    (serve (.job c) s).2.toLedgers = (sqliteJobs.serve c s.toLedgers).2 :=
  congrArg (·.toLedgers) (Op.bind_pure_state (x := onJobs (sqliteJobs.serve c)) (g := Reply.job) (s := s))

theorem step_moves (q : Request) (s : Database) (hk : sqliteJobs.Keyed s.toLedgers) :
    sqliteJobs.Moved q s.toLedgers (step q s).toLedgers := by
  refine Op.wp_state (Q := fun t : Database => sqliteJobs.Moved q s.toLedgers t.toLedgers) ?_
  have same : sqliteJobs.Moved q s.toLedgers s.toLedgers := Backend.Moved.same (fun _ => rfl)
  cases q with
  | run c =>
    simp only [serve, onAudit, Op.wp_zoom]
    exact Op.wp_always (fun _ _ => same) (fun _ _ => same)
  | attempt c =>
    simp only [serve, onAudit, Op.wp_zoom]
    exact Op.wp_always (fun _ _ => same) (fun _ _ => same)
  | append r =>
    simp only [serve, onAudit, Op.wp_bind, Op.wp_pure, Op.wp_zoom]
    exact Op.wp_always (fun _ _ => same) (fun _ _ => same)
  | job c =>
    simp only [serve, onJobs, Op.wp_bind, Op.wp_pure, Op.wp_zoom]
    exact Backend.serve_moved c hk
  | publish r =>
    simp only [serve, Op.wp_bind, Op.wp_pure]
    refine Op.wp_mono (publish_spec r s) (fun reply t h => ?_) (fun _ _ h => h ▸ same)
    rcases h with ⟨-, j, u, -, hp⟩ | ⟨-, rfl, -⟩
    · obtain ⟨_, _, _, _, _, _, _, _, rfl⟩ := hp.state
      exact Backend.Moved.put (t := s.invocations)
        (.inr ⟨r.jobId, j, hp.found, hp.edit, hp.matched, rfl⟩)
    · exact same

theorem serve_invocations (q : Request) (s : Database) (hq : ∀ c, q ≠ .job c) :
    (serve q s).2.invocations = s.invocations := by
  refine Op.wp_state (Q := fun t : Database => t.invocations = s.invocations) ?_
  cases q with
  | job c => exact absurd rfl (hq c)
  | publish r =>
    simp only [serve, Op.wp_bind, Op.wp_pure]
    refine Op.wp_mono (publish_spec r s) (fun reply t h => ?_) (fun _ _ h => by rw [h])
    rcases h with ⟨-, j, u, -, hp⟩ | ⟨-, rfl, -⟩
    · obtain ⟨_, _, _, _, _, _, _, _, rfl⟩ := hp.state
      rfl
    · rfl
  | run c =>
    simp only [serve, onAudit, Op.wp_zoom]
    exact Op.wp_always (fun _ _ => trivial) (fun _ _ => trivial)
  | attempt c =>
    simp only [serve, onAudit, Op.wp_zoom]
    exact Op.wp_always (fun _ _ => trivial) (fun _ _ => trivial)
  | append r =>
    simp only [serve, onAudit, Op.wp_bind, Op.wp_pure, Op.wp_zoom]
    exact Op.wp_always (fun _ _ => trivial) (fun _ _ => trivial)

end Sqlite

namespace Memory

theorem serve_job (c : JobCommand) (s : Store) :
    (serve (.job c) s).1 = (memoryJobs.serve c s.toLedgers).1.map .job :=
  Op.bind_pure_result (x := onJobs (memoryJobs.serve c)) (g := Reply.job)

theorem serve_job_ledgers (c : JobCommand) (s : Store) :
    (serve (.job c) s).2.toLedgers = (memoryJobs.serve c s.toLedgers).2 :=
  congrArg (·.toLedgers) (Op.bind_pure_state (x := onJobs (memoryJobs.serve c)) (g := Reply.job) (s := s))

theorem step_moves (q : Request) (s : Store) (hk : memoryJobs.Keyed s.toLedgers) :
    memoryJobs.Moved q s.toLedgers (step q s).toLedgers := by
  refine Op.wp_state (Q := fun t : Store => memoryJobs.Moved q s.toLedgers t.toLedgers) ?_
  have same : memoryJobs.Moved q s.toLedgers s.toLedgers := Backend.Moved.same (fun _ => rfl)
  cases q with
  | run c =>
    simp only [serve, onAudit, Op.wp_zoom]
    exact Op.wp_always (fun _ _ => same) (fun _ _ => same)
  | attempt c =>
    simp only [serve, onAudit, Op.wp_zoom]
    exact Op.wp_always (fun _ _ => same) (fun _ _ => same)
  | append r =>
    simp only [serve, onAudit, Op.wp_bind, Op.wp_pure, Op.wp_zoom]
    exact Op.wp_always (fun _ _ => same) (fun _ _ => same)
  | job c =>
    simp only [serve, onJobs, Op.wp_bind, Op.wp_pure, Op.wp_zoom]
    exact Backend.serve_moved c hk
  | publish r =>
    have published {j u : StoredJob} {result : Except Err Unit} {t : Store}
        (hp : Publication r s j u result t) : memoryJobs.Moved (.publish r) s.toLedgers t.toLedgers := by
      obtain ⟨log, b, -, ht⟩ := hp.state
      rw [ht]
      exact Backend.Moved.put (t := s.invocations)
        (.inr ⟨r.jobId, j, b.found, b.edit, fun h => absurd h (by decide), rfl⟩)
    simp only [serve, Op.wp_bind, Op.wp_pure]
    refine Op.wp_mono (publish_spec r s) (fun reply t h => ?_) (fun e t h => ?_)
    · rcases h with ⟨-, j, u, -, hp⟩ | ⟨-, rfl, -⟩
      · exact published hp
      · exact same
    · rcases h with ⟨rfl, -⟩ | ⟨j, u, log, -, -, rfl⟩ | ⟨j, u, hp⟩
      · exact same
      · exact same
      · exact published hp

theorem serve_invocations (q : Request) (s : Store) (hq : ∀ c, q ≠ .job c) :
    (serve q s).2.invocations = s.invocations := by
  refine Op.wp_state (Q := fun t : Store => t.invocations = s.invocations) ?_
  cases q with
  | job c => exact absurd rfl (hq c)
  | publish r =>
    have published {j u : StoredJob} {result : Except Err Unit} {t : Store}
        (hp : Publication r s j u result t) : t.invocations = s.invocations := by
      obtain ⟨log, -, -, ht⟩ := hp.state
      rw [ht]
      rfl
    simp only [serve, Op.wp_bind, Op.wp_pure]
    refine Op.wp_mono (publish_spec r s) (fun reply t h => ?_) (fun e t h => ?_)
    · rcases h with ⟨-, j, u, -, hp⟩ | ⟨-, rfl, -⟩
      · exact published hp
      · rfl
    · rcases h with ⟨rfl, -⟩ | ⟨j, u, log, -, -, rfl⟩ | ⟨j, u, hp⟩
      · rfl
      · rfl
      · exact published hp
  | run c =>
    simp only [serve, onAudit, Op.wp_zoom]
    exact Op.wp_always (fun _ _ => trivial) (fun _ _ => trivial)
  | attempt c =>
    simp only [serve, onAudit, Op.wp_zoom]
    exact Op.wp_always (fun _ _ => trivial) (fun _ _ => trivial)
  | append r =>
    simp only [serve, onAudit, Op.wp_bind, Op.wp_pure, Op.wp_zoom]
    exact Op.wp_always (fun _ _ => trivial) (fun _ _ => trivial)

end Memory

/-- The SQLite store as a system of jobs. -/
def sqliteSystem : JobSystem Sqlite.Database where
  backend := sqliteJobs
  ledgers s := s.toLedgers
  serve := Sqlite.serve
  replies := Sqlite.serve_job
  leaves := Sqlite.serve_job_ledgers
  invocations := Sqlite.serve_invocations
  moves := Sqlite.step_moves

/-- The in-memory store as a system of jobs. -/
def memorySystem : JobSystem Memory.Store where
  backend := memoryJobs
  ledgers s := s.toLedgers
  serve := Memory.serve
  replies := Memory.serve_job
  leaves := Memory.serve_job_ledgers
  invocations := Memory.serve_invocations
  moves := Memory.step_moves

theorem sqliteSystem_empty : sqliteSystem.Empty ∅ := fun _ => rfl

theorem memorySystem_empty : memorySystem.Empty ∅ := fun _ => rfl

end Motte.Storage
