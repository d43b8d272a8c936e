import ScriptEngine.Proofs.Check.Moves

namespace ScriptEngine

/-!
# Every interleaving of a check

While a request stands, no job of a pool is lost, the counts agree with where the jobs
are, and no worker leaves before the jobs do.  Each of these invariants is kept by every
move.  So a pool that nobody withdraws comes to rest in a bounded number of steps,
whatever the order of the moves is, and then each entry is the verdict on its file
alone: neither the order nor what a compiler did before shows.
-/

variable {plan : CheckPlan} {job : CheckJob} {event : PoolEvent} {before after : List Worker}
  {worker : Worker}

namespace CheckJob

theorem getElem?_numberFrom (start : Nat) (paths : List String) (index : Nat) :
    (numberFrom start paths)[index]? = paths[index]?.map (⟨start + index, ·⟩) := by
  induction paths generalizing start index with
  | nil => simp [numberFrom]
  | cons path rest inductionHypothesis =>
      cases index with
      | zero => simp [numberFrom]
      | succ index =>
          simp only [numberFrom, List.getElem?_cons_succ, inductionHypothesis]
          rw [Nat.add_right_comm, Nat.add_assoc]

theorem map_path_numberFrom (start : Nat) (paths : List String) :
    (numberFrom start paths).map path = paths := by
  induction paths generalizing start with
  | nil => rfl
  | cons path rest inductionHypothesis => simp [numberFrom, inductionHypothesis]

end CheckJob

namespace CheckPlan

theorem length_jobs (plan : CheckPlan) : plan.jobs.length = plan.paths.length := by
  rw [← CheckJob.map_path_numberFrom 0 plan.paths, List.length_map, jobs]

theorem index_of_getElem?_jobs
    {index : Nat}
    (found : plan.jobs[index]? = some job) :
    job.index = index := by
  obtain ⟨path, -, rfl⟩ : ∃ path, plan.paths[index]? = some path ∧ ⟨0 + index, path⟩ = job := by
    simpa [jobs, CheckJob.getElem?_numberFrom] using found
  exact Nat.zero_add index

/-- A job stands among the jobs at its own index. -/
theorem getElem?_jobs_of_mem (member : job ∈ plan.jobs) :
    plan.jobs[job.index]? = some job := by
  obtain ⟨index, found⟩ := List.mem_iff_getElem?.mp member
  rw [index_of_getElem?_jobs found, found]

/-- Checking with a fit compiler gives the verdict on the file, and leaves the compiler
fit; the compiler that workers start with is one of these. -/
structure Steady
    (alone : String → Verdict)
    (fit : Compiler → Prop)
    (plan : CheckPlan) :
    Prop where
  start : fit plan.compiler
  verdict : ∀ compiler path, fit compiler → (plan.inspect compiler path).1 = alone path
  keeps : ∀ compiler path, fit compiler → fit (plan.inspect compiler path).2

/-- The entries once some jobs are collected, given the verdict on each file. -/
def entriesWith (plan : CheckPlan) (alone : String → Verdict) (collected : List CheckJob) :
    List (String × Option Verdict) :=
  plan.jobs.map fun job =>
    (job.path, if job ∈ collected then some (alone job.path) else none)

theorem entriesWith_nil (plan : CheckPlan) (alone : String → Verdict) :
    plan.entriesWith alone [] = Pool.blankEntries plan.paths := by
  calc plan.entriesWith alone []
      = (plan.jobs.map CheckJob.path).map fun path => (path, none) := by
        simp [entriesWith]
    _ = Pool.blankEntries plan.paths := by
        rw [jobs, CheckJob.map_path_numberFrom, Pool.blankEntries]

/-- The entry of a job is filled in where the job stands. -/
theorem entriesWith_set
    (member : job ∈ plan.jobs)
    (alone : String → Verdict)
    (collected : List CheckJob) :
    (plan.entriesWith alone collected).set job.index (job.path, some (alone job.path)) =
      plan.entriesWith alone (job :: collected) := by
  have stands := getElem?_jobs_of_mem member
  apply List.ext_getElem?
  intro index
  rw [List.getElem?_set]
  by_cases same : job.index = index
  · subst same
    have bound : job.index < plan.jobs.length := (List.getElem?_eq_some_iff.mp stands).1
    rw [if_pos rfl, if_pos (by simpa [entriesWith] using bound), entriesWith, List.getElem?_map,
      stands]
    simp
  · rw [if_neg same, entriesWith, entriesWith, List.getElem?_map, List.getElem?_map]
    cases found : plan.jobs[index]? with
    | none => rfl
    | some other =>
        have apart : other ≠ job := by
          rintro rfl
          exact same (index_of_getElem?_jobs found)
        simp [apart]

/-- When every job is collected, each path has the verdict on its file. -/
theorem entriesWith_of_all
    {collected : List CheckJob}
    (all : ∀ job ∈ plan.jobs, job ∈ collected)
    (alone : String → Verdict) :
    plan.entriesWith alone collected = plan.paths.map fun path => (path, some (alone path)) := by
  calc plan.entriesWith alone collected
      = plan.jobs.map fun job => (job.path, some (alone job.path)) :=
        List.map_congr_left fun job member => by rw [if_pos (all job member)]
    _ = (plan.jobs.map CheckJob.path).map fun path => (path, some (alone path)) := by
        rw [List.map_map]; rfl
    _ = plan.paths.map fun path => (path, some (alone path)) := by
        rw [jobs, CheckJob.map_path_numberFrom]

end CheckPlan

namespace Worker

/-- The job a worker has taken and not handed in. -/
def held (worker : Worker) : List CheckJob :=
  match worker.phase with
  | .checking job => [job]
  | .tallying job _ => [job]
  | .settling job _ => [job]
  | .reporting job _ => [job]
  | .waiting => []
  | .gone => []

/-- The job a worker has counted and not handed in. -/
def counted (worker : Worker) : List CheckJob :=
  match worker.phase with
  | .settling job _ => [job]
  | .reporting job _ => [job]
  | _ => []

/-- The job a worker has taken off the active ones and not handed in. -/
def settled (worker : Worker) : List CheckJob :=
  match worker.phase with
  | .reporting job _ => [job]
  | _ => []

/-- A worker has a fit compiler, and if it has a verdict, the one on its file. -/
def IsHonest (alone : String → Verdict) (fit : Compiler → Prop) (worker : Worker) : Prop :=
  fit worker.compiler ∧
    match worker.phase with
    | .tallying job verdict => verdict = alone job.path
    | .settling job verdict => verdict = alone job.path
    | .reporting job verdict => verdict = alone job.path
    | _ => True

theorem eq_of_isGone (isGone : worker.isGone = true) : ∃ compiler, worker = ⟨.gone, compiler⟩ := by
  obtain ⟨phase, compiler⟩ := worker
  cases phase with
  | gone => exact ⟨compiler, rfl⟩
  | waiting | checking | tallying | settling | reporting => cases isGone

end Worker

namespace Requester

/-- The jobs that are not handed in. -/
def remaining : Requester → List CheckJob
  | submitting remaining => remaining
  | counting remaining => remaining
  | _ => []

/-- How many jobs are handed in and not counted. -/
def uncounted : Requester → Nat
  | counting _ => 1
  | _ => 0

/-- Whether all jobs are handed in. -/
def hasClosed : Requester → Bool
  | collecting _ => true
  | finished _ => true
  | _ => false

end Requester

namespace Pool

/-- The jobs that workers hold. -/
def heldJobs (pool : Pool) : List CheckJob := pool.workers.flatMap Worker.held

/-- The jobs on their way from the requester to the entries. -/
def carried (pool : Pool) : List CheckJob :=
  pool.requester.remaining ++ pool.queue ++ pool.heldJobs ++ pool.results.map Prod.fst

/-- The jobs that workers have counted, and those behind the workers. -/
def countedJobs (pool : Pool) (collected : List CheckJob) : List CheckJob :=
  pool.workers.flatMap Worker.counted ++ pool.results.map Prod.fst ++ collected

/-- The jobs that workers have taken off the active ones, and those behind the workers. -/
def settledJobs (pool : Pool) (collected : List CheckJob) : List CheckJob :=
  pool.workers.flatMap Worker.settled ++ pool.results.map Prod.fst ++ collected

/-- The counts of a pool agree with where its jobs are. -/
structure Tallies
    (plan : CheckPlan)
    (alone : String → Verdict)
    (collected : List CheckJob)
    (pool : Pool) :
    Prop where
  submitted :
    pool.tally.submitted + pool.requester.remaining.length + pool.requester.uncounted =
      plan.paths.length
  completed :
    pool.tally.completed =
      (pool.countedJobs collected).countP fun job => !(alone job.path).isFailure
  failed :
    pool.tally.failed = (pool.countedJobs collected).countP fun job => (alone job.path).isFailure
  active : pool.tally.active + (pool.settledJobs collected).length = pool.tally.submitted

/-- Every verdict is the one on its file, and every compiler is one that gives it. -/
structure Honest
    (alone : String → Verdict)
    (fit : Compiler → Prop)
    (pool : Pool) :
    Prop where
  workers : ∀ worker ∈ pool.workers, worker.IsHonest alone fit
  results : ∀ result ∈ pool.results, result.2 = alone result.1.path

/-- No job is lost, and the entries are those of the jobs that are collected. -/
structure Conserves
    (plan : CheckPlan)
    (alone : String → Verdict)
    (collected : List CheckJob)
    (pool : Pool) :
    Prop where
  jobs :
    (pool.requester.remaining ++ pool.queue ++ pool.heldJobs ++ pool.results.map Prod.fst ++
      collected).Perm plan.jobs
  entries : pool.entries = plan.entriesWith alone collected

/-- Nobody leaves before the work that is left for them is done. -/
structure Orderly
    (plan : CheckPlan)
    (pool : Pool) :
    Prop where
  stands : pool.isWithdrawn = false
  entered : pool.requester ≠ .entering
  crew : pool.workers.length = plan.workers
  closed : pool.isQueueClosed = pool.requester.hasClosed
  gone : ∀ worker ∈ pool.workers, worker.isGone = true → pool.isQueueClosed = true ∧ pool.queue = []
  shut : pool.areResultsClosed = true → ∀ worker ∈ pool.workers, worker.isGone = true
  collecting : pool.requester ≠ .collecting true
  finished :
    ∀ withdrawn, pool.requester = .finished withdrawn →
      withdrawn = false ∧ pool.results = [] ∧ pool.areResultsClosed = true

variable {pool next : Pool} {home collected : List CheckJob} {alone : String → Verdict}
  {fit : Compiler → Prop}

theorem Honest.of_split
    (honest : Honest alone fit pool)
    (split : pool.workers = before ++ worker :: after) :
    worker.IsHonest alone fit :=
  honest.workers worker (by simp [split])

/-- What holds of all workers still does when it holds of one that has changed. -/
theorem forall_of_split
    {old new : Worker}
    {holds : Worker → Prop}
    (all : ∀ worker ∈ pool.workers, holds worker)
    (split : pool.workers = before ++ old :: after)
    (changed : holds new) :
    ∀ worker ∈ before ++ new :: after, holds worker := by
  simp only [split, List.mem_append, List.mem_cons] at all ⊢
  rintro worker (earlier | rfl | later)
  · exact all worker (.inl earlier)
  · exact changed
  · exact all worker (.inr (.inr later))

/-- A move keeps the counts in agreement with where the jobs are. -/
theorem Tallies.move
    (tallies : Tallies plan alone collected pool)
    (honest : Honest alone fit pool)
    (moves : Moves plan pool home next) :
    Tallies plan alone (home ++ collected) next := by
  obtain ⟨submitted, completed, failed, active⟩ := tallies
  simp only [countedJobs, settledJobs, List.countP_append, List.length_append, List.length_map]
    at completed failed active
  cases moves with
  | submit isHere
  | count isHere
  | close isHere
  | conclude isHere =>
      simp only [isHere, Requester.remaining, Requester.uncounted, List.length_cons,
        List.length_nil] at submitted
      constructor <;>
        simp only [countedJobs, settledJobs, Requester.remaining, Requester.uncounted,
          List.countP_append, List.length_append, List.length_map, List.length_nil,
          List.nil_append] <;> omega
  | shut isClosed =>
      constructor <;>
        simp only [countedJobs, settledJobs, List.countP_append, List.length_append,
          List.length_map, List.nil_append] <;> omega
  | collect isCollecting hasResult =>
      simp only [hasResult, List.map_cons, List.countP_cons, List.length_cons]
        at completed failed active
      constructor <;>
        simp only [countedJobs, settledJobs, List.countP_append, List.length_append,
          List.length_map, List.countP_cons, List.length_cons, List.nil_append,
          List.cons_append] <;> omega
  | tally split =>
      obtain ⟨-, rfl⟩ := honest.of_split split
      simp only [split, List.flatMap_append, List.flatMap_cons, Worker.counted, Worker.settled,
        List.countP_append, List.length_append, List.nil_append] at completed failed active
      constructor <;>
        simp only [countedJobs, settledJobs, List.flatMap_append, List.flatMap_cons,
          Worker.counted, Worker.settled, CheckTally.add, List.countP_append, List.countP_cons,
          List.length_append, List.length_map, List.nil_append, List.cons_append] <;>
        split <;> simp only [*, Bool.not_true, Bool.not_false, if_true, if_false,
          Bool.false_eq_true] <;> omega
  | take split
  | check split
  | settle split
  | report split
  | leave split =>
      simp only [split, List.flatMap_append, List.flatMap_cons, Worker.counted, Worker.settled,
        List.countP_append, List.countP_cons, List.length_append, List.length_cons,
        List.nil_append, List.cons_append] at completed failed active
      constructor <;>
        simp only [countedJobs, settledJobs, List.flatMap_append, List.flatMap_cons,
          Worker.counted, Worker.settled, List.map_append, List.map_cons, List.map_nil,
          List.countP_append, List.countP_cons, List.countP_nil, List.length_append,
          List.length_cons, List.length_nil, List.length_map, List.nil_append,
          List.cons_append] <;> omega

/-- A move keeps verdicts and compilers as they should be. -/
theorem Honest.move
    (honest : Honest alone fit pool)
    (steady : plan.Steady alone fit)
    (moves : Moves plan pool home next) :
    Honest alone fit next := by
  obtain ⟨workers, results⟩ := id honest
  cases moves with
  | submit | count | close | conclude | shut => exact ⟨workers, results⟩
  | collect isCollecting hasResult =>
      refine ⟨workers, fun result member => results result ?_⟩
      rw [hasResult]
      exact List.mem_cons_of_mem _ member
  | take split | tally split | settle split | leave split =>
      have changed := honest.of_split split
      exact ⟨forall_of_split workers split changed, results⟩
  | check split =>
      obtain ⟨isFit, -⟩ := honest.of_split split
      refine ⟨forall_of_split workers split ?_, results⟩
      exact ⟨steady.keeps _ _ isFit, steady.verdict _ _ isFit⟩
  | report split =>
      obtain ⟨isFit, agrees⟩ := honest.of_split split
      refine ⟨forall_of_split workers split ⟨isFit, trivial⟩, ?_⟩
      intro result member
      rcases List.mem_append.mp member with earlier | last
      · exact results result earlier
      · rw [List.mem_singleton.mp last]
        exact agrees

/-- A move hands jobs on, and loses none. -/
theorem Moves.carried (moves : Moves plan pool home next) :
    (home ++ next.carried).Perm pool.carried := by
  rw [List.perm_iff_count]
  intro job
  cases moves with
  | collect isCollecting hasResult
  | submit isSubmitting
  | count isCounting
  | close isSubmitting
  | conclude isCollecting
  | shut isClosed =>
      simp_all [Pool.carried, heldJobs, Requester.remaining, List.count_cons] <;> omega
  | take split
  | check split
  | tally split
  | settle split
  | report split
  | leave split => simp_all [Pool.carried, heldJobs, Worker.held, List.count_cons] <;> omega

/-- A move fills in the entries of the jobs that it brings home. -/
theorem Moves.entries
    (moves : Moves plan pool home next)
    (honest : Honest alone fit pool)
    (known : ∀ job ∈ pool.carried, job ∈ plan.jobs)
    (entries : pool.entries = plan.entriesWith alone collected) :
    next.entries = plan.entriesWith alone (home ++ collected) := by
  cases moves with
  | @collect _ job verdict results isCollecting hasResult =>
      have member : job ∈ plan.jobs := known job (by simp [Pool.carried, hasResult])
      have agrees : verdict = alone job.path := honest.results (job, verdict) (by simp [hasResult])
      rw [agrees, entries]
      exact CheckPlan.entriesWith_set member alone collected
  | submit | count | close | conclude | shut | take | check | tally | settle | report | leave =>
      exact entries

theorem Conserves.move
    (conserves : Conserves plan alone collected pool)
    (honest : Honest alone fit pool)
    (moves : Moves plan pool home next) :
    Conserves plan alone (home ++ collected) next := by
  have jobs : (pool.carried ++ collected).Perm plan.jobs := conserves.jobs
  have known : ∀ job ∈ pool.carried, job ∈ plan.jobs := fun job member =>
    jobs.subset (List.mem_append_left _ member)
  refine ⟨?_, moves.entries honest known conserves.entries⟩
  calc next.carried ++ (home ++ collected)
      = (next.carried ++ home) ++ collected := (List.append_assoc ..).symm
    List.Perm _ ((home ++ next.carried) ++ collected) := List.perm_append_comm.append_right _
    List.Perm _ (pool.carried ++ collected) := moves.carried.append_right _
    List.Perm _ plan.jobs := jobs

/-- As long as a worker is there, the results are open. -/
theorem open_of_split
    (shut : pool.areResultsClosed = true → ∀ worker ∈ pool.workers, worker.isGone = true)
    (split : pool.workers = before ++ worker :: after)
    (here : worker.isGone = false) :
    pool.areResultsClosed = false := by
  cases isShut : pool.areResultsClosed with
  | false => rfl
  | true =>
      have gone := shut isShut worker (by simp [split])
      rw [here] at gone
      cases gone

/-- A worker that is there may change, but leave only when no job is left. -/
theorem Orderly.change
    {old new : Worker}
    {queue : List CheckJob}
    (orderly : Orderly plan pool)
    (split : pool.workers = before ++ old :: after)
    (here : old.isGone = false)
    (drains : pool.queue = [] → queue = [])
    (leaves : new.isGone = true → pool.isQueueClosed = true ∧ queue = [])
    (results : List (CheckJob × Verdict))
    (tally : CheckTally) :
    Orderly plan { pool with
      queue := queue, results := results, tally := tally, workers := before ++ new :: after } := by
  have isOpen := open_of_split orderly.shut split here
  constructor
  case stands => exact orderly.stands
  case entered => exact orderly.entered
  case crew => simpa [split] using orderly.crew
  case closed => exact orderly.closed
  case gone =>
    refine forall_of_split (fun worker member isGone => ?_) split leaves
    have left := orderly.gone worker member isGone
    exact ⟨left.1, drains left.2⟩
  case shut =>
    intro isShut
    rw [isOpen] at isShut
    cases isShut
  case collecting => exact orderly.collecting
  case finished =>
    intro withdrawn isFinished
    have isShut := (orderly.finished withdrawn isFinished).2.2
    rw [isOpen] at isShut
    cases isShut

/-- A move lets nobody go too early. -/
theorem Orderly.move (orderly : Orderly plan pool) (moves : Moves plan pool home next) :
    Orderly plan next := by
  obtain ⟨stands, entered, crew, closed, gone, shut, collecting, finished⟩ := id orderly
  cases moves with
  | submit isSubmitting | count isCounting =>
      -- Nobody has left yet, since the queue of jobs is open.
      have isOpen : pool.isQueueClosed = false := by simp_all [Requester.hasClosed]
      have nobody : ∀ worker ∈ pool.workers, ¬ worker.isGone = true := by
        intro worker member isGone
        have isClosed := (gone worker member isGone).1
        rw [isOpen] at isClosed
        cases isClosed
      exact ⟨stands, nofun, crew, isOpen, fun worker member isGone =>
        absurd isGone (nobody worker member), shut, nofun, nofun⟩
  | close isSubmitting =>
      exact ⟨stands, nofun, crew, rfl, fun worker member isGone =>
        ⟨rfl, (gone worker member isGone).2⟩, shut, nofun, nofun⟩
  | collect isCollecting hasResult =>
      refine ⟨stands, entered, crew, closed, gone, shut, collecting, fun withdrawn isFinished => ?_⟩
      have isEmpty := (finished withdrawn isFinished).2.1
      rw [hasResult] at isEmpty
      cases isEmpty
  | @conclude refused isCollecting hasNone isShut =>
      have isClosed : pool.isQueueClosed = true := by rw [closed, isCollecting]; rfl
      refine ⟨stands, nofun, crew, isClosed, gone, shut, nofun, ?_⟩
      rintro _ ⟨⟩
      refine ⟨?_, hasNone, isShut⟩
      cases refused with
      | false => rfl
      | true => exact absurd isCollecting collecting
  | shut isClosed areGone isOpen =>
      refine ⟨stands, entered, crew, closed, gone, fun _ => areGone, collecting, ?_⟩
      intro withdrawn isFinished
      have isShut := (finished withdrawn isFinished).2.2
      rw [isOpen] at isShut
      cases isShut
  | take split hasJob =>
      refine orderly.change split rfl ?_ ?_ _ _
      · rw [hasJob]
        exact nofun
      · exact nofun
  | check split | tally split | settle split | report split =>
      refine orderly.change split rfl id ?_ _ _
      exact nofun
  | leave split isClosed hasNone =>
      exact orderly.change split rfl id (fun _ => ⟨isClosed, hasNone⟩) _ _

/-- What holds of a pool between its first step and its last. -/
structure Underway
    (plan : CheckPlan)
    (alone : String → Verdict)
    (fit : Compiler → Prop)
    (collected : List CheckJob)
    (pool : Pool) :
    Prop where
  tallies : Tallies plan alone collected pool
  honest : Honest alone fit pool
  conserves : Conserves plan alone collected pool
  orderly : Orderly plan pool

/-- The workers of a pool that has just been entered have nothing in hand. -/
theorem flatMap_waiting
    {share : Worker → List CheckJob}
    (idle : share ⟨.waiting, plan.compiler⟩ = []) :
    (entered plan).workers.flatMap share = [] := by
  rw [List.flatMap_eq_nil_iff]
  intro worker member
  rw [List.eq_of_mem_replicate member, idle]

/-- The workers of a pool that all have left have nothing in hand. -/
theorem flatMap_gone
    {share : Worker → List CheckJob}
    (areGone : ∀ worker ∈ pool.workers, worker.isGone = true)
    (idle : ∀ compiler, share ⟨.gone, compiler⟩ = []) :
    pool.workers.flatMap share = [] := by
  rw [List.flatMap_eq_nil_iff]
  intro worker member
  obtain ⟨compiler, rfl⟩ := Worker.eq_of_isGone (areGone worker member)
  exact idle compiler

theorem underway_entered (steady : plan.Steady alone fit) :
    Underway plan alone fit [] (entered plan) where
  tallies := by
    have noneCounted : (entered plan).workers.flatMap Worker.counted = [] := flatMap_waiting rfl
    have noneSettled : (entered plan).workers.flatMap Worker.settled = [] := flatMap_waiting rfl
    constructor
    case submitted => simp [entered, Requester.remaining, Requester.uncounted, plan.length_jobs]
    case completed => rw [countedJobs, noneCounted]; rfl
    case failed => rw [countedJobs, noneCounted]; rfl
    case active => rw [settledJobs, noneSettled]; rfl
  honest := by
    refine ⟨fun worker member => ?_, nofun⟩
    rw [List.eq_of_mem_replicate member]
    exact ⟨steady.start, trivial⟩
  conserves := by
    refine ⟨?_, (plan.entriesWith_nil alone).symm⟩
    have noneHeld : (entered plan).heldJobs = [] := flatMap_waiting rfl
    rw [noneHeld]
    simp [entered, Requester.remaining]
  orderly := by
    refine ⟨rfl, nofun, List.length_replicate, rfl, fun worker member isGone => ?_, nofun, nofun,
      nofun⟩
    rw [List.eq_of_mem_replicate member] at isGone
    cases isGone

/-- A step after the first keeps all that holds, and leaves one step less to do. -/
theorem Underway.step
    (underway : Underway plan alone fit collected pool)
    (steady : plan.Steady alone fit)
    (proper : event ≠ .withdraw)
    (stepped : pool.step plan event = some next) :
    (∃ collected, Underway plan alone fit collected next) ∧ next.stepsLeft + 1 = pool.stepsLeft := by
  obtain ⟨tallies, honest, conserves, orderly⟩ := underway
  obtain ⟨home, moves⟩ := moves_of_step orderly.stands orderly.entered proper stepped
  refine ⟨⟨home ++ collected, ?_⟩, moves.stepsLeft⟩
  exact ⟨tallies.move honest moves, honest.move steady moves, conserves.move honest moves,
    orderly.move moves⟩

/-- A schedule after the first step keeps all that holds, and each of its events leaves
one step less to do. -/
theorem Underway.replay
    {events : List PoolEvent}
    (underway : Underway plan alone fit collected pool)
    (steady : plan.Steady alone fit)
    (proper : .withdraw ∉ events)
    (replayed : pool.replay plan events = some next) :
    (∃ collected, Underway plan alone fit collected next) ∧
      next.stepsLeft + events.length = pool.stepsLeft := by
  induction events generalizing pool collected with
  | nil =>
      cases replayed
      exact ⟨⟨collected, underway⟩, rfl⟩
  | cons event rest inductionHypothesis =>
      simp only [Pool.replay] at replayed
      split at replayed
      case h_1 between stepped =>
        have isProper : event ≠ .withdraw := fun same => proper (by simp [same])
        obtain ⟨⟨_, underwayBetween⟩, fewer⟩ := underway.step steady isProper stepped
        obtain ⟨underwayNext, left⟩ :=
          inductionHypothesis underwayBetween (fun later => proper (.tail _ later)) replayed
        refine ⟨underwayNext, ?_⟩
        rw [List.length_cons]
        omega
      case h_2 => cases replayed

/-- The first step of a pool is to enter. -/
theorem entered_of_step
    (proper : event ≠ .withdraw)
    (stepped : Pool.step plan {} event = some next) :
    next = entered plan := by
  cases event <;> simp_all [Pool.step, stepRequester, stepWorker]
  exact stepped.symm

/-- A pool that has a worker is done once its requester is. -/
theorem Underway.stepsLeft_of_finished
    {withdrawn : Bool}
    (underway : Underway plan alone fit collected pool)
    (staffed : 0 < plan.workers)
    (isFinished : pool.requester = .finished withdrawn) :
    pool.stepsLeft = 0 ∧ pool.queue = [] ∧ pool.results = [] ∧
      ∀ worker ∈ pool.workers, worker.isGone = true := by
  obtain ⟨-, hasNone, isShut⟩ := underway.orderly.finished withdrawn isFinished
  have areGone := underway.orderly.shut isShut
  obtain ⟨worker, member⟩ : ∃ worker, worker ∈ pool.workers := by
    apply List.exists_mem_of_length_pos
    rwa [underway.orderly.crew]
  have isEmpty := (underway.orderly.gone worker member (areGone worker member)).2
  have restful : (pool.workers.map Worker.stepsLeft).sum = 0 := by
    rw [List.sum_eq_zero_iff_forall_eq_nat]
    simp only [List.mem_map]
    rintro _ ⟨worker, member, rfl⟩
    obtain ⟨compiler, rfl⟩ := Worker.eq_of_isGone (areGone worker member)
    rfl
  refine ⟨?_, isEmpty, hasNone, areGone⟩
  simp [Pool.stepsLeft, isFinished, Requester.stepsLeft, isEmpty, hasNone, isShut, restful]

/-- The event of the first worker that has not left, if there is one. -/
theorem firstWorkerEvent_cases (pool : Pool) (start : Nat) (workers : List Worker) :
    (∃ offset worker event, workers[offset]? = some worker ∧
      pool.phaseEvent (start + offset) worker.phase = some event ∧
      pool.firstWorkerEvent start workers = some event) ∨
    (∀ worker ∈ workers, worker.isGone = true) ∧ pool.firstWorkerEvent start workers = none := by
  induction workers generalizing start with
  | nil => exact .inr ⟨nofun, rfl⟩
  | cons worker rest inductionHypothesis =>
      cases moves : pool.phaseEvent start worker.phase with
      | some event => exact .inl ⟨0, worker, event, rfl, moves, by simp [firstWorkerEvent, moves]⟩
      | none =>
          have isGone : worker.isGone = true := by
            obtain ⟨phase, compiler⟩ := worker
            cases phase with
            | gone => rfl
            | waiting | checking | tallying | settling | reporting => cases moves
          have first : pool.firstWorkerEvent start (worker :: rest) =
              pool.firstWorkerEvent (start + 1) rest := by simp [firstWorkerEvent, moves]
          rw [first]
          rcases inductionHypothesis (start + 1) with
            ⟨offset, other, event, found, movesOther, isFirst⟩ | ⟨areGone, hasNone⟩
          · refine .inl ⟨offset + 1, other, event, found, ?_, isFirst⟩
            rwa [Nat.add_assoc, Nat.add_comm 1] at movesOther
          · exact .inr ⟨List.forall_mem_cons.mpr ⟨isGone, areGone⟩, hasNone⟩

/-- A worker that has not left can move, once all jobs are handed in and there is room
for its result. -/
theorem step_of_phaseEvent
    {index : Nat}
    (found : pool.workers[index]? = some worker)
    (isClosed : pool.isQueueClosed = true)
    (room : worker.held ≠ [] → pool.results.length < plan.paths.length)
    (moves : pool.phaseEvent index worker.phase = some event) :
    event ≠ .withdraw ∧ (pool.step plan event).isSome = true := by
  obtain ⟨phase, compiler⟩ := worker
  cases phase with
  | waiting =>
      cases moves
      cases hasJob : pool.queue with
      | nil => simp [Pool.step, stepWorker, found, isClosed, hasJob]
      | cons job queue => simp [Pool.step, stepWorker, found, hasJob]
  | checking | tallying | settling =>
      cases moves
      simp [Pool.step, stepWorker, found]
  | reporting =>
      cases moves
      have isRoom := room (List.cons_ne_nil _ _)
      simp [Pool.step, stepWorker, found, isRoom]
  | gone => cases moves

section

variable (underway : Underway plan alone fit collected pool)

include underway

/-- Until its requester is done, a pool can move, in the order that runs too. -/
theorem Underway.next? : (∃ withdrawn, pool.requester = .finished withdrawn) ∨
      ∃ event, pool.next? = some event ∧ event ≠ .withdraw ∧
        (pool.step plan event).isSome = true := by
  have total := underway.conserves.jobs.length_eq
  rw [plan.length_jobs] at total
  cases requester : pool.requester with
  | entering => exact absurd requester underway.orderly.entered
  | finished withdrawn => exact .inl ⟨withdrawn, rfl⟩
  | counting remaining =>
      refine .inr ⟨.count, ?_⟩
      simp [Pool.next?, requester, Pool.step, stepRequester]
  | submitting remaining =>
      cases remaining with
      | nil =>
          refine .inr ⟨.close, ?_⟩
          simp [Pool.next?, requester, Pool.step, stepRequester]
      | cons job remaining =>
          have room : pool.queue.length < plan.paths.length := by
            simp only [requester, Requester.remaining, List.length_append, List.length_cons]
              at total
            omega
          refine .inr ⟨.submit, ?_⟩
          simp [Pool.next?, requester, Pool.step, stepRequester, room]
  | collecting refused =>
      have isClosed : pool.isQueueClosed = true := by
        rw [underway.orderly.closed, requester]
        rfl
      right
      cases results : pool.results with
      | cons result results =>
          refine ⟨.collect, ?_⟩
          simp [Pool.next?, requester, results, Pool.step, stepRequester]
      | nil =>
          rcases pool.firstWorkerEvent_cases 0 pool.workers with
            ⟨index, worker, event, found, moves, isFirst⟩ | ⟨areGone, hasNone⟩
          · have room : worker.held ≠ [] → pool.results.length < plan.paths.length := by
              intro holds
              have held : 0 < pool.heldJobs.length := by
                apply List.length_pos_of_mem
                rw [heldJobs, List.mem_flatMap]
                exact ⟨worker, List.mem_of_getElem? found, List.head_mem holds⟩
              simp only [List.length_append, results, List.length_map, List.length_nil] at total ⊢
              omega
            rw [Nat.zero_add] at moves
            refine ⟨event, ?_, step_of_phaseEvent found isClosed room moves⟩
            simp [Pool.next?, requester, results, isFirst]
          · cases isShut : pool.areResultsClosed with
            | true =>
                refine ⟨.conclude, ?_⟩
                simp [Pool.next?, requester, results, hasNone, isShut, Pool.step, stepRequester]
            | false =>
                refine ⟨.shut, ?_⟩
                simp [Pool.next?, requester, results, hasNone, isShut, Pool.step, isClosed]
                exact areGone

/-- Nobody can move but to withdraw the request. -/
def Rests (plan : CheckPlan) (pool : Pool) : Prop :=
  ∀ event, event ≠ .withdraw → pool.step plan event = none

theorem Underway.rests_iff
    (steady : plan.Steady alone fit)
    (staffed : 0 < plan.workers) :
    pool.Rests plan ↔ ∃ withdrawn, pool.requester = .finished withdrawn := by
  constructor
  · intro rests
    rcases underway.next? with isFinished | ⟨event, -, proper, moves⟩
    · exact isFinished
    · rw [rests event proper] at moves
      cases moves
  · rintro ⟨withdrawn, isFinished⟩ event proper
    have isDone := (underway.stepsLeft_of_finished staffed isFinished).1
    cases stepped : pool.step plan event with
    | none => rfl
    | some next =>
        have fewer := (underway.step steady proper stepped).2
        omega

/-- Driven for as many steps as are left, a pool comes to its end. -/
theorem Underway.drive
    {fuel : Nat}
    (steady : plan.Steady alone fit)
    (enough : pool.stepsLeft ≤ fuel) :
    ∃ collected withdrawn, Underway plan alone fit collected (pool.drive plan fuel) ∧
      (pool.drive plan fuel).requester = .finished withdrawn := by
  induction fuel generalizing pool collected with
  | zero =>
      rcases underway.next? with ⟨withdrawn, isFinished⟩ | ⟨event, -, proper, moves⟩
      · exact ⟨collected, withdrawn, underway, isFinished⟩
      · obtain ⟨next, stepped⟩ := Option.isSome_iff_exists.mp moves
        have fewer := (underway.step steady proper stepped).2
        omega
  | succ fuel inductionHypothesis =>
      rcases underway.next? with ⟨withdrawn, isFinished⟩ | ⟨event, isNext, proper, moves⟩
      · have stays : pool.drive plan (fuel + 1) = pool := by
          simp [Pool.drive, Pool.next?, isFinished]
        rw [stays]
        exact ⟨collected, withdrawn, underway, isFinished⟩
      · obtain ⟨next, stepped⟩ := Option.isSome_iff_exists.mp moves
        obtain ⟨⟨_, underwayNext⟩, fewer⟩ := underway.step steady proper stepped
        have goesOn : pool.drive plan (fuel + 1) = next.drive plan fuel := by
          simp [Pool.drive, isNext, stepped]
        rw [goesOn]
        exact inductionHypothesis underwayNext (by omega)

/-- Each file has an entry with the verdict on it alone, in the order of the paths, and
the counts are those of the entries. -/
structure Delivers
    (paths : List String)
    (alone : String → Verdict)
    (entries : List (String × Option Verdict))
    (tally : CheckTally) :
    Prop where
  inOrder : entries = paths.map fun path => (path, some (alone path))
  submitted : tally.submitted = paths.length
  counted : tally.completed + tally.failed = paths.length
  failed : tally.failed = entries.countP fun entry => entry.2.any Verdict.isFailure
  active : tally.active = 0

/-- When the requester is done, every file is checked and every job is counted. -/
theorem Underway.delivers
    {withdrawn : Bool}
    (staffed : 0 < plan.workers)
    (isFinished : pool.requester = .finished withdrawn) :
    withdrawn = false ∧ Delivers plan.paths alone pool.entries pool.tally := by
  refine ⟨(underway.orderly.finished withdrawn isFinished).1, ?_⟩
  obtain ⟨-, noneQueued, noResults, areGone⟩ := underway.stepsLeft_of_finished staffed isFinished
  have noneHeld : pool.heldJobs = [] := flatMap_gone areGone fun _ => rfl
  have noneCounted : pool.workers.flatMap Worker.counted = [] := flatMap_gone areGone fun _ => rfl
  have noneSettled : pool.workers.flatMap Worker.settled = [] := flatMap_gone areGone fun _ => rfl
  have home : collected.Perm plan.jobs := by
    simpa [isFinished, Requester.remaining, noneQueued, noneHeld, noResults]
      using underway.conserves.jobs
  have entries : pool.entries = plan.paths.map fun path => (path, some (alone path)) := by
    rw [underway.conserves.entries]
    exact CheckPlan.entriesWith_of_all (fun job member => home.mem_iff.mpr member) alone
  obtain ⟨submitted, completed, failed, active⟩ := underway.tallies
  simp only [countedJobs, settledJobs, noneCounted, noneSettled, noResults, List.map_nil,
    List.nil_append] at completed failed active
  have total : collected.length = plan.paths.length := by rw [home.length_eq, plan.length_jobs]
  have isSubmitted : pool.tally.submitted = plan.paths.length := by
    simpa [isFinished, Requester.remaining, Requester.uncounted] using submitted
  constructor
  case inOrder => exact entries
  case submitted => exact isSubmitted
  case counted =>
    have parts : collected.length = _ :=
      List.length_eq_countP_add_countP fun job => (alone job.path).isFailure
    simp only [Bool.not_eq_true, Bool.decide_eq_false] at parts
    omega
  case failed =>
    rw [failed, home.countP_eq, entries, ← CheckJob.map_path_numberFrom 0 plan.paths]
    simp [CheckPlan.jobs, Function.comp_def]
  case active =>
    rw [isSubmitted] at active
    omega

end

theorem stepsLeft_entered (plan : CheckPlan) : (entered plan).stepsLeft + 2 = plan.stepLimit := by
  simp [stepsLeft, entered, Requester.stepsLeft, Worker.stepsLeft, CheckPlan.stepLimit,
    plan.length_jobs]
  omega

/-- A pool before its first step, or a pool on its way. -/
theorem start_or_underway
    {events : List PoolEvent}
    (steady : plan.Steady alone fit)
    (proper : .withdraw ∉ events)
    (replayed : replay plan {} events = some pool) :
    events = [] ∧ pool = {} ∨
      (∃ collected, Underway plan alone fit collected pool) ∧
        events.length ≤ plan.stepLimit := by
  cases events with
  | nil =>
      cases replayed
      exact .inl ⟨rfl, rfl⟩
  | cons event rest =>
      simp only [replay] at replayed
      split at replayed
      case h_1 first stepped =>
        have isProper : event ≠ .withdraw := fun same => proper (by simp [same])
        rw [entered_of_step isProper stepped] at replayed
        obtain ⟨underway, left⟩ :=
          (underway_entered steady).replay steady (fun later => proper (.tail _ later)) replayed
        have limit := stepsLeft_entered plan
        refine .inr ⟨underway, ?_⟩
        rw [List.length_cons]
        omega
      case h_2 => cases replayed

/-- The order that runs comes to an end, and delivers. -/
theorem run_delivers (steady : plan.Steady alone fit) (staffed : 0 < plan.workers) :
    (plan.run false).requester = .finished false ∧
      Delivers plan.paths alone (plan.run false).entries (plan.run false).tally := by
  have limit := stepsLeft_entered plan
  have starts : plan.run false = (entered plan).drive plan ((entered plan).stepsLeft + 1) := by
    rw [CheckPlan.run, ← limit]
    rfl
  obtain ⟨collected, withdrawn, underway, isFinished⟩ :=
    (underway_entered steady).drive steady (Nat.le_succ _)
  rw [← starts] at underway isFinished
  obtain ⟨rfl, delivers⟩ := underway.delivers staffed isFinished
  exact ⟨isFinished, delivers⟩

end Pool

namespace Verdict

/-- The verdict on a file does not depend on what the compiler did before, and the
compiler goes on treating assertions as it did. -/
theorem inspect_eq
    (tree : FileTree)
    (encoding : String)
    (compiler : Compiler)
    (path : String) :
    (inspect tree encoding compiler path).1 =
        ofFile tree encoding compiler.context.assertions path ∧
      (inspect tree encoding compiler path).2.context.assertions =
        compiler.context.assertions := by
  unfold inspect ofFile Code.compile
  cases Source.load tree encoding path with
  | error error => exact ⟨rfl, rfl⟩
  | ok source =>
      cases errors : (Program.parse source).errors with
      | cons error rest => simp [errors, ofCompiled]
      | nil =>
          simp only [errors, Compiler.lower, Compiler.prepare, Code.ofProgram]
          refine ⟨?_, rfl⟩
          cases Code.ofStatements
              (LoweringContext.fresh (Program.parse source).program.source
                compiler.context.assertions) #[] (Program.parse source).program.statements with
          | ok code => rfl
          | error error => rfl

end Verdict

namespace CheckRequest

theorem workerCount_pos (request : CheckRequest) (processors : Nat) :
    0 < request.workerCount processors := by
  simp only [workerCount]
  split <;> omega

theorem steady_plan (request : CheckRequest) (tree : FileTree) (processors : Nat) :
    (request.plan tree processors).Steady
      (Verdict.ofFile tree request.encoding request.assertions)
      (fun compiler => compiler.context.assertions = request.assertions) where
  start := rfl
  verdict := by
    rintro compiler path isFit
    rw [← isFit]
    exact (Verdict.inspect_eq tree request.encoding compiler path).1
  keeps := by
    rintro compiler path isFit
    rw [← isFit]
    exact (Verdict.inspect_eq tree request.encoding compiler path).2

/-- Whatever the order of the steps, a check that is not withdrawn ends after a bounded
number of them, without an error and with what checking each file alone gives. -/
theorem every_interleaving_checks_alone
    (request : CheckRequest)
    (tree : FileTree)
    (processors : Nat) :
    (∀ events pool,
      .withdraw ∉ events →
      Pool.replay (request.plan tree processors) {} events = some pool →
      events.length ≤ (request.plan tree processors).stepLimit ∧
      (pool.Rests (request.plan tree processors) ↔
        ∃ withdrawn, pool.requester = .finished withdrawn) ∧
      ∀ withdrawn,
        pool.requester = .finished withdrawn →
        withdrawn = false ∧
        Pool.Delivers request.paths (Verdict.ofFile tree request.encoding request.assertions)
          pool.entries pool.tally) ∧
    ∃ report,
      request.run tree processors false = .ok report ∧
      Pool.Delivers request.paths (Verdict.ofFile tree request.encoding request.assertions)
        report.entries report.tally := by
  have steady := request.steady_plan tree processors
  have staffed : 0 < (request.plan tree processors).workers := request.workerCount_pos processors
  constructor
  · intro events pool proper replayed
    rcases Pool.start_or_underway steady proper replayed with
      ⟨rfl, rfl⟩ | ⟨⟨collected, underway⟩, bounded⟩
    · refine ⟨Nat.zero_le _, ⟨fun rests => ?_, nofun⟩, nofun⟩
      cases rests .enter nofun
    · refine ⟨bounded, underway.rests_iff steady staffed, ?_⟩
      intro withdrawn isFinished
      exact underway.delivers staffed isFinished
  · obtain ⟨isFinished, delivers⟩ := Pool.run_delivers steady staffed
    refine ⟨⟨_, _, (request.plan tree processors).workers⟩, ?_, delivers⟩
    simp only [run, isFinished]

/-- Two files for two workers. -/
def ofTwoFiles : CheckRequest := ⟨["first", "second"], 2, "", true⟩

/-- The job of the first file is settled before it is counted as handed in, and its result
comes after that of the second file. -/
def crossing : List PoolEvent :=
  [.enter, .submit, .take 0, .check 0, .tally 0, .settle 0, .count, .submit, .take 1, .count,
    .close, .check 1, .tally 1, .settle 1, .report 1, .report 0, .collect, .leave 0, .collect,
    .leave 1, .shut, .conclude]

theorem every_interleaving_checks_alone_crossing :
    ∃ pool,
      Pool.replay (ofTwoFiles.plan ⟨"/", []⟩ 1) {} crossing = some pool ∧
      pool.requester = .finished false ∧
      Pool.Delivers ["first", "second"] (Verdict.ofFile ⟨"/", []⟩ "" true) pool.entries pool.tally := by
  have replayed : ∃ pool,
      Pool.replay (ofTwoFiles.plan ⟨"/", []⟩ 1) {} crossing = some pool ∧
      pool.requester = .finished false :=
    ⟨_, rfl, rfl⟩
  obtain ⟨pool, ends, isFinished⟩ := replayed
  have proper : .withdraw ∉ crossing := by decide
  obtain ⟨-, -, delivers⟩ :=
    (every_interleaving_checks_alone ofTwoFiles ⟨"/", []⟩ 1).1 crossing pool proper ends
  exact ⟨pool, ends, isFinished, (delivers false isFinished).2⟩

end CheckRequest

end ScriptEngine
