import Mathlib.Data.List.Nodup
import ScriptEngine.Proofs.Check.Interleavings

namespace ScriptEngine

/-!
# Checks that are withdrawn

A request may be withdrawn at any moment.  Whoever sees that stops early: the requester
with the answer that the request was given up, a worker with its job left undone.  The
entries are right all the same.  Each is the verdict on its file alone or unfinished, and
none is unfinished unless the request was withdrawn.

But the answer need not tell.  When all jobs are handed in and all workers have left, the
requester may find the results closed before it sees the withdrawal.  Then it answers as
if every file were checked, even if none is.
-/

variable {event : PoolEvent} {events : List PoolEvent}

namespace CheckJob

theorem map_index_numberFrom (start : Nat) (paths : List String) :
    (numberFrom start paths).map index = List.range' start paths.length := by
  induction paths generalizing start with
  | nil => rfl
  | cons path rest inductionHypothesis => simp [numberFrom, inductionHypothesis, List.range'_succ]

end CheckJob

namespace CheckPlan

theorem nodup_jobs (plan : CheckPlan) : plan.jobs.Nodup := by
  apply List.Nodup.of_map CheckJob.index
  rw [jobs, CheckJob.map_index_numberFrom]
  exact List.nodup_range'

theorem map_fst_entriesWith
    (plan : CheckPlan)
    (alone : String → Verdict)
    (collected : List CheckJob) :
    (plan.entriesWith alone collected).map Prod.fst = plan.paths := by
  rw [entriesWith, List.map_map]
  exact CheckJob.map_path_numberFrom 0 plan.paths

/-- All jobs are handed in; then the request is withdrawn, all workers leave, and the
requester finds the results closed before it sees the withdrawal. -/
def unseenWithdrawal (plan : CheckPlan) : List PoolEvent :=
  [PoolEvent.enter] ++ plan.jobs.flatMap (fun _ => [PoolEvent.submit, .count]) ++
    [PoolEvent.close, .withdraw] ++ (List.range' 0 plan.workers).map PoolEvent.leave ++
    [PoolEvent.shut, .conclude]

end CheckPlan

namespace Requester

/-- Whether the requester saw the withdrawal. -/
def hasNoticed : Requester → Bool
  | collecting noticed => noticed
  | finished noticed => noticed
  | _ => false

end Requester

namespace Verdict

/-- A verdict that is more than a blank: there is code, or there are errors. -/
def IsFilled (verdict : Verdict) : Prop := verdict.code?.isSome = true ∨ verdict.errors ≠ []

theorem isFilled_ofFile
    (tree : FileTree)
    (encoding : String)
    (assertions : Bool)
    (path : String) :
    (ofFile tree encoding assertions path).IsFilled := by
  unfold ofFile
  cases Source.load tree encoding path with
  | error error => exact .inr nofun
  | ok source =>
      simp only [Code.compile]
      cases errors : (Program.parse source).errors with
      | cons error rest => exact .inr nofun
      | nil =>
          dsimp only
          cases Code.ofProgram assertions (Program.parse source).program with
          | ok code => exact .inl rfl
          | error error => exact .inr nofun

end Verdict

namespace Pool

variable {plan : CheckPlan} {pool next : Pool} {home collected lost : List CheckJob}
  {alone : String → Verdict} {fit : Compiler → Prop}

/-! ## What stopping early leaves -/

/-- Whoever stops early gives up the jobs in hand, and no others. -/
theorem Quits.carried (quits : Quits pool lost next) :
    (lost ++ next.carried).Perm pool.carried := by
  rw [List.perm_iff_count]
  intro job
  cases quits with
  | refuse isSubmitting
  | abandon isCollecting => simp_all [Pool.carried, heldJobs, Requester.remaining, List.count_cons]
  | idle split
  | drop split => simp_all [Pool.carried, heldJobs, Worker.held, List.count_cons] <;> omega

theorem Honest.quit (honest : Honest alone fit pool) (quits : Quits pool lost next) :
    Honest alone fit next := by
  obtain ⟨workers, results⟩ := id honest
  cases quits with
  | refuse | abandon => exact ⟨workers, results⟩
  | idle split | drop split =>
      obtain ⟨isFit, -⟩ := honest.of_split split
      exact ⟨forall_of_split workers split ⟨isFit, trivial⟩, results⟩

/-- Jobs are collected, given up or on their way, and the entries are those of the jobs
that are collected. -/
structure Accounts
    (plan : CheckPlan)
    (alone : String → Verdict)
    (collected lost : List CheckJob)
    (pool : Pool) :
    Prop where
  jobs : (pool.carried ++ (collected ++ lost)).Perm plan.jobs
  entries : pool.entries = plan.entriesWith alone collected

theorem Accounts.move
    (accounts : Accounts plan alone collected lost pool)
    (honest : Honest alone fit pool)
    (moves : Moves plan pool home next) :
    Accounts plan alone (home ++ collected) lost next := by
  obtain ⟨jobs, entries⟩ := accounts
  have known : ∀ job ∈ pool.carried, job ∈ plan.jobs := fun job member =>
    jobs.subset (List.mem_append_left _ member)
  refine ⟨?_, moves.entries honest known entries⟩
  have handedOn := moves.carried
  rw [List.perm_iff_count] at jobs handedOn ⊢
  intro job
  have before := jobs job
  have step := handedOn job
  simp only [List.count_append] at before step ⊢
  omega

theorem Accounts.quit
    (accounts : Accounts plan alone collected lost pool)
    {given : List CheckJob}
    (quits : Quits pool given next) :
    Accounts plan alone collected (given ++ lost) next := by
  obtain ⟨jobs, entries⟩ := accounts
  have same : next.entries = pool.entries := by cases quits <;> rfl
  refine ⟨?_, same.trans entries⟩
  have givenUp := quits.carried
  rw [List.perm_iff_count] at jobs givenUp ⊢
  intro job
  have before := jobs job
  have step := givenUp job
  simp only [List.count_append] at before step ⊢
  omega

/-- The results are closed once all workers have left, and found closed before the
requester answers without an error. -/
structure Closes (pool : Pool) : Prop where
  entered : pool.requester ≠ .entering
  shut : pool.areResultsClosed = true → ∀ worker ∈ pool.workers, worker.isGone = true
  finished : pool.requester = .finished false → pool.results = [] ∧ pool.areResultsClosed = true

/-- A worker that is there may change, whatever happens to the queues. -/
theorem Closes.change
    {before after : List Worker}
    {old new : Worker}
    (closes : Closes pool)
    (split : pool.workers = before ++ old :: after)
    (here : old.isGone = false)
    (queue : List CheckJob)
    (results : List (CheckJob × Verdict))
    (tally : CheckTally) :
    Closes { pool with
      queue := queue, results := results, tally := tally, workers := before ++ new :: after } := by
  have isOpen := open_of_split closes.shut split here
  refine ⟨closes.entered, fun isShut => ?_, fun isFinished => ?_⟩
  · rw [isOpen] at isShut
    cases isShut
  · have isShut := (closes.finished isFinished).2
    rw [isOpen] at isShut
    cases isShut

theorem Closes.move (closes : Closes pool) (moves : Moves plan pool home next) : Closes next := by
  obtain ⟨entered, shut, finished⟩ := id closes
  cases moves with
  | submit | count | close => exact ⟨nofun, shut, nofun⟩
  | collect isCollecting hasResult =>
      refine ⟨entered, shut, fun isFinished => ?_⟩
      have hasNone := (finished isFinished).1
      rw [hasResult] at hasNone
      cases hasNone
  | conclude isCollecting hasNone isShut => exact ⟨nofun, shut, fun _ => ⟨hasNone, isShut⟩⟩
  | shut isClosed areGone isOpen =>
      exact ⟨entered, fun _ => areGone, fun isFinished => ⟨(finished isFinished).1, rfl⟩⟩
  | take split | check split | tally split | settle split | report split | leave split =>
      exact closes.change split rfl _ _ _

theorem Closes.quit (closes : Closes pool) (quits : Quits pool lost next) : Closes next := by
  cases quits with
  | refuse | abandon => exact ⟨nofun, closes.shut, nofun⟩
  | idle split | drop split => exact closes.change split rfl _ _ _

/-! ## Runs that may be withdrawn -/

/-- What holds of a pool that was entered, withdrawn or not. -/
structure Tracked
    (plan : CheckPlan)
    (alone : String → Verdict)
    (fit : Compiler → Prop)
    (collected lost : List CheckJob)
    (pool : Pool) :
    Prop where
  honest : Honest alone fit pool
  accounts : Accounts plan alone collected lost pool
  closes : Closes pool

theorem tracked_entered (steady : plan.Steady alone fit) :
    Tracked plan alone fit [] [] (entered plan) where
  honest := (underway_entered steady).honest
  accounts := by
    obtain ⟨jobs, entries⟩ := (underway_entered steady).conserves
    exact ⟨jobs, entries⟩
  closes := ⟨nofun, nofun, nofun⟩

/-- A step after the first keeps all that holds. -/
theorem Tracked.step
    (tracked : Tracked plan alone fit collected lost pool)
    (steady : plan.Steady alone fit)
    (stepped : pool.step plan event = some next) :
    ∃ collected lost, Tracked plan alone fit collected lost next := by
  obtain ⟨honest, accounts, closes⟩ := tracked
  by_cases isWithdrawal : event = .withdraw
  · subst isWithdrawal
    cases stepped
    exact ⟨collected, lost, ⟨honest.workers, honest.results⟩, ⟨accounts.jobs, accounts.entries⟩,
      ⟨closes.entered, closes.shut, closes.finished⟩⟩
  · rcases moves_or_quits_of_step closes.entered isWithdrawal stepped with
      ⟨home, moves⟩ | ⟨-, given, quits⟩
    · exact ⟨home ++ collected, lost, honest.move steady moves, accounts.move honest moves,
        closes.move moves⟩
    · exact ⟨collected, given ++ lost, honest.quit quits, accounts.quit quits,
        closes.quit quits⟩

/-- A requester that saw the withdrawal does not forget it. -/
theorem hasNoticed_of_step
    (noticed : pool.requester.hasNoticed = true)
    (stepped : pool.step plan event = some next) :
    next.requester.hasNoticed = true := by
  by_cases isWithdrawal : event = .withdraw
  · subst isWithdrawal
    cases stepped
    exact noticed
  · have entered : pool.requester ≠ .entering := by
      intro isEntering
      rw [isEntering] at noticed
      cases noticed
    rcases moves_or_quits_of_step entered isWithdrawal stepped with ⟨home, moves⟩ | ⟨-, given, quits⟩
    · cases moves <;> simp_all [Requester.hasNoticed]
    · cases quits <;> simp_all [Requester.hasNoticed]

/-- The requester sees the withdrawal when it stops early. -/
theorem hasNoticed_of_refuse_or_abandon
    (stops : event = .refuse ∨ event = .abandon)
    (stepped : pool.step plan event = some next) :
    next.requester.hasNoticed = true := by
  rcases stops with rfl | rfl
  · simp only [step, stepRequester] at stepped
    split at stepped
    · cases stepped
      rfl
    · cases stepped
  · simp only [step, stepRequester] at stepped
    split at stepped
    · cases stepped
      rfl
    · cases stepped

/-- The course of a request: not begun, seen to be withdrawn, or on its way. -/
inductive Course
    (plan : CheckPlan)
    (alone : String → Verdict)
    (fit : Compiler → Prop) :
    Pool → Prop where
  | start (isWithdrawn : Bool) : Course plan alone fit { isWithdrawn := isWithdrawn }
  | noticed {pool : Pool} :
      pool.requester.hasNoticed = true →
      Course plan alone fit pool
  | tracked {collected lost : List CheckJob} {pool : Pool} :
      Tracked plan alone fit collected lost pool →
      Course plan alone fit pool

theorem Course.step
    (course : Course plan alone fit pool)
    (steady : plan.Steady alone fit)
    (stepped : pool.step plan event = some next) :
    Course plan alone fit next := by
  cases course with
  | noticed noticed => exact .noticed (hasNoticed_of_step noticed stepped)
  | tracked tracked =>
      obtain ⟨collected, lost, tracked⟩ := tracked.step steady stepped
      exact .tracked tracked
  | start isWithdrawn =>
      -- Before the requester has begun, nobody else can move.
      cases event with
      | withdraw =>
          cases stepped
          exact .start true
      | enter =>
          cases isWithdrawn with
          | true =>
              cases stepped
              exact .noticed rfl
          | false =>
              cases stepped
              exact .tracked (tracked_entered steady)
      | submit | count | refuse | close | collect | conclude | abandon | shut => cases stepped
      | take | check | tally | settle | report | leave => simp [Pool.step, stepWorker] at stepped

theorem Course.replay
    (course : Course plan alone fit pool)
    (steady : plan.Steady alone fit)
    (replayed : pool.replay plan events = some next) :
    Course plan alone fit next := by
  induction events generalizing pool with
  | nil =>
      cases replayed
      exact course
  | cons event rest inductionHypothesis =>
      simp only [Pool.replay] at replayed
      split at replayed
      case h_1 between stepped => exact inductionHypothesis (course.step steady stepped) replayed
      case h_2 => cases replayed

/-- A requester that stopped early in a schedule saw the withdrawal. -/
theorem hasNoticed_of_replay
    (noticed : pool.requester.hasNoticed = true ∨ .refuse ∈ events ∨ .abandon ∈ events)
    (replayed : pool.replay plan events = some next) :
    next.requester.hasNoticed = true := by
  induction events generalizing pool with
  | nil =>
      cases replayed
      simpa using noticed
  | cons event rest inductionHypothesis =>
      simp only [Pool.replay] at replayed
      split at replayed
      case h_1 between stepped =>
        refine inductionHypothesis ?_ replayed
        simp only [List.mem_cons] at noticed
        rcases noticed with noticed | (rfl | later) | (rfl | later)
        · exact .inl (hasNoticed_of_step noticed stepped)
        · exact .inl (hasNoticed_of_refuse_or_abandon (.inl rfl) stepped)
        · exact .inr (.inl later)
        · exact .inl (hasNoticed_of_refuse_or_abandon (.inr rfl) stepped)
        · exact .inr (.inr later)
      case h_2 => cases replayed

/--
What an answer without an error leaves.  All results are collected and all workers have
left.  There is an entry for each path, in the order of the paths, and an entry that is
filled in has the verdict on its file alone.  The jobs that still wait are unfinished.  No
entry is unfinished unless the request was withdrawn, and the requester did not see that.
-/
structure Leaves
    (paths : List String)
    (alone : String → Verdict)
    (events : List PoolEvent)
    (pool : Pool) :
    Prop where
  ended : pool.results = [] ∧ ∀ worker ∈ pool.workers, worker.isGone = true
  inOrder : pool.entries.map Prod.fst = paths
  verdicts : ∀ path verdict, (path, some verdict) ∈ pool.entries → verdict = alone path
  waiting : ∀ job ∈ pool.queue, pool.entries[job.index]? = some (job.path, none)
  complete : .withdraw ∉ events → ∀ entry ∈ pool.entries, entry.2.isSome = true
  unseen : .refuse ∉ events ∧ .abandon ∉ events

theorem Tracked.leaves
    (tracked : Tracked plan alone fit collected lost pool)
    (steady : plan.Steady alone fit)
    (staffed : 0 < plan.workers)
    (replayed : Pool.replay plan {} events = some pool)
    (isFinished : pool.requester = .finished false) :
    Leaves plan.paths alone events pool := by
  obtain ⟨jobs, entries⟩ := tracked.accounts
  constructor
  case ended =>
    obtain ⟨hasNone, isShut⟩ := tracked.closes.finished isFinished
    exact ⟨hasNone, tracked.closes.shut isShut⟩
  case inOrder => rw [entries, plan.map_fst_entriesWith]
  case verdicts =>
    intro path verdict member
    rw [entries, CheckPlan.entriesWith, List.mem_map] at member
    obtain ⟨job, -, same⟩ := member
    obtain ⟨rfl, isVerdict⟩ := Prod.mk.inj same
    split at isVerdict
    · exact (Option.some.inj isVerdict).symm
    · cases isVerdict
  case waiting =>
    intro job queued
    have carried : job ∈ pool.carried := by simp [carried, queued]
    -- As no job is there twice, one that waits is not among those collected.
    have apart : job ∉ collected := by
      have distinct := jobs.nodup_iff.mpr plan.nodup_jobs
      exact fun member => List.disjoint_of_nodup_append distinct carried
        (List.mem_append_left _ member)
    have stands := CheckPlan.getElem?_jobs_of_mem (jobs.subset (List.mem_append_left _ carried))
    rw [entries, CheckPlan.entriesWith, List.getElem?_map, stands, Option.map_some, if_neg apart]
  case complete =>
    -- A pool that nobody withdraws is one of those that deliver.
    intro proper entry member
    rcases start_or_underway steady proper replayed with ⟨-, rfl⟩ | ⟨⟨_, underway⟩, -⟩
    · cases isFinished
    · rw [(underway.delivers staffed isFinished).2.inOrder, List.mem_map] at member
      obtain ⟨path, -, rfl⟩ := member
      rfl
  case unseen =>
    rw [← not_or]
    intro stopped
    have noticed := hasNoticed_of_replay (.inr stopped) replayed
    rw [isFinished] at noticed
    cases noticed

/-! ## A withdrawal that the answer does not tell -/

theorem replay_append
    {first second : List PoolEvent}
    {middle : Pool}
    (replayed : pool.replay plan first = some middle) :
    pool.replay plan (first ++ second) = middle.replay plan second := by
  induction first generalizing pool with
  | nil =>
      cases replayed
      rfl
  | cons event rest inductionHypothesis =>
      simp only [List.cons_append, replay] at replayed ⊢
      split at replayed
      case h_1 between stepped => exact inductionHypothesis replayed
      case h_2 => cases replayed

/-- The requester can hand in all its jobs before anybody else moves. -/
theorem replay_submissions
    {remaining : List CheckJob}
    (isSubmitting : pool.requester = .submitting remaining)
    (room : pool.queue.length + remaining.length ≤ plan.paths.length) :
    ∃ tally, pool.replay plan (remaining.flatMap fun _ => [.submit, .count]) =
      some { pool with
        requester := .submitting [], queue := pool.queue ++ remaining, tally := tally } := by
  induction remaining generalizing pool with
  | nil =>
      refine ⟨pool.tally, ?_⟩
      rw [← isSubmitting, List.append_nil]
      rfl
  | cons job remaining inductionHypothesis =>
      rw [List.length_cons] at room
      let counted : Pool := { pool with
        requester := .submitting remaining
        queue := pool.queue ++ [job]
        tally := { pool.tally with
          submitted := pool.tally.submitted + 1, active := pool.tally.active + 1 } }
      have handedIn : pool.replay plan [.submit, .count] = some counted := by
        have isRoom : pool.queue.length < plan.paths.length := by omega
        simp [replay, step, stepRequester, isSubmitting, isRoom, counted]
      have goesOn : counted.requester = .submitting remaining := rfl
      have roomLeft : counted.queue.length + remaining.length ≤ plan.paths.length := by
        simp only [counted, List.length_append, List.length_singleton]
        omega
      obtain ⟨tally, replayed⟩ := inductionHypothesis goesOn roomLeft
      refine ⟨tally, ?_⟩
      rw [List.flatMap_cons, replay_append handedIn, replayed]
      simp [counted]

/-- After a withdrawal, workers that wait can leave one after the other. -/
theorem replay_departures
    (isWithdrawn : pool.isWithdrawn = true)
    {before : List Worker}
    {count : Nat}
    {compiler : Compiler}
    (split : pool.workers = before ++ List.replicate count ⟨.waiting, compiler⟩) :
    pool.replay plan ((List.range' before.length count).map .leave) =
      some { pool with workers := before ++ List.replicate count ⟨.gone, compiler⟩ } := by
  induction count generalizing pool before with
  | zero =>
      have same : before ++ List.replicate 0 ⟨.gone, compiler⟩ = pool.workers := split.symm
      rw [same]
      rfl
  | succ count inductionHypothesis =>
      let fewer : Pool := { pool with
        workers := before ++ [⟨.gone, compiler⟩] ++ List.replicate count ⟨.waiting, compiler⟩ }
      have left : pool.step plan (.leave before.length) = some fewer := by
        simp [step, stepWorker, split, isWithdrawn, List.replicate_succ, setWorker, fewer]
      have splitLeft : fewer.workers =
          (before ++ [⟨.gone, compiler⟩]) ++ List.replicate count ⟨.waiting, compiler⟩ :=
        rfl
      have stillWithdrawn : fewer.isWithdrawn = true := isWithdrawn
      have others := inductionHypothesis stillWithdrawn splitLeft
      rw [List.length_append, List.length_singleton] at others
      rw [List.range'_succ, List.map_cons, replay, left]
      dsimp only
      rw [others]
      simp [fewer, List.replicate_succ]

/-- The withdrawal that is not seen leaves every entry blank and no error. -/
theorem replay_unseenWithdrawal (plan : CheckPlan) :
    ∃ pool, replay plan {} plan.unseenWithdrawal = some pool ∧
      pool.requester = .finished false ∧
      pool.entries = blankEntries plan.paths := by
  have isSubmitting : (entered plan).requester = .submitting plan.jobs := rfl
  have room : (entered plan).queue.length + plan.jobs.length ≤ plan.paths.length := by
    rw [plan.length_jobs]
    exact Nat.le_of_eq (Nat.zero_add _)
  obtain ⟨tally, submissions⟩ := replay_submissions isSubmitting room
  let withdrawn : Pool := { entered plan with
    requester := .collecting false, queue := plan.jobs, isQueueClosed := true
    tally := tally, isWithdrawn := true }
  let deserted : Pool := { withdrawn with
    workers := List.replicate plan.workers ⟨.gone, plan.compiler⟩ }
  let finished : Pool := { deserted with areResultsClosed := true, requester := .finished false }
  have waiting : withdrawn.workers = [] ++ List.replicate plan.workers ⟨.waiting, plan.compiler⟩ :=
    rfl
  have isWithdrawn : withdrawn.isWithdrawn = true := rfl
  have departures : withdrawn.replay plan ((List.range' 0 plan.workers).map .leave) =
      some deserted :=
    replay_departures isWithdrawn waiting
  have conclusion : deserted.replay plan [.shut, .conclude] = some finished := by
    simp [replay, step, stepRequester, deserted, withdrawn, finished, entered, Worker.isGone]
  refine ⟨finished, ?_, rfl, rfl⟩
  calc replay plan {} plan.unseenWithdrawal
      = (entered plan).replay plan (plan.jobs.flatMap (fun _ => [.submit, .count]) ++
          [.close, .withdraw] ++ (List.range' 0 plan.workers).map .leave ++ [.shut, .conclude]) := by
        simp only [CheckPlan.unseenWithdrawal, List.append_assoc]
        rfl
    _ = withdrawn.replay plan ((List.range' 0 plan.workers).map .leave ++ [.shut, .conclude]) := by
        rw [List.append_assoc, List.append_assoc, replay_append submissions]
        rfl
    _ = some finished := by
        rw [replay_append departures, conclusion]

end Pool

namespace CheckRequest

/--
A check that ends without an error leaves only entries that are right or unfinished, and
none unfinished unless the request was withdrawn and the requester did not see it.  But
then it may leave all of them unfinished, whatever is to be checked.
-/
theorem withdrawal_may_go_untold
    (request : CheckRequest)
    (tree : FileTree)
    (processors : Nat) :
    (∀ events pool,
      Pool.replay (request.plan tree processors) {} events = some pool →
      pool.requester = .finished false →
        Pool.Leaves request.paths (Verdict.ofFile tree request.encoding request.assertions)
          events pool) ∧
    (∀ path, (Verdict.ofFile tree request.encoding request.assertions path).IsFilled) ∧
    ∃ pool,
      Pool.replay (request.plan tree processors) {}
        (request.plan tree processors).unseenWithdrawal = some pool ∧
      pool.requester = .finished false ∧
      pool.entries = Pool.blankEntries request.paths := by
  have steady := request.steady_plan tree processors
  have staffed : 0 < (request.plan tree processors).workers := request.workerCount_pos processors
  refine ⟨fun events pool replayed isFinished => ?_,
    Verdict.isFilled_ofFile tree request.encoding request.assertions,
    Pool.replay_unseenWithdrawal (request.plan tree processors)⟩
  cases (Pool.Course.start false).replay steady replayed with
  | start => cases isFinished
  | noticed noticed =>
      rw [isFinished] at noticed
      cases noticed
  | tracked tracked => exact tracked.leaves steady staffed replayed isFinished

/-- One file for one worker. -/
def ofOneFile : CheckRequest := ⟨["a.js"], 1, "", true⟩

theorem withdrawal_may_go_untold_of_one_file :
    ∃ pool,
      Pool.replay (ofOneFile.plan ⟨"/", []⟩ 1) {}
        [.enter, .submit, .count, .close, .withdraw, .leave 0, .shut, .conclude] = some pool ∧
      pool.requester = .finished false ∧
      pool.entries = [("a.js", none)] ∧
      Pool.Leaves ["a.js"] (Verdict.ofFile ⟨"/", []⟩ "" true)
        [.enter, .submit, .count, .close, .withdraw, .leave 0, .shut, .conclude] pool := by
  obtain ⟨leaves, -, pool, replayed, isFinished, areBlank⟩ :=
    withdrawal_may_go_untold ofOneFile ⟨"/", []⟩ 1
  exact ⟨pool, replayed, isFinished, areBlank, leaves _ pool replayed isFinished⟩

end CheckRequest

end ScriptEngine
