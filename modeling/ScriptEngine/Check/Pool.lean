import ScriptEngine.Check.Verdict

namespace ScriptEngine

/-!
# A pool of workers that check files

A requester hands one job per file to a queue.  Workers take jobs from the queue and
put their results into another one, from which the requester fills in the entry of
each file.  Either queue has room for as many items as there are files.  A worker has
one compiler, which it uses for all its files.  The request may be withdrawn at any
moment.

Everybody moves one step at a time, in any order: an event says who moves next, and a
pool admits an event when that step is possible.  Where two steps are possible, such
as taking a job and leaving after a withdrawal, either event is admitted.  One order
is fixed by `Pool.next?`, which is the one that runs.
-/

/-- A file to check and its place among the files. -/
structure CheckJob where
  index : Nat
  path : String
  deriving DecidableEq, Repr

namespace CheckJob

/-- The jobs for some paths, the first of which has the given place. -/
def numberFrom (index : Nat) : List String → List CheckJob
  | [] => []
  | path :: rest => ⟨index, path⟩ :: numberFrom (index + 1) rest

end CheckJob

/-- What a worker is about to do. -/
inductive WorkerPhase where
  /-- Take a job. -/
  | waiting
  /-- Check the file of a job. -/
  | checking (job : CheckJob)
  /-- Count a result. -/
  | tallying (job : CheckJob) (verdict : Verdict)
  /-- Take a counted job off the active ones. -/
  | settling (job : CheckJob) (verdict : Verdict)
  /-- Hand in a result. -/
  | reporting (job : CheckJob) (verdict : Verdict)
  /-- Nothing any more. -/
  | gone

/-- A worker and the compiler it keeps. -/
structure Worker where
  phase : WorkerPhase := .waiting
  compiler : Compiler

/-- What the requester is about to do. -/
inductive Requester where
  /-- See whether the request still stands. -/
  | entering
  /-- Hand in the jobs that remain. -/
  | submitting (remaining : List CheckJob)
  /-- Count a job that is handed in, before those that remain. -/
  | counting (remaining : List CheckJob)
  /-- Collect results; `refused` tells that not all jobs could be handed in. -/
  | collecting (refused : Bool)
  /-- Nothing any more; `withdrawn` tells that the request was given up. -/
  | finished (withdrawn : Bool)

/-- The counts of a pool. -/
structure CheckTally where
  submitted : Nat := 0
  completed : Nat := 0
  failed : Nat := 0
  active : Int := 0
  deriving DecidableEq, Repr

namespace CheckTally

/-- Count a verdict. -/
def add (tally : CheckTally) (verdict : Verdict) : CheckTally :=
  if verdict.isFailure then { tally with failed := tally.failed + 1 }
  else { tally with completed := tally.completed + 1 }

end CheckTally

/-- What is checked, by how many workers, with which compiler at first, and how. -/
structure CheckPlan where
  paths : List String
  workers : Nat
  compiler : Compiler
  inspect : Compiler → String → Verdict × Compiler

/-- The state of everybody who takes part in a check. -/
structure Pool where
  requester : Requester := .entering
  queue : List CheckJob := []
  isQueueClosed : Bool := false
  workers : List Worker := []
  results : List (CheckJob × Verdict) := []
  areResultsClosed : Bool := false
  tally : CheckTally := {}
  entries : List (String × Option Verdict) := []
  isWithdrawn : Bool := false

/-- Who moves, and how. -/
inductive PoolEvent where
  /-- The request is withdrawn. -/
  | withdraw
  /-- The requester starts, unless the request is withdrawn already. -/
  | enter
  /-- The requester hands in a job. -/
  | submit
  /-- The requester counts the job it handed in. -/
  | count
  /-- The requester sees the withdrawal instead of handing in a job. -/
  | refuse
  /-- The requester closes the queue of jobs. -/
  | close
  /-- A worker takes a job. -/
  | take (worker : Nat)
  /-- A worker checks its file. -/
  | check (worker : Nat)
  /-- A worker counts its result. -/
  | tally (worker : Nat)
  /-- A worker takes its job off the active ones. -/
  | settle (worker : Nat)
  /-- A worker hands in its result. -/
  | report (worker : Nat)
  /-- A worker leaves: there are no more jobs, or the request is withdrawn. -/
  | leave (worker : Nat)
  /-- The queue of results is closed once every worker has left. -/
  | shut
  /-- The requester takes a result. -/
  | collect
  /-- The requester finds that no more results will come. -/
  | conclude
  /-- The requester sees the withdrawal instead of taking a result. -/
  | abandon
  deriving DecidableEq, Repr

namespace Worker

/-- Whether a worker has left. -/
def isGone (worker : Worker) : Bool :=
  match worker.phase with
  | .gone => true
  | _ => false

end Worker

namespace Pool

/-- The pool with a worker changed. -/
def setWorker (pool : Pool) (index : Nat) (phase : WorkerPhase) (compiler : Compiler) : Pool :=
  { pool with workers := pool.workers.set index ⟨phase, compiler⟩ }

/-- The entries before any result has come. -/
def blankEntries (paths : List String) : List (String × Option Verdict) :=
  paths.map fun path => (path, none)

/-- A step of the requester. -/
def stepRequester (plan : CheckPlan) (pool : Pool) : PoolEvent → Option Pool
  | .enter =>
      match pool.requester with
      | .entering =>
          if pool.isWithdrawn then some { pool with requester := .finished true }
          else some { pool with
            requester := .submitting (CheckJob.numberFrom 0 plan.paths)
            workers := List.replicate plan.workers ⟨.waiting, plan.compiler⟩
            entries := blankEntries plan.paths }
      | _ => none
  | .submit =>
      match pool.requester with
      | .submitting (job :: remaining) =>
          if pool.queue.length < plan.paths.length then
            some { pool with requester := .counting remaining, queue := pool.queue ++ [job] }
          else none
      | _ => none
  | .count =>
      match pool.requester with
      | .counting remaining =>
          some { pool with
            requester := .submitting remaining
            tally := { pool.tally with
              submitted := pool.tally.submitted + 1, active := pool.tally.active + 1 } }
      | _ => none
  | .refuse =>
      match pool.requester, pool.isWithdrawn with
      | .submitting (_ :: _), true =>
          some { pool with requester := .collecting true, isQueueClosed := true }
      | _, _ => none
  | .close =>
      match pool.requester with
      | .submitting [] =>
          some { pool with requester := .collecting false, isQueueClosed := true }
      | _ => none
  | .collect =>
      match pool.requester, pool.results with
      | .collecting _, (job, verdict) :: results =>
          some { pool with
            results := results
            entries := pool.entries.set job.index (job.path, some verdict) }
      | _, _ => none
  | .conclude =>
      match pool.requester, pool.results, pool.areResultsClosed with
      | .collecting refused, [], true => some { pool with requester := .finished refused }
      | _, _, _ => none
  | .abandon =>
      match pool.requester, pool.isWithdrawn with
      | .collecting _, true => some { pool with requester := .finished true }
      | _, _ => none
  | _ => none

/-- A step of a worker. -/
def stepWorker (plan : CheckPlan) (pool : Pool) : PoolEvent → Option Pool
  | .take index =>
      match pool.workers[index]?, pool.queue with
      | some ⟨.waiting, compiler⟩, job :: queue =>
          some ({ pool with queue := queue }.setWorker index (.checking job) compiler)
      | _, _ => none
  | .check index =>
      match pool.workers[index]? with
      | some ⟨.checking job, compiler⟩ =>
          let (verdict, compiler) := plan.inspect compiler job.path
          some (pool.setWorker index (.tallying job verdict) compiler)
      | _ => none
  | .tally index =>
      match pool.workers[index]? with
      | some ⟨.tallying job verdict, compiler⟩ =>
          some ({ pool with tally := pool.tally.add verdict }.setWorker index
            (.settling job verdict) compiler)
      | _ => none
  | .settle index =>
      match pool.workers[index]? with
      | some ⟨.settling job verdict, compiler⟩ =>
          some ({ pool with tally := { pool.tally with active := pool.tally.active - 1 } }.setWorker
            index (.reporting job verdict) compiler)
      | _ => none
  | .report index =>
      match pool.workers[index]? with
      | some ⟨.reporting job verdict, compiler⟩ =>
          if pool.results.length < plan.paths.length then
            some ({ pool with results := pool.results ++ [(job, verdict)] }.setWorker index
              .waiting compiler)
          else none
      | _ => none
  | .leave index =>
      match pool.workers[index]? with
      | some ⟨.waiting, compiler⟩ =>
          if pool.isWithdrawn || (pool.isQueueClosed && pool.queue.isEmpty) then
            some (pool.setWorker index .gone compiler)
          else none
      | some ⟨.reporting _ _, compiler⟩ =>
          if pool.isWithdrawn then some (pool.setWorker index .gone compiler) else none
      | _ => none
  | _ => none

/-- The pool after an event, if the event is possible. -/
def step (plan : CheckPlan) (pool : Pool) (event : PoolEvent) : Option Pool :=
  match event with
  | .withdraw => some { pool with isWithdrawn := true }
  | .shut =>
      if pool.isQueueClosed && pool.workers.all Worker.isGone && !pool.areResultsClosed then
        some { pool with areResultsClosed := true }
      else none
  | .enter | .submit | .count | .refuse | .close | .collect | .conclude | .abandon =>
      stepRequester plan pool event
  | .take _ | .check _ | .tally _ | .settle _ | .report _ | .leave _ =>
      stepWorker plan pool event

/-- The pool after a schedule of events, if each of them is possible in turn. -/
def replay (plan : CheckPlan) : Pool → List PoolEvent → Option Pool
  | pool, [] => some pool
  | pool, event :: rest =>
      match pool.step plan event with
      | some next => replay plan next rest
      | none => none

/-- What a worker that has not left does when the request stands. -/
def phaseEvent (pool : Pool) (index : Nat) : WorkerPhase → Option PoolEvent
  | .waiting => some (if pool.queue.isEmpty then .leave index else .take index)
  | .checking _ => some (.check index)
  | .tallying _ _ => some (.tally index)
  | .settling _ _ => some (.settle index)
  | .reporting _ _ => some (.report index)
  | .gone => none

/-- The event of the first worker from a place on that has not left. -/
def firstWorkerEvent (pool : Pool) (index : Nat) : List Worker → Option PoolEvent
  | [] => none
  | worker :: rest =>
      match pool.phaseEvent index worker.phase with
      | some event => some event
      | none => pool.firstWorkerEvent (index + 1) rest

/-- The event that comes next in the order that runs: all jobs are handed in, and the
first worker that can move does so as long as there is nothing to collect. -/
def next? (pool : Pool) : Option PoolEvent :=
  match pool.requester with
  | .entering => some .enter
  | .submitting [] => some .close
  | .submitting (_ :: _) => some .submit
  | .counting _ => some .count
  | .finished _ => none
  | .collecting _ =>
      if !pool.results.isEmpty then some .collect
      else
        match pool.firstWorkerEvent 0 pool.workers with
        | some event => some event
        | none => some (if pool.areResultsClosed then .conclude else .shut)

/-- Run a pool for at most a number of steps. -/
def drive (plan : CheckPlan) : Nat → Pool → Pool
  | 0, pool => pool
  | fuel + 1, pool =>
      match pool.next? with
      | none => pool
      | some event =>
          match pool.step plan event with
          | some next => drive plan fuel next
          | none => pool

end Pool

namespace CheckPlan

/-- The most steps a pool takes: eight for a file, one for a worker, and five more. -/
def stepLimit (plan : CheckPlan) : Nat :=
  8 * plan.paths.length + plan.workers + 5

/-- The pool at the end of a check that is, or is not, withdrawn before it starts. -/
def run (plan : CheckPlan) (withdrawn : Bool) : Pool :=
  Pool.drive plan plan.stepLimit { isWithdrawn := withdrawn }

end CheckPlan

end ScriptEngine
