import Mathlib.Algebra.Ring.Nat
import ScriptEngine.Check

namespace ScriptEngine

/-!
# Moves in a pool

What one step of a pool can do while the request stands, said once: a job is handed on
from the requester to the queue, to a worker, to the results and to the entries.
`moves_of_step` finds the move behind a step, and every move leaves one step less to do.

Once the request is withdrawn, the requester and the workers may also stop early.  The
jobs that they have in hand are then given up.  `moves_or_quits_of_step` covers this.
-/

variable {plan : CheckPlan} {pool next : Pool} {event : PoolEvent}

namespace CheckPlan

/-- The jobs of a plan. -/
def jobs (plan : CheckPlan) : List CheckJob := CheckJob.numberFrom 0 plan.paths

end CheckPlan

namespace Worker

/-- How many steps a worker takes until it has left, if no more jobs come, and how many
are taken with its job. -/
def stepsLeft (worker : Worker) : Nat :=
  match worker.phase with
  | .checking _ => 6
  | .tallying _ _ => 5
  | .settling _ _ => 4
  | .reporting _ _ => 3
  | .waiting => 1
  | .gone => 0

end Worker

namespace Requester

/-- How many steps the requester takes, and how many are taken with the jobs it has. -/
def stepsLeft : Requester → Nat
  | submitting remaining => 8 * remaining.length + 2
  | counting remaining => 8 * remaining.length + 3
  | collecting _ => 1
  | _ => 0

end Requester

namespace Pool

/-- The pool after its first step. -/
def entered (plan : CheckPlan) : Pool where
  requester := .submitting plan.jobs
  workers := List.replicate plan.workers ⟨.waiting, plan.compiler⟩
  entries := blankEntries plan.paths

/-- A move in a pool whose request stands, and the jobs that it brings home. -/
inductive Moves (plan : CheckPlan) : Pool → List CheckJob → Pool → Prop where
  | submit {pool : Pool} {job : CheckJob} {remaining : List CheckJob} :
      pool.requester = .submitting (job :: remaining) →
      Moves plan pool []
        { pool with requester := .counting remaining, queue := pool.queue ++ [job] }
  | count {pool : Pool} {remaining : List CheckJob} :
      pool.requester = .counting remaining →
      Moves plan pool []
        { pool with
          requester := .submitting remaining
          tally := { pool.tally with
            submitted := pool.tally.submitted + 1, active := pool.tally.active + 1 } }
  | close {pool : Pool} :
      pool.requester = .submitting [] →
      Moves plan pool [] { pool with requester := .collecting false, isQueueClosed := true }
  | collect {pool : Pool} {refused : Bool} {job : CheckJob} {verdict : Verdict}
      {results : List (CheckJob × Verdict)} :
      pool.requester = .collecting refused →
      pool.results = (job, verdict) :: results →
      Moves plan pool [job]
        { pool with
          results := results
          entries := pool.entries.set job.index (job.path, some verdict) }
  | conclude {pool : Pool} {refused : Bool} :
      pool.requester = .collecting refused →
      pool.results = [] →
      pool.areResultsClosed = true →
      Moves plan pool [] { pool with requester := .finished refused }
  | shut {pool : Pool} :
      pool.isQueueClosed = true →
      (∀ worker ∈ pool.workers, worker.isGone = true) →
      pool.areResultsClosed = false →
      Moves plan pool [] { pool with areResultsClosed := true }
  | take {pool : Pool} {before after : List Worker} {compiler : Compiler} {job : CheckJob}
      {queue : List CheckJob} :
      pool.workers = before ++ ⟨.waiting, compiler⟩ :: after →
      pool.queue = job :: queue →
      Moves plan pool []
        { pool with
          queue := queue
          workers := before ++ ⟨.checking job, compiler⟩ :: after }
  | check {pool : Pool} {before after : List Worker} {compiler : Compiler} {job : CheckJob} :
      pool.workers = before ++ ⟨.checking job, compiler⟩ :: after →
      Moves plan pool []
        { pool with
          workers := before ++ ⟨.tallying job (plan.inspect compiler job.path).1,
            (plan.inspect compiler job.path).2⟩ :: after }
  | tally {pool : Pool} {before after : List Worker} {compiler : Compiler} {job : CheckJob}
      {verdict : Verdict} :
      pool.workers = before ++ ⟨.tallying job verdict, compiler⟩ :: after →
      Moves plan pool []
        { pool with
          tally := pool.tally.add verdict
          workers := before ++ ⟨.settling job verdict, compiler⟩ :: after }
  | settle {pool : Pool} {before after : List Worker} {compiler : Compiler} {job : CheckJob}
      {verdict : Verdict} :
      pool.workers = before ++ ⟨.settling job verdict, compiler⟩ :: after →
      Moves plan pool []
        { pool with
          tally := { pool.tally with active := pool.tally.active - 1 }
          workers := before ++ ⟨.reporting job verdict, compiler⟩ :: after }
  | report {pool : Pool} {before after : List Worker} {compiler : Compiler} {job : CheckJob}
      {verdict : Verdict} :
      pool.workers = before ++ ⟨.reporting job verdict, compiler⟩ :: after →
      Moves plan pool []
        { pool with
          results := pool.results ++ [(job, verdict)]
          workers := before ++ ⟨.waiting, compiler⟩ :: after }
  | leave {pool : Pool} {before after : List Worker} {compiler : Compiler} :
      pool.workers = before ++ ⟨.waiting, compiler⟩ :: after →
      pool.isQueueClosed = true →
      pool.queue = [] →
      Moves plan pool []
        { pool with workers := before ++ ⟨.gone, compiler⟩ :: after }

/-- A way to stop early after a withdrawal, and the jobs that are given up by it. -/
inductive Quits : Pool → List CheckJob → Pool → Prop where
  | refuse {pool : Pool} {job : CheckJob} {remaining : List CheckJob} :
      pool.requester = .submitting (job :: remaining) →
      Quits pool (job :: remaining)
        { pool with requester := .collecting true, isQueueClosed := true }
  | abandon {pool : Pool} {refused : Bool} :
      pool.requester = .collecting refused →
      Quits pool [] { pool with requester := .finished true }
  | idle {pool : Pool} {before after : List Worker} {compiler : Compiler} :
      pool.workers = before ++ ⟨.waiting, compiler⟩ :: after →
      Quits pool [] { pool with workers := before ++ ⟨.gone, compiler⟩ :: after }
  | drop {pool : Pool} {before after : List Worker} {compiler : Compiler} {job : CheckJob}
      {verdict : Verdict} :
      pool.workers = before ++ ⟨.reporting job verdict, compiler⟩ :: after →
      Quits pool [job] { pool with workers := before ++ ⟨.gone, compiler⟩ :: after }

/-- What a step can do that comes after the first. -/
def MovesOrQuits (plan : CheckPlan) (pool next : Pool) : Prop :=
  (∃ home, Moves plan pool home next) ∨
    pool.isWithdrawn = true ∧ ∃ lost, Quits pool lost next

/-- A worker is changed where it stands. -/
theorem exists_setWorker
    {pool : Pool}
    {index : Nat}
    {worker : Worker}
    (found : pool.workers[index]? = some worker) :
    ∃ before after, pool.workers = before ++ worker :: after ∧
      ∀ phase compiler,
        pool.workers.set index ⟨phase, compiler⟩ = before ++ ⟨phase, compiler⟩ :: after := by
  obtain ⟨bound, rfl⟩ := List.getElem?_eq_some_iff.mp found
  refine ⟨pool.workers.take index, pool.workers.drop (index + 1), ?_, ?_⟩
  · rw [← List.drop_eq_getElem_cons bound, List.take_append_drop]
  · intro phase compiler
    rw [List.set_eq_take_append_cons_drop, if_pos bound]

/-- Each step of the requester after the first is a move, or it sees the withdrawal. -/
theorem moves_or_quits_of_stepRequester
    (entered : pool.requester ≠ .entering)
    (stepped : pool.stepRequester plan event = some next) :
    MovesOrQuits plan pool next := by
  unfold stepRequester at stepped
  split at stepped
  case h_1 =>
    split at stepped
    case h_1 isEntering => exact absurd isEntering entered
    case h_2 => cases stepped
  case h_2 =>
    split at stepped
    case h_1 isSubmitting =>
      split at stepped
      · cases stepped
        exact .inl ⟨_, .submit isSubmitting⟩
      · cases stepped
    case h_2 => cases stepped
  case h_3 =>
    split at stepped
    case h_1 isCounting =>
      cases stepped
      exact .inl ⟨_, .count isCounting⟩
    case h_2 => cases stepped
  case h_4 =>
    split at stepped
    case h_1 isSubmitting isWithdrawn =>
      cases stepped
      exact .inr ⟨isWithdrawn, _, .refuse isSubmitting⟩
    case h_2 => cases stepped
  case h_5 =>
    split at stepped
    case h_1 isSubmitting =>
      cases stepped
      exact .inl ⟨_, .close isSubmitting⟩
    case h_2 => cases stepped
  case h_6 =>
    split at stepped
    case h_1 isCollecting hasResult =>
      cases stepped
      exact .inl ⟨_, .collect isCollecting hasResult⟩
    case h_2 => cases stepped
  case h_7 =>
    split at stepped
    case h_1 isCollecting hasNone isSealed =>
      cases stepped
      exact .inl ⟨_, .conclude isCollecting hasNone isSealed⟩
    case h_2 => cases stepped
  case h_8 =>
    split at stepped
    case h_1 isCollecting isWithdrawn =>
      cases stepped
      exact .inr ⟨isWithdrawn, _, .abandon isCollecting⟩
    case h_2 => cases stepped
  case h_9 => cases stepped

/-- Each step of a worker is a move, or it leaves because of the withdrawal. -/
theorem moves_or_quits_of_stepWorker (stepped : pool.stepWorker plan event = some next) :
    MovesOrQuits plan pool next := by
  unfold stepWorker at stepped
  split at stepped
  case h_1 =>
    split at stepped
    case h_1 found hasJob =>
      obtain ⟨before, after, split, set⟩ := exists_setWorker found
      cases stepped
      simp only [setWorker, set]
      exact .inl ⟨_, .take split hasJob⟩
    case h_2 => cases stepped
  case h_2 =>
    split at stepped
    case h_1 found =>
      obtain ⟨before, after, split, set⟩ := exists_setWorker found
      cases stepped
      simp only [setWorker, set]
      exact .inl ⟨_, .check split⟩
    case h_2 => cases stepped
  case h_3 =>
    split at stepped
    case h_1 found =>
      obtain ⟨before, after, split, set⟩ := exists_setWorker found
      cases stepped
      simp only [setWorker, set]
      exact .inl ⟨_, .tally split⟩
    case h_2 => cases stepped
  case h_4 =>
    split at stepped
    case h_1 found =>
      obtain ⟨before, after, split, set⟩ := exists_setWorker found
      cases stepped
      simp only [setWorker, set]
      exact .inl ⟨_, .settle split⟩
    case h_2 => cases stepped
  case h_5 =>
    split at stepped
    case h_1 found =>
      obtain ⟨before, after, split, set⟩ := exists_setWorker found
      split at stepped
      · cases stepped
        simp only [setWorker, set]
        exact .inl ⟨_, .report split⟩
      · cases stepped
    case h_2 => cases stepped
  case h_6 =>
    split at stepped
    case h_1 found =>
      obtain ⟨before, after, split, set⟩ := exists_setWorker found
      split at stepped
      case isTrue allowed =>
        rw [Bool.or_eq_true, Bool.and_eq_true, List.isEmpty_iff] at allowed
        cases stepped
        simp only [setWorker, set]
        rcases allowed with isWithdrawn | ⟨isClosed, hasNone⟩
        · exact .inr ⟨isWithdrawn, _, .idle split⟩
        · exact .inl ⟨_, .leave split isClosed hasNone⟩
      case isFalse => cases stepped
    case h_2 found =>
      obtain ⟨before, after, split, set⟩ := exists_setWorker found
      split at stepped
      case isTrue isWithdrawn =>
        cases stepped
        simp only [setWorker, set]
        exact .inr ⟨isWithdrawn, _, .drop split⟩
      case isFalse => cases stepped
    case h_3 => cases stepped
  case h_7 => cases stepped

/-- What a step after the first can do. -/
theorem moves_or_quits_of_step
    (entered : pool.requester ≠ .entering)
    (proper : event ≠ .withdraw)
    (stepped : pool.step plan event = some next) :
    MovesOrQuits plan pool next := by
  cases event with
  | withdraw => exact absurd rfl proper
  | shut =>
      simp only [step] at stepped
      split at stepped
      case isTrue allowed =>
        simp only [Bool.and_eq_true, List.all_eq_true, Bool.not_eq_true'] at allowed
        cases stepped
        exact .inl ⟨_, .shut allowed.1.1 allowed.1.2 allowed.2⟩
      case isFalse => cases stepped
  | enter | submit | count | refuse | close | collect | conclude | abandon =>
      rw [step] at stepped
      exact moves_or_quits_of_stepRequester entered stepped
  | take | check | tally | settle | report | leave =>
      rw [step] at stepped
      exact moves_or_quits_of_stepWorker stepped

/-- What a step after the first can do while the request stands. -/
theorem moves_of_step
    (stands : pool.isWithdrawn = false)
    (entered : pool.requester ≠ .entering)
    (proper : event ≠ .withdraw)
    (stepped : pool.step plan event = some next) :
    ∃ home, Moves plan pool home next := by
  rcases moves_or_quits_of_step entered proper stepped with moves | ⟨isWithdrawn, -⟩
  · exact moves
  · rw [stands] at isWithdrawn
    cases isWithdrawn

/-- How many steps a pool takes, if nobody withdraws. -/
def stepsLeft (pool : Pool) : Nat :=
  pool.requester.stepsLeft + 6 * pool.queue.length +
    (pool.workers.map Worker.stepsLeft).sum + pool.results.length +
    (if pool.areResultsClosed then 0 else 1)

/-- A move is one step less to do. -/
theorem Moves.stepsLeft {home : List CheckJob} (moves : Moves plan pool home next) :
    next.stepsLeft + 1 = pool.stepsLeft := by
  cases moves <;>
    simp_all [Pool.stepsLeft, Requester.stepsLeft, Worker.stepsLeft] <;> omega

end Pool

end ScriptEngine
