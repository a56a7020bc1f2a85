import Sgfx.Library.Fallible
import Sgfx.Types

/-!
# The dispatch scheduler

`Scheduler` admits jobs, lists of chunks that a transport executes, and hands the
chunks to the transport one at a time, in order, with a bounded number in flight.
It never waits: the queue worker calls `advance`, which polls the receipts of the
chunks in flight, completes the jobs that are done, and submits what fits.

A transport's answers may depend on anything, so a `Transport` here answers from
all the calls made of it so far; every sequence of answers is a transport's.  The
calls and their answers are kept in a `History`, which the scheduler never reads.
Sizes are `usize` values of a 64-bit target, and their sums wrap as in a release
build.

## Main Definitions

* `Transport`, `Interaction`, `History`
* `Job`, `Job.prepare`, `Scheduler` and its operations
* `SchedulerRun` — a scheduler, its history, and the jobs it has admitted
-/

namespace Sgfx

open Fallible

/-! ## Transports -/

/-- The associated types of `Transport`. -/
structure TransportTypes where
  Chunk : Type
  Owner : Type
  Receipt : Type
  Signal : Type
  Error : Type

/-- Why `submit` refused a chunk. -/
inductive DispatchError (E : Type) where
  | busy
  | failed (error : E)

/-- Why a job was not admitted. -/
inductive AdmissionError (E : Type) where
  | busy
  | tooLarge
  | outOfMemory
  | failed (error : E)

/-- One call of a transport, with its answer. -/
inductive Interaction (K : TransportTypes) where
  | ready (chunk : K.Chunk) (answer : Except K.Error Bool)
  | submit (owner : K.Owner) (chunk : K.Chunk)
      (answer : Except (DispatchError K.Error) K.Receipt)
  | poll (receipt : K.Receipt) (answer : Except K.Error Bool)
  | complete (signal : K.Signal) (result : Except K.Error Unit)

/-- The calls of a transport, the last one last. -/
abbrev History (K : TransportTypes) := List (Interaction K)

/-- The trait `Transport`. -/
structure Transport (K : TransportTypes) where
  size : K.Chunk → UInt64
  ready : History K → K.Chunk → Except K.Error Bool
  submit : History K → K.Owner → K.Chunk → Except (DispatchError K.Error) K.Receipt
  poll : History K → K.Receipt → Except K.Error Bool

variable {K : TransportTypes} (T : Transport K)

namespace Transport

/-- Call `poll`. -/
def callPoll (receipt : K.Receipt) : Fallible (History K) K.Error Bool := fun h =>
  (T.poll h receipt, h ++ [.poll receipt (T.poll h receipt)])

/-- Call `ready`. -/
def callReady (chunk : K.Chunk) : Fallible (History K) K.Error Bool := fun h =>
  (T.ready h chunk, h ++ [.ready chunk (T.ready h chunk)])

/-- Call `submit`; a busy transport gives no receipt. -/
def callSubmit (owner : K.Owner) (chunk : K.Chunk) :
    Fallible (History K) K.Error (Option K.Receipt) := fun h =>
  (match T.submit h owner chunk with
    | .ok receipt => .ok (some receipt)
    | .error .busy => .ok none
    | .error (.failed error) => .error error,
    h ++ [.submit owner chunk (T.submit h owner chunk)])

end Transport

/-! ## Jobs -/

/-- Admission and native in-flight budgets; `validate` asserts that each is
positive. -/
structure Limits where
  submissions : UInt64
  pendingBytes : UInt64
  streamBytes : UInt64
  inFlight : UInt64
  valid : 0 < submissions ∧ 0 < pendingBytes ∧ 0 < streamBytes ∧ 0 < inFlight

/-- A job: its chunks, how many of them were submitted, and the receipts that are
not known to be complete. -/
structure Job (K : TransportTypes) where
  chunks : List K.Chunk
  owner : K.Owner
  signal : K.Signal
  next : Nat
  receipts : List K.Receipt
  bytes : UInt64

/-- Where admission reserves memory. -/
inductive AdmissionSite where
  | prepare
  | receipts
  | jobs

/-- What a client hands over: the arguments of `enqueue`. -/
structure Submission (K : TransportTypes) where
  chunks : List K.Chunk
  owner : K.Owner
  signal : K.Signal

/-- `Job::prepare`. -/
def Job.prepare (limits : Limits) (memory : AdmissionSite → Bool) (job : Submission K) :
    Except (AdmissionError K.Error) (Job K) := do
  let total := job.chunks.foldlM (fun size chunk => checkedAdd64 size (T.size chunk)) 0
  let bytes ← okOr (total.filter (· ≤ limits.streamBytes)) .tooLarge
  failIf (memory .prepare = false) .outOfMemory
  pure ⟨job.chunks, job.owner, job.signal, 0, [], bytes⟩

/-- Every chunk was submitted and every receipt is complete. -/
def Job.finished (job : Job K) : Bool :=
  job.next == job.chunks.length && job.receipts.isEmpty

/-! ## The scheduler -/

/-- The queue, the bytes it holds, and the failure that closed it. -/
structure Scheduler (K : TransportTypes) where
  jobs : List (Job K)
  bytes : UInt64
  failure : Option K.Error
  limits : Limits

/-- `usize::saturating_add`. -/
def saturatingAdd64 (a b : UInt64) : UInt64 := (checkedAdd64 a b).getD (.ofNat (2 ^ 64 - 1))

namespace Scheduler

/-- `Scheduler::new`. -/
def new (limits : Limits) : Scheduler K := ⟨[], 0, none, limits⟩

/-- The checks and reservations of `enqueue_prepared`. -/
def checkAdmission (s : Scheduler K) (memory : AdmissionSite → Bool) (job : Job K) :
    Except (AdmissionError K.Error) Unit :=
  match s.failure with
  | some error => .error (.failed error)
  | none => do
      failIf (s.limits.streamBytes < job.bytes) .tooLarge
      failIf (s.limits.submissions.toNat ≤ s.jobs.length ∨
          (s.jobs.isEmpty = false ∧ (s.limits.pendingBytes < job.bytes ∨
            s.limits.pendingBytes < saturatingAdd64 s.bytes job.bytes)))
        .busy
      failIf (memory .receipts = false) .outOfMemory
      failIf (memory .jobs = false) .outOfMemory

/-- `enqueue_prepared`. -/
def enqueuePrepared (memory : AdmissionSite → Bool) (job : Job K) :
    Fallible (Scheduler K) (AdmissionError K.Error) Unit := do
  let s ← read
  liftM (s.checkAdmission memory job)
  update fun s => { s with jobs := s.jobs ++ [job], bytes := s.bytes + job.bytes }

/-- `enqueue`. -/
def enqueue (memory : AdmissionSite → Bool) (job : Submission K) :
    Fallible (Scheduler K) (AdmissionError K.Error) Unit := do
  let s ← read
  let prepared ← liftM (Job.prepare T s.limits memory job)
  enqueuePrepared memory prepared

/-- `fail`: close the queue, and signal the failure to every queued job. -/
def fail (error : K.Error) (s : Scheduler K) (h : History K) : Scheduler K × History K :=
  ({ s with failure := some error, jobs := [], bytes := 0 },
    h ++ s.jobs.map fun job => .complete job.signal (.error error))

/-! ### Advancing -/

/-- The first loop of `advance`, over the receipts of one job: keep those that are
not complete, and say whether any was. -/
def pollReceipts : List K.Receipt → Fallible (History K) K.Error (List K.Receipt × Bool)
  | [] => pure ([], false)
  | receipt :: rest => do
      let complete ← T.callPoll receipt
      let (kept, progressed) ← pollReceipts rest
      pure (if complete then (kept, true) else (receipt :: kept, progressed))

/-- The first loop of `advance`, over the queue. -/
def pollJobs : List (Job K) → Fallible (History K) K.Error (List (Job K) × Bool)
  | [] => pure ([], false)
  | job :: rest => do
      let (receipts, polled) ← pollReceipts T job.receipts
      let (jobs, progressed) ← pollJobs rest
      pure ({ job with receipts } :: jobs, polled || progressed)

/-- The second loop of `advance`: remove the finished jobs at the front of the
queue, and signal their success. -/
def retire : List (Job K) → UInt64 → History K → List (Job K) × UInt64 × History K
  | [], bytes, h => ([], bytes, h)
  | job :: rest, bytes, h =>
      if job.finished then
        retire rest (bytes - job.bytes) (h ++ [.complete job.signal (.ok ())])
      else (job :: rest, bytes, h)

/-- What submitting the chunks of a job came to: the job, the number of chunks in
flight, whether any chunk was submitted, and whether the transport has no room for
the next one. -/
structure Dispatched (K : TransportTypes) where
  job : Job K
  inFlight : Nat
  progressed : Bool
  blocked : Bool

/-- The last loop of `advance`, over the remaining chunks of one job. -/
def dispatchChunks (limits : Limits) (job : Job K) (inFlight : Nat) (progressed : Bool) :
    List K.Chunk → Fallible (History K) K.Error (Dispatched K)
  | [] => pure ⟨job, inFlight, progressed, false⟩
  | chunk :: rest =>
      if limits.inFlight.toNat ≤ inFlight then pure ⟨job, inFlight, progressed, true⟩ else do
        if ← T.callReady chunk then
          match ← T.callSubmit job.owner chunk with
          | some receipt =>
              dispatchChunks limits
                { job with receipts := job.receipts ++ [receipt], next := job.next + 1 }
                (inFlight + 1) true rest
          | none => pure ⟨job, inFlight, progressed, true⟩
        else pure ⟨job, inFlight, progressed, true⟩

/-- The last loop of `advance`, over the queue. -/
def dispatchJobs (limits : Limits) (inFlight : Nat) :
    List (Job K) → Fallible (History K) K.Error (List (Job K) × Bool)
  | [] => pure ([], false)
  | job :: rest => do
      let d ← dispatchChunks T limits job inFlight false (job.chunks.drop job.next)
      if d.blocked then
        pure (d.job :: rest, d.progressed)
      else do
        let (jobs, progressed) ← dispatchJobs limits d.inFlight rest
        pure (d.job :: jobs, d.progressed || progressed)

/-- `receipts().count()`. -/
def outstanding (jobs : List (Job K)) : Nat := (jobs.flatMap Job.receipts).length

/-- `advance`: whether anything progressed, and the scheduler and history after. -/
def advance (s : Scheduler K) (h : History K) : Bool × Scheduler K × History K :=
  match pollJobs T s.jobs h with
  | (.error error, h) => (true, s.fail error h)
  | (.ok (jobs, polled), h) =>
      let (queued, bytes, h) := retire jobs s.bytes h
      let retired := decide (queued.length < jobs.length)
      match dispatchJobs T s.limits (outstanding queued) queued h with
      | (.error error, h) => (true, { s with jobs := queued, bytes }.fail error h)
      | (.ok (jobs, submitted), h) =>
          (polled || retired || submitted, { s with jobs, bytes }, h)

end Scheduler

/-! ## Runs -/

/-- A scheduler, the history of its transport, and the submissions it has
admitted. -/
structure SchedulerRun (K : TransportTypes) where
  scheduler : Scheduler K
  history : History K
  admitted : List (Submission K)

/-- One operation of a client or of the queue worker.  A prepared job may have
been prepared under other limits. -/
inductive SchedulerOp (K : TransportTypes) where
  | enqueue (memory : AdmissionSite → Bool) (job : Submission K)
  | enqueuePrepared (limits : Limits) (memory : AdmissionSite → Bool) (job : Submission K)
  | advance
  | fail (error : K.Error)

namespace SchedulerRun

/-- A new scheduler. -/
def new (limits : Limits) : SchedulerRun K := ⟨.new limits, [], []⟩

/-- The answer of an admission: the job is admitted when it succeeds. -/
def answered (r : SchedulerRun K) (job : Submission K)
    (answer : Except (AdmissionError K.Error) Unit × Scheduler K) : SchedulerRun K :=
  { r with
    scheduler := answer.2
    admitted := match answer.1 with
      | .ok () => r.admitted ++ [job]
      | .error _ => r.admitted }

/-- Run one operation. -/
def step (r : SchedulerRun K) : SchedulerOp K → SchedulerRun K
  | .enqueue memory job => r.answered job (Scheduler.enqueue T memory job r.scheduler)
  | .enqueuePrepared limits memory job =>
      match Job.prepare T limits memory job with
      | .ok prepared => r.answered job (Scheduler.enqueuePrepared memory prepared r.scheduler)
      | .error _ => r
  | .advance =>
      let (_, scheduler, history) := r.scheduler.advance T r.history
      { r with scheduler, history }
  | .fail error =>
      let (scheduler, history) := r.scheduler.fail error r.history
      { r with scheduler, history }

/-- Run a sequence of operations. -/
def run (r : SchedulerRun K) (ops : List (SchedulerOp K)) : SchedulerRun K :=
  ops.foldl (step T) r

end SchedulerRun

end Sgfx
