import Sgfx.SchedulerBudget

/-!
# Native dispatch

The VirGL backend dispatches from a worker thread.  Producers put prepared jobs
into an inbox under a short lock, which also holds the admission account: how many
jobs, and how many bytes, were admitted and not yet signalled.  The worker moves
jobs from the inbox to its private `Scheduler`, and every completion signal, from
whichever path it comes, gives its job's share of the account back.

The threads interleave at the lock.  A `System` takes one step at a time: a call of
`enqueue`, the drop of the last `NativeScheduler` handle, or one step of the worker,
which crosses at most one locked section.  What the worker does between two
sections touches nothing shared, so `advance` is one step, and the completions it
called for are then played one by one.  The worker never reads the wake event's
state but for errors, so the event is kept only as those errors.

## Main Definitions

* `Shared` — the admission account; `Shared.enqueue`, `Shared.finishSignal`
* `Worker`, `Phase` — the worker thread, and where it stands
* `System`, `System.step`, `System.run`
-/

namespace Sgfx.Virgl

open Fallible History

/-! ## The transport -/

/-- What the operating system and the GPU stack provide. -/
structure Platform where
  HandleError : Type
  outOfResources : HandleError
  systemError : Int32 → HandleError
  Queue : Type
  Completion : Type
  Arena : Type

variable {P : Platform}

/-- `Failure`. -/
inductive Failure (P : Platform) where
  | backend (error : P.HandleError)
  | completion (reason : UInt32)
  | unavailable

/-- A completion signal: which one it is, and the bytes its job was admitted with.
The result it carries later is kept in `System.results`. -/
structure Signal where
  id : Nat
  bytes : UInt64
deriving DecidableEq

/-- `Chunk`. -/
structure Chunk (P : Platform) where
  commands : List UInt8
  arena : Option P.Arena

/-- `Transport::size`. -/
def Chunk.size (chunk : Chunk P) : UInt64 := .ofNat chunk.commands.length

/-- The associated types of `Native`. -/
abbrev Native (P : Platform) : TransportTypes :=
  ⟨Chunk P, P.Queue, P.Completion, Signal, Failure P⟩

/-- `GpuSubmitError`, as far as `submit` tells it apart. -/
inductive GpuSubmitError (P : Platform) where
  | busy
  | rejected (error : P.HandleError)
  | failed (error : P.HandleError)
  | other

/-- The answers of the GPU stack, which may depend on all that was asked of it. -/
structure Gpu (P : Platform) where
  /-- `GpuQueue::submit_async`. -/
  submitAsync : History (Native P) → P.Queue → List UInt8 →
    Except (GpuSubmitError P) P.Completion
  /-- `native_status`: whether a completion is complete. -/
  status : History (Native P) → P.Completion → Except (Failure P) Bool
  /-- The completion last stored in an upload arena. -/
  previous : History (Native P) → P.Arena → Option P.Completion

/-- `impl Transport for Native`. -/
def Gpu.native (g : Gpu P) : Transport (Native P) where
  size := Chunk.size
  ready h chunk := match chunk.arena.bind (g.previous h) with
    | none => .ok true
    | some completion => g.status h completion
  submit h queue chunk := match g.submitAsync h queue chunk.commands with
    | .ok completion => .ok completion
    | .error .busy => .error .busy
    | .error (.rejected error) => .error (.failed (.backend error))
    | .error (.failed error) => .error (.failed (.backend error))
    | .error .other => .error (.failed .unavailable)
  poll := g.status

/-! ## The admission account -/

/-- `MAX_SUBMISSIONS`. -/
def maxSubmissions : UInt64 := 16

/-- `MAX_PENDING_BYTES`. -/
def maxPendingBytes : UInt64 := 64 * 1024 * 1024

/-- `MAX_STREAM_BYTES`. -/
def maxStreamBytes : UInt64 := 512 * 1024 * 1024

theorem limits_valid : 0 < maxSubmissions ∧ 0 < maxPendingBytes ∧ 0 < maxStreamBytes ∧
    (0 : UInt64) < 16 := by decide

/-- `LIMITS`. -/
def limits : Limits := ⟨maxSubmissions, maxPendingBytes, maxStreamBytes, 16, limits_valid⟩

/-- `Admission`: the inbox, and the account. -/
structure Admission (P : Platform) where
  pending : List (Job (Native P))
  count : UInt64
  bytes : UInt64
  last : Option Signal
  failure : Option (Failure P)

/-- `Shared`. -/
structure Shared (P : Platform) where
  admission : Admission P
  closing : Bool
  failed : Bool

/-- Whether the account refuses a job of `bytes`. -/
def Admission.refuses (a : Admission P) (bytes : UInt64) : Bool :=
  a.count == maxSubmissions ||
    (a.count != 0 &&
      (maxPendingBytes < bytes || maxPendingBytes < saturatingAdd64 a.bytes bytes))

namespace Shared

/-- The locked section of `finish_signal`; the signal is completed after it. -/
def finishSignal (s : Shared P) (signal : Signal) (result : Except (Failure P) Unit) :
    Shared P :=
  let count := s.admission.count - 1
  { s with
    admission := { s.admission with
      count
      bytes := s.admission.bytes - signal.bytes
      failure := match result with
        | .error error => some error
        | .ok () => s.admission.failure
      last := if count = 0 then none else s.admission.last }
    failed := match result with
      | .error _ => true
      | .ok () => s.failed }

/-- The part of `NativeScheduler::enqueue` before its lock: the prepared job. -/
def prepare (g : Gpu P) (signalMemory jobMemory : Bool) (id : Nat) (queue : P.Queue)
    (chunks : List (Chunk P)) : Except (AdmissionError (Failure P)) (Job (Native P)) := do
  let total := chunks.foldlM (fun n chunk => checkedAdd64 n chunk.size) 0
  let bytes ← okOr (total.filter (· ≤ maxStreamBytes)) .tooLarge
  failIf (signalMemory = false) .outOfMemory
  Job.prepare g.native limits (fun _ => jobMemory) ⟨chunks, queue, ⟨id, bytes⟩⟩

/-- The locked section of `NativeScheduler::enqueue`. -/
def publish (job : Job (Native P)) : Fallible (Shared P) (AdmissionError (Failure P)) Unit := do
  let s ← read
  match s.admission.failure with
  | some error => fail (.failed error)
  | none =>
      if s.admission.refuses job.signal.bytes then fail .busy else
      update fun s => { s with admission := { s.admission with
        pending := s.admission.pending ++ [job]
        count := s.admission.count + 1
        bytes := s.admission.bytes + job.signal.bytes
        last := some job.signal } }

/-- `NativeScheduler::enqueue`. -/
def enqueue (g : Gpu P) (signalMemory jobMemory : Bool) (id : Nat) (queue : P.Queue)
    (chunks : List (Chunk P)) : Fallible (Shared P) (AdmissionError (Failure P)) Signal := do
  let job ← liftM (prepare g signalMemory jobMemory id queue chunks)
  publish job
  pure job.signal

end Shared

/-! ## The worker -/

/-- A completion that is called for. -/
abbrev Completion (P : Platform) := Signal × Except (Failure P) Unit

/-- Where `Worker::run` stands. -/
inductive Phase (P : Platform) where
  /-- About to reserve the poll handles. -/
  | starting
  /-- About to consume the wake event. -/
  | waking
  /-- About to take a job from the inbox. -/
  | taking
  /-- About to hand a job to the private scheduler. -/
  | transferring (job : Job (Native P))
  /-- About to advance the private scheduler. -/
  | advancing
  /-- After `advance`: about to look for a failure, or for the end. -/
  | checking (progressed : Bool)
  /-- About to poll the handles. -/
  | polling
  /-- About to enter `Worker::fail`, called from `run` or from `drop`. -/
  | failing (error : Failure P) (dropping : Bool)
  /-- `run` has returned: about to drop the worker. -/
  | dropping
  | gone

/-- The worker thread.  The completions in `todo` come before its phase, and the
signal in `settling` has been accounted for and is completed next. -/
structure Worker (P : Platform) where
  phase : Phase P
  scheduler : Scheduler (Native P)
  history : History (Native P)
  todo : List (Completion P)
  settling : Option (Completion P)

/-- What the operating system answers during one step of the worker. -/
structure Answers (P : Platform) where
  allocated : Bool
  wake : Except P.HandleError Unit
  poll : Except Int32 Unit

/-- `VecDeque::try_reserve`: the allocator is asked only past the capacity. -/
def tryReserve (capacity length additional : Nat) (allocated : Bool) : Bool :=
  decide (length + additional ≤ capacity) || allocated

/-- The reservations of `enqueue_prepared`: `Job::prepare` reserved a job's
receipts, and `reserve_admission` the queue. -/
def reserved (s : Scheduler (Native P)) (job : Job (Native P)) (allocated : Bool) :
    AdmissionSite → Bool
  | .prepare => allocated
  | .receipts =>
      let receipts := min job.chunks.length limits.inFlight.toNat
      tryReserve receipts job.receipts.length receipts allocated
  | .jobs => tryReserve limits.submissions.toNat s.jobs.length 1 allocated

/-! ## The system -/

/-- The threads together: the shared state, the worker, the results set so far, the
signals of the admitted jobs, and how many signals were created. -/
structure System (P : Platform) where
  shared : Shared P
  worker : Worker P
  results : List (Completion P)
  admitted : List Signal
  created : Nat

/-- A step of one of the threads. -/
inductive Event (P : Platform) where
  | enqueue (signalMemory jobMemory : Bool) (queue : P.Queue) (chunks : List (Chunk P))
  | close
  | worker (answers : Answers P)

namespace System

/-- `NativeScheduler::new`. -/
def new : System P where
  shared := ⟨⟨[], 0, 0, none, none⟩, false, false⟩
  worker := ⟨.starting, .new limits, [], [], none⟩
  results := []
  admitted := []
  created := 0

/-- The worker goes on in `phase`. -/
def goto (s : System P) (phase : Phase P) : System P :=
  { s with worker := { s.worker with phase } }

/-- A call of `enqueue`; there is none after the last handle was dropped. -/
def enqueued (g : Gpu P) (s : System P) (signalMemory jobMemory : Bool) (queue : P.Queue)
    (chunks : List (Chunk P)) : System P :=
  match Shared.enqueue g signalMemory jobMemory s.created queue chunks s.shared with
  | (.ok signal, shared) =>
      { s with shared, admitted := s.admitted ++ [signal], created := s.created + 1 }
  | (.error _, shared) => { s with shared, created := s.created + 1 }

/-- The locked section of `finish_signal`, for the next completion. -/
def release (s : System P) (completion : Completion P) (todo : List (Completion P)) :
    System P :=
  { s with
    shared := s.shared.finishSignal completion.1 completion.2
    worker := { s.worker with todo, settling := some completion } }

/-- `signal.complete(result)`, which ends `finish_signal`. -/
def settle (s : System P) (completion : Completion P) : System P :=
  { s with
    results := s.results ++ [completion]
    worker := { s.worker with settling := none } }

/-- Take a job from the inbox. -/
def take (s : System P) : System P :=
  match s.shared.admission.pending with
  | [] => s.goto .advancing
  | job :: pending =>
      { s with shared := { s.shared with admission := { s.shared.admission with pending } } }.goto
        (.transferring job)

/-- Hand a job to the private scheduler. -/
def transfer (s : System P) (job : Job (Native P)) (allocated : Bool) : System P :=
  match Scheduler.enqueuePrepared (reserved s.worker.scheduler job allocated) job
      s.worker.scheduler with
  | (.ok (), scheduler) => { s with worker := { s.worker with scheduler, phase := .taking } }
  | (.error _, scheduler) =>
      { s with worker := { s.worker with
          scheduler
          todo := s.worker.todo ++ [(job.signal, .error .unavailable)]
          phase := .failing .unavailable false } }

/-- Advance the private scheduler; its completions are then to be played. -/
def advance (g : Gpu P) (s : System P) : System P :=
  let (progressed, scheduler, history) := s.worker.scheduler.advance g.native s.worker.history
  { s with worker := { s.worker with
      scheduler
      history
      todo := s.worker.todo ++ completions (history.drop s.worker.history.length)
      phase := .checking progressed } }

/-- The locked section of `Worker::fail`; the completions of the private scheduler's
jobs, and then of the inbox's, are to be played. -/
def fail (s : System P) (error : Failure P) (next : Phase P) : System P :=
  let (scheduler, history) := s.worker.scheduler.fail error s.worker.history
  { s with
    shared := { s.shared with
      admission := { s.shared.admission with pending := [], failure := some error }
      failed := true }
    worker := { s.worker with
      scheduler
      history
      todo := s.worker.todo ++ completions (history.drop s.worker.history.length) ++
        s.shared.admission.pending.map fun job => (job.signal, .error error)
      phase := next } }

/-- What `run` does after `advance`. -/
def check (s : System P) (progressed : Bool) : System P :=
  match s.worker.scheduler.failure with
  | some error => s.goto (.failing error false)
  | none =>
      if s.worker.scheduler.jobs.isEmpty ∧ s.shared.closing ∧ s.shared.admission.count = 0 then
        s.goto .dropping
      else if progressed then s.goto .waking else s.goto .polling

/-- `Worker::drop`. -/
def drop (s : System P) : System P :=
  if s.worker.scheduler.jobs.isEmpty = false ∨ s.shared.admission.count ≠ 0 then
    s.goto (.failing .unavailable true)
  else s.goto .gone

/-- The worker's step in its phase. -/
def work (g : Gpu P) (s : System P) (answers : Answers P) : System P :=
  match s.worker.phase with
  | .starting =>
      if answers.allocated then s.goto .waking
      else s.goto (.failing (.backend P.outOfResources) false)
  | .waking =>
      match answers.wake with
      | .ok () => s.goto .taking
      | .error error => s.goto (.failing (.backend error) false)
  | .taking => s.take
  | .transferring job => s.transfer job answers.allocated
  | .advancing => s.advance g
  | .checking progressed => s.check progressed
  | .polling =>
      match answers.poll with
      | .ok () => s.goto .waking
      | .error code => s.goto (.failing (.backend (P.systemError code)) false)
  | .failing error dropping => s.fail error (if dropping then .gone else .dropping)
  | .dropping => s.drop
  | .gone => s

/-- The worker's next step: the rest of a completion, a completion, or its phase. -/
def workerStep (g : Gpu P) (s : System P) (answers : Answers P) : System P :=
  match s.worker.settling with
  | some completion => s.settle completion
  | none =>
      match s.worker.todo with
      | completion :: todo => s.release completion todo
      | [] => s.work g answers

/-- One step. -/
def step (g : Gpu P) (s : System P) : Event P → System P
  | .enqueue signalMemory jobMemory queue chunks =>
      if s.shared.closing then s else s.enqueued g signalMemory jobMemory queue chunks
  | .close => { s with shared := { s.shared with closing := true } }
  | .worker answers => s.workerStep g answers

/-- Any interleaving of steps. -/
def run (g : Gpu P) (s : System P) (events : List (Event P)) : System P :=
  events.foldl (step g) s

end System

end Sgfx.Virgl
