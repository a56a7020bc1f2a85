import Sgfx.SchedulerOrder

/-!
# The scheduler's own account

A scheduler counts the bytes of the jobs it holds.  Whatever the transport answers,
`advance` and `fail` only ever take jobs off the front of the queue, signal each of
them exactly once, and leave the signal and the size of every other job alone; so
the count stays right, and a job that fits is never refused.

## Main Results

* `Scheduler.advance_accounts`, `Scheduler.fail_accounts` — what leaves the queue
* `Scheduler.enqueuePrepared_of_fits` — a job that fits is admitted
-/

namespace Sgfx

open History Fallible

variable {K : TransportTypes}

/-- What a job owes: its signal, and its bytes. -/
def Job.due (job : Job K) : K.Signal × UInt64 := (job.signal, job.bytes)

/-- The sum of some sizes. -/
def totalBytes : List UInt64 → Nat
  | [] => 0
  | bytes :: rest => bytes.toNat + totalBytes rest

@[simp] theorem totalBytes_nil : totalBytes [] = 0 := rfl

@[simp] theorem totalBytes_cons (bytes : UInt64) (rest : List UInt64) :
    totalBytes (bytes :: rest) = bytes.toNat + totalBytes rest := rfl

@[simp] theorem totalBytes_append (xs ys : List UInt64) :
    totalBytes (xs ++ ys) = totalBytes xs + totalBytes ys := by
  induction xs with
  | nil => exact (Nat.zero_add _).symm
  | cons x xs ih => rw [List.cons_append, totalBytes_cons, totalBytes_cons, ih, Nat.add_assoc]

/-- The calls added to a history complete no job. -/
def History.Quiet (h h' : History K) : Prop := ∃ calls, h' = h ++ calls ∧ completions calls = []

namespace History.Quiet

variable {h h' h'' : History K}

theorem refl (h : History K) : Quiet h h := ⟨[], (List.append_nil h).symm, rfl⟩

theorem trans (first : Quiet h h') (second : Quiet h' h'') : Quiet h h'' := by
  obtain ⟨calls, rfl, quiet⟩ := first
  obtain ⟨calls', rfl, quiet'⟩ := second
  exact ⟨calls ++ calls', List.append_assoc .., by rw [completions_append, quiet, quiet']; rfl⟩

end History.Quiet

theorem History.Extends.quiet {h h' : History K} {chunks : List (K.Chunk × K.Receipt)}
    {done : List K.Receipt} (e : Extends h h' chunks done) : Quiet h h' := by
  obtain ⟨calls, added, silent, -, -⟩ := e
  exact ⟨calls, added, silent⟩

namespace Scheduler

/-! ## The loops -/

section Loops

variable (T : Transport K)

theorem pollReceipts_quiet (receipts : List K.Receipt) (h : History K) :
    Ensures (pollReceipts T receipts) h (fun _ h' => Quiet h h') (fun _ h' => Quiet h h') :=
  (pollReceipts_ensures T receipts h).imp (fun _ _ ⟨_, called, _⟩ => called.quiet)
    fun _ _ ⟨_, _, called, _⟩ => called.quiet

/-- Polling changes no job's signal and no job's size. -/
theorem pollJobs_due (jobs : List (Job K)) (h : History K) :
    Ensures (pollJobs T jobs) h
      (fun out h' => Quiet h h' ∧ out.1.map Job.due = jobs.map Job.due)
      (fun _ h' => Quiet h h') := by
  induction jobs generalizing h with
  | nil => exact .pure ⟨.refl h, rfl⟩
  | cons job rest ih =>
      refine (pollReceipts_quiet T job.receipts h).bind fun polled h₁ quiet => ?_
      refine ((ih h₁).imp (fun _ _ later => later) fun _ _ later => quiet.trans later).bind ?_
      rintro ⟨jobs, progressed⟩ h₂ ⟨later, due⟩
      refine .pure ⟨quiet.trans later, ?_⟩
      rw [List.map_cons, List.map_cons, due]
      rfl

theorem dispatchChunks_due (limits : Limits) (remaining : List K.Chunk) (job : Job K)
    (inFlight : Nat) (progressed : Bool) (h : History K) :
    Ensures (dispatchChunks T limits job inFlight progressed remaining) h
      (fun d h' => Quiet h h' ∧ d.job.due = job.due) (fun _ h' => Quiet h h') := by
  refine (dispatchChunks_ensures T limits remaining job inFlight progressed h).imp ?_
    fun _ _ ⟨_, called, _⟩ => called.quiet
  rintro d h' ⟨new, called, -, sent, -⟩
  exact ⟨called.quiet, by rw [sent]; rfl⟩

/-- Dispatching changes no job's signal and no job's size. -/
theorem dispatchJobs_due (limits : Limits) (jobs : List (Job K)) (inFlight : Nat)
    (h : History K) :
    Ensures (dispatchJobs T limits inFlight jobs) h
      (fun out h' => Quiet h h' ∧ out.1.map Job.due = jobs.map Job.due)
      (fun _ h' => Quiet h h') := by
  induction jobs generalizing inFlight h with
  | nil => exact .pure ⟨.refl h, rfl⟩
  | cons job rest ih =>
      refine (dispatchChunks_due T limits _ job inFlight false h).bind ?_
      rintro d h₁ ⟨quiet, due⟩
      split
      · refine .pure ⟨quiet, ?_⟩
        rw [List.map_cons, List.map_cons, due]
      refine ((ih d.inFlight h₁).imp (fun _ _ later => later)
        fun _ _ later => quiet.trans later).bind ?_
      rintro ⟨jobs, progressed⟩ h₂ ⟨later, due'⟩
      refine .pure ⟨quiet.trans later, ?_⟩
      rw [List.map_cons, List.map_cons, due, due']

end Loops

/-! ## Leaving the queue -/

/-- A step took some jobs off the front of a queue, and signalled each of them. -/
structure Accounts (jobs : List (Job K)) (h : History K) (jobs' : List (Job K))
    (h' : History K) : Prop where
  left : ∃ calls gone, h' = h ++ calls ∧ (completions calls).map Prod.fst = gone.map Prod.fst ∧
    jobs.map Job.due = gone ++ jobs'.map Job.due

namespace Accounts

variable {jobs jobs' jobs'' : List (Job K)} {h h' h'' : History K}

theorem of_quiet (quiet : Quiet h h') (due : jobs'.map Job.due = jobs.map Job.due) :
    Accounts jobs h jobs' h' := by
  obtain ⟨calls, added, silent⟩ := quiet
  exact ⟨calls, [], added, by rw [silent]; rfl, due.symm⟩

theorem trans (first : Accounts jobs h jobs' h') (second : Accounts jobs' h' jobs'' h'') :
    Accounts jobs h jobs'' h'' := by
  obtain ⟨calls, gone, rfl, signalled, due⟩ := first
  obtain ⟨calls', gone', rfl, signalled', due'⟩ := second
  refine ⟨calls ++ calls', gone ++ gone', List.append_assoc .., ?_, ?_⟩
  · rw [completions_append, List.map_append, signalled, signalled', List.map_append]
  · rw [due, due', List.append_assoc]

end Accounts

/-- The bytes of a queue. -/
def queuedBytes (jobs : List (Job K)) : Nat := totalBytes (jobs.map Job.bytes)

theorem queuedBytes_eq (jobs : List (Job K)) :
    queuedBytes jobs = totalBytes ((jobs.map Job.due).map Prod.snd) := by
  rw [queuedBytes, List.map_map]
  rfl

/-- Retiring signals what it removes, and keeps the count of what it leaves. -/
theorem retire_accounts (jobs : List (Job K)) (bytes : UInt64) (h : History K)
    (balanced : bytes.toNat = queuedBytes jobs) :
    Accounts jobs h (retire jobs bytes h).1 (retire jobs bytes h).2.2 ∧
      (retire jobs bytes h).2.1.toNat = queuedBytes (retire jobs bytes h).1 := by
  induction jobs generalizing bytes h with
  | nil => exact ⟨.of_quiet (.refl h) rfl, balanced⟩
  | cons job rest ih =>
      rw [retire]
      split
      · have covers : job.bytes.toNat ≤ bytes.toNat := by
          rw [balanced]
          exact Nat.le_add_right ..
        have balanced' : (bytes - job.bytes).toNat = queuedBytes rest := by
          rw [UInt64.toNat_sub_of_le _ _ covers, balanced]
          exact Nat.add_sub_cancel_left ..
        obtain ⟨accounts, kept⟩ :=
          ih (bytes - job.bytes) (h ++ [.complete job.signal (.ok ())]) balanced'
        have signalled : Accounts (job :: rest) h rest (h ++ [.complete job.signal (.ok ())]) :=
          ⟨[_], [job.due], rfl, rfl, rfl⟩
        exact ⟨signalled.trans accounts, kept⟩
      · exact ⟨.of_quiet (.refl h) rfl, balanced⟩

theorem completions_of_fail (jobs : List (Job K)) (error : K.Error) :
    completions (jobs.map fun job => .complete job.signal (.error error)) =
      jobs.map fun job => (job.signal, .error error) := by
  rw [completions, List.filterMap_map]
  exact congrFun List.filterMap_eq_map jobs

/-- `fail` signals every queued job. -/
theorem fail_accounts (error : K.Error) (s : Scheduler K) (h : History K) :
    Accounts s.jobs h (s.fail error h).1.jobs (s.fail error h).2 := by
  refine ⟨s.jobs.map fun job => .complete job.signal (.error error), s.jobs.map Job.due, rfl, ?_,
    (List.append_nil _).symm⟩
  rw [completions_of_fail, List.map_map, List.map_map]
  rfl

/-- A scheduler whose count is right. -/
def Balanced (s : Scheduler K) : Prop := s.bytes.toNat = queuedBytes s.jobs

/-- After a step of the worker: the jobs that left were signalled, the count is
right, and a scheduler that failed is empty. -/
structure Advanced (s : Scheduler K) (h : History K) (s' : Scheduler K) (h' : History K) :
    Prop where
  accounts : Accounts s.jobs h s'.jobs h'
  balanced : s'.Balanced
  limits : s'.limits = s.limits
  failed : s'.failure = s.failure ∨ s'.jobs = []

theorem fail_advanced {s : Scheduler K} {h h' : History K} {jobs : List (Job K)} {bytes : UInt64}
    (before : Accounts s.jobs h jobs h') (error : K.Error) :
    Advanced s h ({ s with jobs, bytes }.fail error h').1
      ({ s with jobs, bytes }.fail error h').2 where
  accounts := before.trans (fail_accounts error { s with jobs, bytes } h')
  balanced := rfl
  limits := rfl
  failed := .inr rfl

theorem advance_advanced (T : Transport K) {s : Scheduler K} (balanced : s.Balanced)
    (h : History K) : Advanced s h (s.advance T h).2.1 (s.advance T h).2.2 := by
  have polls := pollJobs_due T s.jobs h
  rw [advance]
  rcases hpoll : pollJobs T s.jobs h with ⟨error | ⟨jobs, polled⟩, h₁⟩
  · have accounts : Accounts s.jobs h s.jobs h₁ := .of_quiet (polls.of_eq_error hpoll) rfl
    exact fail_advanced accounts error
  · obtain ⟨quiet, due⟩ := polls.of_eq_ok hpoll
    have balanced₁ : s.bytes.toNat = queuedBytes jobs := by
      rw [queuedBytes_eq, due, ← queuedBytes_eq]
      exact balanced
    obtain ⟨retired, balanced₂⟩ := retire_accounts jobs s.bytes h₁ balanced₁
    have accounts := (Accounts.of_quiet quiet due).trans retired
    have dispatches := dispatchJobs_due T s.limits (retire jobs s.bytes h₁).1
      (outstanding (retire jobs s.bytes h₁).1) (retire jobs s.bytes h₁).2.2
    simp only
    split
    · rename_i error h₃ hdispatch
      have quiet₃ := dispatches.of_eq_error hdispatch
      exact fail_advanced (accounts.trans (.of_quiet quiet₃ rfl)) error
    · rename_i jobs₃ submitted h₃ hdispatch
      obtain ⟨quiet₃, due₃⟩ := dispatches.of_eq_ok hdispatch
      exact {
        accounts := accounts.trans (.of_quiet quiet₃ due₃)
        balanced := by
          show (retire jobs s.bytes h₁).2.1.toNat = queuedBytes jobs₃
          rw [balanced₂, queuedBytes_eq, queuedBytes_eq, due₃]
        limits := rfl
        failed := .inl rfl }

/-- A job that keeps the queue within its limits, and needs no memory that was not
reserved, is admitted. -/
theorem enqueuePrepared_of_fits {s : Scheduler K} {memory : AdmissionSite → Bool} {job : Job K}
    (running : s.failure = none) (stream : job.bytes ≤ s.limits.streamBytes)
    (submissions : s.jobs.length < s.limits.submissions.toNat)
    (pending : s.jobs = [] ∨ s.bytes.toNat + job.bytes.toNat ≤ s.limits.pendingBytes.toNat)
    (receipts : memory .receipts = true) (jobs : memory .jobs = true) :
    enqueuePrepared memory job s =
      (.ok (), { s with jobs := s.jobs ++ [job], bytes := s.bytes + job.bytes }) := by
  have fits : ¬ (s.limits.submissions.toNat ≤ s.jobs.length ∨
      (s.jobs.isEmpty = false ∧ (s.limits.pendingBytes < job.bytes ∨
        s.limits.pendingBytes < saturatingAdd64 s.bytes job.bytes))) := by
    rintro (full | ⟨queued, above⟩)
    · exact absurd submissions (by omega)
    · rcases pending with empty | within
      · rw [empty] at queued
        cases queued
      · have sum : saturatingAdd64 s.bytes job.bytes = s.bytes + job.bytes := by
          have := s.limits.pendingBytes.toNat_lt
          rw [saturatingAdd64, checkedAdd64, if_pos (by omega), Option.getD_some]
        rw [sum, UInt64.lt_iff_toNat_lt, UInt64.lt_iff_toNat_lt, UInt64.toNat_add] at above
        have := s.limits.pendingBytes.toNat_lt
        omega
  have admitted : s.checkAdmission memory job = .ok () := by
    rw [checkAdmission, running]
    simp only [failIf, if_neg fits, if_neg (UInt64.not_lt.mpr stream), receipts, jobs]
    rfl
  rw [enqueuePrepared, read_bind_run, bind_run, lift_run, admitted]
  rfl

end Scheduler

end Sgfx
