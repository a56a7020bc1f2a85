import Sgfx.SchedulerBudget

/-!
# Counters over a run

In a run whose limit of pending bytes is not the greatest number, the counters of the
scheduler never wrap: its bytes are the sum of the bytes of its jobs, which is over the limit
only for one job that is queued alone, and neither the jobs nor their open receipts are more
than allowed.

## Main Definitions

* `Scheduler.retireChecked` — the second loop of `advance` with its subtraction checked
* `Scheduler.Accounted` — the invariant
* `SchedulerRun.CountersHold`

## Main Results

* `Scheduler.advance_accounted`, `Scheduler.enqueuePrepared_accounted`
* `SchedulerRun.run_countersHold`
-/

namespace Sgfx

open History Fallible

variable {K : TransportTypes}

namespace Scheduler

/-- The second loop of `advance`; nothing when the bytes underflow. -/
def retireChecked : List (Job K) → UInt64 → History K → Option (List (Job K) × UInt64 × History K)
  | [], bytes, h => some ([], bytes, h)
  | job :: rest, bytes, h =>
      if job.finished then
        if job.bytes ≤ bytes then
          retireChecked rest (bytes - job.bytes) (h ++ [.complete job.signal (.ok ())])
        else none
      else some (job :: rest, bytes, h)

theorem retireChecked_eq (jobs : List (Job K)) (bytes : UInt64) (h : History K)
    (balanced : bytes.toNat = queuedBytes jobs) :
    retireChecked jobs bytes h = some (retire jobs bytes h) := by
  induction jobs generalizing bytes h with
  | nil => rfl
  | cons job rest ih =>
      have covers : job.bytes.toNat ≤ bytes.toNat := by
        rw [balanced]
        exact Nat.le_add_right ..
      rw [retireChecked, retire]
      split
      · have balanced' : (bytes - job.bytes).toNat = queuedBytes rest := by
          rw [UInt64.toNat_sub_of_le _ _ covers, balanced]
          exact Nat.add_sub_cancel_left ..
        rw [if_pos (UInt64.le_iff_toNat_le.mpr covers)]
        exact ih _ _ balanced'
      · rfl

/-! ## Open receipts -/

section Receipts

variable (T : Transport K)

theorem outstanding_cons (job : Job K) (jobs : List (Job K)) :
    outstanding (job :: jobs) = job.receipts.length + outstanding jobs := by
  rw [outstanding, List.flatMap_cons, List.length_append]
  rfl

/-- Polling opens no receipt. -/
theorem pollJobs_outstanding (jobs : List (Job K)) (h : History K) :
    Ensures (pollJobs T jobs) h (fun out _ => outstanding out.1 ≤ outstanding jobs)
      (fun _ _ => True) := by
  induction jobs generalizing h with
  | nil => exact .pure (Nat.le_refl _)
  | cons job rest ih =>
      refine ((pollReceipts_ensures T job.receipts h).imp (fun _ _ polled => polled)
        fun _ _ _ => trivial).bind ?_
      rintro ⟨kept, polled⟩ h₁ ⟨found, -, perm⟩
      refine ((ih h₁).imp (fun _ _ fewer => fewer) fun _ _ _ => trivial).bind ?_
      rintro ⟨jobs, progressed⟩ h₂ fewer
      apply Ensures.pure
      have length : (found ++ kept).length = job.receipts.length := perm.length_eq
      rw [List.length_append] at length
      rw [outstanding_cons, outstanding_cons]
      have fewer : outstanding jobs ≤ outstanding rest := fewer
      show kept.length + outstanding jobs ≤ _
      omega

/-- The chunks in flight are counted, and stay within the limit. -/
theorem dispatchChunks_outstanding (limits : Limits) (remaining : List K.Chunk) (job : Job K)
    (inFlight : Nat) (progressed : Bool) (h : History K) :
    Ensures (dispatchChunks T limits job inFlight progressed remaining) h
      (fun d _ => d.job.receipts.length + inFlight = job.receipts.length + d.inFlight ∧
        d.inFlight ≤ max inFlight limits.inFlight.toNat)
      (fun _ _ => True) := by
  induction remaining generalizing job inFlight progressed h with
  | nil => exact .pure ⟨rfl, Nat.le_max_left ..⟩
  | cons chunk rest ih =>
      have stop : ∀ blocked h', Ensures (pure ⟨job, inFlight, progressed, blocked⟩ :
          Fallible (History K) K.Error (Dispatched K)) h'
          (fun d _ => d.job.receipts.length + inFlight = job.receipts.length + d.inFlight ∧
            d.inFlight ≤ max inFlight limits.inFlight.toNat) (fun _ _ => True) :=
        fun _ _ => .pure ⟨rfl, Nat.le_max_left ..⟩
      rw [dispatchChunks]
      split
      · exact stop _ _
      rename_i room
      refine ((T.callReady_ensures chunk h).imp (fun _ _ _ => trivial)
        fun _ _ _ => trivial).bind fun ready h₁ (_ : True) => ?_
      split
      · refine ((T.callSubmit_ensures job.owner chunk h₁).imp (fun _ _ _ => trivial)
          fun _ _ _ => trivial).bind fun answer h₂ (_ : True) => ?_
        cases answer with
        | none => exact stop _ _
        | some receipt =>
            refine (ih _ (inFlight + 1) true h₂).imp ?_ fun _ _ _ => trivial
            rintro d h' ⟨counted, within⟩
            rw [List.length_append, List.length_singleton] at counted
            omega
      · exact stop _ _

theorem dispatchJobs_outstanding (limits : Limits) (jobs : List (Job K)) (inFlight : Nat)
    (h : History K) :
    Ensures (dispatchJobs T limits inFlight jobs) h
      (fun out _ => outstanding out.1 + inFlight ≤
        outstanding jobs + max inFlight limits.inFlight.toNat)
      (fun _ _ => True) := by
  induction jobs generalizing inFlight h with
  | nil => exact .pure (Nat.add_le_add_left (Nat.le_max_left ..) _)
  | cons job rest ih =>
      refine (dispatchChunks_outstanding T limits _ job inFlight false h).bind ?_
      rintro d h₁ ⟨counted, within⟩
      split
      · apply Ensures.pure
        rw [outstanding_cons, outstanding_cons]
        omega
      refine ((ih d.inFlight h₁).imp (fun _ _ later => later) fun _ _ _ => trivial).bind ?_
      rintro ⟨jobs, progressed⟩ h₂ later
      apply Ensures.pure
      have later : outstanding jobs + d.inFlight ≤ outstanding rest + _ := later
      rw [outstanding_cons, outstanding_cons]
      omega

end Receipts

/-! ## The invariant -/

/-- The counters are right and within the limits: the bytes are the sum of those of the
jobs, over the limit only for one job alone. -/
structure Accounted (s : Scheduler K) : Prop where
  balanced : s.Balanced
  alone : s.limits.pendingBytes < s.bytes → ∃ job, s.jobs = [job] ∧ job.bytes = s.bytes
  submissions : s.jobs.length ≤ s.limits.submissions.toNat
  inFlight : outstanding s.jobs ≤ s.limits.inFlight.toNat

/-- A scheduler without jobs. -/
theorem Accounted.empty {s : Scheduler K} (jobs : s.jobs = []) (bytes : s.bytes = 0) :
    s.Accounted where
  balanced := by
    rw [Balanced, jobs, bytes]
    rfl
  alone above := by
    rw [bytes] at above
    exact absurd above (UInt64.not_lt.mpr (UInt64.le_iff_toNat_le.mpr (Nat.zero_le _)))
  submissions := by
    rw [jobs]
    exact Nat.zero_le _
  inFlight := by
    rw [jobs]
    exact Nat.zero_le _

/-- What a job that is admitted beside others comes to. -/
theorem checkAdmission_ok {s : Scheduler K} {memory : AdmissionSite → Bool} {job : Job K}
    (h : s.checkAdmission memory job = .ok ()) :
    s.jobs.length < s.limits.submissions.toNat ∧
      (s.jobs = [] ∨ saturatingAdd64 s.bytes job.bytes ≤ s.limits.pendingBytes) := by
  rw [checkAdmission] at h
  split at h
  · cases h
  · simp only [except_bind_eq_ok, failIf_eq_ok] at h
    obtain ⟨-, -, -, room, -⟩ := h
    rw [not_or, not_and_or, not_or, Bool.not_eq_false, List.isEmpty_iff] at room
    exact ⟨Nat.lt_of_not_le room.1, room.2.imp id fun within => UInt64.not_lt.mp within.2⟩

/-- Below the greatest number, a sum within the limit is the sum. -/
theorem saturatingAdd64_le {a b limit : UInt64} (below : limit.toNat < 2 ^ 64 - 1)
    (h : saturatingAdd64 a b ≤ limit) : a.toNat + b.toNat ≤ limit.toNat := by
  rw [UInt64.le_iff_toNat_le, saturatingAdd64, checkedAdd64] at h
  split at h
  · rename_i fits
    rw [Option.getD_some, UInt64.toNat_add, Nat.mod_eq_of_lt fits] at h
    exact h
  · rw [Option.getD_none, UInt64.toNat_ofNat'] at h
    omega

/-- An accepted job makes no sum wrap. -/
theorem Accounted.admits {s : Scheduler K} (a : s.Accounted)
    (below : s.limits.pendingBytes.toNat < 2 ^ 64 - 1) {memory : AdmissionSite → Bool}
    {job : Job K} (h : s.checkAdmission memory job = .ok ()) :
    s.bytes.toNat + job.bytes.toNat < 2 ^ 64 := by
  obtain ⟨-, empty | within⟩ := checkAdmission_ok h
  · have none : s.bytes.toNat = 0 := by
      rw [a.balanced, empty]
      rfl
    have := job.bytes.toNat_lt
    omega
  · have := saturatingAdd64_le below within
    omega

theorem queuedBytes_append (jobs : List (Job K)) (job : Job K) :
    queuedBytes (jobs ++ [job]) = queuedBytes jobs + job.bytes.toNat := by
  rw [queuedBytes, List.map_append, totalBytes_append]
  rfl

/-- Admitting a new job keeps the counters. -/
theorem Accounted.enqueue {s : Scheduler K} (a : s.Accounted)
    (below : s.limits.pendingBytes.toNat < 2 ^ 64 - 1) {memory : AdmissionSite → Bool}
    {job : Job K} (fresh : job.receipts = []) (h : s.checkAdmission memory job = .ok ()) :
    Accounted { s with jobs := s.jobs ++ [job], bytes := s.bytes + job.bytes } := by
  have fits := a.admits below h
  obtain ⟨room, alone⟩ := checkAdmission_ok h
  have sum : (s.bytes + job.bytes).toNat = s.bytes.toNat + job.bytes.toNat := by
    rw [UInt64.toNat_add, Nat.mod_eq_of_lt fits]
  refine ⟨?_, fun above => ?_, ?_, ?_⟩
  · show (s.bytes + job.bytes).toNat = queuedBytes (s.jobs ++ [job])
    rw [sum, queuedBytes_append, a.balanced]
  · rcases alone with empty | within
    · have none : s.bytes = 0 := by
        rw [← UInt64.toNat_inj, a.balanced, empty]
        rfl
      refine ⟨job, ?_, ?_⟩
      · show s.jobs ++ [job] = [job]
        rw [empty, List.nil_append]
      · show job.bytes = s.bytes + job.bytes
        rw [none, UInt64.zero_add]
    · have above : s.limits.pendingBytes < s.bytes + job.bytes := above
      have := saturatingAdd64_le below within
      rw [UInt64.lt_iff_toNat_lt, sum] at above
      omega
  · show (s.jobs ++ [job]).length ≤ _
    rw [List.length_append, List.length_singleton]
    exact room
  · show outstanding (s.jobs ++ [job]) ≤ _
    have same : outstanding (s.jobs ++ [job]) = outstanding s.jobs := by
      rw [outstanding, List.flatMap_append, List.flatMap_singleton, fresh, List.append_nil]
      rfl
    rw [same]
    exact a.inFlight

theorem enqueuePrepared_accounted {s : Scheduler K} (a : s.Accounted)
    (below : s.limits.pendingBytes.toNat < 2 ^ 64 - 1) (memory : AdmissionSite → Bool)
    {job : Job K} (fresh : job.receipts = []) :
    (enqueuePrepared memory job s).2.Accounted := by
  rw [enqueuePrepared, read_bind_run, bind_run, lift_run]
  cases hcheck : s.checkAdmission memory job with
  | error e => exact a
  | ok _ => exact a.enqueue below fresh hcheck

/-- Retiring takes jobs off the front. -/
theorem retire_suffix (jobs : List (Job K)) (bytes : UInt64) (h : History K) :
    (retire jobs bytes h).1 <:+ jobs := by
  induction jobs generalizing bytes h with
  | nil => exact List.suffix_rfl
  | cons job rest ih =>
      rw [retire]
      split
      · exact (ih _ _).trans (List.suffix_cons ..)
      · exact List.suffix_rfl

theorem outstanding_suffix {jobs jobs' : List (Job K)} (h : jobs' <:+ jobs) :
    outstanding jobs' ≤ outstanding jobs := by
  obtain ⟨front, rfl⟩ := h
  rw [outstanding, outstanding, List.flatMap_append, List.length_append]
  exact Nat.le_add_left ..

/-- The worker opens no receipt over the limit. -/
theorem advance_outstanding (T : Transport K) (s : Scheduler K) (h : History K) :
    outstanding (s.advance T h).2.1.jobs ≤ max (outstanding s.jobs) s.limits.inFlight.toNat := by
  have polls := pollJobs_outstanding T s.jobs h
  rw [advance]
  rcases hpoll : pollJobs T s.jobs h with ⟨error | ⟨jobs, polled⟩, h₁⟩
  · exact Nat.zero_le _
  · have fewer : outstanding jobs ≤ outstanding s.jobs := polls.of_eq_ok hpoll
    have suffix := outstanding_suffix (retire_suffix jobs s.bytes h₁)
    have dispatches := dispatchJobs_outstanding T s.limits (retire jobs s.bytes h₁).1
      (outstanding (retire jobs s.bytes h₁).1) (retire jobs s.bytes h₁).2.2
    simp only
    split
    · exact Nat.zero_le _
    · rename_i jobs₃ submitted h₃ hdispatch
      have within : outstanding jobs₃ + _ ≤ _ := dispatches.of_eq_ok hdispatch
      show outstanding jobs₃ ≤ _
      omega

/-- What is left of a queue that is over the limit is the same one job. -/
theorem Accounted.of_left {s s' : Scheduler K} (a : s.Accounted) {gone : List (K.Signal × UInt64)}
    (left : s.jobs.map Job.due = gone ++ s'.jobs.map Job.due) (balanced : s'.Balanced)
    (limits : s'.limits = s.limits)
    (inFlight : outstanding s'.jobs ≤ s'.limits.inFlight.toNat) : s'.Accounted := by
  have lengths : s.jobs.length = gone.length + s'.jobs.length := by
    have := congrArg List.length left
    rwa [List.length_map, List.length_append, List.length_map] at this
  have fewer : queuedBytes s'.jobs ≤ queuedBytes s.jobs := by
    rw [queuedBytes_eq, queuedBytes_eq, left, List.map_append, totalBytes_append]
    exact Nat.le_add_left ..
  refine ⟨balanced, fun above => ?_, ?_, inFlight⟩
  · have before : s.limits.pendingBytes < s.bytes := by
      rw [UInt64.lt_iff_toNat_lt, limits, balanced] at above
      rw [UInt64.lt_iff_toNat_lt, a.balanced]
      omega
    obtain ⟨job, alone, -⟩ := a.alone before
    rw [alone, List.length_singleton] at lengths
    cases hjobs : s'.jobs with
    | nil =>
        rw [UInt64.lt_iff_toNat_lt, balanced, hjobs] at above
        exact absurd above (Nat.not_lt_zero _)
    | cons job' rest =>
        rw [hjobs, List.length_cons] at lengths
        obtain rfl : rest = [] := List.length_eq_zero_iff.mp (by omega)
        refine ⟨job', rfl, ?_⟩
        rw [← UInt64.toNat_inj, balanced, hjobs]
        rfl
  · have := a.submissions
    rw [limits]
    omega

theorem advance_accounted (T : Transport K) {s : Scheduler K} (a : s.Accounted) (h : History K) :
    (s.advance T h).2.1.Accounted := by
  have advanced := advance_advanced T a.balanced h
  obtain ⟨calls, gone, -, -, left⟩ := advanced.accounts
  refine a.of_left left advanced.balanced advanced.limits ?_
  have within := advance_outstanding T s h
  rw [advanced.limits]
  exact Nat.le_trans within (Nat.max_le.mpr ⟨a.inFlight, Nat.le_refl _⟩)

theorem fail_accounted (error : K.Error) (s : Scheduler K) (h : History K) :
    (s.fail error h).1.Accounted := .empty rfl rfl

/-- A refused job leaves the scheduler as it is. -/
theorem enqueuePrepared_refused {memory : AdmissionSite → Bool} {job : Job K} {s s' : Scheduler K}
    {e : AdmissionError K.Error} (h : enqueuePrepared memory job s = (.error e, s')) : s' = s := by
  rcases enqueuePrepared_cases memory job s with ⟨e', refused⟩ | ⟨-, accepted⟩
  · rw [refused] at h
    exact (Prod.mk.inj h).2.symm
  · rw [accepted] at h
    cases (Prod.mk.inj h).1

theorem enqueue_refused {T : Transport K} {memory : AdmissionSite → Bool} {job : Submission K}
    {s s' : Scheduler K} {e : AdmissionError K.Error}
    (h : enqueue T memory job s = (.error e, s')) : s' = s := by
  rcases enqueue_cases T memory job s with ⟨e', -, refused⟩ | ⟨prepared, -, same⟩
  · rw [refused] at h
    exact (Prod.mk.inj h).2.symm
  · rw [same] at h
    exact enqueuePrepared_refused h

end Scheduler

/-! ## Runs -/

namespace SchedulerRun

open Scheduler

/-- The limits of a run are those it was made with. -/
structure Counted (limits : Limits) (r : SchedulerRun K) : Prop where
  accounted : r.scheduler.Accounted
  limits_eq : r.scheduler.limits = limits

theorem Counted.enqueuePrepared {limits : Limits} {r : SchedulerRun K} (c : Counted limits r)
    (below : limits.pendingBytes.toNat < 2 ^ 64 - 1) (memory : AdmissionSite → Bool)
    {job : Job K} (fresh : job.receipts = []) (submission : Submission K) :
    Counted limits (r.answered submission (Scheduler.enqueuePrepared memory job r.scheduler)) where
  accounted := enqueuePrepared_accounted c.accounted (c.limits_eq ▸ below) memory fresh
  limits_eq := by
    show (Scheduler.enqueuePrepared memory job r.scheduler).2.limits = limits
    rcases enqueuePrepared_cases memory job r.scheduler with ⟨e, refused⟩ | ⟨-, accepted⟩
    · rw [refused]
      exact c.limits_eq
    · rw [accepted]
      exact c.limits_eq

/-- One operation keeps the counters. -/
theorem Counted.step {limits : Limits} {r : SchedulerRun K} (c : Counted limits r)
    (below : limits.pendingBytes.toNat < 2 ^ 64 - 1) (T : Transport K) (op : SchedulerOp K) :
    Counted limits (r.step T op) := by
  cases op with
  | enqueue memory job =>
      rw [SchedulerRun.step]
      rcases enqueue_cases T memory job r.scheduler with ⟨e, -, refused⟩ | ⟨prepared, hp, same⟩
      · rw [refused]
        exact c
      · rw [same]
        exact c.enqueuePrepared below memory (Job.prepare_ok hp).2.2 job
  | enqueuePrepared limits' memory job =>
      rw [SchedulerRun.step]
      cases hp : Job.prepare T limits' memory job with
      | error e => exact c
      | ok prepared => exact c.enqueuePrepared below memory (Job.prepare_ok hp).2.2 job
  | advance =>
      have advanced := advance_advanced T c.accounted.balanced r.history
      exact ⟨advance_accounted T c.accounted r.history, advanced.limits.trans c.limits_eq⟩
  | fail error => exact ⟨fail_accounted error r.scheduler r.history, c.limits_eq⟩

theorem new_counted (limits : Limits) : Counted limits (new limits : SchedulerRun K) :=
  ⟨.empty rfl rfl, rfl⟩

theorem run_counted (T : Transport K) {limits : Limits}
    (below : limits.pendingBytes.toNat < 2 ^ 64 - 1) (ops : List (SchedulerOp K)) :
    Counted limits (run T (new limits) ops) := by
  induction ops using List.reverseRecOn with
  | nil => exact new_counted limits
  | append_singleton ops op ih =>
      rw [run, List.foldl_append]
      exact ih.step below T op

/-- What the counters of a scheduler promise: they are right and within the limits, a job
that is admitted makes no sum wrap, the jobs that the worker retires make no difference
wrap, and a job that is refused changes nothing. -/
structure CountersHold (T : Transport K) (limits : Limits) (s : Scheduler K) : Prop where
  limits_eq : s.limits = limits
  accounted : s.Accounted
  sum_fits : ∀ memory job, s.checkAdmission memory job = .ok () →
    s.bytes.toNat + job.bytes.toNat < 2 ^ 64
  difference_fits : ∀ h h' jobs polled, pollJobs T s.jobs h = (.ok (jobs, polled), h') →
    retireChecked jobs s.bytes h' = some (retire jobs s.bytes h')
  prepared_refused : ∀ memory job e s',
    Scheduler.enqueuePrepared memory job s = (.error e, s') → s' = s
  refused : ∀ memory job e s', Scheduler.enqueue T memory job s = (.error e, s') → s' = s

/-- **The scheduler's counters.**  They hold after every run whose limit of pending bytes is
below the greatest number. -/
theorem run_countersHold (T : Transport K) (limits : Limits)
    (below : limits.pendingBytes.toNat < 2 ^ 64 - 1) (ops : List (SchedulerOp K)) :
    CountersHold T limits (run T (new limits) ops).scheduler := by
  obtain ⟨accounted, same⟩ := run_counted T below ops
  generalize (run T (new limits) ops).scheduler = s at accounted same
  refine ⟨same, accounted, fun memory job h => ?_, fun h h' jobs polled hpoll => ?_,
    fun _ _ _ _ h => enqueuePrepared_refused h, fun _ _ _ _ h => enqueue_refused h⟩
  · rw [← same] at below
    exact accounted.admits below h
  · have due : jobs.map Job.due = s.jobs.map Job.due :=
      ((pollJobs_due T s.jobs h).of_eq_ok hpoll).2
    apply retireChecked_eq
    rw [queuedBytes_eq, due, ← queuedBytes_eq]
    exact accounted.balanced

/-- One byte, of which one may be pending. -/
theorem run_countersHold_oneByte :
    CountersHold eagerTransport unitLimits (run eagerTransport (new unitLimits)
      [.enqueue (fun _ => true) ⟨[(1 : UInt64)], (), ()⟩, .advance]).scheduler :=
  run_countersHold eagerTransport unitLimits (by decide) _

end SchedulerRun

end Sgfx
