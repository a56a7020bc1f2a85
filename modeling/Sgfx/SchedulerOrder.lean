import Mathlib.Data.List.Induction
import Mathlib.Data.List.Perm.Subperm
import Sgfx.Library.Traces
import Sgfx.Scheduler

/-!
# Submission and completion order

The scheduler keeps, for every queued job, how many of its chunks were submitted
and which receipts are open.  `Progress` relates the queue to what the transport
accepted: the accepted chunks are those of the queued jobs in order, each job's
open receipts are those of its chunks that were not polled complete, and a job is
only started when the job before it was submitted completely.

## Main Definitions

* `History.accepted`, `History.polled`, `History.completions`
* `Progress`, `Open` — the queue against the history
* `Certified` — what a successful completion rests on

## Main Results

* `Open.pollJobs`, `Open.retire`, `Open.dispatchJobs` — the three loops of `advance`
* `submission_order` — the accepted chunks are a prefix of the admitted ones
* `completion_order` — each job is completed once, in order, when it is done
-/

namespace Sgfx

variable {K : TransportTypes}

/-! ## Reading a history -/

namespace History

/-- The chunks that `submit` accepted, with their receipts. -/
def accepted (h : History K) : List (K.Chunk × K.Receipt) :=
  h.filterMap fun
    | .submit _ chunk (.ok receipt) => some (chunk, receipt)
    | _ => none

/-- The receipts that `poll` found complete. -/
def polled (h : History K) : List K.Receipt :=
  h.filterMap fun
    | .poll receipt (.ok true) => some receipt
    | _ => none

/-- The completions signalled. -/
def completions (h : History K) : List (K.Signal × Except K.Error Unit) :=
  h.filterMap fun
    | .complete signal result => some (signal, result)
    | _ => none

@[simp] theorem accepted_append (h h' : History K) :
    accepted (h ++ h') = accepted h ++ accepted h' := List.filterMap_append

@[simp] theorem polled_append (h h' : History K) :
    polled (h ++ h') = polled h ++ polled h' := List.filterMap_append

@[simp] theorem completions_append (h h' : History K) :
    completions (h ++ h') = completions h ++ completions h' := List.filterMap_append

/-- The calls added to a history complete no job; these chunks are accepted and
these receipts found complete. -/
structure Extends (h h' : History K) (chunks : List (K.Chunk × K.Receipt))
    (done : List K.Receipt) : Prop where
  calls : ∃ calls, h' = h ++ calls ∧ completions calls = [] ∧ accepted calls = chunks ∧
    polled calls = done

namespace Extends

variable {h h' h'' : History K} {chunks chunks' : List (K.Chunk × K.Receipt)}
  {done done' : List K.Receipt}

theorem refl (h : History K) : Extends h h [] [] := ⟨[], by simp, rfl, rfl, rfl⟩

theorem trans (first : Extends h h' chunks done) (second : Extends h' h'' chunks' done') :
    Extends h h'' (chunks ++ chunks') (done ++ done') := by
  obtain ⟨calls, rfl, hcompletions, rfl, rfl⟩ := first
  obtain ⟨calls', rfl, hcompletions', rfl, rfl⟩ := second
  exact ⟨calls ++ calls', by simp, by simp [hcompletions, hcompletions'], by simp, by simp⟩

theorem accepted_eq (e : Extends h h' chunks done) : accepted h' = accepted h ++ chunks := by
  obtain ⟨calls, rfl, -, rfl, -⟩ := e
  exact accepted_append ..

theorem polled_eq (e : Extends h h' chunks done) : polled h' = polled h ++ done := by
  obtain ⟨calls, rfl, -, -, rfl⟩ := e
  exact polled_append ..

theorem completions_eq (e : Extends h h' chunks done) : completions h' = completions h := by
  obtain ⟨calls, rfl, hcompletions, -, -⟩ := e
  rw [completions_append, hcompletions, List.append_nil]

end Extends

end History

open History Fallible Scheduler

/-! ## The queue against the history -/

/-- What a client handed over. -/
def Job.submission (job : Job K) : Submission K := ⟨job.chunks, job.owner, job.signal⟩

/-- The transport accepted these chunks of a job and found these receipts
complete. -/
structure Segment (job : Job K) (accepted : List (K.Chunk × K.Receipt)) (done : List K.Receipt) :
    Prop where
  length : accepted.length = job.next
  chunks : accepted.map Prod.fst <+: job.chunks
  receipts : (done ++ job.receipts).Perm (accepted.map Prod.snd)

/-- What the transport accepted of a queue, job after job, and which receipts it
found complete.  A job is started only when the job before it was submitted
completely. -/
inductive Progress : List (Job K) → List (K.Chunk × K.Receipt) → List K.Receipt → Prop
  | nil : Progress [] [] []
  | cons {job : Job K} {jobs : List (Job K)} {accepted later : List (K.Chunk × K.Receipt)}
      {done doneLater : List K.Receipt} (own : Segment job accepted done)
      (order : accepted.length = job.chunks.length ∨ later = [])
      (rest : Progress jobs later doneLater) :
      Progress (job :: jobs) (accepted ++ later) (done ++ doneLater)

namespace Segment

variable {job : Job K} {accepted new : List (K.Chunk × K.Receipt)} {done found kept : List K.Receipt}

theorem chunks_eq (own : Segment job accepted done) :
    accepted.map Prod.fst ++ job.chunks.drop job.next = job.chunks := by
  have taken := List.prefix_iff_eq_take.mp own.chunks
  rw [List.length_map, own.length] at taken
  rw [taken, List.take_append_drop]

theorem poll (own : Segment job accepted done) (h : (found ++ kept).Perm job.receipts) :
    Segment { job with receipts := kept } accepted (done ++ found) where
  length := own.length
  chunks := own.chunks
  receipts := by
    rw [List.append_assoc]
    exact (h.append_left done).trans own.receipts

theorem submit (own : Segment job accepted done)
    (next : new.map Prod.fst <+: job.chunks.drop job.next) :
    Segment { job with receipts := job.receipts ++ new.map Prod.snd
                       next := job.next + new.length } (accepted ++ new) done where
  length := by rw [List.length_append, own.length]
  chunks := by
    have extended := (List.prefix_append_right_inj (accepted.map Prod.fst)).mpr next
    rwa [own.chunks_eq, ← List.map_append] at extended
  receipts := by
    rw [List.map_append, ← List.append_assoc]
    exact own.receipts.append_right _

end Segment

/-- A job that was not started may wait at the end of the queue. -/
theorem Progress.enqueue {jobs : List (Job K)} {accepted : List (K.Chunk × K.Receipt)}
    {done : List K.Receipt} (h : Progress jobs accepted done) {job : Job K}
    (fresh : job.next = 0 ∧ job.receipts = []) : Progress (jobs ++ [job]) accepted done := by
  induction h with
  | nil =>
      have waiting : Segment job [] [] :=
        ⟨fresh.1.symm, List.nil_prefix, by rw [fresh.2]; exact .nil⟩
      exact .cons waiting (.inr rfl) .nil
  | cons own order rest ih => exact .cons own order ih

/-- The accepted chunks of a queue are the first ones of its chunks. -/
theorem Progress.isPrefix {jobs : List (Job K)} {accepted : List (K.Chunk × K.Receipt)}
    {done : List K.Receipt} (h : Progress jobs accepted done) :
    accepted.map Prod.fst <+: jobs.flatMap Job.chunks := by
  induction h with
  | nil => exact List.prefix_rfl
  | @cons job jobs accepted later done doneLater own order rest ih =>
      rw [List.map_append, List.flatMap_cons]
      rcases order with complete | rfl
      · rw [own.chunks.eq_of_length (by rw [List.length_map, complete])]
        exact (List.prefix_append_right_inj _).mpr ih
      · rw [List.map_nil, List.append_nil]
        exact own.chunks.trans (List.prefix_append ..)

/-- Polling took the queue from `jobs` to `jobs'`: it found some more receipts
complete. -/
def Polls (h h' : History K) (jobs jobs' : List (Job K)) (accepted : List (K.Chunk × K.Receipt))
    (done : List K.Receipt) : Prop :=
  ∃ found done', Extends h h' [] found ∧ Progress jobs' accepted done' ∧
    done'.Perm (done ++ found) ∧ jobs'.map Job.submission = jobs.map Job.submission

/-- Dispatching the remaining chunks of a job accepted the first of them, all
unless the job is blocked. -/
def Sends (h h' : History K) (job : Job K) (remaining : List K.Chunk) (d : Dispatched K) : Prop :=
  ∃ new : List (K.Chunk × K.Receipt), Extends h h' new [] ∧ new.map Prod.fst <+: remaining ∧
    d.job = { job with receipts := job.receipts ++ new.map Prod.snd
                       next := job.next + new.length } ∧
    (d.blocked = false → new.map Prod.fst = remaining)

theorem Sends.stop {h h' : History K} {blocked : Bool} {remaining : List K.Chunk} (job : Job K)
    (inFlight : Nat) (progressed : Bool) (called : Extends h h' [] [])
    (unblocked : blocked = false → remaining = []) :
    Sends h h' job remaining ⟨job, inFlight, progressed, blocked⟩ :=
  ⟨[], called, List.nil_prefix, by simp, fun hb => (unblocked hb).symm⟩

/-- Dispatching took the queue from `jobs` to `jobs'`: some more chunks were
accepted. -/
def Submits (h h' : History K) (jobs jobs' : List (Job K)) (accepted : List (K.Chunk × K.Receipt))
    (done : List K.Receipt) : Prop :=
  ∃ new, Extends h h' new [] ∧ Progress jobs' (accepted ++ new) done ∧
    jobs'.map Job.submission = jobs.map Job.submission

/-! ## The loops -/

section Loops

open scoped List

variable (T : Transport K)

theorem Transport.callPoll_ensures (receipt : K.Receipt) (h : History K) :
    Ensures (T.callPoll receipt) h
      (fun complete h' => Extends h h' [] (if complete then [receipt] else []))
      (fun _ h' => Extends h h' [] []) := by
  rw [Ensures, callPoll]
  cases T.poll h receipt with
  | ok complete => exact ⟨[_], rfl, rfl, rfl, by cases complete <;> rfl⟩
  | error e => exact ⟨[_], rfl, rfl, rfl, rfl⟩

theorem Transport.callReady_ensures (chunk : K.Chunk) (h : History K) :
    Ensures (T.callReady chunk) h (fun _ h' => Extends h h' [] [])
      (fun _ h' => Extends h h' [] []) := by
  rw [Ensures, callReady]
  cases T.ready h chunk <;> exact ⟨[_], rfl, rfl, rfl, rfl⟩

theorem Transport.callSubmit_ensures (owner : K.Owner) (chunk : K.Chunk) (h : History K) :
    Ensures (T.callSubmit owner chunk) h
      (fun answer h' => Extends h h' (answer.toList.map fun receipt => (chunk, receipt)) [])
      (fun _ h' => Extends h h' [] []) := by
  rw [Ensures, callSubmit]
  cases T.submit h owner chunk with
  | ok receipt => exact ⟨[_], rfl, rfl, rfl, rfl⟩
  | error refusal => cases refusal <;> exact ⟨[_], rfl, rfl, rfl, rfl⟩

namespace Scheduler

theorem pollReceipts_ensures (receipts : List K.Receipt) (h : History K) :
    Ensures (pollReceipts T receipts) h
      (fun out h' => ∃ found, Extends h h' [] found ∧ (found ++ out.1).Perm receipts)
      (fun _ h' => ∃ found kept, Extends h h' [] found ∧ (found ++ kept).Perm receipts) := by
  induction receipts generalizing h with
  | nil => exact .pure ⟨[], .refl h, .nil⟩
  | cons receipt rest ih =>
      refine ((T.callPoll_ensures receipt h).imp (fun _ _ called => called) fun _ _ called =>
        ⟨[], receipt :: rest, called, .refl _⟩).bind fun complete h₁ called => ?_
      -- A complete receipt is found, another is kept; in both cases the rest follows.
      have extend : ∀ {h' found kept}, Extends h₁ h' [] found → (found ++ kept).Perm rest →
          Extends h h' [] ((if complete then [receipt] else []) ++ found) ∧
            ((if complete then [receipt] else []) ++ found ++
              if complete then kept else receipt :: kept).Perm (receipt :: rest) := by
        intro h' found kept found_ext perm
        refine ⟨called.trans found_ext, ?_⟩
        cases complete with
        | true => exact perm.cons receipt
        | false => exact List.perm_middle.trans (perm.cons receipt)
      refine ((ih h₁).imp (fun _ _ polled => polled) ?_).bind ?_
      · rintro _ h' ⟨found, kept, found_ext, perm⟩
        exact ⟨_, _, extend found_ext perm⟩
      · rintro ⟨kept, progressed⟩ h' ⟨found, found_ext, perm⟩
        refine .pure ⟨_, (extend found_ext perm).1, ?_⟩
        have := (extend found_ext perm).2
        cases complete <;> exact this

theorem pollJobs_ensures {jobs : List (Job K)} {accepted : List (K.Chunk × K.Receipt)}
    {done : List K.Receipt} (p : Progress jobs accepted done) (h : History K) :
    Ensures (pollJobs T jobs) h (fun out h' => Polls h h' jobs out.1 accepted done)
      (fun _ h' => ∃ jobs', Polls h h' jobs jobs' accepted done) := by
  induction p generalizing h with
  | nil => exact .pure ⟨[], [], .refl h, .nil, .nil, rfl⟩
  | @cons job jobs accepted later done doneLater own order rest ih =>
      refine ((pollReceipts_ensures T job.receipts h).imp (fun _ _ polled => polled) ?_).bind ?_
      · rintro _ h' ⟨found, kept, found_ext, perm⟩
        refine ⟨{ job with receipts := kept } :: jobs, found, _, found_ext,
          .cons (own.poll perm) order rest, ?_, rfl⟩
        rw [List.append_assoc, List.append_assoc]
        exact List.perm_append_comm.append_left done
      rintro ⟨kept, polled⟩ h₁ ⟨found, found_ext, perm⟩
      have combine : ∀ {h' jobs'}, Polls h₁ h' jobs jobs' later doneLater →
          Polls h h' (job :: jobs) ({ job with receipts := kept } :: jobs') (accepted ++ later)
            (done ++ doneLater) := by
        rintro h' jobs' ⟨found', done', found_ext', progress, perm', same⟩
        refine ⟨_, _, found_ext.trans found_ext', .cons (own.poll perm) order progress, ?_, ?_⟩
        · calc done ++ found ++ done'
            _ ~ done ++ found ++ (doneLater ++ found') := perm'.append_left _
            _ = done ++ (found ++ doneLater) ++ found' := by simp
            _ ~ done ++ (doneLater ++ found) ++ found' :=
                (List.perm_append_comm.append_left done).append_right found'
            _ = done ++ doneLater ++ (found ++ found') := by simp
        · rw [List.map_cons, List.map_cons, same]
          rfl
      refine ((ih h₁).imp (fun _ _ polls => polls) ?_).bind ?_
      · rintro _ h' ⟨jobs', polls⟩
        exact ⟨_, combine polls⟩
      · rintro ⟨jobs', progressed⟩ h' polls
        exact .pure (combine polls)

theorem dispatchChunks_ensures (limits : Limits) (remaining : List K.Chunk) (job : Job K)
    (inFlight : Nat) (progressed : Bool) (h : History K) :
    Ensures (dispatchChunks T limits job inFlight progressed remaining) h
      (fun d h' => Sends h h' job remaining d)
      (fun _ h' => ∃ new : List (K.Chunk × K.Receipt), Extends h h' new [] ∧
        new.map Prod.fst <+: remaining) := by
  induction remaining generalizing job inFlight progressed h with
  | nil => exact .pure (.stop job _ _ (.refl h) fun _ => rfl)
  | cons chunk rest ih =>
      rw [dispatchChunks]
      split
      · exact .pure (.stop job _ _ (.refl h) nofun)
      refine ((T.callReady_ensures chunk h).imp (fun _ _ called => called) fun _ _ called =>
        ⟨[], called, List.nil_prefix⟩).bind fun ready h₁ called => ?_
      split
      · refine ((T.callSubmit_ensures job.owner chunk h₁).imp (fun _ _ called => called)
          fun _ _ called' => ⟨[], called.trans called', List.nil_prefix⟩).bind
            fun answer h₂ called' => ?_
        cases answer with
        | none => exact .pure (.stop job _ _ (called.trans called') nofun)
        | some receipt =>
            have accepted := called.trans called'
            have extend : ∀ {h'} {new : List (K.Chunk × K.Receipt)}, Extends h₂ h' new [] →
                new.map Prod.fst <+: rest →
                Extends h h' ((chunk, receipt) :: new) [] ∧
                  ((chunk, receipt) :: new).map Prod.fst <+: chunk :: rest :=
              fun new_ext isPrefix =>
                ⟨accepted.trans new_ext, List.cons_prefix_cons.mpr ⟨rfl, isPrefix⟩⟩
            refine (ih _ _ _ h₂).imp ?_ ?_
            · rintro d h' ⟨new, new_ext, isPrefix, hjob, unblocked⟩
              obtain ⟨all_ext, allPrefix⟩ := extend new_ext isPrefix
              refine ⟨_, all_ext, allPrefix, ?_, fun hb => by rw [List.map_cons, unblocked hb]⟩
              rw [hjob]
              simp [Nat.add_assoc, Nat.add_comm 1]
            · rintro _ h' ⟨new, new_ext, isPrefix⟩
              exact ⟨_, extend new_ext isPrefix⟩
      · exact .pure (.stop job _ _ called nofun)

theorem dispatchJobs_ensures (limits : Limits) {jobs : List (Job K)}
    {accepted : List (K.Chunk × K.Receipt)} {done : List K.Receipt}
    (p : Progress jobs accepted done) (inFlight : Nat) (h : History K) :
    Ensures (dispatchJobs T limits inFlight jobs) h
      (fun out h' => Submits h h' jobs out.1 accepted done)
      (fun _ h' => ∃ jobs', Submits h h' jobs jobs' accepted done) := by
  induction p generalizing inFlight h with
  | nil => exact .pure ⟨[], .refl h, .nil, rfl⟩
  | @cons job jobs accepted later done doneLater own order rest ih =>
      -- What this job submits stands before what the rest of the queue had submitted: that
      -- is nothing, or this job has no chunk left.
      have swap : ∀ {new : List (K.Chunk × K.Receipt)},
          new.map Prod.fst <+: job.chunks.drop job.next → later ++ new = new ++ later := by
        intro new next
        have := own.length
        rcases order with complete | rfl
        · rw [List.drop_eq_nil_of_le (by omega), List.prefix_nil,
            List.map_eq_nil_iff] at next
          rw [next, List.append_nil, List.nil_append]
        · rw [List.append_nil, List.nil_append]
      have order' : ∀ {new : List (K.Chunk × K.Receipt)},
          new.map Prod.fst <+: job.chunks.drop job.next →
          (accepted ++ new).length = job.chunks.length ∨ later = [] := by
        intro new next
        refine order.imp_left fun complete => ?_
        have := next.length_le
        rw [List.length_map, List.length_drop, ← own.length] at this
        rw [List.length_append]
        omega
      have submitHere : ∀ {h' : History K} {new : List (K.Chunk × K.Receipt)} {job' : Job K},
          Extends h h' new [] → new.map Prod.fst <+: job.chunks.drop job.next →
          job' = { job with receipts := job.receipts ++ new.map Prod.snd
                            next := job.next + new.length } →
          Submits h h' (job :: jobs) (job' :: jobs) (accepted ++ later) (done ++ doneLater) := by
        rintro h' new job' new_ext next rfl
        refine ⟨new, new_ext, ?_, rfl⟩
        rw [List.append_assoc, swap next, ← List.append_assoc]
        exact .cons (own.submit next) (order' next) rest
      refine ((dispatchChunks_ensures T limits _ job inFlight false h).imp
        (fun _ _ dispatched => dispatched) ?_).bind ?_
      · rintro _ h' ⟨new, new_ext, next⟩
        exact ⟨_, submitHere new_ext next rfl⟩
      rintro d h₁ ⟨new, new_ext, next, hjob, unblocked⟩
      split
      · exact .pure (submitHere new_ext next hjob)
      rename_i notBlocked
      have all := unblocked (Bool.eq_false_iff.mpr notBlocked)
      have combine : ∀ {h' jobs'}, Submits h₁ h' jobs jobs' later doneLater →
          Submits h h' (job :: jobs) (d.job :: jobs') (accepted ++ later) (done ++ doneLater) := by
        rintro h' jobs' ⟨new', new_ext', progress, same⟩
        rw [hjob]
        refine ⟨_, new_ext.trans new_ext', ?_, ?_⟩
        · have : accepted ++ later ++ (new ++ new') = accepted ++ new ++ (later ++ new') := by
            rw [List.append_assoc, ← List.append_assoc later, swap next]
            simp
          rw [this]
          refine .cons (own.submit next) (.inl ?_) progress
          have := congrArg List.length own.chunks_eq
          rw [← all] at this
          simpa using this
        · rw [List.map_cons, List.map_cons, same]
          rfl
      refine ((ih d.inFlight h₁).imp (fun _ _ submits => submits) ?_).bind ?_
      · rintro _ h' ⟨jobs', submits⟩
        exact ⟨_, combine submits⟩
      · rintro ⟨jobs', progressed⟩ h' submits
        exact .pure (combine submits)

end Scheduler

end Loops

/-! ## Completion -/

/-- The successful completion of a job, after this history, rests on this: the
jobs admitted earlier were completed successfully and nothing else was, the
transport accepted all the chunks up to the job's last, and every receipt of
theirs was found complete. -/
structure Certified (before : History K) (earlier : List (Submission K)) (job : Submission K) :
    Prop where
  prior : completions before = earlier.map fun s => (s.signal, .ok ())
  submitted : (earlier ++ [job]).flatMap Submission.chunks <+: (accepted before).map Prod.fst
  found : List.Subperm (((accepted before).map Prod.snd).take
    ((earlier ++ [job]).flatMap Submission.chunks).length) (polled before)

/-- Every successful completion of the history is certified, for the admitted job
at its position. -/
def Certifies (admitted : List (Submission K)) (h : History K) : Prop :=
  Along (fun before x => ∀ signal, x = .complete signal (.ok ()) →
    ∃ earlier job later, admitted = earlier ++ job :: later ∧ job.signal = signal ∧
      Certified before earlier job) h

namespace Certifies

variable {admitted : List (Submission K)} {h calls : History K}

theorem enqueue (certifies : Certifies admitted h) (s : Submission K) :
    Certifies (admitted ++ [s]) h := by
  intro before x after hsplit signal hx
  obtain ⟨earlier, job, later, rfl, hsignal, certified⟩ :=
    certifies before x after hsplit signal hx
  exact ⟨earlier, job, later ++ [s], by simp, hsignal, certified⟩

/-- Calls that signal no success need no certificate. -/
theorem append (certifies : Certifies admitted h)
    (quiet : ∀ signal, (signal, Except.ok ()) ∉ completions calls) :
    Certifies admitted (h ++ calls) := by
  induction calls using List.reverseRecOn with
  | nil => rwa [List.append_nil]
  | append_singleton calls x ih =>
      simp only [completions_append, List.mem_append, not_or] at quiet
      rw [← List.append_assoc, Certifies, along_snoc]
      refine ⟨ih fun signal => (quiet signal).1, ?_⟩
      rintro signal rfl
      exact absurd (List.mem_singleton_self _) (quiet signal).2

theorem extend {h' : History K} {chunks : List (K.Chunk × K.Receipt)} {done : List K.Receipt}
    (certifies : Certifies admitted h) (e : Extends h h' chunks done) :
    Certifies admitted h' := by
  obtain ⟨calls, rfl, silent, -, -⟩ := e
  exact certifies.append (by simp [silent])

end Certifies

/-- The state of a queue that has not failed: the jobs admitted are those retired,
each completed successfully, and those queued. -/
structure Open (admitted retired : List (Submission K)) (jobs : List (Job K)) (h : History K) :
    Prop where
  admitted : admitted = retired ++ jobs.map Job.submission
  completed : completions h = retired.map fun s => (s.signal, .ok ())
  progress : ∃ earlier later done, accepted h = earlier ++ later ∧
    earlier.map Prod.fst = retired.flatMap Submission.chunks ∧ Progress jobs later done ∧
    (polled h).Perm (earlier.map Prod.snd ++ done)

namespace Open

variable {admitted retired : List (Submission K)} {jobs jobs' : List (Job K)} {h h' : History K}

theorem accepted_isPrefix (o : Open admitted retired jobs h) :
    (accepted h).map Prod.fst <+: admitted.flatMap Submission.chunks := by
  obtain ⟨earlier, later, done, haccepted, hearlier, progress, -⟩ := o.progress
  have queued : jobs.flatMap Job.chunks =
      (jobs.map Job.submission).flatMap Submission.chunks := by
    rw [List.flatMap_map]
    rfl
  rw [haccepted, o.admitted, List.map_append, List.flatMap_append, hearlier, ← queued]
  exact (List.prefix_append_right_inj _).mpr progress.isPrefix

/-- A finished job at the front of the queue is certified, and retires. -/
theorem complete {job : Job K} (o : Open admitted retired (job :: jobs) h)
    (finished : job.finished = true) :
    Certified h retired job.submission ∧
      Open admitted (retired ++ [job.submission]) jobs
        (h ++ [.complete job.signal (.ok ())]) := by
  rw [Job.finished, Bool.and_eq_true, beq_iff_eq, List.isEmpty_iff] at finished
  obtain ⟨earlier, later', done', haccepted, hearlier, progress, perm⟩ := o.progress
  cases progress with
  | @cons _ _ own later done doneLater segment order rest =>
  have chunks : own.map Prod.fst = job.chunks :=
    segment.chunks.eq_of_length (by rw [List.length_map, segment.length, finished.1])
  have receipts : done.Perm (own.map Prod.snd) := by
    simpa [finished.2] using segment.receipts
  have all : (earlier ++ own).map Prod.fst =
      (retired ++ [job.submission]).flatMap Submission.chunks := by
    rw [List.map_append, List.flatMap_append, hearlier, chunks]
    simp [Job.submission]
  have found : (polled h).Perm ((earlier ++ own).map Prod.snd ++ doneLater) := by
    rw [List.map_append]
    refine perm.trans ?_
    rw [← List.append_assoc]
    exact (receipts.append_left _).append_right _
  rw [← List.append_assoc] at haccepted
  refine ⟨⟨o.completed, ?_, ?_⟩, ⟨?_, ?_, earlier ++ own, later, doneLater, ?_, all, rest, ?_⟩⟩
  · rw [haccepted, List.map_append, all]
    exact List.prefix_append ..
  · rw [← all, haccepted, List.length_map, ← List.map_take, List.take_left' rfl]
    exact ((List.prefix_append ..).sublist.subperm).trans found.symm.subperm
  · rw [o.admitted, List.map_cons, List.append_assoc]
    rfl
  · rw [completions_append, o.completed, List.map_append]
    rfl
  · rw [accepted_append, haccepted]
    exact List.append_nil _
  · rw [polled_append]
    exact (List.append_nil _).symm ▸ found

/-- Admitting a job that was not started. -/
theorem enqueue {job : Job K} (o : Open admitted retired jobs h)
    (fresh : job.next = 0 ∧ job.receipts = []) :
    Open (admitted ++ [job.submission]) retired (jobs ++ [job]) h where
  admitted := by rw [o.admitted, List.map_append, List.append_assoc]; rfl
  completed := o.completed
  progress := by
    obtain ⟨earlier, later, done, haccepted, hearlier, progress, perm⟩ := o.progress
    exact ⟨earlier, later, done, haccepted, hearlier, progress.enqueue fresh, perm⟩

/-- The second loop of `advance`. -/
theorem retire (o : Open admitted retired jobs h) (certifies : Certifies admitted h)
    (bytes : UInt64) :
    ∃ retired', Open admitted retired' (retire jobs bytes h).1 (retire jobs bytes h).2.2 ∧
      Certifies admitted (retire jobs bytes h).2.2 := by
  induction jobs generalizing retired bytes h with
  | nil => exact ⟨retired, o, certifies⟩
  | cons job rest ih =>
      rw [Scheduler.retire]
      split
      · rename_i finished
        obtain ⟨certified, o'⟩ := o.complete finished
        refine ih o' ?_ _
        rw [Certifies, along_snoc]
        refine ⟨certifies, fun signal hx => ?_⟩
        obtain ⟨rfl, -⟩ := Interaction.complete.inj hx
        exact ⟨retired, job.submission, rest.map Job.submission, o.admitted, rfl, certified⟩
      · exact ⟨retired, o, certifies⟩

/-- The first loop of `advance`. -/
theorem pollJobs (T : Transport K) (o : Open admitted retired jobs h)
    (certifies : Certifies admitted h) :
    Ensures (pollJobs T jobs) h
      (fun out h' => Open admitted retired out.1 h' ∧ Certifies admitted h')
      (fun _ h' => ∃ jobs', Open admitted retired jobs' h' ∧ Certifies admitted h') := by
  obtain ⟨earlier, later, done, haccepted, hearlier, progress, perm⟩ := o.progress
  have moved : ∀ {jobs' h'}, Polls h h' jobs jobs' later done →
      Open admitted retired jobs' h' ∧ Certifies admitted h' := by
    rintro jobs' h' ⟨found, done', ext, progress', perm', same⟩
    refine ⟨⟨?_, ?_, earlier, later, done', ?_, hearlier, progress', ?_⟩, certifies.extend ext⟩
    · rw [same, o.admitted]
    · rw [ext.completions_eq, o.completed]
    · rw [ext.accepted_eq, haccepted, List.append_nil]
    · rw [ext.polled_eq]
      refine (perm.append_right found).trans ?_
      rw [List.append_assoc]
      exact perm'.symm.append_left _
  refine (pollJobs_ensures T progress h).imp (fun _ _ polls => moved polls) ?_
  rintro _ h' ⟨jobs', polls⟩
  exact ⟨jobs', moved polls⟩

/-- The last loop of `advance`. -/
theorem dispatchJobs (T : Transport K) (limits : Limits) (inFlight : Nat)
    (o : Open admitted retired jobs h) (certifies : Certifies admitted h) :
    Ensures (dispatchJobs T limits inFlight jobs) h
      (fun out h' => Open admitted retired out.1 h' ∧ Certifies admitted h')
      (fun _ h' => ∃ jobs', Open admitted retired jobs' h' ∧ Certifies admitted h') := by
  obtain ⟨earlier, later, done, haccepted, hearlier, progress, perm⟩ := o.progress
  have moved : ∀ {jobs' h'}, Submits h h' jobs jobs' later done →
      Open admitted retired jobs' h' ∧ Certifies admitted h' := by
    rintro jobs' h' ⟨new, ext, progress', same⟩
    refine ⟨⟨?_, ?_, earlier, later ++ new, done, ?_, hearlier, progress', ?_⟩,
      certifies.extend ext⟩
    · rw [same, o.admitted]
    · rw [ext.completions_eq, o.completed]
    · rw [ext.accepted_eq, haccepted, List.append_assoc]
    · rw [ext.polled_eq, List.append_nil]
      exact perm
  refine (dispatchJobs_ensures T limits progress inFlight h).imp (fun _ _ submits => moved submits)
    ?_
  rintro _ h' ⟨jobs', submits⟩
  exact ⟨jobs', moved submits⟩

end Open

/-! ## Every run -/

/-- The state of a queue that has failed: every admitted job is completed once,
the first of them successfully and the others with a failure. -/
structure Closed (admitted : List (Submission K)) (error : K.Error) (h : History K) : Prop where
  completed : ∃ done lost, admitted = done ++ lost ∧
    completions h = done.map (fun s => (s.signal, .ok ())) ++
      lost.map fun s => (s.signal, .error error)
  accepted_isPrefix : (accepted h).map Prod.fst <+: admitted.flatMap Submission.chunks

namespace Scheduler

/-- `enqueue_prepared` changes nothing, or appends the job to a queue that has not
failed. -/
theorem enqueuePrepared_cases (memory : AdmissionSite → Bool) (job : Job K) (s : Scheduler K) :
    (∃ e, enqueuePrepared memory job s = (.error e, s)) ∨
      (s.failure = none ∧ enqueuePrepared memory job s =
        (.ok (), { s with jobs := s.jobs ++ [job], bytes := s.bytes + job.bytes })) := by
  cases hcheck : s.checkAdmission memory job with
  | error e =>
      refine .inl ⟨e, ?_⟩
      rw [enqueuePrepared, read_bind_run, bind_run, lift_run, hcheck]
  | ok u =>
      refine .inr ⟨?_, ?_⟩
      · rw [checkAdmission] at hcheck
        split at hcheck
        · cases hcheck
        · assumption
      · rw [enqueuePrepared, read_bind_run, bind_run, lift_run, hcheck]
        rfl

/-- `enqueue` changes nothing, or does what `enqueue_prepared` does. -/
theorem enqueue_cases (T : Transport K) (memory : AdmissionSite → Bool) (job : Submission K)
    (s : Scheduler K) :
    (∃ e, Job.prepare T s.limits memory job = .error e ∧ enqueue T memory job s = (.error e, s)) ∨
      ∃ prepared, Job.prepare T s.limits memory job = .ok prepared ∧
        enqueue T memory job s = enqueuePrepared memory prepared s := by
  cases hprepare : Job.prepare T s.limits memory job with
  | error e =>
      refine .inl ⟨e, rfl, ?_⟩
      rw [enqueue, read_bind_run, bind_run, lift_run, hprepare]
  | ok prepared =>
      refine .inr ⟨prepared, rfl, ?_⟩
      rw [enqueue, read_bind_run, bind_run, lift_run, hprepare]

/-- An empty queue does not call the transport. -/
theorem advance_of_empty (T : Transport K) {s : Scheduler K} (empty : s.jobs = []) (h : History K) :
    s.advance T h = (false, s, h) := by
  obtain ⟨jobs, bytes, failure, limits⟩ := s
  obtain rfl : jobs = [] := empty
  rfl

end Scheduler

theorem Job.prepare_ok {T : Transport K} {limits : Limits} {memory : AdmissionSite → Bool}
    {job : Submission K} {prepared : Job K}
    (h : Job.prepare T limits memory job = .ok prepared) :
    job = prepared.submission ∧ prepared.next = 0 ∧ prepared.receipts = [] := by
  simp only [prepare, except_bind_eq_ok] at h
  obtain ⟨bytes, -, -, -, h⟩ := h
  obtain rfl := Except.ok.inj h
  exact ⟨rfl, rfl, rfl⟩

namespace SchedulerRun

/-- What every run keeps. -/
structure Ordered (r : SchedulerRun K) : Prop where
  certifies : Certifies r.admitted r.history
  running : r.scheduler.failure = none → ∃ retired,
    Open r.admitted retired r.scheduler.jobs r.history
  stopped : r.scheduler.failure.isSome = true → r.scheduler.jobs = [] ∧
    ∃ error, Closed r.admitted error r.history

theorem new_ordered (limits : Limits) : (new limits : SchedulerRun K).Ordered where
  certifies := along_nil
  running _ := ⟨[], rfl, rfl, [], [], [], rfl, rfl, .nil, .nil⟩
  stopped := nofun

/-- A failing queue signals the failure to the jobs it still has. -/
theorem closed_of_fail {admitted retired : List (Submission K)} {jobs : List (Job K)}
    {s : Scheduler K} {h : History K} (o : Open admitted retired jobs h)
    (same : s.jobs.map Job.submission = jobs.map Job.submission) (error : K.Error) :
    Closed admitted error (s.fail error h).2 where
  completed := by
    refine ⟨retired, s.jobs.map Job.submission, by rw [same, o.admitted], ?_⟩
    rw [Scheduler.fail, completions_append, o.completed]
    congr 1
    rw [completions, List.filterMap_map, List.map_map]
    exact congrFun List.filterMap_eq_map s.jobs
  accepted_isPrefix := by
    rw [Scheduler.fail, accepted_append]
    have : accepted (s.jobs.map fun job => Interaction.complete job.signal (.error error)) = [] := by
      rw [accepted, List.filterMap_map]
      exact List.filterMap_eq_nil_iff.mpr fun _ _ => rfl
    rw [this, List.append_nil]
    exact o.accepted_isPrefix

/-- After a failure nothing more happens: no job is admitted, and the transport is
not called. -/
theorem step_of_stopped (T : Transport K) {r : SchedulerRun K}
    (stopped : r.scheduler.failure.isSome = true) (empty : r.scheduler.jobs = [])
    (op : SchedulerOp K) :
    (r.step T op).history = r.history ∧ (r.step T op).admitted = r.admitted ∧
      (r.step T op).scheduler.jobs = [] ∧
      (r.step T op).scheduler.failure.isSome = true := by
  have rejected : ∀ memory prepared job,
      r.answered job (enqueuePrepared memory prepared r.scheduler) = r := by
    intro memory prepared job
    rcases enqueuePrepared_cases memory prepared r.scheduler with ⟨e, h⟩ | ⟨running, -⟩
    · rw [h]
      rfl
    · rw [running] at stopped
      cases stopped
  have unchanged : r.step T op = r → (r.step T op).history = r.history ∧
      (r.step T op).admitted = r.admitted ∧ (r.step T op).scheduler.jobs = [] ∧
      (r.step T op).scheduler.failure.isSome = true := by
    intro same
    rw [same]
    exact ⟨rfl, rfl, empty, stopped⟩
  cases op with
  | enqueue memory job =>
      refine unchanged ?_
      rw [step]
      rcases enqueue_cases T memory job r.scheduler with ⟨e, -, h⟩ | ⟨prepared, -, h⟩
      · rw [h]
        rfl
      · rw [h, rejected]
  | enqueuePrepared limits memory job =>
      refine unchanged ?_
      rw [step]
      split
      · exact rejected ..
      · rfl
  | fail error =>
      refine ⟨?_, rfl, rfl, rfl⟩
      rw [step, Scheduler.fail, empty]
      exact List.append_nil _
  | advance =>
      refine unchanged ?_
      rw [step, advance_of_empty T empty]

/-- A step of a run that has not failed keeps it in order; if it fails, the
failure it records is the one it signals. -/
structure Proceeds (r : SchedulerRun K) : Prop where
  ordered : r.Ordered
  failed : ∀ e, r.scheduler.failure = some e → Closed r.admitted e r.history

theorem proceeds_of_open {r : SchedulerRun K} {retired : List (Submission K)}
    (running : r.scheduler.failure = none) (certifies : Certifies r.admitted r.history)
    (o : Open r.admitted retired r.scheduler.jobs r.history) : r.Proceeds where
  ordered := ⟨certifies, fun _ => ⟨retired, o⟩, by simp [running]⟩
  failed := by simp [running]

theorem proceeds_of_fail {r : SchedulerRun K} {retired : List (Submission K)}
    {jobs : List (Job K)} {s : Scheduler K} {h : History K}
    (o : Open r.admitted retired jobs h) (certifies : Certifies r.admitted h)
    (same : s.jobs.map Job.submission = jobs.map Job.submission) (error : K.Error) :
    ({ r with scheduler := (s.fail error h).1, history := (s.fail error h).2 } :
      SchedulerRun K).Proceeds where
  ordered :=
    { certifies := certifies.append (by simp [completions])
      running := nofun
      stopped := fun _ => ⟨rfl, error, closed_of_fail o same error⟩ }
  failed e he := by
    obtain rfl := Option.some.inj he
    exact closed_of_fail o same error

theorem proceeds_of_answered {r : SchedulerRun K} {retired : List (Submission K)}
    (running : r.scheduler.failure = none) (certifies : Certifies r.admitted r.history)
    (o : Open r.admitted retired r.scheduler.jobs r.history) (memory : AdmissionSite → Bool)
    {job : Job K} (fresh : job.next = 0 ∧ job.receipts = []) :
    (r.answered job.submission (enqueuePrepared memory job r.scheduler)).Proceeds := by
  rcases enqueuePrepared_cases memory job r.scheduler with ⟨e, rejected⟩ | ⟨-, admitted⟩
  · rw [rejected]
    exact proceeds_of_open running certifies o
  · rw [admitted]
    exact proceeds_of_open running (certifies.enqueue _) (o.enqueue fresh)

theorem proceeds_of_advance (T : Transport K) {r : SchedulerRun K}
    {retired : List (Submission K)} (running : r.scheduler.failure = none)
    (certifies : Certifies r.admitted r.history)
    (o : Open r.admitted retired r.scheduler.jobs r.history) : (r.step T .advance).Proceeds := by
  have polls := o.pollJobs T certifies
  rw [step, advance]
  match hpoll : Scheduler.pollJobs T r.scheduler.jobs r.history with
  | (.error e, h₁) =>
      obtain ⟨jobs', open₁, certifies₁⟩ := polls.of_eq_error hpoll
      exact proceeds_of_fail open₁ certifies₁
        (List.append_cancel_left (o.admitted.symm.trans open₁.admitted)) e
  | (.ok (jobs, polled), h₁) =>
      obtain ⟨open₁, certifies₁⟩ := polls.of_eq_ok hpoll
      obtain ⟨retired₂, open₂, certifies₂⟩ := open₁.retire certifies₁ r.scheduler.bytes
      have dispatches := open₂.dispatchJobs T r.scheduler.limits
        (outstanding (Scheduler.retire jobs r.scheduler.bytes h₁).1) certifies₂
      simp only
      split
      · rename_i e h₃ hdispatch
        obtain ⟨jobs', open₃, certifies₃⟩ := dispatches.of_eq_error hdispatch
        exact proceeds_of_fail open₃ certifies₃
          (List.append_cancel_left (open₂.admitted.symm.trans open₃.admitted)) e
      · rename_i jobs₃ submitted h₃ hdispatch
        obtain ⟨open₃, certifies₃⟩ := dispatches.of_eq_ok hdispatch
        exact proceeds_of_open running certifies₃ open₃

theorem Ordered.proceeds {r : SchedulerRun K} (o : r.Ordered) (T : Transport K)
    (running : r.scheduler.failure = none) (op : SchedulerOp K) : (r.step T op).Proceeds := by
  obtain ⟨retired, open'⟩ := o.running running
  cases op with
  | enqueue memory job =>
      rw [step]
      rcases enqueue_cases T memory job r.scheduler with
        ⟨e, -, rejected⟩ | ⟨prepared, hprepared, henqueue⟩
      · rw [rejected]
        exact proceeds_of_open running o.certifies open'
      · obtain ⟨rfl, fresh⟩ := Job.prepare_ok hprepared
        rw [henqueue]
        exact proceeds_of_answered running o.certifies open' memory fresh
  | enqueuePrepared limits memory job =>
      rw [step]
      split
      · rename_i prepared hprepared
        obtain ⟨rfl, fresh⟩ := Job.prepare_ok hprepared
        exact proceeds_of_answered running o.certifies open' memory fresh
      · exact proceeds_of_open running o.certifies open'
  | fail error => exact proceeds_of_fail open' o.certifies rfl error
  | advance => exact proceeds_of_advance T running o.certifies open'

theorem Ordered.step {r : SchedulerRun K} (o : r.Ordered) (T : Transport K)
    (op : SchedulerOp K) : (r.step T op).Ordered := by
  cases hfailure : r.scheduler.failure with
  | none => exact (o.proceeds T hfailure op).ordered
  | some e =>
      have stopped : r.scheduler.failure.isSome = true := by rw [hfailure]; rfl
      obtain ⟨empty, closed⟩ := o.stopped stopped
      obtain ⟨history, admitted, empty', stopped'⟩ := step_of_stopped T stopped empty op
      refine ⟨by rw [history, admitted]; exact o.certifies, fun running => ?_, fun _ => ⟨empty', ?_⟩⟩
      · rw [running] at stopped'
        cases stopped'
      · rwa [history, admitted]

theorem Ordered.run {r : SchedulerRun K} (o : r.Ordered) (T : Transport K)
    (ops : List (SchedulerOp K)) : (r.run T ops).Ordered := by
  induction ops generalizing r with
  | nil => exact o
  | cons op rest ih => exact ih (o.step T op)

/-- After a failure the history and the admitted jobs stay what they are. -/
theorem Ordered.run_of_stopped {r : SchedulerRun K} (o : r.Ordered) (T : Transport K)
    (stopped : r.scheduler.failure.isSome = true) (ops : List (SchedulerOp K)) :
    (r.run T ops).history = r.history ∧ (r.run T ops).admitted = r.admitted ∧
      (r.run T ops).scheduler.failure.isSome = true := by
  induction ops generalizing r with
  | nil => exact ⟨rfl, rfl, stopped⟩
  | cons op rest ih =>
      obtain ⟨history, admitted, -, stopped'⟩ :=
        step_of_stopped T stopped (o.stopped stopped).1 op
      obtain ⟨history', admitted', stopped''⟩ := ih (o.step T op) stopped'
      exact ⟨history'.trans history, admitted'.trans admitted, stopped''⟩

theorem Ordered.accepted_isPrefix {r : SchedulerRun K} (o : r.Ordered) :
    (accepted r.history).map Prod.fst <+: r.admitted.flatMap Submission.chunks := by
  cases hfailure : r.scheduler.failure with
  | none =>
      obtain ⟨retired, open'⟩ := o.running hfailure
      exact open'.accepted_isPrefix
  | some e =>
      obtain ⟨-, error, closed⟩ := o.stopped (by rw [hfailure]; rfl)
      exact closed.accepted_isPrefix

theorem Ordered.completions_isPrefix {r : SchedulerRun K} (o : r.Ordered) :
    (completions r.history).map Prod.fst <+: r.admitted.map Submission.signal := by
  cases hfailure : r.scheduler.failure with
  | none =>
      obtain ⟨retired, open'⟩ := o.running hfailure
      rw [open'.completed, open'.admitted, List.map_map, List.map_append]
      exact List.prefix_append ..
  | some e =>
      obtain ⟨-, error, ⟨done, lost, admitted, completed⟩, -⟩ :=
        o.stopped (by rw [hfailure]; rfl)
      rw [completed, admitted, List.map_append, List.map_map, List.map_map, List.map_append]
      exact List.prefix_rfl

end SchedulerRun

/-- **Submission order.**  In every run, the chunks the transport accepted are a
prefix of the chunks of the admitted jobs, in the order of admission. -/
theorem submission_order (T : Transport K) (limits : Limits) (ops : List (SchedulerOp K)) :
    let r := (SchedulerRun.new limits).run T ops
    (accepted r.history).map Prod.fst <+: r.admitted.flatMap Submission.chunks :=
  ((SchedulerRun.new_ordered limits).run T ops).accepted_isPrefix

namespace Scheduler

/-- Preparation only fails for want of space. -/
theorem prepare_error {T : Transport K} {limits : Limits} {memory : AdmissionSite → Bool}
    {job : Submission K} {reason : AdmissionError K.Error}
    (h : Job.prepare T limits memory job = .error reason) :
    reason = .tooLarge ∨ reason = .outOfMemory := by
  simp only [Job.prepare, except_bind_eq_error, okOr_eq_error, failIf_eq_error] at h
  rcases h with ⟨-, rfl⟩ | ⟨_, -, ⟨-, rfl⟩ | ⟨_, -, h⟩⟩
  · exact .inl rfl
  · exact .inr rfl
  · cases h

/-- A failed scheduler admits nothing: it answers with its failure, unless the job
cannot be prepared. -/
theorem rejects_of_failure (T : Transport K) {s : Scheduler K} {e : K.Error}
    (failed : s.failure = some e) (memory : AdmissionSite → Bool) :
    (∀ job, enqueuePrepared memory job s = (.error (.failed e), s)) ∧
      ∀ job, enqueue T memory job s = (.error (.failed e), s) ∨
        ∃ reason, Job.prepare T s.limits memory job = .error reason ∧
          (reason = .tooLarge ∨ reason = .outOfMemory) ∧
          enqueue T memory job s = (.error reason, s) := by
  have prepared : ∀ job, enqueuePrepared memory job s = (.error (.failed e), s) := by
    intro job
    rw [enqueuePrepared, read_bind_run, bind_run, lift_run, checkAdmission, failed]
  refine ⟨prepared, fun job => ?_⟩
  rcases enqueue_cases T memory job s with ⟨reason, hprepare, h⟩ | ⟨job', -, h⟩
  · exact .inr ⟨reason, hprepare, prepare_error hprepare, h⟩
  · exact .inl (h.trans (prepared job'))

end Scheduler

/-- **Completion order.**  In every run: completions are signalled for the admitted
jobs in order, once each; every success is certified; when the scheduler fails,
exactly the admitted jobs not completed successfully are signalled the failure,
and nothing is signalled after; and a failed scheduler rejects every job with its
failure, or because the job cannot be prepared. -/
theorem completion_order (T : Transport K) (limits : Limits) (ops : List (SchedulerOp K)) :
    let r := (SchedulerRun.new limits).run T ops
    (completions r.history).map Prod.fst <+: r.admitted.map Submission.signal ∧
    Certifies r.admitted r.history ∧
    (∀ past op later e, ops = past ++ op :: later →
      ((SchedulerRun.new limits).run T past).scheduler.failure = none →
      ((SchedulerRun.new limits).run T (past ++ [op])).scheduler.failure = some e →
      r.scheduler.failure.isSome = true ∧ ∃ done lost, r.admitted = done ++ lost ∧
        completions r.history = done.map (fun s => (s.signal, .ok ())) ++
          lost.map fun s => (s.signal, .error e)) ∧
    (∀ e, r.scheduler.failure = some e → ∀ memory,
      (∀ job, enqueuePrepared memory job r.scheduler = (.error (.failed e), r.scheduler)) ∧
      ∀ job, enqueue T memory job r.scheduler = (.error (.failed e), r.scheduler) ∨
        ∃ reason, Job.prepare T r.scheduler.limits memory job = .error reason ∧
          (reason = .tooLarge ∨ reason = .outOfMemory) ∧
          enqueue T memory job r.scheduler = (.error reason, r.scheduler)) := by
  intro r
  have ordered : r.Ordered := (SchedulerRun.new_ordered limits).run T ops
  refine ⟨ordered.completions_isPrefix, ordered.certifies, ?_,
    fun e failed memory => rejects_of_failure T failed memory⟩
  intro past op later e hops running failed
  have before := (SchedulerRun.new_ordered limits).run T past
  have proceeds := before.proceeds T running op
  have hsplit : r = (((SchedulerRun.new limits).run T past).step T op).run T later := by
    rw [show r = (SchedulerRun.new limits).run T ops from rfl, hops]
    simp [SchedulerRun.run]
  have failed' : (((SchedulerRun.new limits).run T past).step T op).scheduler.failure = some e := by
    simpa [SchedulerRun.run] using failed
  obtain ⟨history, admitted, stopped⟩ :=
    proceeds.ordered.run_of_stopped T (by rw [failed']; rfl) later
  rw [hsplit, history, admitted]
  exact ⟨stopped, (proceeds.failed e failed').completed⟩

/-! ### A job that cannot be prepared -/

/-- Chunks that are their own sizes, and nothing else. -/
def sizeTypes : TransportTypes := ⟨UInt64, Unit, Unit, Unit, Unit⟩

/-- A transport that is always ready and done. -/
def eagerTransport : Transport sizeTypes where
  size chunk := chunk
  ready _ _ := .ok true
  submit _ _ _ := .ok ()
  poll _ _ := .ok true

/-- One submission of one byte at a time. -/
def unitLimits : Limits := ⟨1, 1, 1, 1, by decide⟩

/-- A failed scheduler rejects a job of two bytes as too large. -/
theorem not_always_rejected_with_failure :
    ¬ ∀ (ops : List (SchedulerOp sizeTypes)) (e : Unit) (memory : AdmissionSite → Bool)
      (job : Submission sizeTypes),
      ((SchedulerRun.new unitLimits).run eagerTransport ops).scheduler.failure = some e →
      (enqueue eagerTransport memory job
        ((SchedulerRun.new unitLimits).run eagerTransport ops).scheduler).1 =
          .error (.failed e) := by
  intro h
  have rejected := h [.fail ()] () (fun _ => true) ⟨[(2 : UInt64)], (), ()⟩ rfl
  have tooLarge : (enqueue eagerTransport (fun _ => true) ⟨[(2 : UInt64)], (), ()⟩
      ((SchedulerRun.new unitLimits).run eagerTransport [.fail ()]).scheduler).1 =
        .error .tooLarge := rfl
  rw [tooLarge] at rejected
  cases rejected

end Sgfx
