import Sgfx.Virgl.Dispatch

/-!
# The admission account

Every admitted signal is in one place at a time: its job is in the inbox, in the
worker's hand or in the private scheduler, or its completion was called for, or it
was given back.  An `Account` lists the places in the order of admission, so moving
a job leaves it unchanged, and `Account.Right` says that the shared count and bytes
are those of the signals not given back.  The private scheduler holds some of these
jobs only, which is why its own limits never refuse one.

## Main Definitions

* `Account`, `Account.Right`, `System.account`
* `System.Accounted` — the invariant
* `System.Failing`, `System.Gone`, `System.remaining`

## Main Results

* `native_admission` — the account in every reachable state, and the end of a run
-/

namespace Sgfx.Virgl

open Fallible History

variable {P : Platform}

/-! ## The account -/

/-- The shared count and bytes, and the signals they are about. -/
structure Account where
  count : UInt64
  bytes : UInt64
  created : Nat
  admitted : List Signal
  released : List Signal
  held : List Signal

/-- The bytes of some signals. -/
def signalBytes (signals : List Signal) : Nat := totalBytes (signals.map Signal.bytes)

@[simp] theorem signalBytes_append (xs ys : List Signal) :
    signalBytes (xs ++ ys) = signalBytes xs + signalBytes ys := by
  rw [signalBytes, List.map_append, totalBytes_append]
  rfl

namespace Account

/-- The account is that of the signals held. -/
structure Right (a : Account) : Prop where
  admitted : a.admitted = a.released ++ a.held
  count : a.count.toNat = a.held.length
  bytes : a.bytes.toNat = signalBytes a.held
  submissions : a.held.length ≤ maxSubmissions.toNat
  budget : signalBytes a.held ≤ maxPendingBytes.toNat ∨ a.held.length ≤ 1
  increasing : a.admitted.Pairwise fun x y => x.id < y.id
  created : ∀ signal ∈ a.admitted, signal.id < a.created

variable {a : Account}

theorem Right.create (r : a.Right) : ({ a with created := a.created + 1 } : Account).Right :=
  { r with created := fun signal member => Nat.lt_succ_of_lt (r.created signal member) }

/-- Admitting a signal that the account does not refuse. -/
theorem Right.admit (r : a.Right) {bytes : UInt64} (room : a.count ≠ maxSubmissions)
    (within : a.count ≠ 0 → bytes ≤ maxPendingBytes ∧
      saturatingAdd64 a.bytes bytes ≤ maxPendingBytes) :
    ({ a with
        count := a.count + 1
        bytes := a.bytes + bytes
        created := a.created + 1
        admitted := a.admitted ++ [⟨a.created, bytes⟩]
        held := a.held ++ [⟨a.created, bytes⟩] } : Account).Right := by
  have limit : maxSubmissions.toNat = 16 := rfl
  have pending : maxPendingBytes.toNat = 67108864 := rfl
  have few : a.held.length < 16 := by
    refine Nat.lt_of_le_of_ne (limit ▸ r.submissions) fun full => room ?_
    exact UInt64.toNat_inj.mp (r.count.trans full)
  have single : signalBytes [⟨a.created, bytes⟩] = bytes.toNat := Nat.add_zero _
  -- Either nothing is held, or the sum stays within the pending budget.
  have fits : a.held = [] ∨ a.bytes.toNat + bytes.toNat ≤ maxPendingBytes.toNat := by
    by_cases empty : a.count = 0
    · left
      have none : a.held.length = 0 := by rw [← r.count, empty]; rfl
      exact List.length_eq_zero_iff.mp none
    · right
      obtain ⟨-, sum⟩ := within empty
      rw [saturatingAdd64, checkedAdd64] at sum
      split at sum
      · rename_i small
        rwa [Option.getD_some, UInt64.le_iff_toNat_le, UInt64.toNat_add,
          Nat.mod_eq_of_lt small] at sum
      · exact absurd sum (by decide)
  have exact_sum : (a.bytes + bytes).toNat = a.bytes.toNat + bytes.toNat := by
    rw [UInt64.toNat_add]
    refine Nat.mod_eq_of_lt ?_
    rcases fits with none | small
    · have zero : a.bytes.toNat = 0 := by rw [r.bytes, none]; rfl
      have := bytes.toNat_lt
      omega
    · omega
  exact {
    admitted := by
      show a.admitted ++ _ = a.released ++ (a.held ++ _)
      rw [r.admitted, List.append_assoc]
    count := by
      show (a.count + 1).toNat = (a.held ++ _).length
      rw [UInt64.toNat_add, r.count, List.length_append]
      exact Nat.mod_eq_of_lt (show a.held.length + 1 < 2 ^ 64 by omega)
    bytes := by
      show (a.bytes + bytes).toNat = signalBytes (a.held ++ _)
      rw [exact_sum, r.bytes, signalBytes_append, single]
    submissions := by
      show (a.held ++ _).length ≤ _
      rw [List.length_append, limit]
      exact few
    budget := by
      show signalBytes (a.held ++ _) ≤ _ ∨ (a.held ++ _).length ≤ 1
      rcases fits with none | small
      · right
        rw [none]
        exact Nat.le_refl 1
      · left
        rw [signalBytes_append, single, ← r.bytes]
        exact small
    increasing := by
      refine List.pairwise_append.mpr ⟨r.increasing, List.pairwise_singleton .., ?_⟩
      intro x member y last
      rw [List.mem_singleton.mp last]
      exact r.created x member
    created := by
      intro signal member
      rcases List.mem_append.mp member with old | new
      · exact Nat.lt_succ_of_lt (r.created signal old)
      · rw [List.mem_singleton.mp new]
        exact Nat.lt_succ_self _ }

/-- The account covers the next signal to give back. -/
theorem Right.covers (r : a.Right) {signal : Signal} {rest : List Signal}
    (next : a.held = signal :: rest) : 1 ≤ a.count ∧ signal.bytes ≤ a.bytes := by
  constructor
  · rw [UInt64.le_iff_toNat_le, r.count, next]
    exact Nat.succ_le_succ (Nat.zero_le _)
  · rw [UInt64.le_iff_toNat_le, r.bytes, next]
    exact Nat.le_add_right ..

/-- Giving a signal back. -/
theorem Right.release (r : a.Right) {signal : Signal} {rest : List Signal}
    (next : a.held = signal :: rest) :
    ({ a with
        count := a.count - 1
        bytes := a.bytes - signal.bytes
        released := a.released ++ [signal]
        held := rest } : Account).Right := by
  obtain ⟨some, enough⟩ := r.covers next
  have length : a.held.length = rest.length + 1 := by rw [next, List.length_cons]
  have total : signalBytes a.held = signal.bytes.toNat + signalBytes rest := by
    rw [next]
    rfl
  exact {
    admitted := by
      show a.admitted = a.released ++ [signal] ++ rest
      rw [r.admitted, next, List.append_assoc]
      rfl
    count := by
      show (a.count - 1).toNat = rest.length
      rw [UInt64.toNat_sub_of_le _ _ some, r.count, length]
      rfl
    bytes := by
      show (a.bytes - signal.bytes).toNat = signalBytes rest
      rw [UInt64.toNat_sub_of_le _ _ enough, r.bytes, total]
      exact Nat.add_sub_cancel_left ..
    submissions := by
      have := r.submissions
      show rest.length ≤ _
      omega
    budget := by
      show signalBytes rest ≤ _ ∨ rest.length ≤ 1
      rcases r.budget with small | one
      · left
        omega
      · right
        omega
    increasing := r.increasing
    created := r.created }

theorem Right.nodup (r : a.Right) : a.admitted.Nodup :=
  r.increasing.imp fun {x y} less same => absurd less (by rw [same]; exact Nat.lt_irrefl _)

end Account

/-! ## The places of a job -/

/-- The job in the worker's hand. -/
def Phase.inHand : Phase P → List (Job (Native P))
  | .transferring job => [job]
  | _ => []

namespace System

variable (s : System P)

/-- The jobs that were not signalled, in the order of admission: those of the
private scheduler, the one in the worker's hand, and those of the inbox. -/
def jobs : List (Job (Native P)) :=
  s.worker.scheduler.jobs ++ (s.worker.phase.inHand ++ s.shared.admission.pending)

/-- The admitted signals that were not given back. -/
def held : List Signal := s.worker.todo.map Prod.fst ++ s.jobs.map Job.signal

/-- The signals given back. -/
def released : List Signal := (s.results ++ s.worker.settling.toList).map Prod.fst

/-- The account of a state. -/
def account : Account :=
  ⟨s.shared.admission.count, s.shared.admission.bytes, s.created, s.admitted, s.released, s.held⟩

/-- The signal that the worker's next step gives back. -/
def releasing : Option Signal :=
  match s.worker.settling with
  | some _ => none
  | none => s.worker.todo.head?.map Prod.fst

/-- The worker is gone. -/
def Gone : Prop := s.worker.phase = .gone ∧ s.worker.todo = [] ∧ s.worker.settling = none

/-- The worker's scheduler runs. -/
def Idle : Prop := s.worker.scheduler.failure = none ∧ s.worker.todo = []

/-- Nothing is left to signal, and nothing can be admitted. -/
def Closed : Prop :=
  s.jobs = [] ∧ (s.shared.admission.failure.isSome = true ∨ s.shared.closing = true)

/-- What holds in a phase. -/
def InPhase : Phase P → Prop
  | .checking _ | .failing _ _ => True
  | .dropping | .gone => s.Closed
  | _ => s.Idle

/-- The account is right, and every job still has the size it was admitted with. -/
structure Accounted : Prop where
  right : s.account.Right
  sizes : ∀ job ∈ s.jobs, job.bytes = job.signal.bytes ∧ job.bytes ≤ maxStreamBytes
  fresh : ∀ job ∈ s.worker.phase.inHand ++ s.shared.admission.pending, job.receipts = []
  balanced : s.worker.scheduler.Balanced
  limits : s.worker.scheduler.limits = limits
  phase : s.InPhase s.worker.phase

variable {s}

theorem new_accounted : (new : System P).Accounted where
  right := by
    refine ⟨rfl, rfl, rfl, Nat.zero_le _, .inr (Nat.zero_le _), .nil, ?_⟩
    intro signal member
    cases member
  sizes := by
    intro job member
    cases member
  fresh := by
    intro job member
    cases member
  balanced := rfl
  limits := rfl
  phase := ⟨rfl, rfl⟩

/-! ## Moving -/

/-- The account only depends on the signals held and released; a job keeps its
signal and its size wherever it goes. -/
theorem Accounted.move {s' : System P} (a : s.Accounted)
    (rest : s'.account = { s.account with held := s'.held }) (held : s'.held = s.held)
    (jobs : s'.jobs.map Job.due ⊆ s.jobs.map Job.due)
    (fresh : ∀ job ∈ s'.worker.phase.inHand ++ s'.shared.admission.pending, job.receipts = [])
    (balanced : s'.worker.scheduler.Balanced)
    (limits : s'.worker.scheduler.limits = s.worker.scheduler.limits)
    (phase : s'.InPhase s'.worker.phase) : s'.Accounted where
  right := by
    rw [rest, held]
    exact a.right
  sizes := by
    intro job member
    obtain ⟨job', member', due⟩ := List.mem_map.mp (jobs (List.mem_map_of_mem member))
    obtain ⟨signal, bytes⟩ := Prod.mk.inj due
    rw [← signal, ← bytes]
    exact a.sizes job' member'
  fresh := fresh
  balanced := balanced
  limits := limits.trans a.limits
  phase := phase

theorem Accounted.idle (a : s.Accounted) {phase : Phase P} (h : s.worker.phase = phase)
    (running : s.InPhase phase = s.Idle) : s.Idle := by
  have := a.phase
  rwa [h, running] at this

/-- Going to a phase with nothing in hand. -/
theorem Accounted.goto (a : s.Accounted) {phase : Phase P} (here : s.worker.phase.inHand = [])
    (there : phase.inHand = []) (h : s.InPhase phase) : (s.goto phase).Accounted := by
  have jobs : (s.goto phase).jobs = s.jobs := by
    show _ ++ (phase.inHand ++ _) = _ ++ (s.worker.phase.inHand ++ _)
    rw [here, there]
    rfl
  have held : (s.goto phase).held = s.held := by
    rw [System.held, jobs]
    rfl
  have fresh : ∀ job ∈ phase.inHand ++ s.shared.admission.pending, job.receipts = [] := by
    have before := a.fresh
    rwa [here, ← there] at before
  refine a.move rfl held ?_ fresh a.balanced rfl ?_
  · rw [jobs]
    exact List.Subset.refl _
  · show (s.goto phase).InPhase phase
    cases phase with
    | dropping => exact ⟨jobs ▸ h.1, h.2⟩
    | gone => exact ⟨jobs ▸ h.1, h.2⟩
    | _ => exact h

/-- Taking a job from the inbox. -/
theorem Accounted.take (a : s.Accounted) (h : s.worker.phase = .taking) : s.take.Accounted := by
  have here : s.worker.phase.inHand = [] := by rw [h]; rfl
  have idle := a.idle h rfl
  rw [System.take]
  split
  · exact a.goto here rfl idle
  · rename_i job pending waiting
    have jobs : s.jobs = s.worker.scheduler.jobs ++ ([job] ++ pending) := by
      rw [System.jobs, here, waiting]
      rfl
    have fresh := a.fresh
    rw [here, waiting] at fresh
    refine a.move rfl ?_ ?_ fresh a.balanced rfl idle
    · rw [System.held, System.held, jobs]
      rfl
    · rw [jobs]
      exact List.Subset.refl _

/-- Two signals are held, so all of them are within the pending budget. -/
theorem Accounted.within (a : s.Accounted) (two : 2 ≤ s.held.length) :
    signalBytes s.held ≤ maxPendingBytes.toNat := by
  rcases a.right.budget with small | one
  · exact small
  · exact absurd one (show ¬ s.held.length ≤ 1 by omega)

/-- The bytes the private scheduler counts are those its signals were admitted
with. -/
theorem Accounted.scheduler_bytes (a : s.Accounted) :
    s.worker.scheduler.bytes.toNat = signalBytes (s.worker.scheduler.jobs.map Job.signal) := by
  have sizes : s.worker.scheduler.jobs.map Job.bytes =
      (s.worker.scheduler.jobs.map Job.signal).map Signal.bytes := by
    rw [List.map_map]
    refine List.map_congr_left fun job member => (a.sizes job ?_).1
    exact List.mem_append_left _ member
  rw [a.balanced, Scheduler.queuedBytes, sizes]
  rfl

/-- What is held while a job is in hand. -/
theorem Accounted.in_hand (a : s.Accounted) {job : Job (Native P)}
    (h : s.worker.phase = .transferring job) :
    s.jobs = s.worker.scheduler.jobs ++ ([job] ++ s.shared.admission.pending) ∧
      s.held = s.worker.scheduler.jobs.map Job.signal ++
        ([job.signal] ++ s.shared.admission.pending.map Job.signal) := by
  have jobs : s.jobs = s.worker.scheduler.jobs ++ ([job] ++ s.shared.admission.pending) := by
    rw [System.jobs, h]
    rfl
  refine ⟨jobs, ?_⟩
  rw [held, (a.idle h rfl).2, jobs, List.map_append, List.map_append]
  rfl

/-- The bytes of the private scheduler and of the job in hand. -/
theorem Accounted.sum_le (a : s.Accounted) {job : Job (Native P)}
    (h : s.worker.phase = .transferring job) :
    s.worker.scheduler.bytes.toNat + job.bytes.toNat ≤ signalBytes s.held := by
  obtain ⟨jobs, held⟩ := a.in_hand h
  have member : job ∈ s.jobs := by simp [jobs]
  rw [a.scheduler_bytes, (a.sizes job member).1, held, signalBytes_append, signalBytes_append]
  show _ + _ ≤ _ + ((job.signal.bytes.toNat + 0) + _)
  omega

/-- The private scheduler admits a job that was admitted. -/
theorem Accounted.transfers (a : s.Accounted) {job : Job (Native P)}
    (h : s.worker.phase = .transferring job) (allocated : Bool) :
    Scheduler.enqueuePrepared (reserved s.worker.scheduler job allocated) job s.worker.scheduler =
      (.ok (), { s.worker.scheduler with
        jobs := s.worker.scheduler.jobs ++ [job]
        bytes := s.worker.scheduler.bytes + job.bytes }) := by
  obtain ⟨jobs, held⟩ := a.in_hand h
  have hand : s.worker.phase.inHand = [job] := by rw [h]; rfl
  have length : s.worker.scheduler.jobs.length + 1 ≤ s.held.length := by
    rw [held, List.length_append, List.length_append, List.length_map, List.length_singleton]
    omega
  have few : s.worker.scheduler.jobs.length < Virgl.limits.submissions.toNat :=
    Nat.lt_of_lt_of_le length a.right.submissions
  refine Scheduler.enqueuePrepared_of_fits (a.idle h rfl).1 ?_ ?_ ?_ ?_ ?_
  · rw [a.limits]
    exact (a.sizes job (by simp [jobs])).2
  · rw [a.limits]
    exact few
  · by_cases empty : s.worker.scheduler.jobs = []
    · exact .inl empty
    · right
      have some : 0 < s.worker.scheduler.jobs.length := List.length_pos_iff.mpr empty
      rw [a.limits]
      exact Nat.le_trans (a.sum_le h) (a.within (by omega))
  · have none := a.fresh job (by simp [hand])
    simp [reserved, tryReserve, none]
  · simp only [reserved, tryReserve, Bool.or_eq_true, decide_eq_true_eq]
    exact .inl few

theorem Accounted.transfer (a : s.Accounted) {job : Job (Native P)}
    (h : s.worker.phase = .transferring job) (allocated : Bool) :
    (s.transfer job allocated).Accounted := by
  obtain ⟨jobs, held⟩ := a.in_hand h
  have idle := a.idle h rfl
  rw [System.transfer, a.transfers h allocated]
  refine a.move rfl ?_ ?_ ?_ ?_ rfl idle
  · rw [held, System.held, idle.2, System.jobs, List.map_append, List.map_append]
    show [] ++ _ = _
    rw [List.nil_append, List.append_assoc]
    rfl
  · rw [jobs, System.jobs]
    show List.map Job.due ((_ ++ [job]) ++ ([] ++ _)) ⊆ _
    rw [List.nil_append, List.append_assoc]
    exact List.Subset.refl _
  · exact fun job' member => a.fresh job' (List.mem_append_right _ member)
  · -- Nothing overflows, as the sum is at most the bytes of the account.
    have small := a.sum_le h
    have total : s.shared.admission.bytes.toNat = signalBytes s.held := a.right.bytes
    have bound := s.shared.admission.bytes.toNat_lt
    have sum : (s.worker.scheduler.bytes + job.bytes).toNat =
        s.worker.scheduler.bytes.toNat + job.bytes.toNat := by
      rw [UInt64.toNat_add]
      exact Nat.mod_eq_of_lt (by omega)
    show (s.worker.scheduler.bytes + job.bytes).toNat =
      Scheduler.queuedBytes (s.worker.scheduler.jobs ++ [job])
    rw [sum, a.balanced, Scheduler.queuedBytes, Scheduler.queuedBytes, List.map_append,
      totalBytes_append]
    rfl

/-! ## Signalling -/

/-- The completions a scheduler called for are those of the jobs it let go. -/
theorem signals_of_accounts {jobs jobs' : List (Job (Native P))} {h h' : History (Native P)}
    (accounts : Scheduler.Accounts jobs h jobs' h') :
    (completions (h'.drop h.length)).map Prod.fst ++ jobs'.map Job.signal =
        jobs.map Job.signal ∧ jobs'.map Job.due ⊆ jobs.map Job.due := by
  obtain ⟨calls, gone, rfl, signalled, due⟩ := accounts.left
  have fsts : ∀ queue : List (Job (Native P)),
      (queue.map Job.due).map Prod.fst = queue.map Job.signal := by
    intro queue
    rw [List.map_map]
    rfl
  constructor
  · rw [List.drop_left, signalled, ← fsts, ← fsts, due, List.map_append]
  · rw [due]
    exact List.subset_append_right ..

theorem Accounted.advance (a : s.Accounted) (g : Gpu P) (h : s.worker.phase = .advancing) :
    (s.advance g).Accounted := by
  have advanced := Scheduler.advance_advanced g.native a.balanced s.worker.history
  obtain ⟨signals, due⟩ := signals_of_accounts advanced.accounts
  have jobs : s.jobs = s.worker.scheduler.jobs ++ s.shared.admission.pending := by
    rw [System.jobs, h]
    rfl
  refine a.move rfl ?_ ?_ ?_ advanced.balanced advanced.limits trivial
  · rw [System.held, System.held, jobs, List.map_append, ← signals]
    show List.map _ (_ ++ _) ++ List.map _ (_ ++ ([] ++ _)) = _
    rw [List.map_append, List.map_append, List.nil_append, List.append_assoc, List.append_assoc]
    rfl
  · rw [jobs, List.map_append]
    show List.map _ (_ ++ ([] ++ _)) ⊆ _
    rw [List.nil_append, List.map_append]
    exact List.append_subset.mpr ⟨List.Subset.trans due (List.subset_append_left ..),
      List.subset_append_right ..⟩
  · exact fun job member => a.fresh job (List.mem_append_right _ member)

/-- `Worker::fail` signals every job there is, and closes admission. -/
theorem Accounted.fail (a : s.Accounted) (error : Failure P) {next : Phase P}
    (hand : s.worker.phase.inHand = []) (last : next = .gone ∨ next = .dropping) :
    (s.fail error next).Accounted := by
  obtain ⟨signals, -⟩ := signals_of_accounts
    (Scheduler.fail_accounts error s.worker.scheduler s.worker.history)
  have empty : next.inHand = [] := by rcases last with rfl | rfl <;> rfl
  have jobs : s.jobs = s.worker.scheduler.jobs ++ s.shared.admission.pending := by
    rw [System.jobs, hand]
    rfl
  have none : (s.fail error next).jobs = [] := by
    show [] ++ (next.inHand ++ []) = []
    rw [empty]
    rfl
  have closed : (s.fail error next).Closed := ⟨none, .inl rfl⟩
  refine a.move rfl ?_ ?_ ?_ rfl rfl ?_
  · have pending : s.shared.admission.pending.map Job.signal =
        (s.shared.admission.pending.map fun job =>
          ((job.signal, .error error) : Completion P)).map Prod.fst := by
      rw [List.map_map]
      rfl
    rw [System.held, System.held, none, jobs, List.map_append, ← signals, pending]
    show List.map _ (_ ++ _ ++ _) ++ [] = _ ++ (_ ++ [] ++ _)
    rw [List.append_nil, List.append_nil, List.map_append, List.map_append, List.append_assoc]
    rfl
  · rw [none]
    exact List.nil_subset _
  · intro job member
    have : job ∈ next.inHand ++ [] := member
    rw [empty] at this
    cases this
  · rcases last with rfl | rfl <;> exact closed

/-- The locked section of `finish_signal`. -/
theorem Accounted.release (a : s.Accounted) {completion : Completion P}
    {todo : List (Completion P)} (settled : s.worker.settling = none)
    (next : s.worker.todo = completion :: todo) : (s.release completion todo).Accounted := by
  have held : s.account.held =
      completion.1 :: (todo.map Prod.fst ++ s.jobs.map Job.signal) := by
    show s.worker.todo.map Prod.fst ++ _ = _
    rw [next]
    rfl
  have released : (s.release completion todo).released = s.released ++ [completion.1] := by
    show ((s.results ++ [completion]).map Prod.fst) = _
    rw [System.released, settled, List.map_append]
    simp
  have right := a.right.release held
  exact {
    right := by
      show Account.Right ⟨_, _, _, _, (s.release completion todo).released, _⟩
      rw [released]
      exact right
    sizes := a.sizes
    fresh := a.fresh
    balanced := a.balanced
    limits := a.limits
    phase := by
      have before := a.phase
      show (s.release completion todo).InPhase s.worker.phase
      have busy : ¬ s.Idle := by
        intro idle
        rw [idle.2] at next
        cases next
      -- A completion is only called for in a phase that does not need an idle worker.
      have closes : s.Closed → (s.release completion todo).Closed := by
        rintro ⟨none, failed | closing⟩
        · refine ⟨none, .inl ?_⟩
          obtain ⟨signal, result⟩ := completion
          cases result with
          | error error => rfl
          | ok _ => exact failed
        · exact ⟨none, .inr closing⟩
      revert before
      cases s.worker.phase with
      | checking progressed => exact fun _ => trivial
      | failing error dropping => exact fun _ => trivial
      | dropping => exact closes
      | gone => exact closes
      | _ => exact fun idle => absurd idle busy }

/-- The rest of `finish_signal`. -/
theorem Accounted.settle (a : s.Accounted) {completion : Completion P}
    (settling : s.worker.settling = some completion) : (s.settle completion).Accounted := by
  have released : (s.settle completion).released = s.released := by
    show ((s.results ++ [completion] ++ []).map Prod.fst) = _
    rw [System.released, settling, List.append_nil]
    rfl
  exact {
    right := by
      show Account.Right ⟨_, _, _, _, (s.settle completion).released, _⟩
      rw [released]
      exact a.right
    sizes := a.sizes
    fresh := a.fresh
    balanced := a.balanced
    limits := a.limits
    phase := a.phase }

/-! ## Admitting -/

/-- A job that `enqueue` prepared has the size its signal was created with. -/
theorem prepare_ok {g : Gpu P} {signalMemory jobMemory : Bool} {id : Nat} {queue : P.Queue}
    {chunks : List (Chunk P)} {job : Job (Native P)}
    (h : Shared.prepare g signalMemory jobMemory id queue chunks = .ok job) :
    job.signal.id = id ∧ job.bytes = job.signal.bytes ∧ job.bytes ≤ maxStreamBytes ∧
      job.receipts = [] := by
  simp only [Shared.prepare, Job.prepare, except_bind_eq_ok, okOr_eq_ok, failIf_eq_ok] at h
  obtain ⟨bytes, sum, -, -, bytes', sum', -, -, made⟩ := h
  obtain rfl := Except.ok.inj made
  have same : bytes' = bytes := Option.some.inj (sum'.symm.trans sum)
  rw [Option.filter_eq_some_iff] at sum'
  exact ⟨rfl, same, of_decide_eq_true sum'.2, rfl⟩

/-- `enqueue` admits a job that the account does not refuse, or changes nothing. -/
theorem enqueue_cases (g : Gpu P) (signalMemory jobMemory : Bool) (id : Nat) (queue : P.Queue)
    (chunks : List (Chunk P)) (shared : Shared P) :
    (∃ e, Shared.enqueue g signalMemory jobMemory id queue chunks shared = (.error e, shared)) ∨
      ∃ job, Shared.prepare g signalMemory jobMemory id queue chunks = .ok job ∧
        shared.admission.failure = none ∧ shared.admission.refuses job.signal.bytes = false ∧
        Shared.enqueue g signalMemory jobMemory id queue chunks shared =
          (.ok job.signal, { shared with admission := { shared.admission with
            pending := shared.admission.pending ++ [job]
            count := shared.admission.count + 1
            bytes := shared.admission.bytes + job.signal.bytes
            last := some job.signal } }) := by
  cases hprepare : Shared.prepare g signalMemory jobMemory id queue chunks with
  | error e =>
      left
      refine ⟨e, ?_⟩
      rw [Shared.enqueue, bind_run, lift_run, hprepare]
  | ok job =>
      have published : Shared.enqueue g signalMemory jobMemory id queue chunks shared =
          ((Shared.publish job >>= fun _ => pure job.signal) : Fallible (Shared P) _ _) shared := by
        rw [Shared.enqueue, bind_run, lift_run, hprepare]
      rw [published, bind_run, Shared.publish, read_bind_run]
      cases hfailure : shared.admission.failure with
      | some error => exact .inl ⟨_, rfl⟩
      | none =>
          cases hrefuses : shared.admission.refuses job.signal.bytes with
          | true => exact .inl ⟨_, rfl⟩
          | false => exact .inr ⟨job, rfl, rfl, hrefuses, rfl⟩

theorem Accounted.enqueued (a : s.Accounted) (g : Gpu P) (open' : s.shared.closing = false)
    (signalMemory jobMemory : Bool) (queue : P.Queue) (chunks : List (Chunk P)) :
    (s.enqueued g signalMemory jobMemory queue chunks).Accounted := by
  rw [System.enqueued]
  rcases enqueue_cases g signalMemory jobMemory s.created queue chunks s.shared with
    ⟨e, refused⟩ | ⟨job, prepared, running, fits, admitted⟩
  · rw [refused]
    exact ⟨a.right.create, a.sizes, a.fresh, a.balanced, a.limits, a.phase⟩
  obtain ⟨id, size, stream, receipts⟩ := prepare_ok prepared
  rw [admitted]
  have room : s.account.count ≠ maxSubmissions ∧ (s.account.count ≠ 0 →
      job.signal.bytes ≤ maxPendingBytes ∧
        saturatingAdd64 s.account.bytes job.signal.bytes ≤ maxPendingBytes) := by
    show s.shared.admission.count ≠ _ ∧ (s.shared.admission.count ≠ _ →
      _ ∧ saturatingAdd64 s.shared.admission.bytes _ ≤ _)
    simpa [Admission.refuses] using fits
  have right := a.right.admit room.1 room.2
  have signal : (⟨s.account.created, job.signal.bytes⟩ : Signal) = job.signal := by
    show (⟨s.created, job.signal.bytes⟩ : Signal) = job.signal
    rw [← id]
  rw [signal] at right
  have append : ∀ queue : List (Job (Native P)), queue ++ (s.worker.phase.inHand ++
      (s.shared.admission.pending ++ [job])) =
        (queue ++ (s.worker.phase.inHand ++ s.shared.admission.pending)) ++ [job] := by
    intro queue
    rw [List.append_assoc, List.append_assoc]
  exact {
    right := by
      show Account.Right ⟨_, _, _, _, _, List.map _ _ ++ List.map _ (_ ++ (_ ++ (_ ++ [job])))⟩
      rw [append, List.map_append, ← List.append_assoc]
      exact right
    sizes := by
      intro job' member
      rw [System.jobs, append] at member
      rcases List.mem_append.mp member with old | new
      · exact a.sizes job' old
      · rw [List.mem_singleton.mp new]
        exact ⟨size, stream⟩
    fresh := by
      intro job' member
      have := append []
      rw [List.nil_append, List.nil_append] at this
      rw [this] at member
      rcases List.mem_append.mp member with old | new
      · exact a.fresh job' old
      · rw [List.mem_singleton.mp new]
        exact receipts
    balanced := a.balanced
    limits := a.limits
    phase := by
      have before := a.phase
      have closed : ¬ s.Closed := by
        rintro ⟨-, failed | closing⟩
        · rw [running] at failed
          cases failed
        · rw [open'] at closing
          cases closing
      show System.InPhase _ s.worker.phase
      revert before
      cases s.worker.phase with
      | dropping => exact fun h => absurd h closed
      | gone => exact fun h => absurd h closed
      | _ => exact fun h => h }

/-! ## Steps -/

theorem Accounted.work (a : s.Accounted) (g : Gpu P) (next : s.worker.todo = [])
    (answers : Answers P) : (s.work g answers).Accounted := by
  rw [System.work]
  cases h : s.worker.phase with
  | starting =>
      have here : s.worker.phase.inHand = [] := by rw [h]; rfl
      simp only
      split
      · exact a.goto here rfl (a.idle h rfl)
      · exact a.goto here rfl trivial
  | waking =>
      have here : s.worker.phase.inHand = [] := by rw [h]; rfl
      simp only
      split
      · exact a.goto here rfl (a.idle h rfl)
      · exact a.goto here rfl trivial
  | taking => exact a.take h
  | transferring job => exact a.transfer h answers.allocated
  | advancing => exact a.advance g h
  | checking progressed =>
      have here : s.worker.phase.inHand = [] := by rw [h]; rfl
      simp only [check]
      split
      · exact a.goto here rfl trivial
      · rename_i running
        split
        · rename_i stopped
          obtain ⟨-, closing, count⟩ := stopped
          -- Nothing is held when the count is zero.
          have none : s.held = [] := by
            have length : s.held.length = 0 := by
              rw [← show _ = s.held.length from a.right.count]
              show s.shared.admission.count.toNat = 0
              rw [count]
              rfl
            exact List.length_eq_zero_iff.mp length
          have jobs : s.jobs = [] := by
            rw [held, List.append_eq_nil_iff] at none
            exact List.map_eq_nil_iff.mp none.2
          exact a.goto here rfl ⟨jobs, .inr closing⟩
        · split <;> exact a.goto here rfl ⟨running, next⟩
  | polling =>
      have here : s.worker.phase.inHand = [] := by rw [h]; rfl
      simp only
      split
      · exact a.goto here rfl (a.idle h rfl)
      · exact a.goto here rfl trivial
  | failing error dropping =>
      have here : s.worker.phase.inHand = [] := by rw [h]; rfl
      refine a.fail error here ?_
      cases dropping with
      | true => exact .inl rfl
      | false => exact .inr rfl
  | dropping =>
      have here : s.worker.phase.inHand = [] := by rw [h]; rfl
      have closed : s.Closed := by
        have := a.phase
        rwa [h] at this
      simp only [drop]
      split
      · exact a.goto here rfl trivial
      · exact a.goto here rfl closed
  | gone => exact a

theorem Accounted.workerStep (a : s.Accounted) (g : Gpu P) (answers : Answers P) :
    (s.workerStep g answers).Accounted := by
  rw [System.workerStep]
  split
  · rename_i completion settling
    exact a.settle settling
  · rename_i settled
    split
    · rename_i completion todo next
      exact a.release settled next
    · rename_i next
      exact a.work g next answers

theorem Accounted.step (a : s.Accounted) (g : Gpu P) (event : Event P) :
    (s.step g event).Accounted := by
  cases event with
  | enqueue signalMemory jobMemory queue chunks =>
      rw [System.step]
      split
      · exact a
      · rename_i open'
        exact a.enqueued g (Bool.eq_false_iff.mpr open') signalMemory jobMemory queue chunks
  | close =>
      have phase := a.phase
      refine ⟨a.right, a.sizes, a.fresh, a.balanced, a.limits, ?_⟩
      show System.InPhase _ s.worker.phase
      revert phase
      cases s.worker.phase with
      | dropping => exact fun h => ⟨h.1, .inr rfl⟩
      | gone => exact fun h => ⟨h.1, .inr rfl⟩
      | _ => exact fun h => h
  | worker answers => exact a.workerStep g answers

theorem Accounted.run (a : s.Accounted) (g : Gpu P) (events : List (Event P)) :
    (s.run g events).Accounted := by
  induction events generalizing s with
  | nil => exact a
  | cons event rest ih => exact ih (a.step g event)

/-! ## The end of a run -/

/-- The worker fails, or has failed, or ends. -/
def Failing (s : System P) : Prop :=
  match s.worker.phase with
  | .checking _ => s.worker.scheduler.failure.isSome = true
  | .failing _ _ | .dropping | .gone => True
  | _ => False

/-- A bound of the worker's steps in a phase and after it, once it fails. -/
def stepsFrom : Phase P → Nat
  | .checking _ => 35
  | .failing _ false => 34
  | .failing _ true => 33
  | .dropping => 1
  | _ => 0

/-- A bound of the worker's remaining steps, once it fails. -/
def remaining (s : System P) : Nat :=
  2 * s.worker.todo.length + s.worker.settling.toList.length + stepsFrom s.worker.phase

/-- The steps of the worker among some events. -/
def workerSteps (events : List (Event P)) : Nat :=
  events.countP fun
    | .worker _ => true
    | _ => false

theorem Accounted.remaining_le (a : s.Accounted) : s.remaining ≤ 68 := by
  have held : s.held.length ≤ 16 := a.right.submissions
  rw [System.held, List.length_append, List.length_map] at held
  have settling : s.worker.settling.toList.length ≤ 1 := by
    cases s.worker.settling with
    | none => exact Nat.zero_le _
    | some _ => exact Nat.le_refl _
  have phase : stepsFrom s.worker.phase ≤ 35 := by
    unfold stepsFrom
    split <;> decide
  rw [remaining]
  omega

/-- A failing worker comes closer to its end with each of its phases. -/
theorem Failing.work (f : s.Failing) (a : s.Accounted) (g : Gpu P) (next : s.worker.todo = [])
    (settled : s.worker.settling = none) (answers : Answers P) :
    (s.work g answers).Failing ∧ (s.work g answers).remaining ≤ s.remaining - 1 := by
  have left : s.remaining = stepsFrom s.worker.phase := by
    rw [remaining, next, settled]
    exact Nat.zero_add _
  have left_goto : ∀ phase, (s.goto phase).remaining = stepsFrom phase := by
    intro phase
    show 2 * s.worker.todo.length + s.worker.settling.toList.length + stepsFrom phase = _
    rw [next, settled]
    exact Nat.zero_add _
  rw [left, System.work]
  rw [System.Failing] at f
  cases h : s.worker.phase with
  | checking progressed =>
      rw [h] at f
      obtain ⟨error, failed⟩ := Option.isSome_iff_exists.mp f
      simp only [check, failed, left_goto]
      exact ⟨trivial, Nat.le_refl _⟩
  | failing error dropping =>
      have here : s.worker.phase.inHand = [] := by rw [h]; rfl
      -- What is left to play is what was held, and that is at most sixteen signals.
      have few : ∀ last : Phase P, last = .gone ∨ last = .dropping →
          (s.fail error last).remaining ≤ 32 + stepsFrom last := by
        intro last ends
        have held : (s.fail error last).held.length ≤ 16 :=
          (a.fail error here ends).right.submissions
        rw [System.held, List.length_append, List.length_map] at held
        have settling : (s.fail error last).worker.settling = none := settled
        rw [remaining, settling]
        show 2 * _ + 0 + stepsFrom last ≤ _
        omega
      cases dropping with
      | true => exact ⟨trivial, few .gone (.inl rfl)⟩
      | false => exact ⟨trivial, few .dropping (.inr rfl)⟩
  | dropping =>
      have closed : s.Closed := by
        have := a.phase
        rwa [h] at this
      have none : s.held = [] := by
        rw [held, next, closed.1]
        rfl
      have count : s.shared.admission.count = 0 := by
        refine UInt64.toNat_inj.mp ?_
        rw [show s.shared.admission.count.toNat = s.held.length from a.right.count, none]
        rfl
      have jobs : s.worker.scheduler.jobs = [] := (List.append_eq_nil_iff.mp closed.1).1
      have gone : s.drop = s.goto .gone := by
        rw [drop, jobs, count]
        rfl
      simp only [gone, left_goto]
      exact ⟨trivial, Nat.le_refl _⟩
  | gone =>
      simp only
      exact ⟨by rw [System.Failing, h]; trivial, by rw [left, h]; exact Nat.le_refl _⟩
  | _ =>
      rw [h] at f
      exact f.elim

theorem Failing.workerStep (f : s.Failing) (a : s.Accounted) (g : Gpu P) (answers : Answers P) :
    (s.workerStep g answers).Failing ∧
      (s.workerStep g answers).remaining ≤ s.remaining - 1 := by
  rw [System.workerStep]
  split
  · rename_i completion settling
    refine ⟨f, ?_⟩
    show 2 * s.worker.todo.length + 0 + stepsFrom s.worker.phase ≤ _
    rw [remaining, settling, Option.toList_some, List.length_singleton]
    omega
  · rename_i settled
    split
    · rename_i completion todo next
      refine ⟨f, ?_⟩
      show 2 * todo.length + 1 + stepsFrom s.worker.phase ≤ _
      rw [remaining, next, settled, List.length_cons]
      omega
    · rename_i next
      exact f.work a g next settled answers

/-- Nobody but the worker matters to a failing worker. -/
theorem Failing.others (f : s.Failing) (g : Gpu P) {event : Event P}
    (other : ∀ answers, event ≠ .worker answers) :
    (s.step g event).Failing ∧ (s.step g event).remaining = s.remaining := by
  cases event with
  | enqueue signalMemory jobMemory queue chunks =>
      rw [System.step]
      split
      · exact ⟨f, rfl⟩
      · rw [System.enqueued]
        split <;> exact ⟨f, rfl⟩
  | close => exact ⟨f, rfl⟩
  | worker answers => exact absurd rfl (other answers)

theorem Failing.run (f : s.Failing) (a : s.Accounted) (g : Gpu P) (events : List (Event P))
    (enough : s.remaining ≤ workerSteps events) : (s.run g events).Gone := by
  induction events generalizing s with
  | nil =>
      have none : s.remaining = 0 := Nat.le_zero.mp enough
      rw [remaining] at none
      have todo : s.worker.todo = [] := List.length_eq_zero_iff.mp (by omega)
      have settling : s.worker.settling = Option.none := by
        cases h : s.worker.settling with
        | none => rfl
        | some completion =>
            rw [h] at none
            simp at none
      have phase : stepsFrom s.worker.phase = 0 := by omega
      refine ⟨?_, todo, settling⟩
      show s.worker.phase = .gone
      rw [System.Failing] at f
      cases h : s.worker.phase with
      | gone => rfl
      | checking progressed =>
          rw [h] at phase
          cases phase
      | failing error dropping =>
          rw [h] at phase
          cases dropping <;> cases phase
      | dropping =>
          rw [h] at phase
          cases phase
      | _ =>
          rw [h] at f
          exact f.elim
  | cons event rest ih =>
      cases event with
      | worker answers =>
          obtain ⟨f', less⟩ := f.workerStep a g answers
          refine ih f' (a.workerStep g answers) ?_
          have count : workerSteps (.worker answers :: rest) = workerSteps rest + 1 :=
            List.countP_cons_of_pos rfl
          have : (s.step g (.worker answers)).remaining ≤ s.remaining - 1 := less
          omega
      | enqueue signalMemory jobMemory queue chunks =>
          obtain ⟨f', same⟩ := f.others g
            (show ∀ answers, .enqueue signalMemory jobMemory queue chunks ≠ Event.worker answers from
              nofun)
          exact ih f' (a.step g _) (same ▸ enough)
      | close =>
          obtain ⟨f', same⟩ := f.others g (show ∀ answers, .close ≠ Event.worker answers from nofun)
          exact ih f' (a.step g _) (same ▸ enough)

/-- A worker that is gone has completed every admitted signal. -/
theorem Accounted.results_of_gone (a : s.Accounted) (gone : s.Gone) :
    s.results.map Prod.fst = s.admitted := by
  obtain ⟨phase, todo, settling⟩ := gone
  have closed : s.Closed := by
    have := a.phase
    rwa [phase] at this
  have none : s.held = [] := by
    rw [held, todo, closed.1]
    rfl
  have admitted : s.admitted = s.released ++ s.held := a.right.admitted
  rw [admitted, none, released, settling, List.append_nil]
  show _ = (s.results ++ []).map Prod.fst
  rw [List.append_nil]

end System

/-- **Native admission.**  In every interleaving of producers with the worker: the
shared count and bytes are those of the admitted signals not given back, which are
those in the inbox, in the worker's hand, in its private scheduler and among the
completions it called for; every admitted signal is in exactly one of these places
or given back, and its result is set once; giving a signal back never underflows;
the private scheduler never refuses a job handed to it; and a worker that is gone
has set the result of every admitted signal, which a failing worker is after at
most 68 of its steps, whatever the producers do. -/
theorem native_admission (g : Gpu P) (events : List (Event P)) :
    let s := (System.new : System P).run g events
    (s.shared.admission.count.toNat = s.held.length ∧
      s.shared.admission.bytes.toNat = signalBytes s.held) ∧
    (s.admitted = s.released ++ s.held ∧ s.admitted.Nodup ∧
      s.results.map Prod.fst <+: s.released) ∧
    (∀ signal, s.releasing = some signal →
      1 ≤ s.shared.admission.count ∧ signal.bytes ≤ s.shared.admission.bytes) ∧
    (∀ job allocated, s.worker.phase = .transferring job →
      s.worker.scheduler.failure = none ∧
      (Scheduler.enqueuePrepared (reserved s.worker.scheduler job allocated) job
        s.worker.scheduler).1 = .ok ()) ∧
    (s.Gone → s.results.map Prod.fst = s.admitted) ∧
    (s.Failing → ∀ later, 68 ≤ System.workerSteps later →
      (s.run g later).Gone ∧ (s.run g later).results.map Prod.fst = (s.run g later).admitted) := by
  intro s
  have a : s.Accounted := System.new_accounted.run g events
  refine ⟨⟨a.right.count, a.right.bytes⟩, ⟨a.right.admitted, a.right.nodup, ?_⟩, ?_, ?_,
    a.results_of_gone, ?_⟩
  · rw [System.released, List.map_append]
    exact List.prefix_append ..
  · intro signal releasing
    rw [System.releasing] at releasing
    split at releasing
    · cases releasing
    · obtain ⟨completion, first, rfl⟩ := Option.map_eq_some_iff.mp releasing
      obtain ⟨todo, next⟩ := List.head?_eq_some_iff.mp first
      have held : s.worker.todo.map Prod.fst ++ s.jobs.map Job.signal =
          completion.1 :: (todo.map Prod.fst ++ s.jobs.map Job.signal) := by
        rw [next]
        rfl
      exact a.right.covers held
  · intro job allocated h
    rw [a.transfers h allocated]
    exact ⟨(a.idle h rfl).1, rfl⟩
  · intro f later enough
    have gone := f.run a g later (Nat.le_trans a.remaining_le enough)
    exact ⟨gone, (a.run g later).results_of_gone gone⟩

end Sgfx.Virgl
