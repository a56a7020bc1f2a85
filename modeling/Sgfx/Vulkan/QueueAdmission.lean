import Sgfx.Vulkan.Timelines

/-!
# Admission of queue submissions

`enqueue` takes three kinds of reservations before it hands a list of packets to the queue thread:
the values of every timeline that a packet signals, the fence, and the places of the packets in the
count of pending requests.  Each refusal gives back what was taken before it.  Only a queue thread
that is gone, which loses the device, is an error after that.

A packet's waits, binary signals and recordings are moved to the queue thread unread, as `work`.
A handle finds one timeline or fence cell for as long as it exists, so timelines and fences are
named by their handles.

## Main Definitions

* `Driver`, `Packet`
* `enqueue`

## Main Results

* `reserve_reversible` — a timeline's reservation can be taken back
* `enqueue_ensures` — what a refused and what an accepted submission leave
* `queue_admission`
-/

namespace Sgfx.Vulkan

open Fallible

/-! ## The driver -/

/-- `Packet`: what `enqueue` reads of it, and the rest. -/
structure Packet (ι ω : Type) where
  work : ω
  timelineSignals : List (ι × Nat)

/-- `Request::Run`: what the queue thread receives. -/
structure RunRequest (ι ω : Type) where
  packets : List (Packet ι ω)
  fence : Option Nat

/-- The part of `Driver` that admission reads and writes.  `fences` maps the raw handles to the
states of their cells, `pending` and `finished` are the counters of `InFlight`, and `sent` is what
the queue thread has been sent, as long as it is `receiving`. -/
structure Driver (ι ω : Type) where
  timelines : ι → Timeline
  fences : Nat → Option Nat
  pending : Nat
  finished : Nat
  lost : Bool
  receiving : Bool
  sent : List (RunRequest ι ω)

variable {ι ω : Type} [DecidableEq ι]

namespace Driver

/-- `Timeline::reserve` on one of the timelines. -/
def reserve (signal : ι × Nat) : Fallible (Driver ι ω) VkResult Unit :=
  zoom (fun d => d.timelines signal.1)
    (fun d t => { d with timelines := Function.update d.timelines signal.1 t })
    (Timeline.reserve signal.2)

/-- `Timeline::cancel` on one of the timelines. -/
def cancel (signal : ι × Nat) (d : Driver ι ω) : Driver ι ω :=
  { d with
    timelines := Function.update d.timelines signal.1
      ((d.timelines signal.1).cancel signal.2) }

/-- Store a state in the cell of a fence. -/
def storeFence (d : Driver ι ω) (fence : Option Nat) (state : Nat) : Driver ι ω :=
  match fence with
  | none => d
  | some handle => { d with fences := Function.update d.fences handle (some state) }

/-- `fence_refs` of a fence that may be null, which is the handle zero. -/
def fenceRef (d : Driver ι ω) (fence : Nat) : Except VkResult (Option Nat) :=
  if fence = 0 then .ok none
  else do
    failIf (d.lost = true) .errorDeviceLost
    let _ ← okOr (d.fences fence) .errorInitializationFailed
    pure (some fence)

/-- Whether `compare_exchange(0, 2)` on the cell of a fence fails. -/
def fenceBusy (d : Driver ι ω) (fence : Option Nat) : Bool :=
  fence.any fun handle => d.fences handle != some 0

/-- `InFlight::reserve_pending`. -/
def reservePending (additional : Nat) : Fallible (Driver ι ω) VkResult Unit := do
  let d ← Fallible.read
  liftM (failIf (2 ^ 64 ≤ d.pending + additional) VkResult.errorOutOfHostMemory)
  liftM (failIf (4096 < d.pending + additional) VkResult.errorOutOfHostMemory)
  update fun d => { d with pending := d.pending + additional }

/-- `InFlight::finish`, once for each of the packets. -/
def finishPending (packets : Nat) (d : Driver ι ω) : Driver ι ω :=
  { d with pending := d.pending - packets, finished := d.finished + packets }

/-- The signals of the packets, in the order in which they are reserved. -/
def signals (packets : List (Packet ι ω)) : List (ι × Nat) :=
  packets.flatMap Packet.timelineSignals

/-- The packets that are queued: no packet at all counts as one without work. -/
def queued (default : ω) (packets : List (Packet ι ω)) : List (Packet ι ω) :=
  if packets = [] then [⟨default, []⟩] else packets

end Driver

open Driver

/-- The tail of `enqueue`, once the timelines are reserved; `reserved` is cancelled by each
failure. -/
def admitPackets (packets : List (Packet ι ω)) (fence : Option Nat) (reserved : List (ι × Nat)) :
    Fallible (Driver ι ω) VkResult Unit := fun d =>
  if d.fenceBusy fence then
    (.error .errorInitializationFailed, giveAll cancel (signals packets) d)
  else
    match reservePending packets.length (d.storeFence fence 2) with
    | (.error e, d) => (.error e, (giveAll cancel (signals packets) d).storeFence fence 0)
    | (.ok (), d) =>
      if d.receiving then
        (.ok (), { d with sent := d.sent ++ [⟨packets, fence⟩] })
      else
        (.error .errorDeviceLost,
          finishPending packets.length
            ((giveAll cancel reserved { d with lost := true }).storeFence fence 0))

/-- `enqueue`. -/
def enqueue (default : ω) (packets : List (Packet ι ω)) (fence : Nat) :
    Fallible (Driver ι ω) VkResult Unit := do
  let d ← Fallible.read
  let fence ← liftM (d.fenceRef fence)
  let reserved ← takeAll reserve cancel [] (signals (queued default packets))
  admitPackets (queued default packets) fence reserved

/-! ## Taking back -/

section

variable {d d' : Driver ι ω} {signal : ι × Nat} {u : Unit}

theorem reserve_ok (h : Driver.reserve signal d = (.ok u, d')) :
    ∃ t, Timeline.reserve signal.2 (d.timelines signal.1) = (.ok u, t) ∧
      d' = { d with timelines := Function.update d.timelines signal.1 t } :=
  zoom_eq_ok.mp h

/-- Cancelling an accepted reservation undoes it. -/
theorem cancel_reserve (h : Driver.reserve signal d = (.ok u, d')) : cancel signal d' = d := by
  obtain ⟨t, taken, rfl⟩ := reserve_ok h
  have restored : Function.update (Function.update d.timelines signal.1 t) signal.1
      ((Function.update d.timelines signal.1 t signal.1).cancel signal.2) = d.timelines := by
    rw [Function.update_self, Function.update_idem, Timeline.cancel_reserve taken,
      Function.update_eq_self]
  rw [cancel, restored]

theorem cancel_comm (k l : ι × Nat) (d : Driver ι ω) :
    cancel k (cancel l d) = cancel l (cancel k d) := by
  unfold cancel
  by_cases same : k.1 = l.1
  · simp only [same, Function.update_self, Function.update_idem, Timeline.cancel_comm]
  · simp only [Function.update_of_ne same, Function.update_of_ne (Ne.symm same),
      Function.update_comm same]

/-- A timeline's reservation can be taken back. -/
theorem reserve_reversible : Reversible (Driver.reserve (ι := ι) (ω := ω)) cancel where
  undo := cancel_reserve
  unchanged := (Atomic.zoom (fun d => by rw [Function.update_eq_self])
    (Timeline.reserve_atomic _)).unchanged
  comm := cancel_comm

theorem giveAll_cancel_frame (taken : List (ι × Nat)) (d : Driver ι ω) :
    giveAll cancel taken d =
      { d with timelines := (giveAll cancel taken d).timelines } := by
  induction taken generalizing d with
  | nil => rfl
  | cons k rest ih => exact ih (cancel k d)

/-- Cancelling reads and writes only the timelines. -/
theorem giveAll_cancel_timelines (taken : List (ι × Nat)) (same : d.timelines = d'.timelines) :
    (giveAll cancel taken d).timelines = (giveAll cancel taken d').timelines := by
  induction taken generalizing d d' with
  | nil => exact same
  | cons k rest ih =>
    refine ih ?_
    show Function.update d.timelines k.1 _ = Function.update d'.timelines k.1 _
    rw [same]

/-! ## Refusals -/

omit [DecidableEq ι] in
/-- A free fence is free again after it has been claimed and released. -/
theorem storeFence_release {fence : Option Nat} (free : d.fenceBusy fence = false) :
    (d.storeFence fence 2).storeFence fence 0 = d := by
  cases fence with
  | none => rfl
  | some handle =>
    have state : d.fences handle = some 0 := by
      simpa [fenceBusy] using free
    have restored : Function.update (Function.update d.fences handle (some 2)) handle (some 0) =
        d.fences := by
      rw [Function.update_idem, ← state, Function.update_eq_self]
    rw [storeFence, storeFence, restored]

omit [DecidableEq ι] in
theorem storeFence_timelines (d : Driver ι ω) (fence : Option Nat) (state : Nat) :
    (d.storeFence fence state).timelines = d.timelines := by
  cases fence <;> rfl

omit [DecidableEq ι] in
theorem reservePending_atomic (additional : Nat) :
    Atomic (reservePending (ι := ι) (ω := ω) additional) :=
  .read_bind fun _ => .lift_bind fun _ _ => .lift_bind fun _ _ => .of_total (.update _)

omit [DecidableEq ι] in
theorem reservePending_ok {additional : Nat} (h : reservePending additional d = (.ok u, d')) :
    d' = { d with pending := d.pending + additional } := by
  simp only [reservePending, read_bind_run, lift_bind_eq_ok] at h
  obtain ⟨-, -, -, -, h⟩ := h
  rw [update_run, Prod.mk.injEq] at h
  exact h.2.symm

/-- Cancelling commutes with the states of fences. -/
theorem giveAll_cancel_storeFence (taken : List (ι × Nat)) (fence : Option Nat) (state : Nat) :
    giveAll cancel taken (d.storeFence fence state) =
      (giveAll cancel taken d).storeFence fence state := by
  cases fence with
  | none => rfl
  | some handle =>
    rw [giveAll_cancel_frame taken d, giveAll_cancel_frame taken (d.storeFence _ _),
      giveAll_cancel_timelines taken (storeFence_timelines d (some handle) state)]
    rfl

/-- The tail of `enqueue`: an error that does not lose the device gives everything back, and a
success leaves the timelines as they were reserved. -/
theorem admitPackets_ensures {packets : List (Packet ι ω)} {fence : Option Nat}
    {reserved : List (ι × Nat)} (d : Driver ι ω) :
    Ensures (admitPackets packets fence reserved) d
      (fun _ d' => d'.timelines = d.timelines)
      fun e d' => e ≠ .errorDeviceLost → d' = giveAll cancel (signals packets) d := by
  unfold Ensures admitPackets
  by_cases busy : d.fenceBusy fence = true
  · rw [if_pos busy]
    exact fun _ => rfl
  · rw [if_neg busy]
    rcases hrun : reservePending packets.length (d.storeFence fence 2) with ⟨e | u, d'⟩
    · intro _
      show (giveAll cancel (signals packets) d').storeFence fence 0 = _
      rw [(reservePending_atomic _).unchanged hrun, ← giveAll_cancel_storeFence,
        storeFence_release (Bool.eq_false_iff.mpr busy)]
    · have same : d'.timelines = d.timelines := by
        rw [reservePending_ok hrun]
        exact storeFence_timelines d fence 2
      cases receiving : d'.receiving with
      | true =>
        simp only [receiving]
        exact same
      | false =>
        simp only [receiving]
        exact fun other => absurd rfl other

end

/-! ## Acceptance -/

/-- The values of one timeline that the packets signal, in order. -/
def signalledValues (s : ι) (signals : List (ι × Nat)) : List Nat :=
  signals.filterMap fun signal => if signal.1 = s then some signal.2 else none

theorem signalledValues_snoc (s : ι) (signals : List (ι × Nat)) (signal : ι × Nat) :
    signalledValues s (signals ++ [signal]) =
      if signal.1 = s then signalledValues s signals ++ [signal.2]
      else signalledValues s signals := by
  unfold signalledValues
  rw [List.filterMap_append]
  split
  · rename_i same
    simp [same]
  · rename_i other
    simp [other]

/-- Every timeline has exactly these signals reserved. -/
def Reserves (d : Driver ι ω) (signals : List (ι × Nat)) (d' : Driver ι ω) : Prop :=
  ∀ s, (d.timelines s).Reserved (signalledValues s signals) (d'.timelines s)

theorem Reserves.snoc {d mid d' : Driver ι ω} {taken : List (ι × Nat)} {signal : ι × Nat}
    (done : Reserves d taken mid) (h : Driver.reserve signal mid = (.ok (), d')) :
    Reserves d (taken ++ [signal]) d' := by
  obtain ⟨t, reserved, rfl⟩ := reserve_ok h
  intro s
  show (d.timelines s).Reserved _ (Function.update mid.timelines signal.1 t s)
  rw [signalledValues_snoc]
  by_cases same : signal.1 = s
  · subst same
    rw [if_pos rfl, Function.update_self]
    exact (done signal.1).snoc reserved
  · rw [if_neg same, Function.update_of_ne (Ne.symm same)]
    exact done s

omit [DecidableEq ι] in
theorem signals_queued (default : ω) (packets : List (Packet ι ω)) :
    signals (queued default packets) = signals packets := by
  unfold queued
  split
  · rename_i empty
    rw [empty]
    rfl
  · rfl

/-- Taking the reservations of timelines: all of them, or none. -/
theorem reserveAll_ensures (signals : List (ι × Nat)) (d : Driver ι ω) :
    Ensures (takeAll Driver.reserve cancel [] signals) d
      (fun all mid => all = signals ∧ giveAll cancel signals mid = d ∧ Reserves d all mid)
      fun _ mid => mid = d := by
  have undone := reserve_reversible.takeAll_undo signals d
  unfold Ensures at undone ⊢
  split at undone
  · rename_i all mid taken
    exact ⟨undone.1, undone.2, takeAll_induction (Reserves d) (fun s => .refl _)
      (fun taken k s s' done h => done.snoc h) taken⟩
  · exact undone

/-- A refusal that does not lose the device leaves the driver as it was, and an accepted submission
has reserved the values it signals. -/
theorem enqueue_ensures (default : ω) (packets : List (Packet ι ω)) (fence : Nat)
    (d : Driver ι ω) :
    Ensures (enqueue default packets fence) d (fun _ d' => Reserves d (signals packets) d')
      fun e d' => e ≠ .errorDeviceLost → d' = d := by
  rw [← signals_queued default packets]
  refine .read_bind (.lift_bind (fun fence _ => ?_) fun _ _ _ => rfl)
  have reserved : Ensures (takeAll Driver.reserve cancel [] (signals (queued default packets))) d
      (fun all mid => all = signals (queued default packets) ∧
        giveAll cancel (signals (queued default packets)) mid = d ∧ Reserves d all mid)
      fun e d' => e ≠ .errorDeviceLost → d' = d :=
    (reserveAll_ensures _ d).imp (fun _ _ h => h) fun _ _ same _ => same
  refine reserved.bind ?_
  rintro all mid ⟨rfl, back, reserves⟩
  refine (admitPackets_ensures mid).imp (fun _ d' same s => ?_) fun e d' rejected other => ?_
  · rw [same]
    exact reserves s
  · exact (rejected other).trans back

/-- **Queue admission.**  A submission that fails without losing the device leaves the driver as it
was.  One that succeeds has reserved, for every timeline, values that increase along its packets,
strictly above the value and everything pending.  Whatever calls are made on timelines in whatever
order, no value ever decreases, and a host signal that is accepted stays below every pending
value. -/
theorem queue_admission (default : ω) (packets : List (Packet ι ω)) (fence : Nat)
    (d : Driver ι ω) (timelines : ι → Timeline) (calls : List (ι × TimelineCall)) :
    Ensures (enqueue default packets fence) d (fun _ d' => Reserves d (signals packets) d')
        (fun e d' => e ≠ .errorDeviceLost → d' = d) ∧
      ∀ s, (timelines s).value ≤ (runTimelines timelines calls s).value ∧
        ∀ v, Ensures (Timeline.signal v) (runTimelines timelines calls s)
          (fun _ t => t.value = v ∧ ∀ p ∈ (runTimelines timelines calls s).pending, v < p)
          fun _ t => t = runTimelines timelines calls s := by
  refine ⟨enqueue_ensures default packets fence d, fun s =>
    ⟨runTimelines_value timelines calls s, fun v => ?_⟩⟩
  unfold Ensures
  split
  · rename_i u t accepted
    obtain ⟨-, below, rfl⟩ := Timeline.signal_ok accepted
    exact ⟨rfl, below⟩
  · rename_i e t refused
    exact (Timeline.signal_atomic v).unchanged refused

end Sgfx.Vulkan
