import Mathlib.Algebra.Group.Nat.Defs
import Mathlib.Tactic.Common

/-!
# Streams of frames

A frame is a header word, and as many words of payload as the header says.  A stream of
words is read frame by frame; an interpreter gives each frame its effect on a state, and
some of its frames are observed.

`Plays` is the judgement that an encoder is verified with: the words are whole frames,
they take one state to another, and the observed frames see the listed states.  It holds
of nothing, of one frame, and of two streams in a row, and it says what replaying the
words gives (`Plays.replay`).

## Main Definitions

* `Frame`, `frames` — a frame, and reading a stream
* `Interpreter`, `Interpreter.replay`
* `Interpreter.Plays`, `Interpreter.Binds`
-/

namespace Sgfx

variable {W S : Type}

/-- A header and its payload. -/
structure Frame (W : Type) where
  header : W
  payload : List W

namespace Frame

/-- The words of a frame. -/
def words (frame : Frame W) : List W := frame.header :: frame.payload

/-- The header gives the length of the payload. -/
def Fits (lengthOf : W → Nat) (frame : Frame W) : Prop :=
  lengthOf frame.header = frame.payload.length

end Frame

/-- Read at most `fuel` frames, to the end of the words. -/
def framesWithin (lengthOf : W → Nat) : Nat → List W → Option (List (Frame W))
  | _, [] => some []
  | 0, _ :: _ => none
  | fuel + 1, header :: rest =>
      if lengthOf header ≤ rest.length then
        (framesWithin lengthOf fuel (rest.drop (lengthOf header))).map
          (⟨header, rest.take (lengthOf header)⟩ :: ·)
      else
        none

/-- Read words as frames. -/
def frames (lengthOf : W → Nat) (words : List W) : Option (List (Frame W)) :=
  framesWithin lengthOf words.length words

theorem framesWithin_words {lengthOf : W → Nat} (list : List (Frame W))
    (hfits : ∀ frame ∈ list, frame.Fits lengthOf) {fuel : Nat}
    (hfuel : (list.flatMap Frame.words).length ≤ fuel) :
    framesWithin lengthOf fuel (list.flatMap Frame.words) = some list := by
  induction list generalizing fuel with
  | nil => cases fuel <;> rfl
  | cons frame rest ih =>
    obtain ⟨header, payload⟩ := frame
    have hhead : lengthOf header = payload.length := hfits ⟨header, payload⟩ (by simp)
    have htail : ∀ other ∈ rest, other.Fits lengthOf :=
      fun other hother => hfits other (List.mem_cons_of_mem _ hother)
    cases fuel with
    | zero => simp [Frame.words] at hfuel
    | succ fuel =>
      have hrest : (rest.flatMap Frame.words).length ≤ fuel := by
        simp only [List.flatMap_cons, Frame.words, List.length_append, List.length_cons] at hfuel
        omega
      simp only [List.flatMap_cons, Frame.words, List.cons_append, framesWithin]
      rw [if_pos (by rw [hhead]; simp), hhead, List.drop_left, List.take_left]
      rw [ih htail hrest]
      rfl

/-- Reading inverts writing. -/
theorem frames_words {lengthOf : W → Nat} {list : List (Frame W)}
    (hfits : ∀ frame ∈ list, frame.Fits lengthOf) :
    frames lengthOf (list.flatMap Frame.words) = some list :=
  framesWithin_words list hfits (Nat.le_refl _)

/-! ### Interpreters -/

/-- The meaning of frames: their effect on a state, and which of them are observed. -/
structure Interpreter (W S : Type) where
  lengthOf : W → Nat
  apply : Frame W → S → S
  observed : Frame W → Bool

namespace Interpreter

variable (machine : Interpreter W S)

/-- The state after some frames. -/
def after (start : S) (list : List (Frame W)) : S :=
  list.foldl (fun state frame => machine.apply frame state) start

/-- The states that the observed frames leave. -/
def seen (start : S) : List (Frame W) → List S
  | [] => []
  | frame :: rest =>
      (if machine.observed frame then [machine.apply frame start] else []) ++
        seen (machine.apply frame start) rest

/-- Replay words, and list what the observed frames see. -/
def replay (start : S) (words : List W) : Option (List S) :=
  (frames machine.lengthOf words).map (machine.seen start)

theorem seen_append (start : S) (first second : List (Frame W)) :
    machine.seen start (first ++ second) =
      machine.seen start first ++ machine.seen (machine.after start first) second := by
  induction first generalizing start with
  | nil => rfl
  | cons frame rest ih =>
    simp only [List.cons_append, seen, ih, List.append_assoc]
    rfl

/-- The words are whole frames that take `s` to `s'`, and `states` is what the observed
ones see. -/
def Plays (words : List W) (s s' : S) (states : List S) : Prop :=
  ∃ list : List (Frame W), words = list.flatMap Frame.words ∧
    (∀ frame ∈ list, frame.Fits machine.lengthOf) ∧
    machine.after s list = s' ∧ machine.seen s list = states

/-- Words of which no frame is observed. -/
def Binds (words : List W) (s s' : S) : Prop := machine.Plays words s s' []

variable {machine} {words first second : List W} {s s' s'' : S} {states states' : List S}

theorem Plays.nil : machine.Plays [] s s [] := ⟨[], rfl, by simp, rfl, rfl⟩

theorem Binds.nil : machine.Binds [] s s := Plays.nil

/-- One frame. -/
theorem Plays.frame {frame : Frame W} (hfits : frame.Fits machine.lengthOf) :
    machine.Plays frame.words s (machine.apply frame s)
      (if machine.observed frame then [machine.apply frame s] else []) := by
  refine ⟨[frame], by simp, ?_, rfl, by simp [seen]⟩
  intro other hother
  rwa [List.mem_singleton.mp hother]

theorem Binds.frame {frame : Frame W} (hfits : frame.Fits machine.lengthOf)
    (hsilent : machine.observed frame = false) :
    machine.Binds frame.words s (machine.apply frame s) := by
  have hplays := Plays.frame (s := s) hfits
  rw [hsilent] at hplays
  exact hplays

theorem Plays.append (hfirst : machine.Plays first s s' states)
    (hsecond : machine.Plays second s' s'' states') :
    machine.Plays (first ++ second) s s'' (states ++ states') := by
  obtain ⟨list, rfl, hfits, hafter, hseen⟩ := hfirst
  obtain ⟨list', rfl, hfits', hafter', hseen'⟩ := hsecond
  refine ⟨list ++ list', by simp, ?_, ?_, ?_⟩
  · intro frame hframe
    rcases List.mem_append.mp hframe with h | h
    · exact hfits frame h
    · exact hfits' frame h
  · show (list ++ list').foldl _ s = s''
    rw [List.foldl_append]
    rw [show list.foldl _ s = s' from hafter]
    exact hafter'
  · rw [seen_append, hseen, hafter, hseen']

theorem Binds.append (hfirst : machine.Binds first s s') (hsecond : machine.Binds second s' s'') :
    machine.Binds (first ++ second) s s'' :=
  Plays.append hfirst hsecond

/-- What a replay sees. -/
theorem Plays.replay (h : machine.Plays words s s' states) : machine.replay s words = some states := by
  obtain ⟨list, rfl, hfits, -, hseen⟩ := h
  rw [Interpreter.replay, frames_words hfits, Option.map_some, hseen]

/-- Frames that change nothing and are not observed. -/
theorem Binds.silent {list : List (Frame W)}
    (hsilent : ∀ frame ∈ list, frame.Fits machine.lengthOf ∧ machine.observed frame = false ∧
      ∀ state, machine.apply frame state = state) :
    machine.Binds (list.flatMap Frame.words) s s := by
  induction list with
  | nil => exact Binds.nil
  | cons frame rest ih =>
    obtain ⟨hfits, hobserved, hsame⟩ := hsilent frame (by simp)
    have hhead : machine.Binds frame.words s (machine.apply frame s) := Binds.frame hfits hobserved
    rw [hsame] at hhead
    have htail := ih fun other hother => hsilent other (List.mem_cons_of_mem _ hother)
    rw [List.flatMap_cons]
    exact hhead.append htail

end Interpreter

end Sgfx
