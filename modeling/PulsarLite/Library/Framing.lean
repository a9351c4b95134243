import Mathlib.Data.List.Basic

/-!
# Frames in a stream

A decoder looks at what has arrived. It takes a frame off the front, or waits for
more, or fails. Whatever the pieces in which the bytes arrive, it finds the frames
they were made of, provided that it finds each frame in front of anything, and waits
at every part of a frame that is not all of it.
-/

namespace PulsarLite.Library

open List

variable {β ε ι α : Type} {found : List ι}

abbrev FrameDecoder (β ε ι : Type) := List β → Except ε (Option ι) × List β

structure FramedRead (β ε ι : Type) where
  items : List ι
  failure : Option ε
  buffer : List β

namespace FramedRead

def empty : FramedRead β ε ι where
  items := []
  failure := none
  buffer := []

/-- Frames are taken until the decoder waits or fails. -/
def drain (decode : FrameDecoder β ε ι) : Nat → FramedRead β ε ι → FramedRead β ε ι
  | 0, read => read
  | fuel + 1, read =>
    match decode read.buffer with
    | (.error failure, buffer) =>
      { read with
        failure := some failure
        buffer := buffer }
    | (.ok none, buffer) => { read with buffer := buffer }
    | (.ok (some item), buffer) => drain decode fuel { read with
        items := read.items ++ [item]
        buffer := buffer }

variable (decode : FrameDecoder β ε ι)

/-- A piece arrives. No more frames are found than there are bytes. -/
def feed (read : FramedRead β ε ι) (chunk : List β) : FramedRead β ε ι :=
  match read.failure with
  | some _ => read
  | none => drain decode ((read.buffer ++ chunk).length + 1)
      { read with buffer := read.buffer ++ chunk }

def feedAll (chunks : List (List β)) : FramedRead β ε ι :=
  chunks.foldl (feed decode) empty

end FramedRead

/-- The decoder finds the frame in front of anything, and waits for the rest of it. -/
structure Delimits (decode : FrameDecoder β ε ι) (frame : List β) (item : ι) : Prop where
  complete : ∀ rest, decode (frame ++ rest) = (.ok (some item), rest)
  incomplete : ∀ early, early <+: frame → early ≠ frame → decode early = (.ok none, early)
  nonempty : frame ≠ []

variable {decode : FrameDecoder β ε ι} {frame : α → List β} {item : α → ι} {values : List α}

section

variable (each : ∀ value ∈ values, Delimits decode (frame value) (item value))
include each

theorem FramedRead.drain_frames {rest : List β} {fuel : Nat}
    (waits : decode rest = (.ok none, rest)) (enough : values.length < fuel) :
    drain decode fuel ⟨found, none, values.flatMap frame ++ rest⟩ =
      ⟨found ++ values.map item, none, rest⟩ := by
  induction values generalizing found fuel with
  | nil =>
    obtain ⟨fuel, rfl⟩ := Nat.exists_eq_succ_of_ne_zero (Nat.ne_zero_of_lt enough)
    simp only [drain, flatMap_nil, nil_append, waits, map_nil, append_nil]
  | cons value values ih =>
    obtain ⟨fuel, rfl⟩ := Nat.exists_eq_succ_of_ne_zero (Nat.ne_zero_of_lt enough)
    have first := (each value mem_cons_self).complete (values.flatMap frame ++ rest)
    rw [← append_assoc] at first
    simp only [drain, flatMap_cons, first]
    rw [ih (fun other later => each other (mem_cons_of_mem _ later))
      (Nat.lt_of_succ_lt_succ enough), map_cons, append_assoc, singleton_append]

theorem arrived_frames {arrived missing : List β}
    (idle : decode [] = (.ok none, [])) (split : arrived ++ missing = values.flatMap frame) :
    ∃ before after left, values = before ++ after ∧ arrived = before.flatMap frame ++ left ∧
      left ++ missing = after.flatMap frame ∧ decode left = (.ok none, left) := by
  induction values generalizing arrived with
  | nil =>
    obtain ⟨rfl, rfl⟩ := append_eq_nil_iff.mp split
    exact ⟨[], [], [], rfl, rfl, rfl, idle⟩
  | cons value values ih =>
    rw [flatMap_cons] at split
    have delimits := each value mem_cons_self
    rcases append_eq_append_iff.mp split with ⟨more, isFrame, isMissing⟩ | ⟨more, isArrived, isRest⟩
    · -- the first frame has not arrived in full, unless nothing is missing of it
      by_cases whole : more = []
      · subst whole
        refine ⟨[value], values, [], rfl, ?_, isMissing, idle⟩
        simp [isFrame]
      refine ⟨[], value :: values, arrived, rfl, rfl, ?_, ?_⟩
      · rw [flatMap_cons]
        exact split
      · apply delimits.incomplete arrived ⟨more, isFrame.symm⟩
        intro same
        rw [same] at isFrame
        exact whole (self_eq_append_right.mp isFrame)
    · obtain ⟨before, after, left, rfl, rfl, isLeft, waits⟩ :=
        ih (fun other later => each other (mem_cons_of_mem _ later)) isRest.symm
      refine ⟨value :: before, after, left, rfl, ?_, isLeft, waits⟩
      rw [isArrived, flatMap_cons, append_assoc]

theorem length_le_frames :
    values.length ≤ (values.flatMap frame).length := by
  induction values with
  | nil => exact Nat.le_refl _
  | cons value values ih =>
    have positive := length_pos_iff.mpr (each value mem_cons_self).nonempty
    have rest := ih fun other later => each other (mem_cons_of_mem _ later)
    rw [flatMap_cons, length_append, length_cons]
    omega

end

theorem FramedRead.feed_chunks (chunks : List (List β)) {buffer : List β}
    (each : ∀ value ∈ values, Delimits decode (frame value) (item value))
    (idle : decode [] = (.ok none, [])) (waits : decode buffer = (.ok none, buffer))
    (split : buffer ++ chunks.flatten = values.flatMap frame) :
    chunks.foldl (feed decode) ⟨found, none, buffer⟩ = ⟨found ++ values.map item, none, []⟩ := by
  induction chunks generalizing values buffer found with
  | nil =>
    rw [flatten_nil, append_nil] at split
    cases values with
    | nil =>
      rw [split]
      simp
    | cons value values =>
      -- a whole frame would be in the buffer, and the decoder would not wait
      have whole := (each value mem_cons_self).complete (values.flatMap frame)
      rw [← flatMap_cons, ← split, waits] at whole
      cases whole
  | cons chunk chunks ih =>
    rw [flatten_cons, ← append_assoc] at split
    obtain ⟨before, after, left, rfl, isArrived, isLeft, waitsLeft⟩ :=
      arrived_frames each idle split
    have earlier value (member : value ∈ before) : Delimits decode (frame value) (item value) :=
      each value (mem_append_left _ member)
    have enough : before.length < (buffer ++ chunk).length + 1 := by
      have few := length_le_frames earlier
      rw [isArrived, length_append]
      omega
    have fed : feed decode ⟨found, none, buffer⟩ chunk =
        ⟨found ++ before.map item, none, left⟩ := by
      rw [feed, isArrived]
      rw [isArrived] at enough
      exact drain_frames earlier waitsLeft enough
    rw [foldl_cons, fed,
      ih (fun value member => each value (mem_append_right _ member)) waitsLeft isLeft,
      map_append, append_assoc]

theorem FramedRead.feed_all_frames {chunks : List (List β)}
    (each : ∀ value ∈ values, Delimits decode (frame value) (item value))
    (idle : decode [] = (.ok none, [])) (split : chunks.flatten = values.flatMap frame) :
    feedAll decode chunks = ⟨values.map item, none, []⟩ := by
  have fed : chunks.foldl (feed decode) ⟨[], none, []⟩ = ⟨[] ++ values.map item, none, []⟩ :=
    feed_chunks chunks each idle idle split
  exact fed

end PulsarLite.Library
