import Mathlib.Data.List.Basic

/-!
# Framing a stream

A cutter looks at the front of what has been received and gives the length of
the first frame once it is complete. Framing takes complete frames from the
front until there is none. `Framed` relates a stream to its frames and to what
is left over. A cutter that does not change its mind when more arrives frames a
stream the same way however it is received: what is left of the first part,
followed by the second part, gives the remaining frames. A frame of length zero
would be taken again and again, so `Framed` has none and `Stalls` names the
streams that reach one. `Taken` is a framing that has not come to its end.
-/

namespace Library

variable {α : Type}

/-- A rule for the length of a complete first frame. -/
structure Cutter (α : Type) where
  /-- The length of the first frame, once it is complete. -/
  cut : List α → Option Nat
  /-- A complete frame has been received. -/
  received : ∀ {stream length}, cut stream = some length → length ≤ stream.length
  /-- What arrives later does not change it. -/
  settled : ∀ {stream length}, cut stream = some length → ∀ later,
    cut (stream ++ later) = some length

/-- The frames of a stream and what is left over. -/
inductive Framed (cutter : Cutter α) : List α → List (List α) → List α → Prop where
  /-- No complete frame. -/
  | done {stream} (incomplete : cutter.cut stream = none) : Framed cutter stream [] stream
  /-- A frame, then those of the rest. -/
  | frame {stream length frames rest} (complete : cutter.cut stream = some length)
      (positive : 0 < length) (later : Framed cutter (stream.drop length) frames rest) :
      Framed cutter stream (stream.take length :: frames) rest

/-- A frame of length zero is reached. -/
inductive Stalls (cutter : Cutter α) : List α → Prop where
  /-- It is the first. -/
  | here {stream} (zero : cutter.cut stream = some 0) : Stalls cutter stream
  /-- It comes after another frame. -/
  | later {stream length} (complete : cutter.cut stream = some length) (positive : 0 < length)
      (stalls : Stalls cutter (stream.drop length)) : Stalls cutter stream

/-- Some frames taken from the front of a stream, and what is left of it. -/
inductive Taken (cutter : Cutter α) : List α → List (List α) → List α → Prop where
  /-- Nothing has been taken. -/
  | nothing {stream} : Taken cutter stream [] stream
  /-- A frame, then those of the rest. -/
  | frame {stream length frames rest} (complete : cutter.cut stream = some length)
      (later : Taken cutter (stream.drop length) frames rest) :
      Taken cutter stream (stream.take length :: frames) rest

variable {cutter : Cutter α} {stream : List α} {frames : List (List α)} {rest : List α}

namespace Framed

/-- A stream has one framing. -/
theorem unique (framed : Framed cutter stream frames rest) {otherFrames : List (List α)}
    {otherRest : List α} (other : Framed cutter stream otherFrames otherRest) :
    frames = otherFrames ∧ rest = otherRest := by
  induction framed generalizing otherFrames otherRest with
  | done incomplete =>
    cases other with
    | done => exact ⟨rfl, rfl⟩
    | frame complete => simp [incomplete] at complete
  | frame complete positive later ih =>
    cases other with
    | done incomplete => simp [incomplete] at complete
    | frame again positive otherLater =>
      rw [complete, Option.some.injEq] at again
      subst again
      obtain ⟨sameFrames, sameRest⟩ := ih otherLater
      exact ⟨by rw [sameFrames], sameRest⟩

/-- A framed stream does not stall. -/
theorem not_stalls (framed : Framed cutter stream frames rest) : ¬Stalls cutter stream := by
  induction framed with
  | done incomplete =>
    intro stalls
    cases stalls with
    | here zero => simp [incomplete] at zero
    | later complete => simp [incomplete] at complete
  | frame complete positive later ih =>
    intro stalls
    cases stalls with
    | here zero =>
      rw [complete, Option.some.injEq] at zero
      omega
    | later again _ stalls =>
      rw [complete, Option.some.injEq] at again
      subst again
      exact ih stalls

/-- No complete frame is left over. -/
theorem incomplete (framed : Framed cutter stream frames rest) : cutter.cut rest = none := by
  induction framed with
  | done incomplete => exact incomplete
  | frame _ _ _ ih => exact ih

/-- There are no more frames than elements. -/
theorem length_le (framed : Framed cutter stream frames rest) : frames.length ≤ stream.length := by
  induction framed with
  | done => exact Nat.zero_le _
  | frame complete positive later ih =>
    have received := cutter.received complete
    rw [List.length_drop] at ih
    rw [List.length_cons]
    omega

/-- What is left over, followed by what arrives later, gives the remaining frames. -/
theorem append (framed : Framed cutter stream frames rest) {later : List α}
    {moreFrames : List (List α)} {last : List α}
    (more : Framed cutter (rest ++ later) moreFrames last) :
    Framed cutter (stream ++ later) (frames ++ moreFrames) last := by
  induction framed with
  | done incomplete => exact more
  | frame complete positive _ ih =>
    have received := cutter.received complete
    rw [List.cons_append, ← List.take_append_of_le_length received]
    refine .frame (cutter.settled complete later) positive ?_
    rw [List.drop_append_of_le_length received]
    exact ih more

end Framed

/-- A stream is framed unless it stalls. -/
theorem framed_of_not_stalls (cutter : Cutter α) (stream : List α)
    (moves : ¬Stalls cutter stream) : ∃ frames rest, Framed cutter stream frames rest := by
  induction size : stream.length using Nat.strongRecOn generalizing stream with
  | ind size ih =>
    subst size
    cases complete : cutter.cut stream with
    | none => exact ⟨[], stream, .done complete⟩
    | some length =>
      have positive : 0 < length := by
        rcases Nat.eq_zero_or_pos length with zero | positive
        · subst zero
          exact absurd (.here complete) moves
        · exact positive
      have received := cutter.received complete
      obtain ⟨frames, rest, later⟩ := ih (stream.drop length).length
        (by rw [List.length_drop]; omega) (stream.drop length)
        (fun stalls => moves (.later complete positive stalls)) rfl
      exact ⟨_, rest, .frame complete positive later⟩

/-- What has stalled goes on to stall. -/
theorem Stalls.append (stalls : Stalls cutter stream) (later : List α) :
    Stalls cutter (stream ++ later) := by
  induction stalls with
  | here zero => exact .here (cutter.settled zero later)
  | later complete positive _ ih =>
    refine .later (cutter.settled complete later) positive ?_
    rw [List.drop_append_of_le_length (cutter.received complete)]
    exact ih

/-- What is left over by a framed part stalls only if the whole does. -/
theorem Framed.stalls_append (framed : Framed cutter stream frames rest) {later : List α}
    (stalls : Stalls cutter (rest ++ later)) : Stalls cutter (stream ++ later) := by
  induction framed with
  | done => exact stalls
  | frame complete positive _ ih =>
    refine .later (cutter.settled complete later) positive ?_
    rw [List.drop_append_of_le_length (cutter.received complete)]
    exact ih stalls

/-! ## Framing that goes on -/

namespace Taken

/-- The stream is what was taken and what is left. -/
theorem flatten (taken : Taken cutter stream frames rest) : stream = frames.flatten ++ rest := by
  induction taken with
  | nothing => rfl
  | @frame stream length frames rest complete later ih =>
    rw [List.flatten_cons, List.append_assoc, ← ih, List.take_append_drop]

/-- What arrives later is left. -/
theorem append (taken : Taken cutter stream frames rest) (later : List α) :
    Taken cutter (stream ++ later) frames (rest ++ later) := by
  induction taken with
  | nothing => exact .nothing
  | frame complete _ ih =>
    have received := cutter.received complete
    rw [← List.take_append_of_le_length received]
    refine .frame (cutter.settled complete later) ?_
    rw [List.drop_append_of_le_length received]
    exact ih

/-- The next frame is taken. -/
theorem next (taken : Taken cutter stream frames rest) {length : Nat}
    (complete : cutter.cut rest = some length) :
    Taken cutter stream (frames ++ [rest.take length]) (rest.drop length) := by
  induction taken with
  | nothing => exact .frame complete .nothing
  | frame first _ ih => exact .frame first (ih complete)

/-- Once no complete frame is left, all of them have been taken. -/
theorem framed (taken : Taken cutter stream frames rest) (incomplete : cutter.cut rest = none) :
    Framed cutter stream frames rest := by
  induction taken with
  | nothing => exact .done incomplete
  | @frame stream length frames rest complete later ih =>
    have others := ih incomplete
    rcases Nat.eq_zero_or_pos length with zero | positive
    · -- a frame of length zero would still be there
      subst zero
      exact absurd (.here complete) others.not_stalls
    · exact .frame complete positive others

/-- What has been taken is the first part of all frames. -/
theorem among (taken : Taken cutter stream frames rest) {allFrames : List (List α)}
    {last : List α} (framed : Framed cutter stream allFrames last) : frames <+: allFrames := by
  induction taken generalizing allFrames last with
  | nothing => exact List.nil_prefix
  | frame complete _ ih =>
    cases framed with
    | done incomplete => simp [incomplete] at complete
    | frame again _ others =>
      rw [complete, Option.some.injEq] at again
      subst again
      exact List.cons_prefix_cons.mpr ⟨rfl, ih others⟩

/-- What is left stalls only if the whole does. -/
theorem stalls (taken : Taken cutter stream frames rest) (stalls : Stalls cutter rest) :
    Stalls cutter stream := by
  induction taken with
  | nothing => exact stalls
  | @frame stream length frames rest complete later ih =>
    rcases Nat.eq_zero_or_pos length with zero | positive
    · subst zero
      exact .here complete
    · exact .later complete positive (ih stalls)

end Taken

end Library
