import Mathlib.Data.List.Basic
import Mathlib.Data.Nat.ModEq

/-!
# Rings of cells

A first-in first-out channel keeps its items in a ring of cells. The item with
number `n` since the start stands in the cell `n` modulo the size. `Ring`
relates the cells to the items sent and received so far: what was received is a
prefix of what was sent, fewer items wait than there are cells, and every
waiting item is in its cell. A writer that fills the cell of the next item, and
a reader that takes the cell of the first waiting one, never meet.
-/

namespace Library

/-- Two counters less than a turn apart are equal when they point to the same cell. -/
theorem mod_eq_iff {size high low : Nat} (above : low ≤ high) (near : high < low + size) :
    high % size = low % size ↔ high = low := by
  constructor
  · intro same
    have divides : size ∣ high - low := (Nat.modEq_iff_dvd' above).mp (Eq.symm same)
    obtain ⟨turns, apart⟩ := divides
    cases turns with
    | zero => omega
    | succ turns =>
      rw [Nat.mul_succ] at apart
      omega
  · intro same
    rw [same]

/-- The next cell after a counter is the cell of a lower one exactly after a full turn. -/
theorem succ_mod_eq_iff {size high low : Nat} (above : low ≤ high) (near : high < low + size) :
    (high + 1) % size = low % size ↔ high + 1 = low + size := by
  by_cases turn : high + 1 = low + size
  · rw [turn, Nat.add_mod_right]
    simp
  · rw [mod_eq_iff (by omega) (by omega)]
    omega

/-- Cells, items sent and items received. -/
structure Ring {α : Type} (size : Nat) (cells : Nat → α) (sent received : List α) : Prop where
  /-- What was received is the beginning of what was sent. -/
  order : received <+: sent
  /-- Fewer items wait than there are cells. -/
  room : sent.length < received.length + size
  /-- Every waiting item is in its cell. -/
  waiting : ∀ number item, received.length ≤ number → sent[number]? = some item →
    cells (number % size) = item

namespace Ring

variable {α : Type} {size : Nat} {cells : Nat → α} {sent received : List α}

/-- No more items were received than sent. -/
theorem le (ring : Ring size cells sent received) : received.length ≤ sent.length :=
  ring.order.length_le

/-- Writing the cell of the next item touches no waiting one. -/
theorem write (ring : Ring size cells sent received) {next : Nat → α}
    (others : ∀ cell, cell < size → cell ≠ sent.length % size → next cell = cells cell) :
    Ring size next sent received where
  order := ring.order
  room := ring.room
  waiting := by
    intro number found unread present
    have room := ring.room
    have low : number < sent.length := (List.getElem?_eq_some_iff.mp present).1
    have apart : number % size ≠ sent.length % size := by
      intro same
      have equal := (mod_eq_iff (by omega) (by omega)).mp same.symm
      omega
    rw [others _ (Nat.mod_lt _ (by omega)) apart]
    exact ring.waiting number found unread present

/-- The item in the cell of the next number can be sent, unless the ring is full. -/
theorem send (ring : Ring size cells sent received) {item : α}
    (written : cells (sent.length % size) = item)
    (room : sent.length + 1 < received.length + size) :
    Ring size cells (sent ++ [item]) received where
  order := ring.order.trans (List.prefix_append _ _)
  room := by
    rw [List.length_append, List.length_singleton]
    exact room
  waiting := by
    intro number found unread present
    by_cases last : number = sent.length
    · subst last
      rw [List.getElem?_concat_length, Option.some.injEq] at present
      rw [written, present]
    · have low : number < (sent ++ [item]).length := (List.getElem?_eq_some_iff.mp present).1
      rw [List.length_append, List.length_singleton] at low
      rw [List.getElem?_append_left (by omega)] at present
      exact ring.waiting number found unread present

/-- The cell of the first waiting item holds it. -/
theorem front (ring : Ring size cells sent received) (some_waits : received.length < sent.length) :
    sent[received.length]? = some (cells (received.length % size)) := by
  rw [List.getElem?_eq_getElem some_waits]
  rw [ring.waiting received.length _ (Nat.le_refl _) (List.getElem?_eq_getElem some_waits)]

/-- The first waiting item can be received. -/
theorem receive (ring : Ring size cells sent received) {item : α}
    (first : sent[received.length]? = some item) :
    Ring size cells sent (received ++ [item]) where
  order := by
    obtain ⟨later, rfl⟩ := ring.order
    cases later with
    | nil => simp at first
    | cons head rest =>
      rw [List.getElem?_append_right (Nat.le_refl _), Nat.sub_self, List.getElem?_cons_zero,
        Option.some.injEq] at first
      subst first
      exact ⟨rest, by simp⟩
  room := by
    have room := ring.room
    rw [List.length_append, List.length_singleton]
    omega
  waiting := by
    intro number found unread present
    rw [List.length_append, List.length_singleton] at unread
    exact ring.waiting number found (by omega) present

end Ring

end Library
