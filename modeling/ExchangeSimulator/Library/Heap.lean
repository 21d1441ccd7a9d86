import Mathlib.Logic.Function.Basic

/-!
# A heap of cells

Allocation returns an address that no earlier allocation returned, so a freed
address never comes back and a read through a stale pointer finds nothing. The
structure carries the fact that cells at and past the next address are unused.
-/

namespace Library

/-- Allocated cells and the next address. -/
structure Heap (α : Type) where
  /-- The cell at an address, if it is allocated. -/
  cells : Nat → Option α
  /-- The address of the next allocation. -/
  next : Nat
  /-- Addresses not handed out hold nothing. -/
  unused : ∀ address, next ≤ address → cells address = none

namespace Heap

variable {α : Type}

/-- The heap without cells. -/
def empty : Heap α := ⟨fun _ => none, 0, fun _ _ => rfl⟩

/-- Follow a pointer; an address that is not allocated has no cell. -/
def read (heap : Heap α) (address : Nat) : Option α := heap.cells address

/-- An allocated address lies below the next one. -/
theorem lt_next {heap : Heap α} {address : Nat} {cell : α}
    (allocated : heap.read address = some cell) : address < heap.next := by
  by_contra high
  have free := heap.unused address (Nat.le_of_not_lt high)
  rw [read, free] at allocated
  contradiction

/-- Allocate a cell at the next address. -/
def alloc (heap : Heap α) (cell : α) : Heap α where
  cells := Function.update heap.cells heap.next (some cell)
  next := heap.next + 1
  unused := by
    intro address high
    rw [Function.update_of_ne (by omega)]
    exact heap.unused address (by omega)

/-- Overwrite an allocated cell. -/
def write (heap : Heap α) (address : Nat) (cell : α) : Heap α where
  cells := if address < heap.next then Function.update heap.cells address (some cell)
    else heap.cells
  next := heap.next
  unused := by
    intro other high
    split
    · rename_i low
      rw [Function.update_of_ne (by omega)]
      exact heap.unused other high
    · exact heap.unused other high

/-- The cells after overwriting one, allocated or not. -/
theorem cells_write (heap : Heap α) (address : Nat) (cell : α) (other : Nat) :
    (heap.write address cell).cells other =
      if address < heap.next ∧ other = address then some cell else heap.cells other := by
  by_cases low : address < heap.next
  · simp only [write, low, if_true, true_and, Function.update_apply]
  · simp only [write, low, if_false, false_and]

/-- Release a cell. -/
def free (heap : Heap α) (address : Nat) : Heap α where
  cells := Function.update heap.cells address none
  next := heap.next
  unused := by
    intro other high
    by_cases same : other = address
    · rw [same, Function.update_self]
    · rw [Function.update_of_ne same]
      exact heap.unused other high

/-- Reading after an allocation. -/
theorem read_alloc (heap : Heap α) (cell : α) (address : Nat) :
    (heap.alloc cell).read address =
      if address = heap.next then some cell else heap.read address := by
  simp only [read, alloc, Function.update_apply]

/-- Reading after overwriting an allocated cell. -/
theorem read_write {heap : Heap α} {address : Nat} {old : α}
    (allocated : heap.read address = some old) (cell : α) (other : Nat) :
    (heap.write address cell).read other =
      if other = address then some cell else heap.read other := by
  simp only [read, cells_write, lt_next allocated, true_and]

/-- Reading after a release. -/
theorem read_free (heap : Heap α) (address other : Nat) :
    (heap.free address).read other = if other = address then none else heap.read other := by
  simp only [read, free, Function.update_apply]

section Map

variable {β : Type} (change : α → β) (heap : Heap α)

/-- The heap with every cell changed. -/
def map : Heap β where
  cells address := (heap.cells address).map change
  next := heap.next
  unused address high := by rw [heap.unused address high, Option.map_none]

/-- Reading a changed cell. -/
theorem read_map (address : Nat) :
    (heap.map change).read address = (heap.read address).map change := rfl

/-- Changing after an allocation. -/
theorem map_alloc (cell : α) :
    (heap.alloc cell).map change = (heap.map change).alloc (change cell) := by
  simp only [map, alloc, mk.injEq, and_true]
  funext address
  simp only [Function.update_apply]
  split <;> rfl

/-- Changing after overwriting a cell. -/
theorem map_write (address : Nat) (cell : α) :
    (heap.write address cell).map change = (heap.map change).write address (change cell) := by
  have cells : ((heap.write address cell).map change).cells =
      ((heap.map change).write address (change cell)).cells := by
    funext other
    change ((heap.write address cell).cells other).map change = _
    rw [cells_write, cells_write]
    change _ = if address < heap.next ∧ other = address then some (change cell)
      else (heap.cells other).map change
    split <;> rfl
  rw [mk.injEq]
  exact ⟨cells, rfl⟩

/-- Changing after a release. -/
theorem map_free (address : Nat) :
    (heap.free address).map change = (heap.map change).free address := by
  simp only [map, free, mk.injEq, and_true]
  funext other
  simp only [Function.update_apply]
  split <;> rfl

end Map

end Heap

end Library
