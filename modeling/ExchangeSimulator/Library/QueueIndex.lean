import Mathlib.Data.List.Basic
import Mathlib.Logic.Function.Basic

/-!
# Queues with an index

Identifiers wait in queues, one queue for each slot, and each waiting
identifier has a record that names its slot. `Filed` is the agreement of the
two: an identifier waits in a slot exactly when its record says so, and no
queue repeats one. So an identifier waits at most once over all queues. The
operations change one queue or one record; each composition that keeps the
agreement has its law here.
-/

namespace Library

/-- Queues of identifiers and the record of each identifier. -/
structure QueueIndex (κ ι ρ : Type) where
  /-- Waiting identifiers of a slot, first come first. -/
  queue : κ → List ι
  /-- The record of an identifier. -/
  record : ι → Option ρ

namespace QueueIndex

variable {κ ι ρ : Type}

/-- Queues and records agree. -/
structure Filed (slotOf : ρ → κ) (index : QueueIndex κ ι ρ) : Prop where
  /-- An identifier waits in a slot exactly when its record names the slot. -/
  waits : ∀ slot id, id ∈ index.queue slot ↔
    ∃ record, index.record id = some record ∧ slotOf record = slot
  /-- No queue repeats an identifier. -/
  distinct : ∀ slot, (index.queue slot).Nodup

variable {slotOf : ρ → κ} {index : QueueIndex κ ι ρ}

/-- A recorded identifier waits in its slot. -/
theorem Filed.mem (filed : Filed slotOf index) {id : ι} {record : ρ}
    (recorded : index.record id = some record) : id ∈ index.queue (slotOf record) :=
  (filed.waits _ id).mpr ⟨record, recorded, rfl⟩

/-- A waiting identifier has a record that names its slot. -/
theorem Filed.recorded (filed : Filed slotOf index) {slot : κ} {id : ι}
    (member : id ∈ index.queue slot) :
    ∃ record, index.record id = some record ∧ slotOf record = slot :=
  (filed.waits slot id).mp member

/-- An identifier waits only in the slot of its record. -/
theorem Filed.slot_eq (filed : Filed slotOf index) {slot : κ} {id : ι} {record : ρ}
    (member : id ∈ index.queue slot) (recorded : index.record id = some record) :
    slotOf record = slot := by
  obtain ⟨other, found, same⟩ := filed.recorded member
  rw [recorded] at found
  cases found
  exact same

/-- An identifier without a record waits nowhere. -/
theorem Filed.not_mem (filed : Filed slotOf index) {id : ι} (missing : index.record id = none)
    (slot : κ) : id ∉ index.queue slot := by
  intro member
  obtain ⟨record, found, _⟩ := filed.recorded member
  rw [missing] at found
  contradiction

variable [DecidableEq ι]

/-- Take an identifier out of a queue. -/
def unlink [DecidableEq κ] (index : QueueIndex κ ι ρ) (slot : κ) (id : ι) : QueueIndex κ ι ρ :=
  { index with queue := Function.update index.queue slot ((index.queue slot).erase id) }

/-- Put an identifier last in a queue. -/
def link [DecidableEq κ] (index : QueueIndex κ ι ρ) (slot : κ) (id : ι) : QueueIndex κ ι ρ :=
  { index with queue := Function.update index.queue slot (index.queue slot ++ [id]) }

/-- Write or erase the record of an identifier. -/
def put (index : QueueIndex κ ι ρ) (id : ι) (record : Option ρ) : QueueIndex κ ι ρ :=
  { index with record := Function.update index.record id record }

/-- Taking an identifier out of its queue and erasing its record keeps the agreement. -/
theorem Filed.remove [DecidableEq κ] (filed : Filed slotOf index) {id : ι} {record : ρ}
    (recorded : index.record id = some record) :
    Filed slotOf ((index.unlink (slotOf record) id).put id none) := by
  constructor
  · intro slot other
    simp only [unlink, put, Function.update_apply]
    by_cases here : slot = slotOf record
    · subst here
      rw [if_pos rfl, (filed.distinct _).mem_erase_iff, filed.waits]
      by_cases same : other = id
      · simp [same]
      · simp [same]
    · rw [if_neg here, filed.waits]
      by_cases same : other = id
      · subst same
        rw [recorded]
        simp [Ne.symm here]
      · simp [same]
  · intro slot
    simp only [unlink, put, Function.update_apply]
    split
    · exact (filed.distinct _).erase id
    · exact filed.distinct slot

/-- Recording a new identifier and queueing it in its slot keeps the agreement. -/
theorem Filed.append [DecidableEq κ] (filed : Filed slotOf index) {id : ι}
    (missing : index.record id = none) (record : ρ) :
    Filed slotOf ((index.put id (some record)).link (slotOf record) id) := by
  constructor
  · intro slot other
    simp only [link, put, Function.update_apply]
    by_cases same : other = id
    · subst same
      by_cases here : slot = slotOf record
      · simp [here]
      · simp [here, Ne.symm here, filed.not_mem missing slot]
    · by_cases here : slot = slotOf record
      · simp [here, same, filed.waits]
      · simp [here, same, filed.waits]
  · intro slot
    simp only [link, put, Function.update_apply]
    split
    · refine (List.nodup_append).mpr ⟨filed.distinct _, by simp, ?_⟩
      intro first member second single equal
      rw [List.mem_singleton] at single
      subst single
      subst equal
      exact filed.not_mem missing _ member
    · exact filed.distinct slot

/-- Rewriting a record in place keeps the agreement. -/
theorem Filed.rewrite (filed : Filed slotOf index) {id : ι} {record next : ρ}
    (recorded : index.record id = some record) (same : slotOf next = slotOf record) :
    Filed slotOf (index.put id (some next)) := by
  constructor
  · intro slot other
    simp only [put, Function.update_apply]
    rw [filed.waits]
    by_cases equal : other = id
    · subst equal
      simp [recorded, same]
    · simp [equal]
  · exact filed.distinct

end QueueIndex

end Library
