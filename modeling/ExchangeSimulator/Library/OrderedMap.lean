import Mathlib.Order.Defs.Unbundled
import Mathlib.Data.List.Basic
import Mathlib.Order.RelIso.Basic

/-!
# Ordered maps

A map keeps its entries in one list, strictly increasing in a given order of
the keys, and carries that fact in its value. The front entry is therefore the
first key of the order. Two maps with the same lookups are equal, so every law
of insertion and removal is stated and proved through lookups.
-/

namespace Library

/-- Entries in strictly increasing key order. -/
structure OrderedMap (κ ν : Type) (before : κ → κ → Prop) where
  /-- Keys and values, first key first. -/
  entries : List (κ × ν)
  /-- Every key stands before all later keys. -/
  sorted : entries.Pairwise (fun left right => before left.1 right.1)

namespace OrderedMap

variable {κ ν : Type} {before : κ → κ → Prop} [DecidableEq κ]

/-- The value of the first entry with the key. -/
def findIn (key : κ) : List (κ × ν) → Option ν
  | [] => none
  | (head, value) :: rest => if head = key then some value else findIn key rest

/-- Place a value under its key, replacing an entry with the same key. -/
def insertIn (before : κ → κ → Prop) [DecidableRel before] (key : κ) (value : ν) :
    List (κ × ν) → List (κ × ν)
  | [] => [(key, value)]
  | (head, old) :: rest =>
    if head = key then (key, value) :: rest
    else if before key head then (key, value) :: (head, old) :: rest
    else (head, old) :: insertIn before key value rest

/-- Drop the entry with the key. -/
def eraseIn (key : κ) : List (κ × ν) → List (κ × ν)
  | [] => []
  | (head, value) :: rest => if head = key then rest else (head, value) :: eraseIn key rest

/-- A found value belongs to an entry of the list. -/
theorem mem_of_findIn {key : κ} {value : ν} {entries : List (κ × ν)}
    (found : findIn key entries = some value) : (key, value) ∈ entries := by
  induction entries with
  | nil => simp [findIn] at found
  | cons entry rest ih =>
    obtain ⟨head, old⟩ := entry
    simp only [findIn] at found
    split at found
    · rename_i same
      cases found
      simp [same]
    · exact List.mem_cons_of_mem _ (ih found)

/-- An entry is found when its key stands once in the list. -/
theorem findIn_of_mem [IsStrictOrder κ before] {key : κ} {value : ν} {entries : List (κ × ν)}
    (sorted : entries.Pairwise (fun left right => before left.1 right.1))
    (member : (key, value) ∈ entries) : findIn key entries = some value := by
  induction entries with
  | nil => simp at member
  | cons entry rest ih =>
    obtain ⟨head, old⟩ := entry
    rw [List.pairwise_cons] at sorted
    rcases List.mem_cons.mp member with same | later
    · cases same
      simp [findIn]
    · have distinct : head ≠ key := by
        rintro rfl
        exact irrefl_of before head (sorted.1 _ later)
      simp [findIn, distinct, ih sorted.2 later]

/-- Every entry after an insertion is the new one or an old one. -/
theorem mem_insertIn [DecidableRel before] {key : κ} {value : ν} {entries : List (κ × ν)}
    {entry : κ × ν} (member : entry ∈ insertIn before key value entries) :
    entry = (key, value) ∨ entry ∈ entries := by
  induction entries with
  | nil => simpa [insertIn] using member
  | cons first rest ih =>
    obtain ⟨head, old⟩ := first
    simp only [insertIn] at member
    split at member
    · rcases List.mem_cons.mp member with same | later
      · exact Or.inl same
      · exact Or.inr (List.mem_cons_of_mem _ later)
    · split at member
      · rcases List.mem_cons.mp member with same | later
        · exact Or.inl same
        · exact Or.inr later
      · rcases List.mem_cons.mp member with same | later
        · exact Or.inr (same ▸ List.mem_cons_self)
        · rcases ih later with same | old
          · exact Or.inl same
          · exact Or.inr (List.mem_cons_of_mem _ old)

/-- Insertion keeps the entries strictly increasing. -/
theorem insertIn_sorted [DecidableRel before] [IsStrictTotalOrder κ before] (key : κ)
    (value : ν) {entries : List (κ × ν)}
    (sorted : entries.Pairwise (fun left right => before left.1 right.1)) :
    (insertIn before key value entries).Pairwise (fun left right => before left.1 right.1) := by
  induction entries with
  | nil => simp [insertIn]
  | cons entry rest ih =>
    obtain ⟨head, old⟩ := entry
    have tail := List.pairwise_cons.mp sorted
    simp only [insertIn]
    split
    · rename_i same
      subst same
      exact List.pairwise_cons.mpr tail
    · rename_i distinct
      split
      · rename_i first
        refine List.pairwise_cons.mpr ⟨?_, sorted⟩
        intro other member
        rcases List.mem_cons.mp member with rfl | later
        · exact first
        · exact trans_of before first (tail.1 other later)
      · rename_i notFirst
        refine List.pairwise_cons.mpr ⟨?_, ih tail.2⟩
        intro other member
        rcases mem_insertIn member with rfl | later
        · rcases trichotomous_of before head key with ahead | same | behind
          · exact ahead
          · exact absurd same distinct
          · exact absurd behind notFirst
        · exact tail.1 other later

/-- Removal takes a subsequence of the entries. -/
theorem eraseIn_sublist (key : κ) (entries : List (κ × ν)) :
    (eraseIn key entries).Sublist entries := by
  induction entries with
  | nil => exact List.Sublist.refl _
  | cons entry rest ih =>
    obtain ⟨head, value⟩ := entry
    simp only [eraseIn]
    split
    · exact List.sublist_cons_self _ _
    · exact List.Sublist.cons_cons _ ih

/-- The map without entries. -/
def empty : OrderedMap κ ν before := ⟨[], List.Pairwise.nil⟩

/-- The value under a key. -/
def find? (map : OrderedMap κ ν before) (key : κ) : Option ν := findIn key map.entries

/-- The entry of the first key. -/
def begin? (map : OrderedMap κ ν before) : Option (κ × ν) := map.entries.head?

/-- The number of entries. -/
def size (map : OrderedMap κ ν before) : Nat := map.entries.length

/-- The map with a value under a key, new or replaced. -/
def insert [DecidableRel before] [IsStrictTotalOrder κ before] (map : OrderedMap κ ν before)
    (key : κ) (value : ν) : OrderedMap κ ν before :=
  ⟨insertIn before key value map.entries, insertIn_sorted key value map.sorted⟩

/-- The map without a key. -/
def erase (map : OrderedMap κ ν before) (key : κ) : OrderedMap κ ν before :=
  ⟨eraseIn key map.entries, map.sorted.sublist (eraseIn_sublist key map.entries)⟩

/-- Lookup after an insertion in a list, in any key order. -/
theorem findIn_insertIn [DecidableRel before] (key other : κ) (value : ν)
    (entries : List (κ × ν)) :
    findIn other (insertIn before key value entries) =
      if key = other then some value else findIn other entries := by
  induction entries with
  | nil => simp [insertIn, findIn]
  | cons entry rest ih =>
    obtain ⟨head, old⟩ := entry
    simp only [insertIn]
    split
    · rename_i same
      subst same
      simp only [findIn]
      split <;> rfl
    · rename_i distinct
      split
      · simp [findIn]
      · simp only [findIn, ih]
        split
        · rename_i same
          subst same
          rw [if_neg (Ne.symm distinct)]
        · rfl

/-- Lookup after an insertion. -/
theorem find?_insert [DecidableRel before] [IsStrictTotalOrder κ before]
    (map : OrderedMap κ ν before) (key other : κ) (value : ν) :
    (map.insert key value).find? other = if key = other then some value else map.find? other :=
  findIn_insertIn key other value map.entries

/-- Lookup after a removal. -/
theorem find?_erase [IsStrictOrder κ before] (map : OrderedMap κ ν before) (key other : κ) :
    (map.erase key).find? other = if key = other then none else map.find? other := by
  obtain ⟨entries, sorted⟩ := map
  simp only [find?, erase]
  induction entries with
  | nil => simp [eraseIn, findIn]
  | cons entry rest ih =>
    obtain ⟨head, value⟩ := entry
    rw [List.pairwise_cons] at sorted
    simp only [eraseIn]
    split
    · rename_i same
      subst same
      split
      · rename_i same
        subst same
        cases found : findIn head rest with
        | none => rfl
        | some later =>
          exact absurd (sorted.1 _ (mem_of_findIn found)) (irrefl_of before head)
      · rename_i distinct
        simp [findIn, distinct]
    · rename_i distinct
      simp only [findIn, ih sorted.2]
      split
      · rename_i same
        subst same
        rw [if_neg (Ne.symm distinct)]
      · rfl

/-- The front entry is found under its key. -/
theorem find?_of_begin? {map : OrderedMap κ ν before} {key : κ} {value : ν}
    (front : map.begin? = some (key, value)) : map.find? key = some value := by
  obtain ⟨entries, sorted⟩ := map
  cases entries with
  | nil => simp [begin?] at front
  | cons entry rest =>
    simp only [begin?, List.head?_cons, Option.some.injEq] at front
    subst front
    simp [find?, findIn]

/-- The front key stands before every other key of the map. -/
theorem before_of_begin? {map : OrderedMap κ ν before} {key other : κ} {value found : ν}
    (front : map.begin? = some (key, value)) (present : map.find? other = some found) :
    other = key ∨ before key other := by
  obtain ⟨entries, sorted⟩ := map
  cases entries with
  | nil => simp [begin?] at front
  | cons entry rest =>
    simp only [begin?, List.head?_cons, Option.some.injEq] at front
    subst front
    rcases List.mem_cons.mp (mem_of_findIn present) with same | later
    · exact Or.inl (congrArg Prod.fst same)
    · exact Or.inr ((List.pairwise_cons.mp sorted).1 _ later)

/-- A map without a front entry finds nothing. -/
theorem find?_of_begin?_none {map : OrderedMap κ ν before} (front : map.begin? = none)
    (key : κ) : map.find? key = none := by
  obtain ⟨entries, sorted⟩ := map
  cases entries with
  | nil => rfl
  | cons entry rest => simp [begin?] at front

omit [DecidableEq κ] in
/-- A property of the front key, if there is one, is the property of any way to read it. -/
theorem forall_begin?_iff {map : OrderedMap κ ν before} (property : κ → Prop) {first : κ}
    (reads : ∀ key value, map.begin? = some (key, value) → first = key) :
    (∀ key value, map.begin? = some (key, value) → property key) ↔
      (map.entries ≠ [] → property first) := by
  obtain ⟨entries, sorted⟩ := map
  cases entries with
  | nil => simp [begin?]
  | cons entry rest =>
    obtain ⟨head, value⟩ := entry
    rw [reads head value rfl]
    simp [begin?]

omit [DecidableEq κ] in
/-- A map with entries has a front entry. -/
theorem begin?_of_entries {map : OrderedMap κ ν before} (occupied : map.entries ≠ []) :
    ∃ key value, map.begin? = some (key, value) := by
  cases front : map.entries.head? with
  | none => exact absurd (List.head?_eq_none_iff.mp front) occupied
  | some entry => exact ⟨entry.1, entry.2, front⟩

omit [DecidableEq κ] in
/-- A map with a front entry has entries. -/
theorem entries_of_begin? {map : OrderedMap κ ν before} {key : κ} {value : ν}
    (front : map.begin? = some (key, value)) : map.entries ≠ [] := by
  intro empty
  simp [begin?, empty] at front

/-- Maps with the same lookups are equal. -/
theorem ext_find? [IsStrictTotalOrder κ before] {left right : OrderedMap κ ν before}
    (same : ∀ key, left.find? key = right.find? key) : left = right := by
  obtain ⟨entries, sorted⟩ := left
  obtain ⟨others, othersSorted⟩ := right
  have members (key : κ) (value : ν) : (key, value) ∈ entries ↔ (key, value) ∈ others := by
    constructor
    · intro member
      have found := findIn_of_mem sorted member
      exact mem_of_findIn ((same key).symm.trans found)
    · intro member
      have found := findIn_of_mem othersSorted member
      exact mem_of_findIn ((same key).trans found)
  have distinct {list : List (κ × ν)}
      (ordered : list.Pairwise (fun left right => before left.1 right.1)) : list.Nodup :=
    ordered.imp (fun {left right} first equal => by
      subst equal
      exact irrefl_of before left.1 first)
  have permutation : entries.Perm others :=
    (List.perm_ext_iff_of_nodup (distinct sorted) (distinct othersSorted)).mpr
      (fun entry => members entry.1 entry.2)
  have equal : entries = others :=
    permutation.eq_of_pairwise
      (fun left right _ _ first second => absurd (trans_of before first second)
        (irrefl_of before left.1)) sorted othersSorted
  subst equal
  rfl

/-- Removing a key just inserted is removing it before. -/
theorem erase_insert [DecidableRel before] [IsStrictTotalOrder κ before]
    (map : OrderedMap κ ν before) (key : κ) (value : ν) :
    (map.insert key value).erase key = map.erase key := by
  apply ext_find?
  intro other
  simp only [find?_erase, find?_insert]
  split <;> rfl

/-- Of two values put under one key the second stays. -/
theorem insert_insert [DecidableRel before] [IsStrictTotalOrder κ before]
    (map : OrderedMap κ ν before) (key : κ) (first second : ν) :
    (map.insert key first).insert key second = map.insert key second := by
  apply ext_find?
  intro other
  simp only [find?_insert]
  split <;> rfl

/-- Replacing the value of a key keeps the number of entries. -/
theorem size_insert_of_find? [DecidableRel before] [IsStrictTotalOrder κ before]
    {map : OrderedMap κ ν before} {key : κ} {old : ν} (value : ν)
    (present : map.find? key = some old) : (map.insert key value).size = map.size := by
  obtain ⟨entries, sorted⟩ := map
  simp only [find?, size, insert] at present ⊢
  induction entries with
  | nil => simp [findIn] at present
  | cons entry rest ih =>
    obtain ⟨head, stored⟩ := entry
    rw [List.pairwise_cons] at sorted
    simp only [findIn] at present
    simp only [insertIn]
    split at present
    · rename_i same
      simp [same]
    · rename_i distinct
      have later := sorted.1 _ (mem_of_findIn present)
      rw [if_neg distinct, if_neg (fun first => absurd (trans_of before later first)
        (irrefl_of before head))]
      simp [ih sorted.2 present]

/-- Removing a present key drops exactly one entry. -/
theorem size_erase_of_find? {map : OrderedMap κ ν before} {key : κ} {old : ν}
    (present : map.find? key = some old) : (map.erase key).size + 1 = map.size := by
  obtain ⟨entries, sorted⟩ := map
  simp only [find?, size, erase] at present ⊢
  clear sorted
  induction entries with
  | nil => simp [findIn] at present
  | cons entry rest ih =>
    obtain ⟨head, stored⟩ := entry
    simp only [findIn] at present
    simp only [eraseIn]
    split at present
    · rename_i same
      simp [same]
    · rename_i distinct
      rw [if_neg distinct]
      simp [ih present]

/-! ## Another order of other keys -/

section Image

variable {κ' ν' : Type} {before' : κ' → κ' → Prop} [DecidableEq κ']

omit [DecidableEq κ] [DecidableEq κ'] in
/-- The map under an isomorphism of the key orders, with every value changed. -/
def image (keys : before ≃r before') (values : ν → ν') (map : OrderedMap κ ν before) :
    OrderedMap κ' ν' before' where
  entries := map.entries.map (Prod.map keys values)
  sorted := List.pairwise_map.mpr (map.sorted.imp fun first => keys.map_rel_iff.mpr first)

variable (keys : before ≃r before') (values : ν → ν') (map : OrderedMap κ ν before)

/-- Lookup under the image of a key. -/
theorem find?_image (key : κ) : (map.image keys values).find? (keys key) =
    (map.find? key).map values := by
  obtain ⟨entries, sorted⟩ := map
  simp only [find?, image]
  clear sorted
  induction entries with
  | nil => rfl
  | cons entry rest ih =>
    obtain ⟨head, value⟩ := entry
    simp only [List.map_cons, Prod.map_apply, findIn, keys.injective.eq_iff]
    split
    · rfl
    · exact ih

omit [DecidableEq κ] [DecidableEq κ'] in
/-- The front entry of the image. -/
theorem begin?_image : (map.image keys values).begin? =
    map.begin?.map (Prod.map keys values) := List.head?_map

omit [DecidableEq κ] [DecidableEq κ'] in
/-- The number of entries stays. -/
theorem size_image : (map.image keys values).size = map.size := List.length_map _

/-- The image of an insertion. -/
theorem image_insert [DecidableRel before] [IsStrictTotalOrder κ before] [DecidableRel before']
    [IsStrictTotalOrder κ' before'] (key : κ) (value : ν) :
    (map.insert key value).image keys values =
      (map.image keys values).insert (keys key) (values value) := by
  apply ext_find?
  intro other
  obtain ⟨other, rfl⟩ := keys.surjective other
  simp only [find?_image, find?_insert, keys.injective.eq_iff]
  split <;> rfl

/-- The image of a removal. -/
theorem image_erase [IsStrictTotalOrder κ before] [IsStrictTotalOrder κ' before'] (key : κ) :
    (map.erase key).image keys values = (map.image keys values).erase (keys key) := by
  apply ext_find?
  intro other
  obtain ⟨other, rfl⟩ := keys.surjective other
  simp only [find?_image, find?_erase, keys.injective.eq_iff]
  split <;> rfl

end Image

end OrderedMap

end Library
