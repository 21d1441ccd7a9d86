import Mathlib.Data.List.Basic

/-!
# Reading words and numbers from a line

Formatted extraction from a stream of characters, as `>>` of a string stream does
it with default flags. Blanks in front are skipped. A word goes on to the next
blank. An unsigned number is an optional sign and decimal digits, and stops at the
first character that is not a digit; a negative one is reduced modulo the bound of
its type, and one that does not fit fails. The laws say that a written word or
number is read back in front of every text that does not go on with it.
-/

namespace Library

/-- `isspace` in the default locale. -/
def isBlank (char : Char) : Bool :=
  char = ' ' || char = '\t' || char = '\n' || char = '\x0b' || char = '\x0c' || char = '\r'

/-- Skip blanks. -/
def skipBlanks (text : List Char) : List Char := text.dropWhile isBlank

/-- `>>` into a string. -/
def readWord (text : List Char) : Option (List Char × List Char) :=
  let found := (skipBlanks text).takeWhile fun char => !isBlank char
  if found = [] then none else some (found, (skipBlanks text).dropWhile fun char => !isBlank char)

/-- The sign of a number, and what follows it. -/
def readSign : List Char → Bool × List Char
  | '-' :: rest => (true, rest)
  | '+' :: rest => (false, rest)
  | text => (false, text)

/-- `>>` into an unsigned number below a bound. -/
def readUnsigned (bound : Nat) (text : List Char) : Option (Nat × List Char) :=
  let (negative, rest) := readSign (skipBlanks text)
  let digits := rest.takeWhile Char.isDigit
  let value := Nat.ofDigitChars 10 digits 0
  if digits = [] ∨ bound ≤ value then none
  else some (if negative then (bound - value) % bound else value, rest.dropWhile Char.isDigit)

/-- The decimal digits of a number. -/
def writeNat (value : Nat) : List Char := Nat.toDigits 10 value

/-- Blanks in front of a text that begins with none. -/
theorem skipBlanks_append {blanks text : List Char} (blank : ∀ char ∈ blanks, isBlank char = true)
    (begins : ∀ char ∈ text.head?, isBlank char = false) :
    skipBlanks (blanks ++ text) = text := by
  rw [skipBlanks, List.dropWhile_append_of_pos blank]
  cases text with
  | nil => rfl
  | cons first rest => rw [List.dropWhile_cons_of_neg (by simp [begins first rfl])]

/-- A text of one kind in front of a text that begins with another. -/
theorem takeWhile_front {kind : Char → Bool} {front rest : List Char}
    (all : ∀ char ∈ front, kind char = true) (stops : ∀ char ∈ rest.head?, kind char = false) :
    (front ++ rest).takeWhile kind = front ∧ (front ++ rest).dropWhile kind = rest := by
  rw [List.takeWhile_append_of_pos all, List.dropWhile_append_of_pos all]
  cases rest with
  | nil => exact ⟨List.append_nil _, rfl⟩
  | cons first rest =>
    have other : ¬kind first = true := by simp [stops first rfl]
    rw [List.takeWhile_cons_of_neg other, List.dropWhile_cons_of_neg other, List.append_nil]
    exact ⟨rfl, rfl⟩

/-- A word is read back. -/
theorem readWord_append {blanks found rest : List Char}
    (blank : ∀ char ∈ blanks, isBlank char = true) (nonempty : found ≠ [])
    (solid : ∀ char ∈ found, isBlank char = false)
    (stops : ∀ char ∈ rest.head?, isBlank char = true) :
    readWord (blanks ++ (found ++ rest)) = some (found, rest) := by
  have begins : ∀ char ∈ (found ++ rest).head?, isBlank char = false := by
    intro char first
    rw [List.head?_append_of_ne_nil _ nonempty] at first
    exact solid char (List.mem_of_mem_head? first)
  obtain ⟨taken, dropped⟩ := @takeWhile_front (fun char => !isBlank char) found rest
    (fun char member => by simp [solid char member]) (fun char first => by simp [stops char first])
  simp only [readWord, skipBlanks_append blank begins, taken, dropped, if_neg nonempty]

/-- Decimal digits are digits. -/
theorem isDigit_writeNat {value : Nat} {char : Char} (member : char ∈ writeNat value) :
    char.isDigit = true :=
  Nat.isDigit_of_mem_toDigits (by decide) (by decide) member

/-- There is at least one. -/
theorem writeNat_ne_nil (value : Nat) : writeNat value ≠ [] := by
  rw [writeNat, Nat.toDigits_eq_if (by decide)]
  split <;> simp

/-- A digit is neither a blank nor a sign. -/
theorem not_blank_of_isDigit {char : Char} (digit : char.isDigit = true) :
    isBlank char = false ∧ char ≠ '-' ∧ char ≠ '+' := by
  refine ⟨?_, ?_, ?_⟩
  · by_contra blank
    simp only [isBlank, Bool.not_eq_false, Bool.or_eq_true, decide_eq_true_eq] at blank
    rcases blank with ((((rfl | rfl) | rfl) | rfl) | rfl) | rfl <;> contradiction
  · rintro rfl
    contradiction
  · rintro rfl
    contradiction

/-- A number that fits is read back. -/
theorem readUnsigned_append {blanks rest : List Char} {bound value : Nat}
    (blank : ∀ char ∈ blanks, isBlank char = true) (fits : value < bound)
    (stops : ∀ char ∈ rest.head?, char.isDigit = false) :
    readUnsigned bound (blanks ++ (writeNat value ++ rest)) = some (value, rest) := by
  obtain ⟨first, digits, written⟩ := List.exists_cons_of_ne_nil (writeNat_ne_nil value)
  have digit : first.isDigit = true := isDigit_writeNat (written ▸ List.mem_cons_self)
  obtain ⟨solid, notMinus, notPlus⟩ := not_blank_of_isDigit digit
  have begins : ∀ char ∈ (writeNat value ++ rest).head?, isBlank char = false := by
    intro char head
    rw [written, List.cons_append, List.head?_cons, Option.mem_some_iff] at head
    rw [← head]
    exact solid
  have unsigned : readSign (writeNat value ++ rest) = (false, writeNat value ++ rest) := by
    rw [written, List.cons_append, readSign]
    · rintro _ ⟨⟩
      exact notMinus rfl
    · rintro _ ⟨⟩
      exact notPlus rfl
  obtain ⟨taken, dropped⟩ := @takeWhile_front Char.isDigit (writeNat value) rest
    (fun _ member => isDigit_writeNat member) stops
  have back : Nat.ofDigitChars 10 (writeNat value) 0 = value :=
    Nat.ofDigitChars_toDigits (by decide) (by decide)
  have accepted : ¬(writeNat value = [] ∨ bound ≤ value) := by
    rintro (none_written | large)
    · exact writeNat_ne_nil value none_written
    · omega
  simp only [readUnsigned, skipBlanks_append blank begins, unsigned, taken, dropped, back,
    if_neg accepted, Bool.false_eq_true, if_false]

end Library
