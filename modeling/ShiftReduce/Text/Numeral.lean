/-!
# Numerals

A *numeral* is an optional plus sign and at least one ASCII digit.  A numeral
is read below a bound, since the numbers of a table file are 32 bits wide and
the step limit is 64 bits wide.

A text that is no numeral, or is one of too large a number, is refused with the
first fault from the left.  At each character the digit is looked at before the
size, so `999x` is too large below `100` and has an invalid digit below `1000`.

`read_lt` says that a number read is below the bound.
-/

namespace ShiftReduce.Numeral

/-- Why a text was not read as a number. -/
inductive Fault where
  | empty
  /-- A character is not a digit, or only a sign is there. -/
  | invalidDigit
  | tooLarge
deriving DecidableEq, Repr

/-- The fault in words. -/
def Fault.message : Fault → String
  | .empty => "cannot parse integer from empty string"
  | .invalidDigit => "invalid digit found in string"
  | .tooLarge => "number too large to fit in target type"

/-- The value of an ASCII digit. -/
def digit? (c : Char) : Option Nat :=
  if c.isDigit then some (c.toNat - '0'.toNat) else none

/-- Reads on from the value of the digits so far. -/
def readFrom (bound : Nat) (value : Nat) : List Char → Except Fault Nat
  | [] => .ok value
  | c :: rest =>
    match digit? c with
    | none => .error .invalidDigit
    | some d =>
      if value * 10 + d < bound then readFrom bound (value * 10 + d) rest else .error .tooLarge

/-- Reads a numeral below `bound`.  A lone sign has no digit. -/
def read (bound : Nat) : List Char → Except Fault Nat
  | [] => .error .empty
  | '+' :: c :: rest => readFrom bound 0 (c :: rest)
  | text => readFrom bound 0 text

/-- What is read from a value below the bound is below the bound. -/
theorem readFrom_lt {bound value n : Nat} {text : List Char} (hv : value < bound)
    (h : readFrom bound value text = .ok n) : n < bound := by
  induction text generalizing value with
  | nil => simp only [readFrom, Except.ok.injEq] at h; omega
  | cons c rest ih =>
    rw [readFrom] at h
    split at h
    · simp at h
    · split at h
      · next hlt => exact ih hlt h
      · simp at h

/-- A number read is below the bound. -/
theorem read_lt {bound n : Nat} {text : List Char} (hb : 0 < bound)
    (h : read bound text = .ok n) : n < bound := by
  unfold read at h
  split at h
  · simp at h
  · exact readFrom_lt hb h
  · exact readFrom_lt hb h

/-- Reads a 32-bit number. -/
def readUInt32 (text : List Char) : Except Fault UInt32 :=
  (read UInt32.size text).map UInt32.ofNat

example : read 1000 "+042".toList = .ok 42 := rfl

example : read 1000 "+".toList = .error .invalidDigit := rfl

example : read 100 "999x".toList = .error .tooLarge := rfl

example : read 1000 "999x".toList = .error .invalidDigit := rfl

end ShiftReduce.Numeral
