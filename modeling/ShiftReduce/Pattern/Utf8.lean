import ShiftReduce.Pattern.CharSet

/-!
# UTF-8

A code point is written as one to four bytes.  The bytes of a range of code
points are in turn given by *sequences* of ranges of bytes: a text is in the
range if its bytes are, one by one, in the ranges of one of the sequences.

A range is cut until its bytes can be given by one sequence: where the number of
bytes changes, and where a byte changes while the bytes behind it do not take
all their values.
-/

namespace ShiftReduce.Utf8

/-- The bytes of a code point. -/
def encode (n : Nat) : List Nat :=
  if n ≤ 0x7F then [n]
  else if n ≤ 0x7FF then [0xC0 + n / 64, 0x80 + n % 64]
  else if n ≤ 0xFFFF then [0xE0 + n / 4096, 0x80 + n / 64 % 64, 0x80 + n % 64]
  else [0xF0 + n / 262144, 0x80 + n / 4096 % 64, 0x80 + n / 64 % 64, 0x80 + n % 64]

/-- The bytes of a text. -/
def encodeText (text : List Char) : List Nat := text.flatMap fun c => encode c.toNat

/-- Where a range is cut, so that the last bytes take all their values in each part:
the first code point of the second part. -/
def cutInside? (range : CodeRange) (values : Nat) : Option Nat :=
  let next := (range.first / values + 1) * values
  if range.first / values = range.last / values then none
  else if range.first % values ≠ 0 then some next
  else if range.last % values ≠ values - 1 then some (range.last / values * values)
  else none

/-- Where a range is cut first, if its bytes are not given by one sequence. -/
def cut? (range : CodeRange) : Option Nat :=
  if range.first < 0xE000 ∧ 0xD7FF < range.last then some 0xE000
  else
    match [0x7F, 0x7FF, 0xFFFF].find? fun n => range.first ≤ n ∧ n < range.last with
    | some n => some (n + 1)
    | none => if range.last ≤ 0x7F then none else [64, 4096, 262144].findSome? (cutInside? range)

/-- The sequences of a range, in order.  The fuel bounds how often a part is cut
again. -/
def sequencesOf : Nat → CodeRange → List (List CodeRange)
  | 0, _ => []
  | fuel + 1, range =>
    match cut? range with
    | some n =>
      sequencesOf fuel ⟨range.first, CodeRange.before n⟩ ++ sequencesOf fuel ⟨n, range.last⟩
    | none => [List.zipWith CodeRange.mk (encode range.first) (encode range.last)]

/-- The sequences of a set, in order. -/
def sequences (set : CharSet) : List (List CodeRange) := set.ranges.flatMap (sequencesOf 32)

example : encodeText "aé€😀".toList = "aé€😀".toUTF8.toList.map UInt8.toNat := by decide +kernel

/-- All characters from the second number of bytes on. -/
example : (sequences ⟨[⟨0x80, 0x10FFFF⟩]⟩).map (fun bytes => bytes.map fun r => (r.first, r.last)) =
    [[(0xC2, 0xDF), (0x80, 0xBF)],
      [(0xE0, 0xE0), (0xA0, 0xBF), (0x80, 0xBF)],
      [(0xE1, 0xEC), (0x80, 0xBF), (0x80, 0xBF)],
      [(0xED, 0xED), (0x80, 0x9F), (0x80, 0xBF)],
      [(0xEE, 0xEF), (0x80, 0xBF), (0x80, 0xBF)],
      [(0xF0, 0xF0), (0x90, 0xBF), (0x80, 0xBF), (0x80, 0xBF)],
      [(0xF1, 0xF3), (0x80, 0xBF), (0x80, 0xBF), (0x80, 0xBF)],
      [(0xF4, 0xF4), (0x80, 0x8F), (0x80, 0xBF), (0x80, 0xBF)]] := by
  decide +kernel

end ShiftReduce.Utf8
