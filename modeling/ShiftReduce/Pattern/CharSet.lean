/-!
# Sets of characters

A set of characters is a list of ranges of code points, in order and with gaps
between them.  So a set has one list only, and its number of ranges says how
much it takes to write it down.

There are no characters from `U+D800` to `U+DFFF`.  The code point after
`U+D7FF` is `U+E000` here, but two ranges that meet there stay apart.

`any_insertRange` says what is held when a range is put among others, and
`containsCode_inter` what two sets have in common.
-/

namespace ShiftReduce

/-- The code points from one to another, both included. -/
structure CodeRange where
  first : Nat
  last : Nat
deriving DecidableEq, Repr

namespace CodeRange

/-- Whether a code point is in a range. -/
def contains (range : CodeRange) (n : Nat) : Bool :=
  decide (range.first ≤ n) && decide (n ≤ range.last)

/-- The range between two code points, whichever is first. -/
def between (a b : Nat) : CodeRange := ⟨min a b, max a b⟩

/-- The code point after one. -/
def after (n : Nat) : Nat := if n = 0xD7FF then 0xE000 else n + 1

/-- The code point before one. -/
def before (n : Nat) : Nat := if n = 0xE000 then 0xD7FF else n - 1

/-- What two ranges have in common. -/
def inter? (a b : CodeRange) : Option CodeRange :=
  if max a.first b.first ≤ min a.last b.last then
    some ⟨max a.first b.first, min a.last b.last⟩
  else none

/-- What the first range has and the second has not. -/
def diff (a b : CodeRange) : List CodeRange :=
  if (inter? a b).isNone then [a]
  else
    (if a.first < b.first then [between a.first (before b.first)] else []) ++
      (if b.last < a.last then [between (after b.last) a.last] else [])

/-- The ranges moved by a number of code points. -/
def shift (move : Nat → Nat) (range : CodeRange) : CodeRange := ⟨move range.first, move range.last⟩

end CodeRange

/-- A set of characters. -/
structure CharSet where
  ranges : List CodeRange
deriving DecidableEq, Repr

namespace CharSet

/-- Whether a code point is in a set. -/
def containsCode (set : CharSet) (n : Nat) : Bool := set.ranges.any fun range => range.contains n

/-- Whether a character is in a set. -/
def contains (set : CharSet) (c : Char) : Bool := set.containsCode c.toNat

/-- The set without characters. -/
def empty : CharSet := ⟨[]⟩

/-- Whether a set has no characters. -/
def isEmpty (set : CharSet) : Bool := set.ranges.isEmpty

/-- Puts a range among others.  Ranges that meet become one. -/
def insertRange (range : CodeRange) : List CodeRange → List CodeRange
  | [] => [range]
  | other :: rest =>
    if range.last + 1 < other.first then range :: other :: rest
    else if other.last + 1 < range.first then other :: insertRange range rest
    else insertRange ⟨min range.first other.first, max range.last other.last⟩ rest

/-- A set with one more range. -/
def insert (set : CharSet) (range : CodeRange) : CharSet := ⟨insertRange range set.ranges⟩

/-- The set with one character. -/
def single (c : Char) : CharSet := ⟨[⟨c.toNat, c.toNat⟩]⟩

/-- The character of a set with one character. -/
def single? (set : CharSet) : Option Char :=
  match set.ranges with
  | [⟨first, last⟩] => if first = last then some (Char.ofNat first) else none
  | _ => none

/-! ## Operations -/

/-- The characters of one set or the other. -/
def union (a b : CharSet) : CharSet := b.ranges.foldr (fun range set => set.insert range) a

/-- The characters of both sets. -/
def inter (a b : CharSet) : CharSet :=
  ⟨a.ranges.flatMap fun range => b.ranges.filterMap range.inter?⟩

/-- The characters of the first set that are not in the second. -/
def diff (a b : CharSet) : CharSet :=
  ⟨b.ranges.foldl (fun ranges range => ranges.flatMap fun other => other.diff range) a.ranges⟩

/-- The characters of exactly one of two sets. -/
def symmDiff (a b : CharSet) : CharSet := diff (union a b) (inter a b)

/-- The gaps behind the first of some ranges, up to the last code point. -/
def gaps (top : Nat) : List CodeRange → List CodeRange
  | [] => []
  | [range] => if range.last < top then [⟨CodeRange.after range.last, top⟩] else []
  | range :: next :: rest =>
    CodeRange.between (CodeRange.after range.last) (CodeRange.before next.first) ::
      gaps top (next :: rest)

/-- The characters that are not in a set, up to the last code point. -/
def compl (top : Nat) (set : CharSet) : CharSet :=
  match set.ranges with
  | [] => ⟨[⟨0, top⟩]⟩
  | range :: rest =>
    ⟨(if 0 < range.first then [⟨0, CodeRange.before range.first⟩] else []) ++
      gaps top (range :: rest)⟩

/-- Whether all characters of a set are ASCII. -/
def isAscii (set : CharSet) : Bool := set.ranges.all fun range => decide (range.last ≤ 0x7F)

/-! ## Named sets -/

/-- The digits. -/
def digit : CharSet := ⟨[⟨'0'.toNat, '9'.toNat⟩]⟩

/-- The capital letters. -/
def upper : CharSet := ⟨[⟨'A'.toNat, 'Z'.toNat⟩]⟩

/-- The small letters. -/
def lower : CharSet := ⟨[⟨'a'.toNat, 'z'.toNat⟩]⟩

/-- The letters and the digits. -/
def alnum : CharSet := union digit (union upper lower)

/-- The characters of a word: letters, digits and the low line. -/
def word : CharSet := union alnum (single '_')

/-- The tabulators, the line breaks, the form feed and the space. -/
def space : CharSet := ⟨[⟨'\t'.toNat, '\r'.toNat⟩, ⟨' '.toNat, ' '.toNat⟩]⟩

/-- The visible characters. -/
def graph : CharSet := ⟨[⟨'!'.toNat, '~'.toNat⟩]⟩

/-- The set with a name.  Named sets hold ASCII characters only. -/
def named? : String → Option CharSet
  | "alnum" => some alnum
  | "alpha" => some (union upper lower)
  | "ascii" => some ⟨[⟨0, 0x7F⟩]⟩
  | "blank" => some (union (single '\t') (single ' '))
  | "cntrl" => some ⟨[⟨0, 0x1F⟩, ⟨0x7F, 0x7F⟩]⟩
  | "digit" => some digit
  | "graph" => some graph
  | "lower" => some lower
  | "print" => some ⟨[⟨' '.toNat, '~'.toNat⟩]⟩
  | "punct" => some (diff graph alnum)
  | "space" => some space
  | "upper" => some upper
  | "word" => some word
  | "xdigit" => some (union digit ⟨[⟨'A'.toNat, 'F'.toNat⟩, ⟨'a'.toNat, 'f'.toNat⟩]⟩)
  | _ => none

/-- The characters of a set, in either case.  Only the case of ASCII letters counts. -/
def caseless (set : CharSet) : CharSet :=
  let small : CharSet := ⟨(inter set upper).ranges.map (CodeRange.shift (· + 32))⟩
  let capital : CharSet := ⟨(inter set lower).ranges.map (CodeRange.shift (· - 32))⟩
  union (union set small) capital

/-! ## What the operations hold -/

/-- A range among others holds what it held alone. -/
theorem any_insertRange (range : CodeRange) (n : Nat) :
    ∀ ranges : List CodeRange, range.first ≤ range.last → (∀ r ∈ ranges, r.first ≤ r.last) →
      ((insertRange range ranges).any fun r => r.contains n) =
        (range.contains n || ranges.any fun r => r.contains n)
  | [], _, _ => by simp [insertRange]
  | other :: rest, hr, ho => by
    have hother := ho other List.mem_cons_self
    have hrest : ∀ r ∈ rest, r.first ≤ r.last := fun r h => ho r (List.mem_cons_of_mem _ h)
    rw [insertRange]
    split
    · simp
    · split
      · rw [List.any_cons, List.any_cons, any_insertRange range n rest hr hrest,
          Bool.or_left_comm]
      · next h₁ h₂ =>
        rw [any_insertRange _ n rest (by simp only; omega) hrest, List.any_cons, ← Bool.or_assoc]
        congr 1
        rw [Bool.eq_iff_iff]
        simp only [CodeRange.contains, Bool.and_eq_true, Bool.or_eq_true, decide_eq_true_eq]
        omega

/-- A code point is in both sets if it is in their common part. -/
theorem containsCode_inter (a b : CharSet) (n : Nat) :
    (inter a b).containsCode n = (a.containsCode n && b.containsCode n) := by
  rw [Bool.eq_iff_iff]
  simp only [containsCode, inter, List.any_eq_true, List.mem_flatMap, List.mem_filterMap,
    Bool.and_eq_true]
  constructor
  · rintro ⟨range, ⟨ra, ha, rb, hb, h⟩, hn⟩
    simp only [CodeRange.inter?] at h
    split at h
    · cases h
      simp only [CodeRange.contains, Bool.and_eq_true, decide_eq_true_eq] at hn ⊢
      exact ⟨⟨ra, ha, by omega, by omega⟩, ⟨rb, hb, by omega, by omega⟩⟩
    · cases h
  · rintro ⟨⟨ra, ha, hna⟩, ⟨rb, hb, hnb⟩⟩
    simp only [CodeRange.contains, Bool.and_eq_true, decide_eq_true_eq] at hna hnb
    refine ⟨⟨max ra.first rb.first, min ra.last rb.last⟩, ⟨ra, ha, rb, hb, ?_⟩, ?_⟩
    · rw [CodeRange.inter?, if_pos (by omega)]
    · simp only [CodeRange.contains, Bool.and_eq_true, decide_eq_true_eq]
      omega

example : diff graph alnum = ⟨[⟨0x21, 0x2F⟩, ⟨0x3A, 0x40⟩, ⟨0x5B, 0x60⟩, ⟨0x7B, 0x7E⟩]⟩ := rfl

example : compl 0x10FFFF (single '\n') = ⟨[⟨0, 9⟩, ⟨11, 0x10FFFF⟩]⟩ := rfl

example : (caseless (single 'k')).contains 'K' = true := rfl

end CharSet

end ShiftReduce
