import ShiftReduce.Text.Blank
import ShiftReduce.Text.Numeral

/-!
# What a numeral stands for

`Numeral.Spells` says which texts stand for a number, without reading them.  There
is a digit at least, there may be a plus sign in front, and the digits have the
number as their decimal value.

The reader accepts these texts and no others, as far as their numbers are below its
bound (`Numeral.read_eq_ok_iff`).  A number that is written out spells itself
(`Numeral.spells_toDigits`).
-/

namespace ShiftReduce.Numeral

/-- The text is an optional plus sign and at least one digit, with the number as
their decimal value. -/
def Spells (text : List Char) (n : Nat) : Prop :=
  ∃ digits, (text = digits ∨ text = '+' :: digits) ∧ digits ≠ [] ∧
    (∀ c ∈ digits, c.isDigit = true) ∧ Nat.ofDigitChars 10 digits 0 = n

/-! ## Reading -/

theorem digit?_of_isDigit {c : Char} (h : c.isDigit = true) :
    digit? c = some (c.toNat - '0'.toNat) := if_pos h

theorem digit?_of_not_isDigit {c : Char} (h : c.isDigit = false) : digit? c = none := by
  simp [digit?, h]

/-- More digits make no smaller number. -/
theorem le_ofDigitChars (text : List Char) (value : Nat) :
    value ≤ Nat.ofDigitChars 10 text value := by
  rw [Nat.ofDigitChars_eq_ofDigitChars_zero]
  have hpos : 0 < 10 ^ text.length := Nat.pow_pos (by decide)
  exact Nat.le_add_right_of_le (Nat.le_mul_of_pos_left value hpos)

/-- Reading on from a value succeeds exactly on digits that keep it below the
bound. -/
theorem readFrom_eq_ok_iff {bound value n : Nat} {text : List Char} (hv : value < bound) :
    readFrom bound value text = .ok n ↔
      (∀ c ∈ text, c.isDigit = true) ∧ Nat.ofDigitChars 10 text value = n ∧ n < bound := by
  induction text generalizing value with
  | nil =>
      simp only [readFrom, Except.ok.injEq, List.not_mem_nil, false_implies, implies_true,
        Nat.ofDigitChars_nil, true_and]
      exact ⟨fun h => ⟨h, h ▸ hv⟩, And.left⟩
  | cons c rest ih =>
      cases hc : c.isDigit with
      | false => simp [readFrom, digit?_of_not_isDigit hc, hc]
      | true =>
          have hvalue :
              10 * value + (c.toNat - '0'.toNat) = value * 10 + (c.toNat - '0'.toNat) := by
            rw [Nat.mul_comm]
          simp only [readFrom, digit?_of_isDigit hc, List.forall_mem_cons, hc, true_and,
            Nat.ofDigitChars_cons, hvalue]
          by_cases hlt : value * 10 + (c.toNat - '0'.toNat) < bound
          · rw [if_pos hlt, ih hlt]
          · rw [if_neg hlt]
            -- the number cannot become smaller again
            have hle := le_ofDigitChars rest (value * 10 + (c.toNat - '0'.toNat))
            constructor
            · intro h
              cases h
            · rintro ⟨-, he, hn⟩
              omega

theorem not_isDigit_plus : '+'.isDigit = false := by decide

/-- The reader accepts the numerals below its bound and nothing else. -/
theorem read_eq_ok_iff {bound n : Nat} {text : List Char} (hb : 0 < bound) :
    read bound text = .ok n ↔ Spells text n ∧ n < bound := by
  unfold read
  split
  · refine ⟨fun h => (nomatch h), fun ⟨⟨digits, htext, hne, _⟩, _⟩ => ?_⟩
    rcases htext with rfl | htext
    · exact absurd rfl hne
    · cases htext
  · next c rest =>
      rw [readFrom_eq_ok_iff hb]
      constructor
      · rintro ⟨hdigits, hvalue, hn⟩
        exact ⟨⟨c :: rest, .inr rfl, List.cons_ne_nil _ _, hdigits, hvalue⟩, hn⟩
      · rintro ⟨⟨digits, rfl | htext, -, hdigits, hvalue⟩, hn⟩
        · have := hdigits '+' List.mem_cons_self
          rw [not_isDigit_plus] at this
          cases this
        · obtain rfl := (List.cons.inj htext).2
          exact ⟨hdigits, hvalue, hn⟩
  · next hne hplus =>
      rw [readFrom_eq_ok_iff hb]
      constructor
      · rintro ⟨hdigits, hvalue, hn⟩
        exact ⟨⟨text, .inl rfl, hne, hdigits, hvalue⟩, hn⟩
      · rintro ⟨⟨digits, rfl | rfl, hdigits', hdigits, hvalue⟩, hn⟩
        · exact ⟨hdigits, hvalue, hn⟩
        · obtain ⟨c, rest, rfl⟩ := List.exists_cons_of_ne_nil hdigits'
          exact absurd rfl (hplus c rest)

theorem readUInt32_eq_ok_iff {text : List Char} {n : UInt32} :
    readUInt32 text = .ok n ↔ Spells text n.toNat := by
  have hsize : 0 < UInt32.size := by decide
  unfold readUInt32
  constructor
  · intro h
    cases hr : read UInt32.size text with
    | error fault => rw [hr] at h; cases h
    | ok m =>
        rw [hr] at h
        obtain rfl := Except.ok.inj h
        obtain ⟨hspells, hlt⟩ := (read_eq_ok_iff hsize).1 hr
        rwa [UInt32.toNat_ofNat_of_lt' hlt]
  · intro h
    rw [(read_eq_ok_iff hsize).2 ⟨h, n.toNat_lt⟩]
    simp [Except.map]

/-! ## Writing -/

/-- A number that is written out spells itself. -/
theorem spells_toDigits (n : Nat) : Spells (Nat.toDigits 10 n) n :=
  ⟨_, .inl rfl, Nat.toDigits_ne_nil, fun _ hc => Nat.isDigit_of_mem_toDigits (by decide)
    (by decide) hc, Nat.ofDigitChars_toDigits (by decide) (by decide)⟩

theorem toList_toString (n : Nat) : (toString n).toList = Nat.toDigits 10 n := Nat.toList_repr

theorem spells_toString (n : Nat) : Spells (toString n).toList n :=
  toList_toString n ▸ spells_toDigits n

theorem spells_toString_uint32 (n : UInt32) : Spells (toString n).toList n.toNat :=
  spells_toString n.toNat

/-! ## The characters of a numeral -/

section Characters

variable {text : List Char} {n : Nat}

theorem Spells.ne_nil (h : Spells text n) : text ≠ [] := by
  obtain ⟨digits, rfl | rfl, hne, -⟩ := h
  · exact hne
  · exact List.cons_ne_nil _ _

theorem Spells.isDigit_or_plus (h : Spells text n) {c : Char} (hc : c ∈ text) :
    c.isDigit = true ∨ c = '+' := by
  obtain ⟨digits, rfl | rfl, -, hdigits, -⟩ := h
  · exact .inl (hdigits c hc)
  · rcases List.mem_cons.1 hc with rfl | hc
    · exact .inr rfl
    · exact .inl (hdigits c hc)

theorem Spells.notMem (h : Spells text n) {c : Char} (hdigit : c.isDigit = false)
    (hplus : c ≠ '+') : c ∉ text := by
  intro hc
  rcases h.isDigit_or_plus hc with hc | rfl
  · rw [hdigit] at hc
    cases hc
  · exact hplus rfl

theorem Spells.toNat_le (h : Spells text n) {c : Char} (hc : c ∈ text) : c.toNat ≤ 57 := by
  rcases h.isDigit_or_plus hc with hc | rfl
  · exact (Char.isDigit_iff_toNat.1 hc).2
  · decide

theorem Spells.isBlank_eq_false (h : Spells text n) {c : Char} (hc : c ∈ text) :
    Text.isBlank c = false := by
  have hle := h.toNat_le hc
  have hlow : 43 ≤ c.toNat := by
    rcases h.isDigit_or_plus hc with hc | rfl
    · exact Nat.le_trans (by decide) (Char.isDigit_iff_toNat.1 hc).1
    · decide
  have hnone : ∀ code < 58, 43 ≤ code → Text.isBlank (Char.ofNat code) = false := by decide
  rw [← Char.ofNat_toNat c]
  exact hnone _ (Nat.lt_succ_of_le hle) hlow

/-- Characters up to the digits have no small form. -/
theorem toLower_eq_self {c : Char} (h : c.toNat ≤ 57) : c.toLower = c := by
  refine dif_neg fun ⟨hc, _⟩ => ?_
  exact absurd (Nat.le_trans (UInt32.le_iff_toNat_le.1 hc) h) (by decide)

/-- The small form of a capital letter lies behind the digits. -/
theorem toLower_eq_self_of_le {c : Char} (h : c.toLower.toNat ≤ 57) : c.toLower = c := by
  by_cases hc : c.val ≥ 'A'.val ∧ c.val ≤ 'Z'.val
  · have hval : c.toLower.val = c.val + 32 := congrArg Char.val (dif_pos hc)
    have hlow : 65 ≤ c.val.toNat := UInt32.le_iff_toNat_le.1 hc.1
    have hhigh : c.val.toNat ≤ 90 := UInt32.le_iff_toNat_le.1 hc.2
    rw [Char.toNat, hval, UInt32.toNat_add, show (32 : UInt32).toNat = 32 from rfl] at h
    omega
  · exact dif_neg hc

/-- A numeral has no letters, so their case does not count. -/
theorem spells_map_toLower : Spells (text.map Char.toLower) n ↔ Spells text n := by
  have hsame : (∀ c ∈ text, c.toLower = c) → text.map Char.toLower = text := by
    intro h
    rw [List.map_congr_left h, List.map_id']
  constructor
  · intro h
    rwa [hsame fun c hc => toLower_eq_self_of_le (h.toNat_le (List.mem_map_of_mem hc))] at h
  · intro h
    rwa [hsame fun c hc => toLower_eq_self (h.toNat_le hc)]

end Characters

end ShiftReduce.Numeral
