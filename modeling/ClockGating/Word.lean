/-!
# Words — the 32-bit contents of a register

A register word is a vector of 32 independent switches, so everything here is described through one
view: bit `i` of a word, `w.getLsbD i`. This file holds

- `Word.single` — the word with one bit set, the form in which a table names a switch;
- `Word.covers` — the test "every bit of this mask is set";
- `Word.or_eq_self_iff`, `Word.and_not_eq_self_iff` — when setting or clearing bits changes nothing;
- `Word.hex` — the eight lower-case hexadecimal digits in which traces and masks show a word, and
  `Word.ofHexDigits`, which reads them back.
-/

namespace ClockGating

/-- The contents of one register. All registers are 32 bits wide. -/
abbrev Word := BitVec 32

/-- A word has bits, so a position in it can be written as a numeral. -/
instance wordSize_neZero : @NeZero Nat Zero.ofOfNat0 32 := ⟨Nat.succ_ne_zero 31⟩

namespace Word

/-! ## Single bits -/

/-- The word whose only set bit is bit `i`. -/
def single (i : Fin 32) : Word := 1#32 <<< i.val

@[simp] theorem getLsbD_single (i : Fin 32) (k : Nat) :
    (single i).getLsbD k = decide (k = i.val) := by
  have hi := i.isLt
  by_cases hk : k = i.val
  · subst hk
    simp [single, hi]
  · by_cases hlt : k < i.val
    · simp [single, hlt, hk]
    · have hsub : k - i.val ≠ 0 := by omega
      simp [single, hsub, hk]

/-! ## Covering -/

/-- Every bit of `mask` is set in `w`. The empty mask is covered by every word. -/
def covers (w mask : Word) : Bool := w &&& mask == mask

theorem covers_iff {w mask : Word} :
    covers w mask = true ↔ ∀ k, mask.getLsbD k = true → w.getLsbD k = true := by
  simp only [covers, beq_iff_eq]
  constructor
  · intro h k hk
    rw [← h, BitVec.getLsbD_and, Bool.and_eq_true] at hk
    exact hk.1
  · intro h
    apply BitVec.eq_of_getLsbD_eq
    intro k _
    rw [BitVec.getLsbD_and]
    cases hm : mask.getLsbD k with
    | false => exact Bool.and_false _
    | true => rw [h k hm]; rfl

theorem covers_single (w : Word) (i : Fin 32) : covers w (single i) = w.getLsbD i := by
  rw [Bool.eq_iff_iff, covers_iff]
  simp

/-! ## Setting and clearing -/

/-- Words without a common bit. -/
theorem and_eq_zero_iff {w mask : Word} :
    w &&& mask = 0 ↔ ∀ k, mask.getLsbD k = true → w.getLsbD k = false := by
  constructor
  · intro h k hk
    have bit := congrArg (fun v : Word => v.getLsbD k) h
    simpa [hk, -BitVec.getLsbD_eq_getElem] using bit
  · intro h
    apply BitVec.eq_of_getLsbD_eq
    intro k _
    rw [BitVec.getLsbD_and]
    cases hk : mask.getLsbD k with
    | false => simp
    | true => simp [h k hk]

theorem and_single_eq_zero_iff {w : Word} {i : Fin 32} :
    w &&& single i = 0 ↔ w.getLsbD i = false := by
  rw [and_eq_zero_iff]
  simp

/-- Bits that are set can be set again. -/
theorem or_eq_self_iff {w mask : Word} : w ||| mask = w ↔ covers w mask = true := by
  rw [covers_iff]
  constructor
  · intro h k hk
    rw [← h, BitVec.getLsbD_or, hk, Bool.or_true]
  · intro h
    apply BitVec.eq_of_getLsbD_eq
    intro k _
    rw [BitVec.getLsbD_or]
    cases hk : mask.getLsbD k with
    | false => exact Bool.or_false _
    | true => rw [h k hk, Bool.or_true]

/-- Bits that are clear can be cleared again. -/
theorem and_not_eq_self_iff {w mask : Word} : w &&& ~~~mask = w ↔ w &&& mask = 0 := by
  rw [and_eq_zero_iff]
  constructor
  · intro h k hk
    rw [← h, BitVec.getLsbD_and, BitVec.getLsbD_not, hk]
    simp
  · intro h
    apply BitVec.eq_of_getLsbD_eq
    intro k hlt
    rw [BitVec.getLsbD_and, BitVec.getLsbD_not]
    cases hk : mask.getLsbD k with
    | false => simp [hlt]
    | true => simp [h k hk]

/-- What is set before it is cleared is only cleared. -/
theorem or_and_not (w mask : Word) : (w ||| mask) &&& ~~~mask = w &&& ~~~mask := by
  rw [BitVec.and_or_distrib_right, BitVec.and_not_self]
  exact BitVec.or_zero

/-- What is cleared before it is set is only set. -/
theorem and_not_or (w mask : Word) : w &&& ~~~mask ||| mask = w ||| mask := by
  apply BitVec.eq_of_getLsbD_eq
  intro k hlt
  rw [BitVec.getLsbD_or, BitVec.getLsbD_and, BitVec.getLsbD_not, BitVec.getLsbD_or]
  cases mask.getLsbD k <;> simp [hlt]

/-- What was set needs no test. -/
theorem covers_or (w mask other : Word) :
    covers (w ||| mask) other = covers w (other &&& ~~~mask) := by
  rw [Bool.eq_iff_iff, covers_iff, covers_iff]
  refine forall_congr' fun k => ?_
  rw [BitVec.getLsbD_or, BitVec.getLsbD_and, BitVec.getLsbD_not]
  cases hk : other.getLsbD k with
  | false => simp
  | true =>
    have hlt := BitVec.lt_of_getLsbD hk
    cases mask.getLsbD k <;> simp [hlt]

/-- What was cleared passes no test but the empty one. -/
theorem covers_and_not (w mask other : Word) :
    covers (w &&& ~~~mask) other = (mask &&& other == 0 && covers w other) := by
  rw [Bool.eq_iff_iff, Bool.and_eq_true, beq_iff_eq, and_eq_zero_iff, covers_iff, covers_iff,
    ← forall_and]
  refine forall_congr' fun k => ?_
  rw [BitVec.getLsbD_and, BitVec.getLsbD_not]
  cases hk : other.getLsbD k with
  | false => simp
  | true =>
    have hlt := BitVec.lt_of_getLsbD hk
    cases mask.getLsbD k <;> simp [hlt]

/-! ## Hexadecimal digits -/

/-- Digits above nine are lower-case letters. -/
def hexDigit (n : Nat) : Char :=
  if n < 10 then Char.ofNat ('0'.toNat + n) else Char.ofNat ('a'.toNat + (n - 10))

/-- The last `count` digits of a number, most significant first. Leading zeros are kept. -/
def hexDigits : (count n : Nat) → List Char
  | 0, _ => []
  | count + 1, n => hexDigits count (n / 16) ++ [hexDigit (n % 16)]

/-- The text of a word: always eight digits. -/
def hex (w : Word) : String := String.ofList (hexDigits 8 w.toNat)

def hexAlphabet : List Char := "0123456789abcdef".toList

theorem mem_hexDigits {count n : Nat} {c : Char} (h : c ∈ hexDigits count n) :
    c ∈ hexAlphabet := by
  have digit : ∀ k < 16, hexDigit k ∈ hexAlphabet := by decide +kernel
  induction count generalizing n with
  | zero => cases h
  | succ count ih =>
    rcases List.mem_append.mp h with h | h
    · exact ih h
    · rw [List.mem_singleton.mp h]
      exact digit (n % 16) (Nat.mod_lt _ (by decide))

theorem length_hexDigits (count n : Nat) : (hexDigits count n).length = count := by
  induction count generalizing n with
  | zero => rfl
  | succ count ih => rw [hexDigits, List.length_append, ih, List.length_singleton]

/-- The number that digits stand for, the most significant first. -/
def ofHexDigits (digits : List Char) : Nat :=
  digits.foldl (fun n c => 16 * n + hexAlphabet.idxOf c) 0

/-- **Reading digits back** gives the part of the number that they were taken from. -/
theorem ofHexDigits_hexDigits (count n : Nat) :
    ofHexDigits (hexDigits count n) = n % Nat.pow 16 count := by
  have digit : ∀ k < 16, hexAlphabet.idxOf (hexDigit k) = k := by decide +kernel
  induction count generalizing n with
  | zero => exact (Nat.mod_one n).symm
  | succ count ih =>
    have last := digit (n % 16) (Nat.mod_lt _ (by decide))
    have split : n % Nat.pow 16 (count + 1) = n % 16 + 16 * (n / 16 % Nat.pow 16 count) := by
      rw [show Nat.pow 16 (count + 1) = 16 * Nat.pow 16 count from Nat.mul_comm _ _, Nat.mod_mul]
    have step : ofHexDigits (hexDigits (count + 1) n) =
        16 * ofHexDigits (hexDigits count (n / 16)) + hexAlphabet.idxOf (hexDigit (n % 16)) := by
      rw [ofHexDigits, hexDigits, List.foldl_append]
      rfl
    rw [step, ih, last, split, Nat.add_comm]

theorem ofHexDigits_hex (w : Word) : ofHexDigits (hex w).toList = w.toNat := by
  have fits : w.toNat % Nat.pow 16 8 = w.toNat := Nat.mod_eq_of_lt w.isLt
  rw [hex, String.toList_ofList, ofHexDigits_hexDigits, fits]

theorem hex_injective {v w : Word} (h : hex v = hex w) : v = w := by
  have same := congrArg (fun s : String => ofHexDigits s.toList) h
  rw [ofHexDigits_hex, ofHexDigits_hex] at same
  exact BitVec.eq_of_toNat_eq same

end Word

end ClockGating
