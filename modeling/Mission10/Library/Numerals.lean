import Mathlib.Algebra.NeZero
import Mathlib.Algebra.Order.Floor.Div
import Mathlib.Data.Nat.Cast.Defs
import Mathlib.Data.Nat.Digits.Lemmas
import Mathlib.Data.Nat.Init
import Mathlib.Tactic.Ring

/-!
# Numerals of an arbitrary field

A numeral from two on needs an instance that its number is at least two, and an
index below a number one that the number is not zero. Stated here by name, the
instances leave no proof in the definitions that use them.
-/
namespace Numerals

instance two_atLeastTwo : Nat.AtLeastTwo 2 := ⟨by omega⟩
instance three_atLeastTwo : Nat.AtLeastTwo 3 := ⟨by omega⟩
instance four_atLeastTwo : Nat.AtLeastTwo 4 := ⟨by omega⟩
instance five_atLeastTwo : Nat.AtLeastTwo 5 := ⟨by omega⟩
instance six_atLeastTwo : Nat.AtLeastTwo 6 := ⟨by omega⟩
instance seven_atLeastTwo : Nat.AtLeastTwo 7 := ⟨by omega⟩
instance eight_atLeastTwo : Nat.AtLeastTwo 8 := ⟨by omega⟩
instance nine_atLeastTwo : Nat.AtLeastTwo 9 := ⟨by omega⟩
instance ten_atLeastTwo : Nat.AtLeastTwo 10 := ⟨by omega⟩
instance twelve_atLeastTwo : Nat.AtLeastTwo 12 := ⟨by omega⟩
instance fifteen_atLeastTwo : Nat.AtLeastTwo 15 := ⟨by omega⟩
instance twenty_atLeastTwo : Nat.AtLeastTwo 20 := ⟨by omega⟩
instance twentyFive_atLeastTwo : Nat.AtLeastTwo 25 := ⟨by omega⟩
instance thirty_atLeastTwo : Nat.AtLeastTwo 30 := ⟨by omega⟩
instance fortyEight_atLeastTwo : Nat.AtLeastTwo 48 := ⟨by omega⟩
instance sixty_atLeastTwo : Nat.AtLeastTwo 60 := ⟨by omega⟩
instance ninety_atLeastTwo : Nat.AtLeastTwo 90 := ⟨by omega⟩
instance hundred_atLeastTwo : Nat.AtLeastTwo 100 := ⟨by omega⟩
instance halfTurn_atLeastTwo : Nat.AtLeastTwo 180 := ⟨by omega⟩
instance thousand_atLeastTwo : Nat.AtLeastTwo 1000 := ⟨by omega⟩

instance two_neZero : NeZero 2 := ⟨by omega⟩
instance three_neZero : NeZero 3 := ⟨by omega⟩

end Numerals

/-!
## Fixed-point rates

A rate with a number of binary digits behind the point, kept as an integer. A count
is scaled by a product and a shift, which drops what is behind the point, and scaled
back by a quotient that is rounded to the nearest. For a whole rate nothing is
dropped, and scaling back finds the count.
-/
namespace FixedPoint

/-- A whole rate. -/
def whole (bits n : ℕ) : ℕ := n * 2 ^ bits

/-- A count at a rate, what is behind the point dropped. -/
def scale (bits rate count : ℕ) : ℕ := count * rate / 2 ^ bits

/-- The count that a rate takes to a scaled one, to the nearest. -/
def unscale (bits rate scaled : ℕ) : ℕ := (scaled * 2 ^ bits + rate / 2) / rate

variable {bits rate n : ℕ}

@[simp] theorem scale_whole (count : ℕ) : scale bits (whole bits n) count = count * n := by
  rw [scale, whole, ← Nat.mul_assoc]
  exact Nat.mul_div_cancel _ (Nat.two_pow_pos bits)

/-- Half of a rate is less than the rate, so that it does not reach the next count. -/
theorem unscale_mul (hn : 0 < n) (count : ℕ) :
    unscale bits (whole bits n) (count * n) = count := by
  have hpos : 0 < whole bits n := Nat.mul_pos hn (Nat.two_pow_pos bits)
  have hhalf : whole bits n / 2 < whole bits n := Nat.div_lt_self hpos Nat.one_lt_two
  have hscaled : count * n * 2 ^ bits = whole bits n * count := by
    rw [whole]
    ring
  rw [unscale, hscaled, Nat.mul_add_div hpos, Nat.div_eq_of_lt hhalf, Nat.add_zero]

end FixedPoint

/-!
## Padded numbers

A number in decimal, with zeros in front up to a width. Different numbers have
different texts, also when a number is longer than the width, and a text of digits
can be told from what follows it.
-/
namespace PaddedDigits

/-- A number with zeros in front. -/
def padded (width n : ℕ) : List Char := (Nat.toDigits 10 n).leftpad width '0'

theorem isDigit_of_mem_padded {width n : ℕ} {c : Char} (h : c ∈ padded width n) :
    c.isDigit = true := by
  rw [padded, List.leftpad, List.mem_append] at h
  rcases h with h | h
  · rw [List.eq_of_mem_replicate h]
    rfl
  · exact Nat.isDigit_of_mem_toDigits (by omega) (by omega) h

/-- The number is read back from its digits. -/
theorem ofDigitChars_padded (width n : ℕ) : Nat.ofDigitChars 10 (padded width n) 0 = n := by
  rw [padded, List.leftpad, Nat.ofDigitChars_append, Nat.ofDigitChars_replicate_zero, mul_zero,
    Nat.ofDigitChars_ten_toDigits]

theorem padded_injective (width : ℕ) : Function.Injective (padded width) := by
  intro m n h
  rw [← ofDigitChars_padded width m, h, ofDigitChars_padded]

/-- A text is its digits and what follows them, from a character that is no digit on. -/
theorem padded_append_inj {width m n : ℕ} {c : Char} (hc : c.isDigit = false)
    {rest rest' : List Char}
    (h : padded width m ++ c :: rest = padded width n ++ c :: rest') :
    m = n ∧ rest = rest' := by
  have htake (n : ℕ) (rest : List Char) :
      (padded width n ++ c :: rest).takeWhile Char.isDigit = padded width n := by
    rw [List.takeWhile_append_of_pos fun d hd => isDigit_of_mem_padded hd,
      List.takeWhile_cons_of_neg (by simp [hc]), List.append_nil]
  have hdigits : padded width m = padded width n := by
    rw [← htake m rest, h, htake]
  rw [hdigits, List.append_cancel_left_eq] at h
  exact ⟨padded_injective width hdigits, (List.cons.inj h).2⟩

/-- The text of an integer; a sign takes one place of the width. -/
def paddedInt (width : ℕ) (n : ℤ) : String :=
  String.ofList (if n < 0 then '-' :: padded (width - 1) n.natAbs else padded width n.natAbs)

theorem isDigit_or_sign_of_mem {width : ℕ} {n : ℤ} {c : Char}
    (h : c ∈ (paddedInt width n).toList) : c.isDigit = true ∨ c = '-' := by
  rw [paddedInt, String.toList_ofList] at h
  split_ifs at h with hneg
  · rcases List.mem_cons.mp h with h | h
    · exact .inr h
    · exact .inl (isDigit_of_mem_padded h)
  · exact .inl (isDigit_of_mem_padded h)

theorem paddedInt_injective (width : ℕ) : Function.Injective (paddedInt width) := by
  intro m n h
  have hlist := String.ofList_injective h
  split_ifs at hlist with hm hn hn
  · have habs := padded_injective (width - 1) (List.cons.inj hlist).2
    omega
  · have hdigit := isDigit_of_mem_padded (hlist ▸ List.mem_cons_self)
    exact absurd hdigit (by decide)
  · have hdigit := isDigit_of_mem_padded (hlist ▸ List.mem_cons_self)
    exact absurd hdigit (by decide)
  · have habs := padded_injective width hlist
    omega

end PaddedDigits
