import Mathlib.Algebra.Group.Nat.Defs
import Mathlib.Data.Nat.Basic
import Mathlib.Order.Compare
import Mathlib.Order.Lattice
import ResourceTable.Decimal.Digits

namespace ResourceTable

theorem compare_eq_then {α β : Type} [LinearOrder α] [LinearOrder β] {a a' : α} {k k' : β}
    {rest : Ordering} (hlt : k < k' → a < a') (hgt : k' < k → a' < a)
    (heq : k = k' → compare a a' = rest) : compare a a' = (compare k k').then rest := by
  rcases lt_trichotomy k k' with h | h | h
  · rw [compare_lt_iff_lt.2 h, compare_lt_iff_lt.2 (hlt h), Ordering.lt_then]
  · rw [compare_eq_iff_eq.2 h, heq h, Ordering.eq_then]
  · rw [compare_gt_iff_gt.2 h, compare_gt_iff_gt.2 (hgt h), Ordering.gt_then]

theorem compare_eq_compare {α β : Type} [LinearOrder α] [LinearOrder β] {a a' : α} {k k' : β}
    (hlt : k < k' → a < a') (hgt : k' < k → a' < a) (heq : k = k' → a = a') :
    compare a a' = compare k k' := by
  rw [compare_eq_then hlt hgt fun h => compare_eq_iff_eq.2 (heq h), Ordering.then_eq]

namespace Text

def utf8 (s : List Char) : List UInt8 := s.flatMap String.utf8EncodeChar

def bytes (s : String) : List UInt8 := s.toByteArray.data.toList

theorem bytes_ofList (s : List Char) : bytes (String.ofList s) = utf8 s := by
  rw [bytes, String.toByteArray_ofList]
  exact List.toList_data_toByteArray

theorem compare_append_left (front s s' : List UInt8) :
    compare (front ++ s) (front ++ s') = compare s s' := by
  induction front with
  | nil => rfl
  | cons b front ih => simp [ih]

theorem compare_utf8_cons (c : Char) (s s' : List Char) :
    compare (utf8 (c :: s)) (utf8 (c :: s')) = compare (utf8 s) (utf8 s') :=
  compare_append_left _ _ _

end Text

namespace Decimal

open Text

theorem compare_utf8_digit {a b : Nat} (ha : a < 10) (hb : b < 10) (s s' : List Char) :
    compare (utf8 (Nat.digitChar a :: s)) (utf8 (Nat.digitChar b :: s')) =
      (compare a b).then (compare (utf8 s) (utf8 s')) := by
  have hbyte : ∀ d < 10, String.utf8EncodeChar (Nat.digitChar d) = [UInt8.ofNat (48 + d)] := by
    decide
  have hbytes : ∀ d < 10, ∀ e < 10,
      compare (UInt8.ofNat (48 + d)) (UInt8.ofNat (48 + e)) = compare d e := by decide
  rw [utf8, utf8, List.flatMap_cons, List.flatMap_cons, hbyte a ha, hbyte b hb,
    List.singleton_append, List.singleton_append, List.compare_cons_cons, hbytes a ha b hb]
  rfl

theorem compare_div_mod (n m : Nat) :
    compare n m = (compare (n / 10) (m / 10)).then (compare (n % 10) (m % 10)) :=
  compare_eq_then (by omega) (by omega) fun h =>
    compare_eq_compare (by omega) (by omega) (by omega)

/-- Leading zeros make the order of the bytes that of the numbers, whatever follows them. -/
theorem compare_fixed {width n m : Nat} (hn : n < 10 ^ width) (hm : m < 10 ^ width)
    (s s' : List Char) :
    compare (utf8 (fixed width n ++ s)) (utf8 (fixed width m ++ s')) =
      (compare n m).then (compare (utf8 s) (utf8 s')) := by
  -- the last digit is the first character of what follows the other digits
  induction width generalizing n m s s' with
  | zero =>
    obtain rfl : n = 0 := Nat.lt_one_iff.1 hn
    obtain rfl : m = 0 := Nat.lt_one_iff.1 hm
    rfl
  | succ width ih =>
    rw [Nat.pow_succ, Nat.mul_comm] at hn hm
    rw [fixed, fixed, List.append_assoc, List.append_assoc, List.singleton_append,
      List.singleton_append, ih (Nat.div_lt_of_lt_mul hn) (Nat.div_lt_of_lt_mul hm),
      compare_utf8_digit (Nat.mod_lt n (by decide)) (Nat.mod_lt m (by decide)),
      compare_div_mod n m, Ordering.then_assoc]

end Decimal

end ResourceTable
