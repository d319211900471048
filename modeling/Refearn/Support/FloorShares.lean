import Mathlib.Algebra.BigOperators.Group.List.Basic
import Mathlib.Algebra.Order.BigOperators.Group.List
import Mathlib.Tactic.Linarith
/-!
# Floored shares of an amount

A share of `a` at rate `r` over a denominator `d` is `⌊a * r / d⌋`. Shares
floored one by one never add up to more than the share at the summed rate, and a
share of a share is at most the share at the inner rate.
-/

namespace Refearn.Support

/-- `⌊a * r / d⌋`. -/
def floorShare (d a r : Int) : Int := a * r / d

theorem floorShare_nonneg {d a r : Int} (hd : 0 < d) (ha : 0 ≤ a) (hr : 0 ≤ r) :
    0 ≤ floorShare d a r :=
  Int.ediv_nonneg (Int.mul_nonneg ha hr) hd.le

theorem floorShare_mono {d a r s : Int} (hd : 0 < d) (ha : 0 ≤ a) (hrs : r ≤ s) :
    floorShare d a r ≤ floorShare d a s :=
  Int.ediv_le_ediv hd (Int.mul_le_mul_of_nonneg_left hrs ha)

theorem floorShare_mono_left {d a b r : Int} (hd : 0 < d) (hr : 0 ≤ r) (hab : a ≤ b) :
    floorShare d a r ≤ floorShare d b r :=
  Int.ediv_le_ediv hd (Int.mul_le_mul_of_nonneg_right hab hr)

/-- At a rate of at most the whole, the share is at most the amount. -/
theorem floorShare_le_self {d a r : Int} (hd : 0 < d) (ha : 0 ≤ a) (hr : r ≤ d) :
    floorShare d a r ≤ a :=
  calc floorShare d a r ≤ floorShare d a d := floorShare_mono hd ha hr
    _ = a := Int.mul_ediv_cancel a hd.ne'

theorem floorShare_add_le {d a r s : Int} (hd : 0 < d) :
    floorShare d a r + floorShare d a s ≤ floorShare d a (r + s) := by
  have hr : floorShare d a r * d ≤ a * r := Int.ediv_mul_le _ hd.ne'
  have hs : floorShare d a s * d ≤ a * s := Int.ediv_mul_le _ hd.ne'
  refine (Int.le_ediv_iff_mul_le hd).mpr ?_
  calc (floorShare d a r + floorShare d a s) * d
      = floorShare d a r * d + floorShare d a s * d := Int.add_mul ..
    _ ≤ a * r + a * s := Int.add_le_add hr hs
    _ = a * (r + s) := (Int.mul_add ..).symm

/-- Flooring each share separately never exceeds flooring the total once. -/
theorem sum_floorShare_le {d a : Int} (hd : 0 < d) (rates : List Int) :
    (rates.map (floorShare d a)).sum ≤ floorShare d a rates.sum := by
  induction rates with
  | nil => simp [floorShare]
  | cons r rates ih =>
      rw [List.map_cons, List.sum_cons, List.sum_cons]
      exact (Int.add_le_add_left ih _).trans (floorShare_add_le hd)

end Refearn.Support
