import Mathlib.Algebra.Ring.Nat
import Mathlib.Data.Nat.Notation

/-!
# A clock that wraps

A counter of milliseconds has 32 bits. The difference of two readings is the time between them
as long as that is less than a turn of the counter, and its sign tells whether a deadline is over
as long as the deadline is less than half a turn away.
-/

namespace Clock

/-- A reading of the clock at the time `t`. -/
abbrev at_ (t : ℕ) : UInt32 := UInt32.ofNat t

theorem toNat_sub_at {t now : ℕ} (hle : t ≤ now) (hlt : now < t + 2 ^ 32) :
    (at_ now - at_ t).toNat = now - t := by
  rw [UInt32.toNat_sub, UInt32.toNat_ofNat', UInt32.toNat_ofNat']
  omega

theorem le_sub_at_iff {t now : ℕ} (hle : t ≤ now) (hlt : now < t + 2 ^ 32) (d : UInt32) :
    d ≤ at_ now - at_ t ↔ t + d.toNat ≤ now := by
  rw [UInt32.le_iff_toNat_le, toNat_sub_at hle hlt]
  omega

theorem sub_at_le_iff {t now : ℕ} (hle : t ≤ now) (hlt : now < t + 2 ^ 32) (d : UInt32) :
    at_ now - at_ t ≤ d ↔ now ≤ t + d.toNat := by
  rw [UInt32.le_iff_toNat_le, toNat_sub_at hle hlt]
  omega

/-- However long ago the first reading was, at least what the counter shows is over. -/
theorem add_le_of_le_sub {t now : ℕ} {d : UInt32} (hle : t ≤ now) (h : d ≤ at_ now - at_ t) :
    t + d.toNat ≤ now := by
  rw [UInt32.le_iff_toNat_le, UInt32.toNat_sub, UInt32.toNat_ofNat', UInt32.toNat_ofNat'] at h
  omega

end Clock
