import Mathlib

/-!
Fixed-width little-endian bytes of a natural number.
`bytesLE w n` keeps the low `8 * w` bits; reading them back is exact below
`256 ^ w`, and a fixed-width field can be read off the front of a longer
byte string without looking at what follows it.
-/

namespace GeoWorld.Library

def bytesLE : ℕ → ℕ → List UInt8
  | 0, _ => []
  | w + 1, n => UInt8.ofNat (n % 256) :: bytesLE w (n / 256)

def valueLE : List UInt8 → ℕ
  | [] => 0
  | byte :: rest => byte.toNat + 256 * valueLE rest

@[simp] theorem bytesLE_length (w n : ℕ) : (bytesLE w n).length = w := by
  induction w generalizing n with
  | zero => rfl
  | succ w ih => simp only [bytesLE, List.length_cons, ih]

theorem valueLE_bytesLE (w n : ℕ) (bound : n < 256 ^ w) : valueLE (bytesLE w n) = n := by
  induction w generalizing n with
  | zero =>
    have zero : n = 0 := by simpa using bound
    simp [bytesLE, valueLE, zero]
  | succ w ih =>
    have smaller : n / 256 < 256 ^ w := by
      rw [pow_succ] at bound
      exact Nat.div_lt_of_lt_mul (by linarith)
    have low : n % 256 % 256 = n % 256 := Nat.mod_mod n 256
    simp only [bytesLE, valueLE, ih _ smaller, UInt8.toNat_ofNat', Nat.reducePow, low]
    omega

theorem valueLE_lt (bytes : List UInt8) : valueLE bytes < 256 ^ bytes.length := by
  induction bytes with
  | nil => simp [valueLE]
  | cons byte rest ih =>
    have small : byte.toNat < 256 := byte.toNat_lt
    simp only [valueLE, List.length_cons, pow_succ]
    omega

theorem bytesLE_valueLE (bytes : List UInt8) :
    bytesLE bytes.length (valueLE bytes) = bytes := by
  induction bytes with
  | nil => rfl
  | cons byte rest ih =>
    have small : byte.toNat < 256 := byte.toNat_lt
    have low : (byte.toNat + 256 * valueLE rest) % 256 = byte.toNat := by omega
    have high : (byte.toNat + 256 * valueLE rest) / 256 = valueLE rest := by omega
    simp only [List.length_cons, valueLE, bytesLE, low, high, ih, UInt8.ofNat_toNat]

/-- The value of `width` bytes at an offset. -/
def readLE (width offset : ℕ) (bytes : List UInt8) : ℕ :=
  valueLE ((bytes.drop offset).take width)

/-- A field is read back where it was written, whatever stands around it. -/
theorem readLE_bytesLE (front back : List UInt8) {width value : ℕ} (bound : value < 256 ^ width) :
    readLE width front.length (front ++ (bytesLE width value ++ back)) = value := by
  have field : (bytesLE width value ++ back).take width = bytesLE width value := by
    rw [List.take_append_of_le_length (bytesLE_length width value).ge,
      List.take_of_length_le (bytesLE_length width value).le]
  rw [readLE, List.drop_left, field, valueLE_bytesLE width value bound]

/-- Only the low bytes of a value are written. -/
theorem bytesLE_mod (width value : ℕ) : bytesLE width (value % 256 ^ width) = bytesLE width value := by
  induction width generalizing value with
  | zero => rfl
  | succ width ih =>
    have low : value % (256 * 256 ^ width) % 256 = value % 256 :=
      Nat.mod_mod_of_dvd _ (dvd_mul_right _ _)
    have high : value % (256 * 256 ^ width) / 256 = value / 256 % 256 ^ width :=
      Nat.mod_mul_right_div_self _ _ _
    rw [pow_succ', bytesLE, bytesLE, low, high, ih]

/-- A field that is too narrow is read back as the low bytes of what was written. -/
theorem readLE_bytesLE_low (front back : List UInt8) (width value : ℕ) :
    readLE width front.length (front ++ (bytesLE width value ++ back)) = value % 256 ^ width := by
  rw [← bytesLE_mod]
  exact readLE_bytesLE front back (Nat.mod_lt _ (by positivity))

end GeoWorld.Library
