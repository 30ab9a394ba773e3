import IntelCamera.Metadata.Buffer

/-!
# Metadata.Values — typed views of an entry's bytes

`camera_metadata_entry_t` is a union of pointers: `data.u8`, `data.i32`, `data.i64` and `data.r` read
the same bytes at their own width.  `i32At data i` is `data.i32[i]`, and `i32Bytes` the memory of an
`int32_t` array; likewise for the other types.
-/

namespace IntelCamera

open Lib

/-- The memory of an `int32_t` array. -/
def i32Bytes (l : List Int32) : List UInt8 := words 4 (l.map fun x => x.toUInt32.toNat)

/-- `data.i32[i]`. -/
def i32At (data : List UInt8) (i : ℕ) : Int32 :=
  (UInt32.ofNat (leNat (slice data (4 * i) 4))).toInt32

/-- The memory of an `int64_t` array. -/
def i64Bytes (l : List Int64) : List UInt8 := words 8 (l.map fun x => x.toUInt64.toNat)

/-- `data.i64[i]`. -/
def i64At (data : List UInt8) (i : ℕ) : Int64 :=
  (UInt64.ofNat (leNat (slice data (8 * i) 8))).toInt64

/-- `camera_metadata_rational_t`. -/
structure Rational where
  numerator : Int32
  denominator : Int32
deriving DecidableEq, Repr

/-- `data.r[i]`. -/
def rationalAt (data : List UInt8) (i : ℕ) : Rational := ⟨i32At data (2 * i), i32At data (2 * i + 1)⟩

@[simp] theorem length_i32Bytes (l : List Int32) : (i32Bytes l).length = 4 * l.length := by
  simp [i32Bytes]

@[simp] theorem length_i64Bytes (l : List Int64) : (i64Bytes l).length = 8 * l.length := by
  simp [i64Bytes]

/-- **An `int32_t` array is read back.** -/
theorem i32At_i32Bytes {l : List Int32} {i : ℕ} {x : Int32} (h : l[i]? = some x) :
    i32At (i32Bytes l) i = x := by
  have hw : (l.map fun x => x.toUInt32.toNat)[i]? = some x.toUInt32.toNat := by simp [h]
  unfold i32At i32Bytes
  rw [slice_words hw, leNat_leBytes (by have := x.toUInt32.toNat_lt; omega)]
  simp

/-- **An `int64_t` array is read back.** -/
theorem i64At_i64Bytes {l : List Int64} {i : ℕ} {x : Int64} (h : l[i]? = some x) :
    i64At (i64Bytes l) i = x := by
  have hw : (l.map fun x => x.toUInt64.toNat)[i]? = some x.toUInt64.toNat := by simp [h]
  unfold i64At i64Bytes
  rw [slice_words hw, leNat_leBytes (by have := x.toUInt64.toNat_lt; omega)]
  simp

end IntelCamera
