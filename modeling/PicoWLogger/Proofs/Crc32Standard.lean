import PicoWLogger.Crc32
import PicoWLogger.Lib.CrcPolynomial

/-! The bitwise register of `Crc32.cpp` computes the CRC-32 that is defined as a
polynomial remainder. -/

namespace PicoWLogger.Crc32
open CrcPolynomial Polynomial

/-- The modulus of CRC-32. -/
noncomputable def polynomial : (ZMod 2)[X] :=
  X ^ 32 + X ^ 26 + X ^ 23 + X ^ 22 + X ^ 16 + X ^ 12 + X ^ 11 + X ^ 10 + X ^ 8 + X ^ 7 + X ^ 5 + X ^ 4 + X ^ 2 + X + 1

/-- CRC-32 of a byte string: the bits of each byte least significant first, the
register preset to ones, the remainder reflected and complemented. -/
noncomputable def standard (data : List UInt8) : BitVec 32 :=
  check polynomial (BitVec.allOnes 32) (data.flatMap fun byte => bits byte.toBitVec)

/-- The constant of the source spells the low terms of the modulus in reflected order. -/
theorem generator_polynomial : generator 0xEDB88320#32 = polynomial := by
  rw [generator, reflected, polynomial]
  simp [Fin.sum_univ_succ]
  ring

theorem toBitVec_shift (crc : UInt32) : (shift crc).toBitVec = CrcPolynomial.shift 0xEDB88320#32 crc.toBitVec := by
  have low : crc &&& 1 ≠ 0 ↔ crc.toBitVec.getLsbD 0 := by
    have same := BitVec.and_one_eq_setWidth_ofBool_getLsbD (x := crc.toBitVec)
    rw [ne_eq, ← UInt32.toBitVec_inj, UInt32.toBitVec_and]
    change ¬ crc.toBitVec &&& 1#32 = 0#32 ↔ _
    rw [same]
    cases crc.toBitVec.getLsbD 0 <;> simp
  unfold shift CrcPolynomial.shift
  by_cases bit : crc &&& 1 ≠ 0
  · rw [if_pos bit, if_pos (low.mp bit)]
    rfl
  · rw [if_neg bit, if_neg fun set => bit (low.mpr set)]
    rfl

theorem toBitVec_shifts (count : Nat) (crc : UInt32) :
    (shifts count crc).toBitVec = (CrcPolynomial.shift 0xEDB88320#32)^[count] crc.toBitVec := by
  induction count generalizing crc with
  | zero => rfl
  | succ count ih => rw [shifts, ih, toBitVec_shift, Function.iterate_succ_apply]

theorem toBitVec_update (crc : UInt32) (byte : UInt8) :
    (update crc byte).toBitVec = feed 0xEDB88320#32 crc.toBitVec byte.toBitVec := toBitVec_shifts 8 _

theorem toBitVec_foldl (data : List UInt8) (crc : UInt32) :
    (data.foldl update crc).toBitVec = (data.map UInt8.toBitVec).foldl (feed 0xEDB88320#32) crc.toBitVec := by
  induction data generalizing crc with
  | nil => rfl
  | cons byte rest ih => rw [List.foldl_cons, ih, toBitVec_update, List.map_cons, List.foldl_cons]

/-- `Crc32::calculate` is CRC-32. -/
theorem toBitVec_calculate (data : List UInt8) : (calculate data).toBitVec = standard data := by
  have words := check_words 0xEDB88320#32 (by decide : 8 ≤ 32) (BitVec.allOnes 32) (data.map UInt8.toBitVec)
  rw [generator_polynomial, List.flatMap_map] at words
  rw [standard, words, calculate, UInt32.toBitVec_not, toBitVec_foldl]
  rfl

theorem calculate2_eq (front back : List UInt8) : calculate2 front back = calculate (front ++ back) := by
  rw [calculate, List.foldl_append, calculate2]

/-- The register of `Crc32.cpp` holds CRC-32, whether the bytes come from one buffer or from two in turn. -/
theorem calculate_is_crc32 :
    (∀ data, (calculate data).toBitVec = standard data) ∧ ∀ front back, calculate2 front back = calculate (front ++ back) :=
  ⟨toBitVec_calculate, calculate2_eq⟩

end PicoWLogger.Crc32
