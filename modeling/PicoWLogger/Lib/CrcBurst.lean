import PicoWLogger.Lib.CrcPolynomial

/-! Burst errors under a cyclic redundancy check. A string that ends in its own check value leaves
the same residue whatever it says, and a modulus with a constant term divides no difference
that is confined to as many bits as the register has. -/

namespace CrcPolynomial
open Polynomial

variable {width narrow : Nat} {taps : BitVec width}

theorem bits_injective : Function.Injective (bits : BitVec width → List Bool) := by
  intro left right same
  have bit := List.ofFn_injective same
  apply BitVec.eq_of_getLsbD_eq
  intro i inside
  exact congrFun bit ⟨i, inside⟩

theorem bits_eq_map (word : BitVec width) : bits word = (List.range width).map word.getLsbD := by
  apply List.ext_getElem
  · simp [bits]
  · intro i first last
    rw [List.getElem_map, List.getElem_range]
    exact List.getElem_ofFn first

theorem length_flatMap_bits (words : List (BitVec narrow)) : (words.flatMap bits).length = words.length * narrow := by
  induction words with
  | nil => simp
  | cons word rest ih =>
    rw [List.flatMap_cons, List.length_append, length_bits, ih, List.length_cons, Nat.succ_mul, Nat.add_comm]

theorem flatMap_bits_injective {words others : List (BitVec narrow)} (length : words.length = others.length)
    (same : words.flatMap bits = others.flatMap bits) : words = others := by
  induction words generalizing others with
  | nil => exact (List.eq_nil_of_length_eq_zero length.symm).symm
  | cons word rest ih =>
    cases others with
    | nil => cases length
    | cons other others =>
      rw [List.flatMap_cons, List.flatMap_cons] at same
      obtain ⟨first, later⟩ := List.append_inj same (by rw [length_bits, length_bits])
      rw [bits_injective first, ih (Nat.succ.inj length) later]

theorem degree_ofBits_lt (message : List Bool) : (ofBits message).degree < message.length := by
  induction message with
  | nil => simp [ofBits]
  | cons bit rest ih =>
    have below : (ofBits rest).degree < ((rest.length + 1 : Nat) : WithBot Nat) :=
      ih.trans (Nat.cast_lt.mpr (Nat.lt_succ_self _))
    have leading : (if bit then (X : (ZMod 2)[X]) ^ rest.length else 0).degree < ((rest.length + 1 : Nat) : WithBot Nat) := by
      cases bit with
      | false => simp
      | true =>
        rw [if_pos rfl, degree_X_pow]
        exact Nat.cast_lt.mpr (Nat.lt_succ_self _)
    rw [ofBits, List.length_cons]
    exact (degree_add_le _ _).trans_lt (max_lt leading below)

theorem ofBits_injective {message other : List Bool} (length : message.length = other.length)
    (same : ofBits message = ofBits other) : message = other := by
  induction message generalizing other with
  | nil => exact (List.eq_nil_of_length_eq_zero length.symm).symm
  | cons bit rest ih =>
    cases other with
    | nil => cases length
    | cons otherBit others =>
      have sameLength := Nat.succ.inj length
      -- The rest of a message does not reach the coefficient of its first bit.
      have top (message : List Bool) : (ofBits message).coeff message.length = 0 :=
        coeff_eq_zero_of_degree_lt (degree_ofBits_lt message)
      have leading := congrArg (fun p => p.coeff rest.length) same
      simp only [ofBits, coeff_add, top] at leading
      rw [sameLength, top] at leading
      have first : bit = otherBit := by
        cases bit <;> cases otherBit <;> simp at leading <;> rfl
      subst first
      simp only [ofBits, sameLength, add_right_inj] at same
      rw [ih sameLength same]

/-- A modulus with a constant term shares no factor with the powers of `X`. -/
theorem isCoprime_generator (tapped : taps.getLsbD (width - 1) = true) (count : Nat) :
    IsCoprime (generator taps) (X ^ count) := by
  have some' : 0 < width := by
    rcases Nat.eq_zero_or_pos width with zero | positive
    · rw [BitVec.getLsbD_of_ge _ _ (by omega)] at tapped
      cases tapped
    · exact positive
  have constant : (generator taps).coeff 0 = 1 := by
    have place : width - 1 - 0 = width - 1 := rfl
    have low : ¬ 0 = width := by omega
    rw [generator, coeff_add, coeff_X_pow, if_neg low, coeff_reflected, place, tapped, if_pos ⟨some', rfl⟩, zero_add]
  have prime : Irreducible (X : (ZMod 2)[X]) := irreducible_X
  refine ((prime.coprime_iff_not_dvd).mpr ?_).symm.pow_right
  rw [X_dvd_iff, constant]
  exact one_ne_zero

/-- A register is known from its residue. -/
theorem residue_injective : Function.Injective (residue taps) := by
  intro left right same
  have reduced (register : BitVec width) : reflected register %ₘ generator taps = reflected register := by
    apply (modByMonic_eq_self_iff (generator_monic taps)).mpr
    rw [degree_generator]
    exact degree_reflected_lt register
  have equal := modByMonic_eq_of_dvd_sub (generator_monic taps) (AdjoinRoot.mk_eq_mk.mp same)
  rw [reduced, reduced] at equal
  rw [← reflect_reflected left, equal, reflect_reflected]

/-- Two strings that differ in a stretch no longer than the register leave different registers. -/
theorem foldl_burst (fits : narrow ≤ width) (tapped : taps.getLsbD (width - 1) = true) (init : BitVec width)
    (front back : List (BitVec narrow)) {middle other : List (BitVec narrow)} (length : middle.length = other.length)
    (short : middle.length * narrow ≤ width)
    (same : (front ++ middle ++ back).foldl (feed taps) init = (front ++ other ++ back).foldl (feed taps) init) :
    middle = other := by
  have residues := congrArg (residue taps) same
  rw [residue_foldl taps fits, residue_foldl taps fits] at residues
  have divides := AdjoinRoot.mk_eq_mk.mp residues
  have tails : ((front ++ middle ++ back).flatMap bits).length = ((front ++ other ++ back).flatMap bits).length := by
    simp only [length_flatMap_bits, List.length_append, length]
  have stretch : (middle.flatMap bits).length = (other.flatMap bits).length := by
    rw [length_flatMap_bits, length_flatMap_bits, length]
  have difference : ofBits ((front ++ middle ++ back).flatMap bits) * X ^ width +
        reflected init * X ^ ((front ++ middle ++ back).flatMap bits).length -
        (ofBits ((front ++ other ++ back).flatMap bits) * X ^ width +
          reflected init * X ^ ((front ++ other ++ back).flatMap bits).length) =
      (ofBits (middle.flatMap bits) - ofBits (other.flatMap bits)) * X ^ ((back.flatMap bits).length + width) := by
    rw [tails]
    simp only [List.flatMap_append, ofBits_append, stretch, pow_add]
    ring
  rw [difference] at divides
  have burst := (isCoprime_generator tapped _).dvd_of_dvd_mul_right divides
  have small : (ofBits (middle.flatMap bits) - ofBits (other.flatMap bits)).degree < (generator taps).degree := by
    rw [degree_generator]
    have bound : ((middle.flatMap bits).length : WithBot Nat) ≤ width := by
      rw [length_flatMap_bits]
      exact Nat.cast_le.mpr short
    refine (degree_sub_le _ _).trans_lt (max_lt ?_ ?_)
    · exact (degree_ofBits_lt _).trans_le bound
    · rw [stretch] at bound
      exact (degree_ofBits_lt _).trans_le bound
  have zero := (modByMonic_eq_self_iff (generator_monic taps)).mpr small
  rw [(modByMonic_eq_zero_iff_dvd (generator_monic taps)).mpr burst] at zero
  exact flatMap_bits_injective length (ofBits_injective stretch (sub_eq_zero.mp zero.symm))

/-- The string ends in the check value of what is in front. -/
def Sealed (taps init : BitVec width) (words : List (BitVec narrow)) : Prop :=
  ∃ front check, words = front ++ check ∧ check.flatMap bits = bits (~~~ front.foldl (feed taps) init)

/-- All sealed strings leave the residue of a register of ones times `X ^ width`. -/
theorem Sealed.residue_eq (fits : narrow ≤ width) {init : BitVec width} {words : List (BitVec narrow)}
    (sealed' : Sealed taps init words) :
    residue taps (words.foldl (feed taps) init) = AdjoinRoot.mk (generator taps) (reflected (BitVec.allOnes width) * X ^ width) := by
  obtain ⟨front, check, rfl, closes⟩ := sealed'
  obtain ⟨register, isRegister⟩ : ∃ register, front.foldl (feed taps) init = register := ⟨_, rfl⟩
  rw [isRegister] at closes
  have sum : reflected (~~~ register) + reflected register = reflected (BitVec.allOnes width) := by
    rw [← reflected_xor]
    congr 1
    ext i inside
    simp
  rw [List.foldl_append, isRegister, residue_foldl taps fits, closes, ofBits_bits, length_bits, ← add_mul, sum]

/-- Two sealed strings that differ in a stretch no longer than the register are equal. -/
theorem Sealed.burst (fits : narrow ≤ width) (tapped : taps.getLsbD (width - 1) = true) {init : BitVec width}
    {front back middle other : List (BitVec narrow)} (left : Sealed taps init (front ++ middle ++ back))
    (right : Sealed taps init (front ++ other ++ back)) (length : middle.length = other.length)
    (short : middle.length * narrow ≤ width) : middle = other := by
  have registers := (left.residue_eq fits).trans (right.residue_eq fits).symm
  exact foldl_burst fits tapped init front back length short (residue_injective registers)

end CrcPolynomial
