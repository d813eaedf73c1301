import Mathlib

/-! Cyclic redundancy checks as polynomial remainders over the field of two elements.
A shift register of any width, fed least significant bit first, holds the remainder of
the message so far; the quotient ring by the modulus turns each round into a product. -/

namespace CrcPolynomial
open Polynomial

variable {width : Nat}

/-- A register read in reflected order: its lowest bit is the highest coefficient. -/
noncomputable def reflected (register : BitVec width) : (ZMod 2)[X] :=
  ∑ i : Fin width, if register.getLsbD i then X ^ (width - 1 - i) else 0

/-- The register whose reflected reading has these coefficients. -/
noncomputable def reflect (width : Nat) (p : (ZMod 2)[X]) : BitVec width :=
  (BitVec.ofBoolListLE (List.ofFn fun i : Fin width => decide (p.coeff (width - 1 - i) = 1))).cast List.length_ofFn

/-- A message as a polynomial, its first bit the highest coefficient. -/
noncomputable def ofBits : List Bool → (ZMod 2)[X]
  | [] => 0
  | bit :: rest => (if bit then X ^ rest.length else 0) + ofBits rest

def bits (word : BitVec width) : List Bool := List.ofFn fun i : Fin width => word.getLsbD i

/-- The remainder of the message times `X ^ width`, with the register preset to `init`. -/
noncomputable def remainder (modulus : (ZMod 2)[X]) (init : BitVec width) (message : List Bool) : (ZMod 2)[X] :=
  (ofBits message * X ^ width + reflected init * X ^ message.length) %ₘ modulus

/-- The check value: the remainder, reflected and complemented. -/
noncomputable def check (modulus : (ZMod 2)[X]) (init : BitVec width) (message : List Bool) : BitVec width :=
  ~~~ reflect width (remainder modulus init message)

@[simp] theorem length_bits (word : BitVec width) : (bits word).length = width := by simp [bits]

/-! Coefficients of a reflected register. -/

theorem coeff_reflected (register : BitVec width) (k : Nat) :
    (reflected register).coeff k = if k < width ∧ register.getLsbD (width - 1 - k) then 1 else 0 := by
  have term (i : Fin width) : (if register.getLsbD i then (X : (ZMod 2)[X]) ^ (width - 1 - i) else 0).coeff k =
      if (i : Nat) = width - 1 - k ∧ k < width ∧ register.getLsbD i then 1 else 0 := by
    have inside := i.isLt
    cases bit : register.getLsbD i with
    | false => simp
    | true =>
      have same : k = width - 1 - i ↔ (i : Nat) = width - 1 - k ∧ k < width := by omega
      simp [coeff_X_pow, same]
  rw [reflected, finsetSum_coeff, Finset.sum_congr rfl fun i _ => term i]
  by_cases inside : k < width
  · have place : width - 1 - k < width := by omega
    rw [Finset.sum_eq_single (⟨width - 1 - k, place⟩ : Fin width)]
    · simp
    · intro i _ other
      rw [if_neg]
      rintro ⟨same, -⟩
      exact other (Fin.ext same)
    · intro missing
      exact absurd (Finset.mem_univ _) missing
  · simp [inside]

theorem degree_reflected_lt (register : BitVec width) : (reflected register).degree < width := by
  refine (degree_lt_iff_coeff_zero _ _).mpr ?_
  intro k above
  rw [coeff_reflected, if_neg (by omega)]

theorem reflected_xor (left right : BitVec width) :
    reflected (left ^^^ right) = reflected left + reflected right := by
  ext k
  have two : (1 : ZMod 2) + 1 = 0 := by decide
  simp only [coeff_add, coeff_reflected, BitVec.getLsbD_xor]
  by_cases inside : k < width
  · cases left.getLsbD (width - 1 - k) <;> cases right.getLsbD (width - 1 - k) <;> simp [inside, two]
  · simp [inside]

/-- A register is recovered from its reflected reading. -/
theorem reflect_reflected (register : BitVec width) : reflect width (reflected register) = register := by
  apply BitVec.eq_of_getLsbD_eq
  intro i inside
  have back : width - 1 - (width - 1 - i) = i := by omega
  have below : width - 1 - i < width := by omega
  rw [reflect, BitVec.getLsbD_cast, BitVec.getLsbD_ofBoolListLE]
  simp [inside, coeff_reflected, back, below]

/-- Shifting right multiplies by `X`, and the bit that leaves is the new highest term. -/
theorem X_mul_reflected (register : BitVec width) :
    X * reflected register = reflected (register >>> 1) + if register.getLsbD 0 then X ^ width else 0 := by
  ext k
  rw [coeff_add, coeff_reflected, BitVec.getLsbD_ushiftRight]
  cases k with
  | zero =>
    have outside : register.getLsbD (1 + (width - 1 - 0)) = false := BitVec.getLsbD_of_ge _ _ (by omega)
    have gone (empty : 0 = width) : register.getLsbD 0 = false := BitVec.getLsbD_of_ge _ _ (by omega)
    rw [coeff_X_mul_zero, outside]
    by_cases empty : 0 = width
    · simp [gone empty]
    · cases register.getLsbD 0 <;> simp [coeff_X_pow, empty]
  | succ k =>
    rw [coeff_X_mul, coeff_reflected]
    rcases Nat.lt_trichotomy (k + 1) width with below | last | above
    · have place : 1 + (width - 1 - (k + 1)) = width - 1 - k := by omega
      have differ : ¬ k + 1 = width := by omega
      have inside : k < width := by omega
      cases register.getLsbD 0 <;> simp [place, below, inside, coeff_X_pow, differ]
    · have place : width - 1 - k = 0 := by omega
      have inside : k < width := by omega
      cases bit : register.getLsbD 0 <;> simp [place, last, inside, coeff_X_pow, bit]
    · have differ : ¬ k + 1 = width := by omega
      have outside : ¬ k < width := by omega
      have beyond : ¬ k + 1 < width := by omega
      cases register.getLsbD 0 <;> simp [outside, beyond, coeff_X_pow, differ]

/-! Messages. -/

theorem ofBits_append (front back : List Bool) :
    ofBits (front ++ back) = ofBits front * X ^ back.length + ofBits back := by
  induction front with
  | nil => simp [ofBits]
  | cons bit rest ih =>
    rw [List.cons_append, ofBits, ofBits, ih, List.length_append]
    cases bit with
    | false => simp
    | true =>
      simp only [if_true]
      ring

theorem ofBits_ofFn {count : Nat} (bit : Fin count → Bool) :
    ofBits (List.ofFn bit) = ∑ i : Fin count, if bit i then (X : (ZMod 2)[X]) ^ (count - 1 - i) else 0 := by
  induction count with
  | zero => simp [ofBits]
  | succ count ih =>
    rw [List.ofFn_succ, ofBits, ih, Fin.sum_univ_succ, List.length_ofFn]
    congr 1
    apply Finset.sum_congr rfl
    intro i _
    have shifted : count + 1 - 1 - (i.succ : Nat) = count - 1 - i := by
      rw [Fin.val_succ]
      omega
    rw [shifted]

/-- The bits of a word spell its reflected reading. -/
theorem ofBits_bits (word : BitVec width) : ofBits (bits word) = reflected word := ofBits_ofFn _

/-- A narrow word put in the low end of a register stands at the register's highest coefficients. -/
theorem reflected_setWidth {narrow : Nat} (fits : narrow ≤ width) (word : BitVec narrow) :
    X ^ narrow * reflected (word.setWidth width) = X ^ width * reflected word := by
  ext k
  rw [coeff_X_pow_mul', coeff_X_pow_mul', coeff_reflected, coeff_reflected, BitVec.getLsbD_setWidth]
  by_cases high : width ≤ k
  · have above : narrow ≤ k := by omega
    rw [if_pos above, if_pos high]
    by_cases reach : k - width < narrow
    · have inside : k - narrow < width := by omega
      have low : width - 1 - (k - narrow) < width := by omega
      have place : width - 1 - (k - narrow) = narrow - 1 - (k - width) := by omega
      simp [inside, reach, place] at low ⊢
      simp [low]
    · have outside : ¬ k - narrow < width := by omega
      simp [outside, reach]
  · rw [if_neg high]
    by_cases above : narrow ≤ k
    · have outside : word.getLsbD (width - 1 - (k - narrow)) = false := BitVec.getLsbD_of_ge _ _ (by omega)
      simp [outside]
    · rw [if_neg above]

/-! The register modulo its generator. -/

/-- One round of a reflected register: the lowest bit leaves and folds `taps` in. -/
def shift (taps register : BitVec width) : BitVec width :=
  if register.getLsbD 0 then (register >>> 1) ^^^ taps else register >>> 1

/-- The modulus of a register: its taps below a leading coefficient. -/
noncomputable def generator (taps : BitVec width) : (ZMod 2)[X] := X ^ width + reflected taps

theorem generator_monic (taps : BitVec width) : (generator taps).Monic :=
  monic_X_pow_add (degree_reflected_lt taps)

theorem degree_generator (taps : BitVec width) : (generator taps).degree = width := by
  have low : (reflected taps).degree < ((X : (ZMod 2)[X]) ^ width).degree := by
    rw [degree_X_pow]
    exact degree_reflected_lt taps
  rw [generator, degree_add_eq_left_of_degree_lt low, degree_X_pow]

section Residue
variable (taps : BitVec width)

/-- The residue class of what a register holds. -/
noncomputable def residue (register : BitVec width) : AdjoinRoot (generator taps) :=
  AdjoinRoot.mk (generator taps) (reflected register)

theorem residue_shift (register : BitVec width) :
    residue taps (shift taps register) = AdjoinRoot.root (generator taps) * residue taps register := by
  have moved := congrArg (AdjoinRoot.mk (generator taps)) (X_mul_reflected register)
  rw [map_mul, AdjoinRoot.mk_X] at moved
  rw [residue, residue, moved]
  cases bit : register.getLsbD 0 with
  | false => simp [shift, bit]
  | true =>
    -- The term that leaves differs from the taps by the modulus itself.
    have folded : reflected (shift taps register) - (reflected (register >>> 1) + X ^ width) =
        generator taps := by
      rw [shift, if_pos bit, reflected_xor, generator, CharTwo.sub_eq_add]
      ring_nf
      rw [mul_two, CharTwo.add_self_eq_zero, zero_add, add_comm]
    apply AdjoinRoot.mk_eq_mk.mpr
    rw [if_pos rfl, folded]

theorem residue_shifts (count : Nat) (register : BitVec width) :
    residue taps ((shift taps)^[count] register) =
      AdjoinRoot.root (generator taps) ^ count * residue taps register := by
  induction count generalizing register with
  | zero => simp
  | succ count ih => rw [Function.iterate_succ_apply, ih, residue_shift, pow_succ, mul_assoc]

/-- Eight rounds for a byte, or any number for a word as wide: the register takes the
word in at its low end and turns it into the highest terms of the message. -/
def feed {narrow : Nat} (register : BitVec width) (word : BitVec narrow) : BitVec width :=
  (shift taps)^[narrow] (register ^^^ word.setWidth width)

theorem residue_feed {narrow : Nat} (fits : narrow ≤ width) (register : BitVec width) (word : BitVec narrow) :
    residue taps (feed taps register word) =
      AdjoinRoot.mk (generator taps) (ofBits (bits word) * X ^ width + reflected register * X ^ narrow) := by
  have high := reflected_setWidth fits word
  have sum : X ^ narrow * reflected (register ^^^ word.setWidth width) =
      ofBits (bits word) * X ^ width + reflected register * X ^ narrow := by
    rw [reflected_xor, mul_add, high, ofBits_bits]
    ring
  rw [feed, residue_shifts, ← sum, map_mul, map_pow, AdjoinRoot.mk_X, residue]

/-- A register fed a string of words holds the residue of the whole message. -/
theorem residue_foldl {narrow : Nat} (fits : narrow ≤ width) (init : BitVec width) (words : List (BitVec narrow)) :
    residue taps (words.foldl (feed taps) init) = AdjoinRoot.mk (generator taps)
      (ofBits (words.flatMap bits) * X ^ width + reflected init * X ^ (words.flatMap bits).length) := by
  induction words using List.reverseRecOn with
  | nil => simp [residue, ofBits]
  | append_singleton front word ih =>
    have taken := residue_feed taps fits (front.foldl (feed taps) init) word
    rw [residue] at ih
    rw [List.foldl_append, List.foldl_cons, List.foldl_nil, taken, map_add, map_mul _ (reflected _), ih, ← map_mul,
      ← map_add, List.flatMap_append, List.flatMap_singleton, ofBits_append, List.length_append, length_bits]
    congr 1
    ring

variable {taps} in
/-- The register is the remainder: both are the reduced representative of one class. -/
theorem check_eq {init register : BitVec width} {message : List Bool}
    (same : residue taps register = AdjoinRoot.mk (generator taps)
      (ofBits message * X ^ width + reflected init * X ^ message.length)) :
    check (generator taps) init message = ~~~ register := by
  have reduced : reflected register %ₘ generator taps = reflected register := by
    apply (modByMonic_eq_self_iff (generator_monic taps)).mpr
    rw [degree_generator]
    exact degree_reflected_lt register
  have equal : remainder (generator taps) init message = reflected register := by
    rw [remainder, ← reduced]
    exact (modByMonic_eq_of_dvd_sub (generator_monic taps) (AdjoinRoot.mk_eq_mk.mp same)).symm
  rw [check, equal, reflect_reflected]

/-- What a register preset to `init` holds after a string of words, complemented, is
the check value of their bits. -/
theorem check_words {narrow : Nat} (fits : narrow ≤ width) (init : BitVec width) (words : List (BitVec narrow)) :
    check (generator taps) init (words.flatMap bits) = ~~~ words.foldl (feed taps) init :=
  check_eq (residue_foldl taps fits init words)

end Residue

end CrcPolynomial
