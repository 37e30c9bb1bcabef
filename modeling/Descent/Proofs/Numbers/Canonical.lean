import Mathlib
import Descent.Scalar

namespace Descent.Binary64

open Float.Model

section

variable (x y : Float)

theorem toModel_add : (x + y).toModel = Float.Model.pack
    (UnpackedFloat.add Format.binary64 x.toModel.unpack y.toModel.unpack) := rfl

theorem toModel_mul : (x * y).toModel = Float.Model.pack
    (UnpackedFloat.mul Format.binary64 x.toModel.unpack y.toModel.unpack) := rfl

variable {x y}

theorem lt_iff : x < y ↔ x.toModel.unpack.lt y.toModel.unpack = true := ⟨of_decide_eq_true, decide_eq_true⟩

theorem le_iff : x ≤ y ↔ x.toModel.unpack.le y.toModel.unpack = true := ⟨of_decide_eq_true, decide_eq_true⟩

theorem same_eq : Scalar.same x y =
    (x.toModel.unpack.le y.toModel.unpack && y.toModel.unpack.le x.toModel.unpack) := by
  rw [Bool.eq_iff_iff, Scalar.same, Bool.and_eq_true, Bool.and_eq_true, decide_eq_true_iff, decide_eq_true_iff,
    le_iff, le_iff]

end

structure Canonical (m : Nat) (e : Int) : Prop where
  narrow : m < 2 ^ 53
  least : -1074 ≤ e
  full : -1074 < e → 2 ^ 52 ≤ m

namespace Canonical

variable {m m' : Nat} {e e' : Int}

theorem log2_le (canonical : Canonical m e) : m.log2 ≤ 52 := by
  rcases m.eq_zero_or_pos with rfl | positive
  · decide
  · exact Nat.le_of_lt_succ ((Nat.log2_lt positive.ne').2 canonical.narrow)

theorem log2_eq (canonical : Canonical m e) (normal : -1074 < e) : m.log2 = 52 :=
  (Nat.log2_eq_iff (by have := canonical.full normal; omega)).2 ⟨canonical.full normal, canonical.narrow⟩

end Canonical

theorem toNat_append (fraction : BitVec 52) : (1#1 ++ fraction).toNat = 2 ^ 52 + fraction.toNat := by
  have joined := Nat.or_two_pow_eq_add_of_lt fraction.isLt
  rw [Nat.add_comm] at joined
  rw [BitVec.toNat_append, Nat.shiftLeft_eq, Nat.or_comm]
  simpa using joined

theorem canonical_of_unpack {b : BitVec Format.binary64.numBits} {s : UnpackedFloat.Sign} {m : Nat} {e : Int}
    {positive : 0 < m} (taken : UnpackedFloat.unpack Format.binary64 b = .finite s m e positive) :
    Canonical m e ∧ e ≤ 971 := by
  have inside : (UnpackedFloat.unpackExponent b).toNat < 2 ^ 11 := BitVec.isLt _
  have short : (UnpackedFloat.unpackMantissa b).toNat < 2 ^ 52 := BitVec.isLt _
  have bias : (Format.binary64.exponentBias : Int) = 1023 := rfl
  have width : (Format.binary64.mantissaBitsWithoutImplicit : Int) = 52 := rfl
  rw [UnpackedFloat.unpack] at taken
  simp only [bias, width] at taken
  split at taken
  · split at taken <;> cases taken
  · rename_i bounded
    split at taken
    · rename_i zeros
      split at taken
      · cases taken
      · injection taken with _ mantissa exponent
        rw [zeros] at exponent
        have none : (0#11).toNat = 0 := rfl
        exact ⟨⟨by omega, by omega, by omega⟩, by omega⟩
    · rename_i nonzero
      injection taken with _ mantissa exponent
      have other : (UnpackedFloat.unpackExponent b).toNat ≠ 2 ^ 11 - 1 := fun same =>
        bounded (BitVec.eq_of_toNat_eq same)
      have some : (UnpackedFloat.unpackExponent b).toNat ≠ 0 := fun same =>
        nonzero (BitVec.eq_of_toNat_eq same)
      rw [toNat_append] at mantissa
      exact ⟨⟨by omega, by omega, by omega⟩, by omega⟩

theorem unpack_pack {s : UnpackedFloat.Sign} {m : Nat} {e : Int} {positive : 0 < m} (canonical : Canonical m e)
    (room : e ≤ 971) : (Float.Model.pack (.finite s m e positive)).unpack = .finite s m e positive := by
  obtain ⟨narrow, least, full⟩ := canonical
  have bias : (Format.binary64.exponentBias : Int) = 1023 := rfl
  have width : (Format.binary64.mantissaBitsWithoutImplicit : Int) = 52 := rfl
  obtain ⟨biased, moved⟩ : ∃ biased : Nat, e + 1023 + 52 = biased := ⟨_, (Int.toNat_of_nonneg (by omega)).symm⟩
  have fits : ¬2 ^ Format.binary64.exponentBits ≤ biased + 1 := by
    have bits : 2 ^ Format.binary64.exponentBits = 2048 := rfl
    omega
  -- a full significand is packed without its first bit, a shorter one with the exponent zero
  by_cases whole : 2 ^ 52 ≤ m
  · have inside : (BitVec.ofNat 11 biased).toNat = biased := by
      rw [BitVec.toNat_ofNat, Nat.mod_eq_of_lt (by omega)]
    have bounded : BitVec.ofNat 11 biased ≠ -1#11 := by
      intro same
      have ones : biased = 2047 := by rw [← inside, same]; rfl
      omega
    have nonzero : BitVec.ofNat 11 biased ≠ 0#11 := by
      intro same
      have zeros : biased = 0 := by rw [← inside, same]; rfl
      omega
    have long : m.log2 + 1 = Format.binary64.mantissaBits :=
      congrArg (· + 1) ((Nat.log2_eq_iff positive.ne').2 ⟨whole, narrow⟩)
    have packed : UnpackedFloat.pack Format.binary64 (.finite s m e positive) =
        UnpackedFloat.packComponents Format.binary64 s (BitVec.ofNat 11 biased) (BitVec.ofNat 52 m) := by
      simp only [UnpackedFloat.pack, bias, width, moved, Int.toNat_natCast]
      rw [if_neg fits, if_pos long]
    have exponent : (biased : Int) - (1023 + 52) = e := by omega
    have mantissa : (1#1 ++ BitVec.ofNat 52 m).toNat = m := by
      rw [toNat_append, BitVec.toNat_ofNat]
      omega
    simp only [Float.Model.unpack, Float.Model.pack, packed, UnpackedFloat.unpack,
      UnpackedFloat.unpackExponent_packComponents, UnpackedFloat.unpackMantissa_packComponents,
      UnpackedFloat.unpackSign_packComponents, UnpackedFloat.Sign.ofBitVec_toBitVec, if_neg bounded, if_neg nonzero,
      inside, bias, width, exponent, mantissa]
  · obtain rfl : e = -1074 := by omega
    have short : m.log2 + 1 ≠ Format.binary64.mantissaBits := by
      have bits : Format.binary64.mantissaBits = 53 := rfl
      have := (Nat.log2_lt positive.ne').2 (not_le.1 whole)
      omega
    have mantissa : (BitVec.ofNat 52 m).toNat = m := by
      rw [BitVec.toNat_ofNat]
      omega
    have nonzero : BitVec.ofNat 52 m ≠ 0#52 := by
      intro same
      have zero : m = 0 := by rw [← mantissa, same]; rfl
      omega
    have packed : UnpackedFloat.pack Format.binary64 (.finite s m (-1074) positive) =
        UnpackedFloat.packComponents Format.binary64 s 0#11 (BitVec.ofNat 52 m) := by
      simp only [UnpackedFloat.pack, bias, width, moved, Int.toNat_natCast]
      rw [if_neg fits, if_neg short]
    have bounded : 0#11 ≠ -1#11 := by decide
    simp only [Float.Model.unpack, Float.Model.pack, packed, UnpackedFloat.unpack,
      UnpackedFloat.unpackExponent_packComponents, UnpackedFloat.unpackMantissa_packComponents,
      UnpackedFloat.unpackSign_packComponents, UnpackedFloat.Sign.ofBitVec_toBitVec, if_neg bounded,
      dif_neg nonzero, bias, width, mantissa]
    rfl

end Descent.Binary64
