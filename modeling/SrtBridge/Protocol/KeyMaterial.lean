import SrtBridge.Protocol.Config

/-! The key length in a key material message: `Klen/4`, a 32-bit field that holds the
length in bytes divided by four. Reading it back multiplies the field before it is looked
at, so a field of `2 ^ 30` or more either panics or loses its upper bits, by how the
program was built. -/

namespace SrtBridge

/-- `a * b` of two `u32`. `none` is the panic of a build with overflow checks; without
them the product wraps. -/
def mulU32 (checks : Bool) (a b : UInt32) : Option UInt32 :=
  if checks ∧ 2 ^ 32 ≤ a.toNat * b.toNat then none else some (a * b)

theorem mulU32_of_lt {checks : Bool} {a b : UInt32} (h : a.toNat * b.toNat < 2 ^ 32) :
    mulU32 checks a b = some (a * b) :=
  if_neg fun hc => absurd hc.2 (Nat.not_le.mpr h)

theorem mulU32_unchecked (a b : UInt32) : mulU32 false a b = some (a * b) :=
  if_neg fun hc => Bool.false_ne_true hc.1

namespace KeySize

def fromBytes : ℕ → Option KeySize
  | 16 => some .aes128
  | 24 => some .aes192
  | 32 => some .aes256
  | _ => none

/-- Encode key size into the KM Klen/4 field. -/
def toKmField (self : KeySize) : UInt32 := UInt32.ofNat self.bytes / 4

/-- Decode from the KM Klen/4 field, `none` being a panic. -/
def fromKmField (checks : Bool) (field : UInt32) : Option (Option KeySize) :=
  (mulU32 checks field 4).map fun len => fromBytes len.toNat

theorem fromBytes_eq_some_iff {len : ℕ} {k : KeySize} :
    fromBytes len = some k ↔ len = k.bytes := by
  constructor
  · intro h
    unfold fromBytes at h
    split at h <;> cases h <;> rfl
  · rintro rfl
    cases k <;> rfl

theorem toKmField_mul (k : KeySize) : k.toKmField.toNat * 4 = k.bytes := by
  cases k <;> rfl

theorem eq_toKmField_iff {f : UInt32} {k : KeySize} :
    f = k.toKmField ↔ f.toNat * 4 = k.bytes := by
  have hk := toKmField_mul k
  rw [← UInt32.toNat_inj]
  omega

/-- The field a length was encoded into decodes to that length, in every build. -/
theorem fromKmField_toKmField (checks : Bool) (k : KeySize) :
    fromKmField checks k.toKmField = some (some k) := by
  cases checks <;> cases k <;> rfl

/-- Without overflow checks a field decodes by its lower thirty bits alone. -/
theorem fromKmField_unchecked_iff {f : UInt32} {k : KeySize} :
    fromKmField false f = some (some k) ↔ f.toNat % 2 ^ 30 = k.toKmField.toNat := by
  have hk := toKmField_mul k
  have hlen : (f * 4).toNat = f.toNat * 4 % 2 ^ 32 := UInt32.toNat_mul f 4
  rw [fromKmField, mulU32_unchecked, Option.map_some, Option.some_inj, fromBytes_eq_some_iff, hlen]
  omega

/-- With overflow checks a field is decoded when the product fits. -/
theorem fromKmField_checked_eq_none_iff {f : UInt32} :
    fromKmField true f = none ↔ 2 ^ 30 ≤ f.toNat := by
  have h4 : (4 : UInt32).toNat = 4 := rfl
  rw [fromKmField, Option.map_eq_none_iff, mulU32, h4]
  simp only [true_and, ite_eq_left_iff, reduceCtorEq, imp_false, not_not]
  omega

/-- What a field is decoded to is right: the product fits in 32 bits, the program does
not panic, and the answer is a key size exactly for the field that size encodes into. -/
def Decodes (checks : Bool) (field : UInt32) : Prop :=
  field.toNat * 4 < 2 ^ 32 ∧
    ∃ answer, fromKmField checks field = some answer ∧
      ∀ k, answer = some k ↔ field = k.toKmField

theorem fromKmField_of_lt {checks : Bool} {f : UInt32} (h : f.toNat * 4 < 2 ^ 32) :
    fromKmField checks f = some (fromBytes (f.toNat * 4)) := by
  have hlen : (f * 4).toNat = f.toNat * 4 := by
    rw [UInt32.toNat_mul]
    exact Nat.mod_eq_of_lt h
  rw [fromKmField, mulU32_of_lt h, Option.map_some, hlen]

theorem decodes_iff (checks : Bool) (f : UInt32) : Decodes checks f ↔ f.toNat < 2 ^ 30 := by
  constructor
  · rintro ⟨h, -⟩
    omega
  · intro h
    have hfit : f.toNat * 4 < 2 ^ 32 := by omega
    refine ⟨hfit, fromBytes (f.toNat * 4), fromKmField_of_lt hfit, fun k => ?_⟩
    rw [fromBytes_eq_some_iff, eq_toKmField_iff]

/-- The field `0x40000004`: four more than a multiple of `2 ^ 30`, and so AES-128 to a
build without overflow checks; one with them panics. -/
theorem wrapped_field_decodes :
    fromKmField false 0x40000004 = some (some .aes128) ∧ fromKmField true 0x40000004 = none ∧
      (0x40000004 : UInt32) ≠ KeySize.aes128.toKmField ∧
      ¬ ∀ checks f, Decodes checks f := by
  refine ⟨by decide, by decide, by decide, fun h => ?_⟩
  have hfit := (h false 0x40000004).1
  exact absurd hfit (by decide)

end KeySize

end SrtBridge
