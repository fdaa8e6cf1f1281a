import Mathlib.Tactic

/-! Numbers in bytes, in either order, and memory that holds them at offsets. -/

namespace SrtBridge.General

inductive Endian where
  | little | big
  deriving DecidableEq

/-- The lowest `n` bytes of a number, the lowest first. -/
def lowBytes : ℕ → ℕ → List UInt8
  | 0, _ => []
  | n + 1, x => UInt8.ofNat x :: lowBytes n (x / 256)

/-- The number of some bytes, the lowest first. -/
def ofLowBytes : List UInt8 → ℕ
  | [] => 0
  | b :: bs => b.toNat + 256 * ofLowBytes bs

/-- The `n` bytes a host keeps a number in. -/
def Endian.store (e : Endian) (n x : ℕ) : List UInt8 :=
  match e with
  | .little => lowBytes n x
  | .big => (lowBytes n x).reverse

/-- The number a host reads from its bytes. -/
def Endian.load (e : Endian) (bs : List UInt8) : ℕ :=
  match e with
  | .little => ofLowBytes bs
  | .big => ofLowBytes bs.reverse

/-- A number of `n` bytes with their order turned round. -/
def swapBytes (n x : ℕ) : ℕ := Endian.little.load (Endian.big.store n x)

/-- The number that a host keeps as the big-endian bytes of `x`. -/
def Endian.toBe (e : Endian) (n x : ℕ) : ℕ :=
  match e with
  | .little => swapBytes n x
  | .big => x

/-- The number whose big-endian bytes a host keeps as those of `x`. -/
def Endian.fromBe (e : Endian) (n x : ℕ) : ℕ := e.toBe n x

/-- Bytes by their offset. -/
abbrev Memory := ℕ → UInt8

def Memory.put (m : Memory) (offset : ℕ) (bs : List UInt8) : Memory := fun i =>
  if offset ≤ i then bs.getD (i - offset) (m i) else m i

def Memory.get (m : Memory) (offset n : ℕ) : List UInt8 := (List.range n).map fun i => m (offset + i)

section Numbers

variable (e : Endian) (n x : ℕ)

@[simp] theorem lowBytes_length : (lowBytes n x).length = n := by
  induction n generalizing x with
  | zero => rfl
  | succ n ih => simp [lowBytes, ih]

@[simp] theorem store_length : (e.store n x).length = n := by
  cases e <;> simp [Endian.store]

theorem ofLowBytes_lowBytes : ofLowBytes (lowBytes n x) = x % 256 ^ n := by
  induction n generalizing x with
  | zero => simp [lowBytes, ofLowBytes, Nat.mod_one]
  | succ n ih =>
    have hdigit : (UInt8.ofNat x).toNat = x % 256 := UInt8.toNat_ofNat'
    rw [lowBytes, ofLowBytes, ih, hdigit, pow_succ', Nat.mod_mul]

theorem lowBytes_ofLowBytes (bs : List UInt8) : lowBytes bs.length (ofLowBytes bs) = bs := by
  induction bs with
  | nil => rfl
  | cons b bs ih =>
    have hb : b.toNat < 256 := b.toNat_lt
    have hdigit : UInt8.ofNat (b.toNat + 256 * ofLowBytes bs) = b := by
      rw [← UInt8.toNat_inj]
      simp
    have hrest : (b.toNat + 256 * ofLowBytes bs) / 256 = ofLowBytes bs := by omega
    rw [List.length_cons, ofLowBytes, lowBytes, hdigit, hrest, ih]

theorem load_store : e.load (e.store n x) = x % 256 ^ n := by
  cases e <;> simp [Endian.load, Endian.store, ofLowBytes_lowBytes]

/-- Bytes are kept when they are read as a number and stored. -/
theorem store_load (bs : List UInt8) : e.store bs.length (e.load bs) = bs := by
  cases e with
  | little => exact lowBytes_ofLowBytes bs
  | big =>
    show (lowBytes bs.length (ofLowBytes bs.reverse)).reverse = bs
    rw [← List.length_reverse, lowBytes_ofLowBytes, List.reverse_reverse]

/-- A number turned to big-endian order is stored in big-endian bytes. -/
theorem store_toBe : e.store n (e.toBe n x) = Endian.big.store n x := by
  cases e with
  | big => rfl
  | little =>
    have hlen : (Endian.big.store n x).length = n := store_length ..
    have h := store_load .little (Endian.big.store n x)
    rwa [hlen] at h

/-- Big-endian bytes are read as the number that turning round gives. -/
theorem fromBe_load {bs : List UInt8} (h : bs.length = n) :
    e.fromBe n (e.load bs) = Endian.big.load bs := by
  cases e with
  | big => rfl
  | little =>
    have hbytes : lowBytes n (ofLowBytes bs) = bs := h ▸ lowBytes_ofLowBytes bs
    show ofLowBytes (lowBytes n (ofLowBytes bs)).reverse = ofLowBytes bs.reverse
    rw [hbytes]

end Numbers

section Memory

variable {m : Memory} {a b n : ℕ} {bs : List UInt8}

theorem Memory.get_put : (m.put a bs).get a bs.length = bs := by
  apply List.ext_getElem
  · simp [Memory.get]
  · intro i h₁ h₂
    simp [Memory.get, Memory.put, h₂]

theorem Memory.get_put_self (h : bs.length = n) : (m.put a bs).get a n = bs := h ▸ Memory.get_put

theorem Memory.get_put_of_disjoint (h : b + n ≤ a ∨ a + bs.length ≤ b) :
    (m.put a bs).get b n = m.get b n := by
  unfold Memory.get
  apply List.map_congr_left
  intro i hi
  have hin := List.mem_range.mp hi
  unfold Memory.put
  split_ifs with ha
  · have hlen : bs.length ≤ b + i - a := by omega
    simp [hlen]
  · rfl

end Memory

end SrtBridge.General
