import Mathlib

/-!
# Blocks of addresses

An address of a given width is a number, and a block of addresses is a base with the number of
leading bits that its addresses share with it.
-/
namespace Appspine.AddressBlocks

structure Block (width : ℕ) where
  base : ℕ
  length : ℕ

variable {width : ℕ}

/-- The address has the leading bits of the base. -/
def Block.Contains (block : Block width) (address : ℕ) : Prop :=
  address / 2 ^ (width - block.length) = block.base / 2 ^ (width - block.length)

instance (block : Block width) (address : ℕ) : Decidable (block.Contains address) :=
  inferInstanceAs (Decidable (_ = _))

/-- A block whose length ends `k` bits within the leading part tells addresses by that part. -/
lemma Block.contains_iff_head {block : Block width} {m k high low base : ℕ}
    (hwidth : width - block.length = m + k) (hbase : block.base = base * 2 ^ m)
    (hlow : low < 2 ^ m) :
    block.Contains (high * 2 ^ m + low) ↔ high / 2 ^ k = base / 2 ^ k := by
  have hpos : 0 < 2 ^ m := by positivity
  have haddress : (high * 2 ^ m + low) / 2 ^ m = high := by
    rw [Nat.mul_comm, Nat.mul_add_div hpos, Nat.div_eq_of_lt hlow, Nat.add_zero]
  rw [Block.Contains, hwidth, hbase, pow_add, ← Nat.div_div_eq_div_mul, ← Nat.div_div_eq_div_mul,
    haddress, Nat.mul_div_cancel base hpos]

/-- The bits of a number above the lowest `k`, as a mask takes them. -/
lemma and_high_mask {n k x : ℕ} (hk : k ≤ n) (hx : x < 2 ^ n) :
    x &&& (2 ^ n - 2 ^ k) = x / 2 ^ k * 2 ^ k := by
  have hmask : 2 ^ n - 2 ^ k = (2 ^ (n - k) - 1) * 2 ^ k := by
    rw [Nat.sub_mul, ← pow_add, Nat.sub_add_cancel hk, one_mul]
  rw [hmask]
  refine Nat.eq_of_testBit_eq fun i => ?_
  rw [Nat.testBit_and, Nat.testBit_mul_two_pow, Nat.testBit_mul_two_pow,
    Nat.testBit_two_pow_sub_one, Nat.testBit_div_two_pow]
  by_cases hi : k ≤ i
  · by_cases hlt : i - k < n - k
    · simp [hi, hlt]
    · have hn : n ≤ i := by omega
      have hzero : x.testBit i = false :=
        Nat.testBit_lt_two_pow (hx.trans_le (Nat.pow_le_pow_right (by norm_num) hn))
      simp [hi, hlt, hzero]
  · simp [hi]

/-- One of the octets of a number. -/
lemma octet_eq (x k : ℕ) : x >>> k &&& 0xff = x / 2 ^ k % 256 := by
  rw [Nat.shiftRight_eq_div_pow]
  exact Nat.and_two_pow_sub_one_eq_mod _ 8

end Appspine.AddressBlocks
