/-
# Address blocks

A block of `2^h` numbers below `2^W`, given by its first number and a netmask:
the arithmetic behind a CIDR prefix. The mask keeps the part of a number above
its `h` low bits (`and_netmask`), so the numbers that share a block's masked
part are the interval from its first number to its last (`block_iff`), and those
of a longer prefix are among those of a shorter one (`block_of_block`).

Key definitions: `Prefix.netmask`, `Prefix.last`.
Key theorems: `Prefix.block_iff`, `Prefix.block_of_block`, `Prefix.netmask_and_self`.
-/
import Mathlib.Data.Nat.Bitwise
import Mathlib.Tactic.Ring

namespace Prefix

/-- All ones above the `W - len` low bits: the `W` ones, less the ones a shift
by `len` leaves. -/
def netmask (W len : ℕ) : ℕ := (2 ^ W - 1) ^^^ ((2 ^ W - 1) >>> len)

/-- The ones the netmask leaves out. -/
def hostmask (W len : ℕ) : ℕ := netmask W len ^^^ (2 ^ W - 1)

/-- The last number of the block that starts at `n`. -/
def last (W len n : ℕ) : ℕ := n ||| hostmask W len

variable {W len : ℕ}

theorem netmask_testBit (W len i : ℕ) :
    (netmask W len).testBit i = (decide (i < W) && decide (W ≤ i + len)) := by
  simp only [netmask, Nat.testBit_xor, Nat.testBit_shiftRight, Nat.testBit_two_pow_sub_one]
  by_cases h1 : i < W
  · by_cases h2 : len + i < W
    · simp [h1, h2, show ¬ W ≤ i + len by omega]
    · simp [h1, h2, show W ≤ i + len by omega]
  · simp [h1, show ¬ len + i < W by omega]

/-- The mask drops the low bits of a number. -/
theorem and_netmask {a : ℕ} (ha : a < 2 ^ W) (hlen : len ≤ W) :
    a &&& netmask W len = a / 2 ^ (W - len) * 2 ^ (W - len) := by
  apply Nat.eq_of_testBit_eq
  intro i
  simp only [Nat.testBit_and, netmask_testBit, Nat.testBit_mul_two_pow, Nat.testBit_div_two_pow]
  by_cases h1 : W - len ≤ i
  · rw [show i - (W - len) + (W - len) = i by omega]
    by_cases h2 : i < W
    · simp [h1, h2, show W ≤ i + len by omega]
    · have hbit : a.testBit i = false :=
        Nat.testBit_lt_two_pow (lt_of_lt_of_le ha (Nat.pow_le_pow_right (by norm_num) (by omega)))
      simp [hbit]
  · simp [h1, show ¬ W ≤ i + len by omega]

theorem hostmask_eq (hlen : len ≤ W) : hostmask W len = 2 ^ (W - len) - 1 := by
  apply Nat.eq_of_testBit_eq
  intro i
  simp only [hostmask, Nat.testBit_xor, netmask_testBit, Nat.testBit_two_pow_sub_one]
  by_cases h1 : i < W
  · by_cases h2 : W ≤ i + len
    · simp [h1, h2, show ¬ i < W - len by omega]
    · simp [h1, h2, show i < W - len by omega]
  · simp [h1, show ¬ i < W - len by omega]

/-- A number is its own masked part iff it is a multiple of the block size. -/
theorem netmask_and_self {n : ℕ} (hn : n < 2 ^ W) (hlen : len ≤ W) :
    n &&& netmask W len = n ↔ 2 ^ (W - len) ∣ n := by
  rw [and_netmask hn hlen]
  exact ⟨fun h => ⟨_, by rw [Nat.mul_comm]; exact h.symm⟩, fun h => Nat.div_mul_cancel h⟩

theorem netmask_idem {a : ℕ} (W len : ℕ) :
    a &&& netmask W len &&& netmask W len = a &&& netmask W len := by
  rw [Nat.and_assoc, Nat.and_self]

/-- A shorter prefix keeps less. -/
theorem netmask_and_netmask {len' : ℕ} (h : len ≤ len') :
    netmask W len' &&& netmask W len = netmask W len := by
  apply Nat.eq_of_testBit_eq
  intro i
  simp only [Nat.testBit_and, netmask_testBit]
  by_cases h1 : i < W
  · by_cases h2 : W ≤ i + len
    · have h3 : W ≤ i + len' := by omega
      simp [h1, h2, h3]
    · simp [h2]
  · simp [h1]

/-- **Blocks are nested.** Numbers that share a block share every wider one. -/
theorem block_of_block {len' a b n m : ℕ} (h : len ≤ len') (ha : a &&& netmask W len' = n)
    (hb : b &&& netmask W len' = n) (hm : a &&& netmask W len = m) :
    b &&& netmask W len = m := by
  rw [← netmask_and_netmask h, ← Nat.and_assoc] at hm ⊢
  rw [hb, ← ha, hm]

theorem last_eq {n : ℕ} (hlen : len ≤ W) (hn : 2 ^ (W - len) ∣ n) :
    last W len n = n + (2 ^ (W - len) - 1) := by
  obtain ⟨c, rfl⟩ := hn
  rw [last, hostmask_eq hlen]
  exact (Nat.two_pow_add_eq_or_of_lt (Nat.sub_lt (Nat.two_pow_pos _) Nat.one_pos) c).symm

theorem last_lt {n : ℕ} (hn : n < 2 ^ W) : last W len n < 2 ^ W := by
  apply Nat.or_lt_two_pow hn
  apply Nat.xor_lt_two_pow _ (Nat.sub_lt (Nat.two_pow_pos _) Nat.one_pos)
  apply Nat.xor_lt_two_pow (Nat.sub_lt (Nat.two_pow_pos _) Nat.one_pos)
  exact lt_of_le_of_lt (Nat.shiftRight_le _ _) (Nat.sub_lt (Nat.two_pow_pos _) Nat.one_pos)

/-- **A block is an interval.** The numbers whose masked part is `n` are those
from `n` to the last number of its block. -/
theorem block_iff {a n : ℕ} (ha : a < 2 ^ W) (hlen : len ≤ W) (hn : 2 ^ (W - len) ∣ n) :
    a &&& netmask W len = n ↔ n ≤ a ∧ a ≤ last W len n := by
  rw [and_netmask ha hlen, last_eq hlen hn]
  obtain ⟨c, rfl⟩ := hn
  have hp : 0 < 2 ^ (W - len) := Nat.two_pow_pos _
  constructor
  · intro h
    have hc : a / 2 ^ (W - len) = c := Nat.eq_of_mul_eq_mul_right hp (by rw [h, Nat.mul_comm])
    have hmod := Nat.div_add_mod a (2 ^ (W - len))
    have hlt := Nat.mod_lt a hp
    rw [hc] at hmod
    omega
  · rintro ⟨h1, h2⟩
    have hc : a / 2 ^ (W - len) = c := by
      apply Nat.div_eq_of_lt_le
      · rw [Nat.mul_comm]; exact h1
      · rw [Nat.succ_mul, Nat.mul_comm]; omega
    rw [hc, Nat.mul_comm]

end Prefix
