/-!
Powers of two and of ten, and the bounds of the numbers that 16, 32 and 64 bits
hold.
-/

namespace StatAlmanac

def pow2 (n : Nat) : Nat := Nat.pow 2 n

theorem pow2_le_pow2 {m n : Nat} (h : m ≤ n) : pow2 m ≤ pow2 n := Nat.pow_le_pow_right (by decide) h

theorem pow2_succ (n : Nat) : pow2 (n + 1) = 2 * pow2 n := Nat.pow_succ'

def pow10 (n : Nat) : Nat := Nat.pow 10 n

def bound16 : Nat := 0x10000

def bound32 : Nat := 0x100000000

def bound64 : Nat := 0x10000000000000000

end StatAlmanac
