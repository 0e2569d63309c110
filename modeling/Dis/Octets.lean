import Dis.Numeric.Binary

/-! Octet strings and the numbers they spell, most significant octet first. -/

namespace Dis

abbrev Octets := List UInt8

namespace Octets

/-- The lowest `width` base-256 digits of `n`, most significant first. -/
def ofNat (width n : Nat) : Octets :=
  match width with
  | 0 => []
  | width + 1 => ofNat width (n / 256) ++ [UInt8.ofNat n]

def toNat (octets : Octets) : Nat :=
  octets.foldl (fun n octet => n * 256 + octet.toNat) 0

def zeros (count : Nat) : Octets := List.replicate count 0

@[simp] theorem length_ofNat (width n : Nat) : (ofNat width n).length = width := by
  induction width generalizing n with
  | zero => rfl
  | succ width ih => simp [ofNat, ih]

@[simp] theorem length_zeros (count : Nat) : (zeros count).length = count := by
  simp [zeros]

theorem toNat_append_singleton (octets : Octets) (octet : UInt8) :
    toNat (octets ++ [octet]) = toNat octets * 256 + octet.toNat := by
  simp [toNat]

-- A number is read back from its digits up to the width's modulus.
theorem toNat_ofNat (width n : Nat) : toNat (ofNat width n) = n % 256 ^ width := by
  induction width generalizing n with
  | zero => simp [ofNat, toNat, Nat.mod_one]
  | succ width ih =>
      rw [ofNat, toNat_append_singleton, ih, Nat.pow_succ, Nat.mul_comm (256 ^ width) 256,
        Nat.mod_mul]
      simp only [UInt8.toNat_ofNat']
      omega

end Octets
end Dis

/-! Hexadecimal texts of octets. -/

namespace Dis.Hex

def digit (n : Nat) : Char := "0123456789abcdef".toList.getD n '0'

def pair (octet : UInt8) : List Char := [digit (octet.toNat / 16), digit (octet.toNat % 16)]

def ofOctets (octets : Octets) : String := String.ofList (octets.flatMap pair)

def bracketed (octets : Octets) : String :=
  "[" ++ (" ".intercalate (octets.map fun octet => String.ofList (pair octet))).toUpper ++ "]"

def value? (c : Char) : Option Nat :=
  if '0' ≤ c ∧ c ≤ '9' then some (c.toNat - '0'.toNat)
  else if 'a' ≤ c ∧ c ≤ 'f' then some (c.toNat - 'a'.toNat + 10)
  else if 'A' ≤ c ∧ c ≤ 'F' then some (c.toNat - 'A'.toNat + 10)
  else none

def toOctets? : List Char → Option Octets
  | [] => some []
  | [_] => none
  | high :: low :: rest => do
    let octet := UInt8.ofNat ((← value? high) * 16 + (← value? low))
    return octet :: (← toOctets? rest)

end Dis.Hex

/-! Octets in the 64 letters, digits and marks of base 64. -/

namespace Dis.Base64

def alphabet : List Char :=
  "ABCDEFGHIJKLMNOPQRSTUVWXYZabcdefghijklmnopqrstuvwxyz0123456789+/".toList

def digit (n : Nat) : Char := alphabet.getD (n % 64) '='

def group (count a b c : Nat) : List Char :=
  let n := (a * 256 + b) * 256 + c
  [digit (n / 262144), digit (n / 4096), digit (n / 64), digit n].take count

/-- Four characters for every three octets; the last group is filled up with marks. -/
def encode : Octets → List Char
  | [] => []
  | [a] => group 2 a.toNat 0 0 ++ ['=', '=']
  | [a, b] => group 3 a.toNat b.toNat 0 ++ ['=']
  | a :: b :: c :: rest => group 4 a.toNat b.toNat c.toNat ++ encode rest

def ofOctets (octets : Octets) : String := String.ofList (encode octets)

end Dis.Base64
