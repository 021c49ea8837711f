import Mathlib

/-!
# Elements with a type and a length

An element is one byte of type, four bytes of length with the least significant
first, and the value. `header` reads the first five bytes; what follows them is found
by `drop`.
-/

namespace TeeOs.Lib.Tlv

variable {t : UInt8} {v rest : List UInt8} {n : Nat}

def headerLen : Nat := 5

def le32 (n : Nat) : List UInt8 :=
  [UInt8.ofNat n, UInt8.ofNat (n / 2^8), UInt8.ofNat (n / 2^16), UInt8.ofNat (n / 2^24)]

/-- The header of an element with a value of `n` bytes. -/
def head (t : UInt8) (n : Nat) : List UInt8 := t :: le32 n

def tlv (t : UInt8) (v : List UInt8) : List UInt8 := head t v.length ++ v

def header : List UInt8 → Option (UInt8 × Nat)
  | t :: a :: b :: c :: d :: _ =>
    some (t, a.toNat + 2^8 * b.toNat + 2^16 * c.toNat + 2^24 * d.toNat)
  | _ => none

theorem length_head : (head t n).length = headerLen := rfl

theorem length_tlv : (tlv t v).length = headerLen + v.length := by
  rw [tlv, List.length_append, length_head]

theorem header_head (h : n < 2^32) : header (head t n ++ rest) = some (t, n) := by
  have hsum : n % 2^8 + 2^8 * (n / 2^8 % 2^8) + 2^16 * (n / 2^16 % 2^8) +
      2^24 * (n / 2^24 % 2^8) = n := by omega
  simp only [head, le32, List.cons_append, List.nil_append, header, UInt8.toNat_ofNat']
  rw [hsum]

theorem header_tlv (h : v.length < 2^32) : header (tlv t v ++ rest) = some (t, v.length) := by
  rw [tlv, List.append_assoc, header_head h]

theorem drop_head : (head t n ++ rest).drop headerLen = rest :=
  List.drop_left' length_head

theorem drop_tlv : (tlv t v ++ rest).drop headerLen = v ++ rest := by
  rw [tlv, List.append_assoc, drop_head]

end TeeOs.Lib.Tlv
