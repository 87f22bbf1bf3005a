import Mathlib.Data.Nat.Bitwise

/-!
# Big-endian 32-bit words

A 32-bit word is written as four bytes, the most significant one first, by
shifting and masking, and read back by shifting and joining.  All arithmetic is
that of fixed-width words; the proofs go to natural numbers once, in
`toNat_getWord` and `toNat_byteAt`, and never look at bits again.

* `getWord_putWord` and `putWord_getWord`: the two directions are inverse.
-/

namespace Corpcron
namespace Lib

/-- The byte of a word that starts at bit `shift`. -/
def byteAt (w shift : UInt32) : UInt8 :=
  ((w >>> shift) &&& 0xFF).toUInt8

/-- The four bytes of a word, most significant first. -/
def putWord (w : UInt32) : List UInt8 :=
  [byteAt w 24, byteAt w 16, byteAt w 8, byteAt w 0]

/-- The word of four bytes, most significant first. -/
def getWord (a b c d : UInt8) : UInt32 :=
  (a.toUInt32 <<< 24) ||| (b.toUInt32 <<< 16) ||| (c.toUInt32 <<< 8) ||| d.toUInt32

@[simp] theorem putWord_length (w : UInt32) : (putWord w).length = 4 := rfl

theorem toNat_byteAt (w shift : UInt32) (hshift : shift.toNat < 32) :
    (byteAt w shift).toNat = w.toNat / 2 ^ shift.toNat % 256 := by
  have hmask : ∀ n : Nat, n &&& 255 = n % 256 := fun n =>
    Nat.and_two_pow_sub_one_eq_mod n 8
  have hlow : (0xFF : UInt32).toNat = 255 := rfl
  simp only [byteAt, UInt32.toNat_toUInt8, UInt32.toNat_and, UInt32.toNat_shiftRight, hlow,
    hmask, Nat.mod_eq_of_lt hshift, Nat.shiftRight_eq_div_pow, Nat.mod_mod]

/-- Joining a high part with a byte that fills the gap below it is adding. -/
theorem shiftLeft_or_eq_add (high low k : Nat) (hlow : low < 2 ^ k) :
    high * 2 ^ k ||| low = high * 2 ^ k + low := by
  rw [← Nat.shiftLeft_eq, Nat.shiftLeft_add_eq_or_of_lt hlow]

theorem toNat_getWord (a b c d : UInt8) :
    (getWord a b c d).toNat =
      a.toNat * 2 ^ 24 + b.toNat * 2 ^ 16 + c.toNat * 2 ^ 8 + d.toNat := by
  have ha := a.toNat_lt
  have hb := b.toNat_lt
  have hc := c.toNat_lt
  have hd := d.toNat_lt
  have h24 : (24 : UInt32).toNat % 32 = 24 := rfl
  have h16 : (16 : UInt32).toNat % 32 = 16 := rfl
  have h8 : (8 : UInt32).toNat % 32 = 8 := rfl
  have hword : (getWord a b c d).toNat =
      ((a.toNat * 2 ^ 24 ||| b.toNat * 2 ^ 16) ||| c.toNat * 2 ^ 8) ||| d.toNat := by
    simp only [getWord, UInt32.toNat_or, UInt32.toNat_shiftLeft, UInt8.toNat_toUInt32, h24, h16,
      h8, Nat.shiftLeft_eq]
    rw [Nat.mod_eq_of_lt (by omega), Nat.mod_eq_of_lt (by omega), Nat.mod_eq_of_lt (by omega)]
  -- The bytes are joined from the top, each into the gap the shift has left.
  have htop : a.toNat * 2 ^ 24 ||| b.toNat * 2 ^ 16 = (a.toNat * 2 ^ 8 + b.toNat) * 2 ^ 16 := by
    rw [shiftLeft_or_eq_add a.toNat (b.toNat * 2 ^ 16) 24 (by omega)]
    omega
  have hmid : (a.toNat * 2 ^ 8 + b.toNat) * 2 ^ 16 ||| c.toNat * 2 ^ 8 =
      (a.toNat * 2 ^ 16 + b.toNat * 2 ^ 8 + c.toNat) * 2 ^ 8 := by
    rw [shiftLeft_or_eq_add (a.toNat * 2 ^ 8 + b.toNat) (c.toNat * 2 ^ 8) 16 (by omega)]
    omega
  have hlast := shiftLeft_or_eq_add (a.toNat * 2 ^ 16 + b.toNat * 2 ^ 8 + c.toNat) d.toNat 8
    (by omega)
  rw [hword, htop, hmid, hlast]
  omega

/-- Reading back what was written. -/
theorem getWord_putWord (w : UInt32) :
    getWord (byteAt w 24) (byteAt w 16) (byteAt w 8) (byteAt w 0) = w := by
  apply UInt32.toNat_inj.mp
  have hw := w.toNat_lt
  have h24 : (24 : UInt32).toNat = 24 := rfl
  have h16 : (16 : UInt32).toNat = 16 := rfl
  have h8 : (8 : UInt32).toNat = 8 := rfl
  have h0 : (0 : UInt32).toNat = 0 := rfl
  rw [toNat_getWord, toNat_byteAt w 24 (by decide), toNat_byteAt w 16 (by decide),
    toNat_byteAt w 8 (by decide), toNat_byteAt w 0 (by decide), h24, h16, h8, h0]
  omega

/-- Writing what was read. -/
theorem putWord_getWord (a b c d : UInt8) : putWord (getWord a b c d) = [a, b, c, d] := by
  have ha := a.toNat_lt
  have hb := b.toNat_lt
  have hc := c.toNat_lt
  have hd := d.toNat_lt
  have hw := toNat_getWord a b c d
  have h24 : (24 : UInt32).toNat = 24 := rfl
  have h16 : (16 : UInt32).toNat = 16 := rfl
  have h8 : (8 : UInt32).toNat = 8 := rfl
  have h0 : (0 : UInt32).toNat = 0 := rfl
  have byte : ∀ (shift : UInt32) (x : UInt8), shift.toNat < 32 →
      (getWord a b c d).toNat / 2 ^ shift.toNat % 256 = x.toNat →
      byteAt (getWord a b c d) shift = x := by
    intro shift x hshift hx
    apply UInt8.toNat_inj.mp
    rw [toNat_byteAt _ _ hshift, hx]
  have e24 : byteAt (getWord a b c d) 24 = a := byte 24 a (by decide) (by rw [h24]; omega)
  have e16 : byteAt (getWord a b c d) 16 = b := byte 16 b (by decide) (by rw [h16]; omega)
  have e8 : byteAt (getWord a b c d) 8 = c := byte 8 c (by decide) (by rw [h8]; omega)
  have e0 : byteAt (getWord a b c d) 0 = d := byte 0 d (by decide) (by rw [h0]; omega)
  rw [putWord, e24, e16, e8, e0]

end Lib
end Corpcron
