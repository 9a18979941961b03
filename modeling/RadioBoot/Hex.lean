/-!
# Hexadecimal text

Numbers in base sixteen, padded on the left with zeros to a least width. Messages write capital
digits, recorded bytes small ones.
-/

namespace RadioBoot.Hex

/-- At least `width` digits of `n`, in small letters. -/
def digits (width n : Nat) : List Char :=
  let ds := Nat.toDigits 16 n
  List.replicate (width - ds.length) '0' ++ ds

/-- At least `width` digits of `n`, in capital letters. -/
def upper (width n : Nat) : String :=
  String.ofList ((digits width n).map Char.toUpper)

/-- One byte as two capital digits. -/
def upperByte (b : UInt8) : String := upper 2 b.toNat

/-- Bytes as pairs of small digits with nothing between them. -/
def bytes (bs : List UInt8) : String :=
  String.ofList (bs.flatMap fun b ↦ digits 2 b.toNat)

end RadioBoot.Hex
