/-!
# Numbers as text

Numbers are written in decimal, or in hexadecimal with lower-case digits after `0x`.
-/

namespace Idl.Text

def decimal (n : Nat) : String := String.ofList (Nat.toDigits 10 n)

theorem decimal_injective {m n : Nat} (h : decimal m = decimal n) : m = n := by
  rw [← Nat.ofDigitChars_ten_toDigits (n := m), String.ofList_inj.1 h,
    Nat.ofDigitChars_ten_toDigits]

theorem isDigit_of_mem_decimal {c : Char} {n : Nat} (h : c ∈ (decimal n).toList) :
    c.isDigit = true := by
  rw [decimal, String.toList_ofList] at h
  exact Nat.isDigit_of_mem_toDigits (by decide) (by decide) h

def hex (n : Nat) : String := "0x" ++ String.ofList (Nat.toDigits 16 n)

/-- At least `width` digits, filled up with zeros. -/
def hexOfWidth (width n : Nat) : String :=
  let digits := Nat.toDigits 16 n
  "0x" ++ String.ofList (List.replicate (width - digits.length) '0' ++ digits)

example : hex 255 = "0xff" ∧ hexOfWidth 8 0x0f504e47 = "0x0f504e47" := by decide

end Idl.Text
