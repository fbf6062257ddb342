/-!
# Numbers with two decimal places

A finite floating-point number is a whole number times a power of two. It is rounded to hundredths
exactly, and a value halfway between two hundredths goes to the even one.
-/

namespace PacketRelay.Text

/-- The quotient of two numbers rounded to the nearest whole number, a half to the even one. -/
def roundDiv (num den : Nat) : Nat :=
  let q := num / den
  let twice := 2 * (num % den)
  if twice < den then q
  else if den < twice then q + 1
  else q + q % 2

/-- A finite number that is not negative as a fraction: numerator and denominator. -/
def fractionOf (x : Float) : Nat × Nat :=
  let bits := x.toBits.toNat
  let field := bits / Nat.pow 2 52 % Nat.pow 2 11
  let rest := bits % Nat.pow 2 52
  let digits := if field = 0 then rest else rest + Nat.pow 2 52
  let exponent := max field 1
  if 1075 ≤ exponent then (digits * Nat.pow 2 (exponent - 1075), 1)
  else (digits, Nat.pow 2 (1075 - exponent))

/-- A number of hundredths with a point before the last two digits. -/
def hundredths (n : Nat) : String :=
  let cents := n % 100
  toString (n / 100) ++ "." ++ (if cents < 10 then "0" else "") ++ toString cents

/-- A finite number that is not negative, written with two decimal places. -/
def twoPlaces (x : Float) : String :=
  let (num, den) := fractionOf x
  hundredths (roundDiv (100 * num) den)

end PacketRelay.Text
