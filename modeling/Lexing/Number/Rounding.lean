/-!
# Rounding

A quotient is rounded to the nearest whole number, a half to the even neighbour. The same rule gives a number a fixed count
of decimal places, and gives it a fixed count of binary digits, which is how a measured quantity is held.
-/

namespace Lexing.Number

/-- The whole number nearest to a quotient; of two equally near, the even one. -/
def roundDiv (num den : Nat) : Nat :=
  let quotient := num / den
  let twice := 2 * (num % den)
  if twice < den ∨ (twice = den ∧ quotient % 2 = 0) then quotient else quotient + 1

/-- A quotient written with a fixed count of decimal places. -/
def fixedText (places num den : Nat) : String :=
  let units := roundDiv (num * Nat.pow 10 places) den
  let digits := toString (units % Nat.pow 10 places)
  let whole := toString (units / Nat.pow 10 places)
  if places = 0 then whole
  else whole ++ "." ++ String.ofList (List.replicate (places - digits.length) '0') ++ digits

/-- A positive fraction. -/
structure Fraction where
  num : Nat
  den : Nat
  den_pos : 0 < den

/-- The number with at most 53 binary digits that is nearest to a fraction. It is found on the binary grid on which the
fraction has 53 digits before the point: a grid finer than one when the fraction is small, coarser when it is large. -/
def roundBinary (x : Fraction) : Fraction :=
  let wide := x.num.log2
  let deep := x.den.log2
  -- The fraction lies strictly between 2 ^ (wide - deep - 1) and 2 ^ (wide - deep + 1).
  let finer := 53 + deep - wide
  let scaled := x.num * Nat.pow 2 finer / x.den
  let finer := if Nat.pow 2 53 ≤ scaled then finer - 1 else finer
  if 53 + deep < wide ∨ finer = 0 then
    let coarser := wide - deep - 52
    let coarser := if x.num / (x.den * Nat.pow 2 coarser) < Nat.pow 2 52 then coarser - 1 else coarser
    ⟨roundDiv x.num (x.den * Nat.pow 2 coarser) * Nat.pow 2 coarser, 1, Nat.one_pos⟩
  else ⟨roundDiv (x.num * Nat.pow 2 finer) x.den, Nat.pow 2 finer, Nat.two_pow_pos finer⟩

end Lexing.Number
