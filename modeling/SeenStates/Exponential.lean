import SeenStates.Fused

/-!
# The exponential less one

`e ^ x - 1` for a double `x` that is not positive, with the digits of a small `x` kept. The argument
is `r - n * ln 2` with `r` near zero, so that `e ^ x - 1` is `(1 + (e ^ r - 1)) / 2 ^ n - 1`. For
small `r` the quotient `r * (e ^ r + 1) / (e ^ r - 1)` is even; a polynomial of `r * r / 2` stands
for it, and `e ^ r - 1` is solved from it. Every step rounds, and a product that is added to
something is not rounded on its own, so the order of the steps is part of the definition.
-/
namespace SeenStates

namespace Exponential

/-- The logarithm of two, cut off so that small multiples of it are exact. -/
def logTwo : Float := 6.93147180369123816490e-01

/-- What `logTwo` leaves of the logarithm of two. -/
def logTwoRest : Float := 1.90821492927058770002e-10

/-- One over the logarithm of two. -/
def overLogTwo : Float := 1.44269504088896338700e+00

/-- Arguments of a smaller magnitude are not reduced: half the logarithm of two. -/
def halfLogTwo : Float := 1453635 / 4194304

/-- Arguments of a smaller magnitude are reduced once: one and a half logarithms of two. -/
def threeHalvesLogTwo : Float := 1090226 / 1048576

/-- From this magnitude on `e ^ x` is lost beside one. -/
def lastMagnitude : Float := 40

/-- Below this magnitude `e ^ x - 1` is `x`. -/
def firstMagnitude : Float := 1 / 18014398509481984

/-- An argument `r - n * ln 2`. -/
structure Reduced where
  /-- The count `n` of logarithms of two. -/
  halvings : Nat
  /-- The rest `r`, rounded. -/
  rest : Float
  /-- What rounding took from the rest. -/
  lost : Float

/-- How many logarithms of two an argument `-a` is reduced by. -/
def halvingsOf (a : Float) : Nat :=
  if a < halfLogTwo then 0
  else if a < threeHalvesLogTwo then 1
  else (overLogTwo * a + 0.5).toUInt64.toNat

/-- An argument reduced. -/
def reduce (x : Float) : Reduced :=
  let n := halvingsOf (-x)
  if n = 0 then ⟨0, x, 0⟩
  else
    let high := x + Float.ofNat n * logTwo
    let low := Float.ofNat n * logTwoRest
    let rest := high + low
    ⟨n, rest, (high - rest) + low⟩

/-- The polynomial of `z = r * r / 2` that stands for
`6 / r * ((e ^ r + 1) / (e ^ r - 1) - 2 / r)`. -/
def evenPart (z : Float) : Float :=
  let first := fusedSum z (-3.33333333333331316428e-02) 1
  let second := fusedSum z (-7.93650757867487942473e-05) 1.58730158725481460165e-03
  let third := fusedSum z (-2.01099218183624371326e-07) 4.00821782732936239552e-06
  let square := z * z
  fusedSum (square * square) third (fusedSum square second first)

/-- The factor `e` for which `e ^ r - 1` is `r + z - r * e`, where `z = r * r / 2`. -/
def shortfall (r z : Float) : Float :=
  let even := evenPart z
  let t := fusedSum (-even) (0.5 * r) 3
  z * ((even - t) / fusedSum (-r) t 6)

/-- `e ^ x - 1` for `x` that is not positive. -/
def lessOne (x : Float) : Float :=
  if x ≤ -lastMagnitude then -1
  else if -firstMagnitude < x then x
  else
    let ⟨n, r, lost⟩ := reduce x
    let z := r * (0.5 * r)
    let e := shortfall r z
    if n = 0 then r - fusedSum r e (-z)
    else
      let less := fusedSum r (e - lost) (-lost) - z
      if n = 1 then 0.5 * (r - less) - 0.5
      else Float.scaleB (1 - (less - r)) (-(n : Int)) - 1

end Exponential

end SeenStates
