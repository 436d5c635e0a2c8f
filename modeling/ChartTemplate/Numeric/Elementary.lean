import ChartTemplate.Numeric.Rounding

/-!
# Elementary functions

Functions that the core library lacks: `expMinusOne` and `logOnePlus`, accurate for small arguments,
correctly rounded roots, and the inverse hyperbolic functions in terms of them. The first two reduce
their argument by a multiple of `log 2`, kept as a sum of two floats, and evaluate a polynomial.
-/

namespace ChartTemplate

/-- The logarithm of two, leading bits. -/
def ln2High : Float := 6.93147180369123816490e-01

/-- What the leading bits leave of the logarithm of two. -/
def ln2Low : Float := 1.90821492927058770002e-10

/-- Two to an integer power in the range of normal floats. -/
def twoPow (k : Int) : Float :=
  ofDyadic false 1 k

/-- The exponential of `x` less one, where `x = h - l + k * log 2`. -/
def expMinusOneReduced (h l : Float) (k : Int) : Float :=
  let x := h - l
  let c := (h - x) - l
  let half := 0.5 * x
  let s := x * half
  let s2 := s * s
  let r1 := 1 + s * -3.33333333333331316428e-02
  let r2 := 1.58730158725481460165e-03 + s * -7.93650757867487942473e-05
  let r3 := 4.00821782732936239552e-06 + s * -2.01099218183624371326e-07
  let r := r1 + s2 * r2 + s2 * s2 * r3
  let t := 3 - r * half
  let e := s * ((r - t) / (6 - x * t))
  if k = 0 then x - (x * e - s)
  else
    let e := (x * (e - c) - c) - s
    if k = -1 then 0.5 * (x - e) - 0.5
    else if k = 1 then
      if x < -0.25 then -2 * (e - (x + 0.5)) else 1 + 2 * (x - e)
    else if k ≤ -2 ∨ 56 < k then
      let y := 1 - (e - x)
      (if k = 1024 then y * 2 * twoPow 1023 else y * twoPow k) - 1
    else if k < 20 then ((1 - twoPow (-k)) - (e - x)) * twoPow k
    else ((x - (e + twoPow (-k))) + 1) * twoPow k

/-- The exponential of `x` less one. -/
def expMinusOne (x : Float) : Float :=
  let a := x.abs
  if x.isNaN then x
  else if Float.ofBits 0x4043687A00000000 ≤ a ∧ x < 0 then -1
  else if 7.09782712893383973096e+02 < x then infinity
  else if a < Float.ofBits 0x3C90000000000000 then x
  else if a < Float.ofBits 0x3FD62E4300000000 then expMinusOneReduced x 0 0
  else if a < Float.ofBits 0x3FF0A2B200000000 then
    if x < 0 then expMinusOneReduced (x + ln2High) (-ln2Low) (-1)
    else expMinusOneReduced (x - ln2High) ln2Low 1
  else
    let k := truncInt (1.44269504088896338700 * x + (if x < 0 then -0.5 else 0.5))
    let t := Float.ofInt k
    expMinusOneReduced (x - t * ln2High) (t * ln2Low) k

/-- The logarithm of `2 ^ k * (1 + f)` with the correction `c`. `small` says that the square of `f`
is enough. -/
def logOnePlusReduced (f c : Float) (k : Int) (small : Bool) : Float :=
  let half := 0.5 * f * f
  let kf := Float.ofInt k
  if small then
    if f == 0 then if k = 0 then 0 else kf * ln2High + (c + kf * ln2Low)
    else
      let r := half * (1 - 0.66666666666666666 * f)
      if k = 0 then f - r else kf * ln2High - ((r - (kf * ln2Low + c)) - f)
  else
    let s := f / (2 + f)
    let z := s * s
    let z2 := z * z
    let z4 := z2 * z2
    let r1 := z * 6.666666666666735130e-01
    let r2 := 3.999999999940941908e-01 + z * 2.857142874366239149e-01
    let r3 := 2.222219843214978396e-01 + z * 1.818357216161805012e-01
    let r4 := 1.531383769920937332e-01 + z * 1.479819860511658591e-01
    let r := r1 + z2 * r2 + z4 * r3 + z4 * z2 * r4
    if k = 0 then f - (half - s * (half + r))
    else kf * ln2High - ((half - (s * (half + r) + (kf * ln2Low + c))) - f)

def logOnePlus (x : Float) : Float :=
  let a := x.abs
  if x.isNaN || x == infinity then x
  else if x < -1 then notANumber
  else if x == -1 then -infinity
  else if a < Float.ofBits 0x3C90000000000000 then x
  else if a < Float.ofBits 0x3E20000000000000 then x - x * x * 0.5
  else if -Float.ofBits 0x3FD2BEC400000000 < x && x < Float.ofBits 0x3FDA827A00000000 then
    logOnePlusReduced x 0 0 false
  else
    let large := Float.ofBits 0x4340000000000000 ≤ x
    let u := if large then x else 1 + x
    let k := (((u.toBits >>> 52) &&& 0x7FF).toNat : Int) - 1023
    let c :=
      if large then 0
      else (if 0 < k then 1 - (u - x) else x - (u - 1)) / u
    let m := u * twoPow (-k)
    if m < Float.ofBits 0x3FF6A09E00000000 then
      logOnePlusReduced (m - 1) c k (m < Float.ofBits 0x3FF0000100000000)
    else logOnePlusReduced (m * 0.5 - 1) c (k + 1) (Float.ofBits 0x3FFFFFFD00000000 ≤ m)

/-- The greatest number below `2 ^ bits` added to `root` whose power is at most `n`. -/
def rootFrom (power : Nat → Nat) (n : Nat) : Nat → Nat → Nat
  | 0, root => root
  | bits + 1, root =>
    let next := root + powTwo bits
    rootFrom power n bits (if power next ≤ n then next else root)

/-- The root of `n`, a number of at most `bits` bits, times `2 ^ q`. One more bit tells whether the
root is exact, so that the result is rounded to nearest if the root has more bits than a float. -/
def ofRoot (negative : Bool) (power : Nat → Nat) (n bits : Nat) (q : Int) : Float :=
  let root := rootFrom power n bits 0
  ofDyadic negative (2 * root + if power root = n then 0 else 1) (q - 1)

/-- The cube root, rounded to nearest. It is taken of an integer of more than 180 bits. -/
def cubeRoot (x : Float) : Float :=
  if x.isNaN || x.isInf || x == 0 then x
  else
    let p := FloatParts.ofFloat x
    let q := (p.exp - 180) / 3
    ofRoot p.negative (fun n => n * n * n) (p.mant * powTwo (p.exp - 3 * q).toNat) 80 q

/-- The square root of one plus the square of `x`, rounded to nearest. It is taken of an integer of
more than 120 bits. -/
def hypotenuseOne (x : Float) : Float :=
  if x.isNaN || x.isInf then x.abs
  else
    let p := FloatParts.ofFloat x
    let q := min p.exp 0 - 10
    let n := powTwo (-2 * q).toNat + p.mant * p.mant * powTwo (2 * (p.exp - q)).toNat
    ofRoot false (fun n => n * n) n (n.log2 / 2 + 1) q

def inverseSinh (x : Float) : Float :=
  let a := x.abs
  let i := 1 / a
  let y := logOnePlus (a + a / (hypotenuseOne i + i))
  if signBit x then -y else y

def inverseCosh (x : Float) : Float :=
  if x < 1 then notANumber else (x + (x - 1).sqrt * (x + 1).sqrt).log

def inverseTanh (x : Float) : Float :=
  0.5 * logOnePlus (2 * x / (1 - x))

end ChartTemplate
