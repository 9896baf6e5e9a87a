/-!
# Shortest decimals

A floating-point number is shown by the fewest digits that are read back as the same number; of
several such decimals the nearest is taken, of two that are equally near the even one. `shortest`
finds the digits in exact arithmetic, `FloatStyle` lays them out.
-/

namespace Provision.Decimal

/-- The number `digits · 10 ^ exponent`. -/
structure Scaled where
  digits : Nat
  exponent : Int
deriving DecidableEq, Repr

/-- A number `4 · mantissa · 2 ^ (binary - 2)` and the ends of what is rounded to it. -/
structure Rounded where
  low : Nat
  value : Nat
  high : Nat
  /-- The ends themselves are rounded to the number. -/
  closed : Bool
  binary : Int

/-- The finite positive number with these bits. -/
def Rounded.ofBits (bits : UInt64) : Rounded :=
  let hidden := 0x10000000000000
  let fraction := bits.toNat % hidden
  let biased := bits.toNat / hidden % 0x800
  let mantissa := if biased = 0 then fraction else fraction + hidden
  -- Below a power of two the numbers lie twice as close.
  let below := if fraction = 0 && 1 < biased then 1 else 2
  { low := 4 * mantissa - below
    value := 4 * mantissa
    high := 4 * mantissa + 2
    closed := mantissa % 2 = 0
    binary := (max biased 1 : Nat) - 1077 }

/--
The multiple of `10 ^ exponent` nearest to the number, if one is rounded to it. A tie goes to the
even multiple.
-/
def Rounded.onGrid? (r : Rounded) (exponent : Int) : Option Scaled :=
  let up := Nat.pow 2 r.binary.toNat * Nat.pow 10 (-exponent).toNat
  let down := Nat.pow 2 (-r.binary).toNat * Nat.pow 10 exponent.toNat
  let fits (n : Nat) : Bool :=
    0 < n && (if r.closed then r.low * up ≤ n * down && n * down ≤ r.high * up
      else r.low * up < n * down && n * down < r.high * up)
  let below := r.value * up / down
  let above := below + 1
  let twice := 2 * (r.value * up)
  let middle := (below + above) * down
  let takesBelow := twice < middle || twice = middle && below % 2 = 0
  if fits below && (takesBelow || !fits above) then some ⟨below, exponent⟩
  else if fits above then some ⟨above, exponent⟩
  else none

/-- On the coarsest grid that has a fitting multiple, that multiple has the fewest digits. -/
def shortest (bits : UInt64) : Scaled :=
  let r := Rounded.ofBits bits
  ((List.range 652).findSome? fun (i : Nat) => r.onGrid? (308 - i)).getD ⟨0, 0⟩

/-! ## Layout -/

/-- How a number is laid out. -/
structure FloatStyle where
  /-- The powers of ten of the first digit between which no exponent is written. -/
  leastPlain : Int
  mostPlain : Int

/-- From 0.00001 up to 10 ^ 16 without an exponent. -/
def messageStyle : FloatStyle := { leastPlain := -5, mostPlain := 15 }

private def zeros (n : Nat) : List Char := List.replicate n '0'

/-- A number without an exponent has a point; an exponent has a sign and as few digits as it can. -/
def FloatStyle.write (style : FloatStyle) (s : Scaled) : List Char :=
  let digits := Nat.toDigits 10 s.digits
  let power : Int := digits.length - 1 + s.exponent
  if style.leastPlain ≤ power && power ≤ style.mostPlain then
    if 0 ≤ s.exponent then digits ++ zeros s.exponent.toNat ++ ['.', '0']
    else if 0 ≤ power then
      digits.take (power.toNat + 1) ++ '.' :: digits.drop (power.toNat + 1)
    else ['0', '.'] ++ zeros (-power - 1).toNat ++ digits
  else
    let fraction := match digits.drop 1 with
      | [] => []
      | rest => '.' :: rest
    digits.take 1 ++ fraction ++
      'e' :: (if power < 0 then '-' else '+') :: Nat.toDigits 10 power.natAbs

def FloatStyle.format (style : FloatStyle) (x : Float) : String :=
  let bits := x.toBits
  let signBit := 0x8000000000000000
  let sign := if signBit ≤ bits.toNat then ['-'] else []
  let magnitude := if bits.toNat % signBit = 0 then "0.0".toList else style.write (shortest bits)
  String.ofList (sign ++ magnitude)

end Provision.Decimal
