import ChatCommands.Number.Binary64

set_option autoImplicit false

/-!
# How numbers are written

`fixed` writes a binary64 number with a given count of decimal places, exact
ties to the even last digit. `shortest` writes one with the fewest digits that
read back as it, and of those nearest to it: it looks for the first decimal grid
with a point in the interval of reals that round to the number, and it need only
look at the two neighbours of the number on each grid.
-/
namespace ChatCommands.Number

def digitText (n : Nat) : List Char := Nat.toDigits 10 n

def integer (n : Int) : String :=
  String.ofList (if n < 0 then '-' :: digitText n.natAbs else digitText n.natAbs)

/-- A quotient with `places` digits after the point. -/
def fixedDigits (places num den : Nat) : List Char :=
  let ds := digitText (roundDiv (num * Nat.pow 10 places) den)
  let ds := List.replicate (places + 1 - ds.length) '0' ++ ds
  let whole := ds.take (ds.length - places)
  if places = 0 then whole else whole ++ '.' :: ds.drop (ds.length - places)

/-- A number whose magnitude, if finite, is written by `digits`. -/
def written (digits : Binary64.Finite → List Char) (x : Binary64) : String :=
  let body := match x with
    | .finite x => digits x
    | .infinite _ => "inf".toList
    | .undefined => "nan".toList
  String.ofList (if x.isNegative then '-' :: body else body)

def fixed (places : Nat) (x : Binary64) : String :=
  written (fun x => fixedDigits places x.ratio.1 x.ratio.2) x

/-- The least `k ≥ j` with `num * 10 ^ k ≥ den`, sought among the next `fuel` candidates. -/
def leastShift (num den : Nat) : Nat → Nat → Nat
  | 0, j => j
  | fuel + 1, j => if num * Nat.pow 10 j ≥ den then j else leastShift num den fuel (j + 1)

/-- The greatest `k` with `10 ^ k ≤ num / den`, for a positive binary64 number. -/
def floorLog10 (num den : Nat) : Int :=
  if num ≥ den then ((digitText (num / den)).length : Int) - 1 else -(leastShift num den 400 1 : Int)

/-- The reals that round to `significand * 2 ^ exponent` lie between these multiples of a quarter
of the unit `2 ^ exponent`. -/
def quarterBounds (x : Binary64.Finite) : Nat × Nat :=
  let below := if x.significand = Nat.pow 2 (Binary64.precision - 1) ∧ x.exponent > Binary64.leastExponent
    then 1 else 2
  (4 * x.significand - below, 4 * x.significand + 2)

/-- Whether `c * 10 ^ p` rounds to the magnitude of `x`. -/
def readsBack (x : Binary64.Finite) (c : Nat) (p : Int) : Bool :=
  let (lo, hi) := quarterBounds x
  let point := 4 * c * Nat.pow 10 p.toNat * Nat.pow 2 (-x.exponent).toNat
  let unit := Nat.pow 2 x.exponent.toNat * Nat.pow 10 (-p).toNat
  if x.significand % 2 = 0 then lo * unit ≤ point && point ≤ hi * unit
  else lo * unit < point && point < hi * unit

/-- A point of the grid of multiples of `10 ^ p` that reads back as `x`, the nearer if both
neighbours of `x` do. -/
def gridPoint? (x : Binary64.Finite) (p : Int) : Option Nat :=
  let (num, den) := x.ratio
  let n := num * Nat.pow 10 (-p).toNat
  let d := den * Nat.pow 10 p.toNat
  let c := n / d
  match readsBack x c p, readsBack x (c + 1) p with
  | true, true => some (roundDiv n d)
  | true, false => some c
  | false, true => some (c + 1)
  | false, false => none

/-- The first grid point found with `k`, `k + 1`, … digits, with its exponent. -/
def firstGridPoint (x : Binary64.Finite) (top : Int) : Nat → Int → Nat × Int
  | 0, _ => (x.significand, 0)
  | fuel + 1, k =>
    let p := top - k + 1
    match gridPoint? x p with
    | some c => (c, p)
    | none => firstGridPoint x top fuel (k + 1)

/-- The digits of a positive number with the fewest digits, and the place of the point: the number
is `0.digits * 10 ^ place`. -/
def shortestDigits (x : Binary64.Finite) : List Char × Int :=
  let (num, den) := x.ratio
  let (c, p) := firstGridPoint x (floorLog10 num den) 17 1
  let ds := digitText c
  let kept := (ds.reverse.dropWhile (· == '0')).reverse
  (kept, ds.length + p)

/-- Digits with the point at the given place: positional from 10 ^ -4 up to 10 ^ 16, and otherwise
with a power of ten of two digits or more. -/
def placePoint (ds : List Char) (place : Int) : List Char :=
  if -4 < place ∧ place ≤ 16 then
    if place ≤ 0 then '0' :: '.' :: (List.replicate (-place).toNat '0' ++ ds)
    else
      let whole := ds.take place.toNat
      let rest := ds.drop place.toNat
      whole ++ List.replicate (place.toNat - whole.length) '0' ++ '.' :: (if rest = [] then ['0'] else rest)
  else
    let e := place - 1
    let es := digitText e.natAbs
    let es := List.replicate (2 - es.length) '0' ++ es
    let point := if ds.length ≤ 1 then [] else ['.']
    ds.take 1 ++ point ++ ds.drop 1 ++ 'e' :: (if e < 0 then '-' else '+') :: es

/-- The magnitude of a number with the fewest digits that read back as it. -/
def shortestMagnitude (x : Binary64.Finite) : List Char :=
  if x.isZero then ['0', '.', '0'] else let (ds, place) := shortestDigits x; placePoint ds place

/-- The shortest text that reads back as the number. -/
def shortest (x : Binary64) : String := written shortestMagnitude x

end ChatCommands.Number
