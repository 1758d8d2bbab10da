set_option autoImplicit false

/-!
# Numbers of binary64

A finite binary64 number is a sign, a significand below 2 ^ 53 and a power of
two from 2 ^ -1074 up to 2 ^ 971. `ofRatio` rounds an exact quotient to the
nearest such number, an exact tie to the even significand; a quotient beyond the
range becomes infinite. Besides there is the result of operations that have none,
such as the difference of infinities. Everything is computed in exact integers.
-/
namespace ChatCommands

/-- The integer nearest to `num / den`; of two equally near ones the even one. -/
def roundDiv (num den : Nat) : Nat :=
  let q := num / den
  let twice := 2 * (num % den)
  if twice > den || (twice == den && q % 2 == 1) then q + 1 else q

/-- The number `significand * 2 ^ exponent`, negated if `negative`. -/
structure Binary64.Finite where
  negative : Bool
  significand : Nat
  exponent : Int
  deriving DecidableEq, Repr, Inhabited

inductive Binary64 where
  | finite (x : Binary64.Finite)
  | infinite (negative : Bool)
  /-- not a number -/
  | undefined
  deriving DecidableEq, Repr

namespace Binary64

def leastExponent : Int := -1074
def greatestExponent : Int := 971
def precision : Nat := 53

def zero (negative : Bool) : Binary64 := .finite ⟨negative, 0, leastExponent⟩

instance : Inhabited Binary64 := ⟨zero false⟩

/-- `num * 2 ^ -e` over `den`, as a numerator and a denominator. -/
def scaled (num den : Nat) (e : Int) : Nat × Nat := (num * Nat.pow 2 (-e).toNat, den * Nat.pow 2 e.toNat)

/-- The greatest `k` with `2 ^ k ≤ num / den`, for positive `num` and `den`. -/
def floorLog2 (num den : Nat) : Int :=
  let k : Int := (num.log2 : Int) - den.log2
  let (n, d) := scaled num den k
  if n < d then k - 1 else k

/-- The nearest number of the form `significand * 2 ^ e` with 53 bits, whatever its size. -/
def nearest (num den : Nat) : Nat × Int :=
  let e := max leastExponent (floorLog2 num den - (precision - 1 : Nat))
  let (n, d) := scaled num den e
  let q := roundDiv n d
  if q = Nat.pow 2 precision then (Nat.pow 2 (precision - 1), e + 1) else (q, e)

/-- The quotient `num / den` of a positive `den`, rounded. -/
def ofRatio (negative : Bool) (num den : Nat) : Binary64 :=
  if num = 0 then zero negative
  else
    let (m, e) := nearest num den
    if e > greatestExponent then .infinite negative else .finite ⟨negative, m, e⟩

namespace Finite

/-- The magnitude as a numerator and a denominator. -/
def ratio (x : Finite) : Nat × Nat :=
  (x.significand * Nat.pow 2 x.exponent.toNat, Nat.pow 2 (-x.exponent).toNat)

def toRat (x : Finite) : Rat :=
  let m := mkRat x.ratio.1 x.ratio.2
  if x.negative then -m else m

def isZero (x : Finite) : Bool := x.significand == 0

/-- The sixty-three bits after the sign, as a number. -/
def bits (x : Finite) : Nat :=
  let hidden := Nat.pow 2 (precision - 1)
  if x.significand < hidden then x.significand
  else (x.exponent - leastExponent + 1).toNat * hidden + (x.significand - hidden)

end Finite

def ofRat (q : Rat) : Binary64 := ofRatio (q < 0) q.num.natAbs q.den

/-- The number, unless it is infinite or undefined. -/
def finite? : Binary64 → Option Finite
  | .finite x => some x
  | _ => none

def ofInt? (n : Int) : Option Binary64 := (ofRat n).finite?.map .finite

def isZero : Binary64 → Bool
  | .finite x => x.isZero
  | _ => false

def isNegative : Binary64 → Bool
  | .finite x => x.negative
  | .infinite negative => negative
  | .undefined => false

def neg : Binary64 → Binary64
  | .finite x => .finite { x with negative := !x.negative }
  | .infinite negative => .infinite !negative
  | .undefined => .undefined

/-- The rounded sum. It is a negative zero only if both are. -/
def add : Binary64 → Binary64 → Binary64
  | .finite x, .finite y =>
    let sum := x.toRat + y.toRat
    if sum = 0 then zero (x.isZero && x.negative && y.negative) else ofRat sum
  | .infinite s, .infinite t => if s = t then .infinite s else .undefined
  | .infinite s, .finite _ | .finite _, .infinite s => .infinite s
  | .undefined, _ | _, .undefined => .undefined

def sub (x y : Binary64) : Binary64 := x.add y.neg

/-- The rounded product with a quotient of positive numbers. -/
def timesRatio (num den : Nat) : Binary64 → Binary64
  | .finite x => ofRatio x.negative (x.ratio.1 * num) (x.ratio.2 * den)
  | x => x

/-- The exact value; infinities are taken to lie just beyond the range. -/
def toRat : Binary64 → Rat
  | .finite x => x.toRat
  | .infinite negative => if negative then -(Nat.pow 2 1024 : Nat) else (Nat.pow 2 1024 : Nat)
  | .undefined => 0

/-- Whether the number is less than an exact one. -/
def below (bound : Rat) : Binary64 → Bool
  | .finite x => x.toRat < bound
  | .infinite negative => negative
  | .undefined => false

def bits (x : Binary64) : Nat :=
  let hidden := Nat.pow 2 (precision - 1)
  let magnitude := match x with
    | .finite x => x.bits
    | .infinite _ => 2047 * hidden
    | .undefined => 2047 * hidden + Nat.pow 2 (precision - 2)
  if x.isNegative then Nat.pow 2 63 + magnitude else magnitude

end Binary64
end ChatCommands
