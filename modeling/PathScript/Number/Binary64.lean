import PathScript.Number.Rounding

/-!
# Binary Numbers of Sixty-Four Bits

The numbers a program computes with: signed zeros, finite numbers with a
53-bit significand, two infinities and one not-a-number.

Every finite number is a whole multiple of the smallest positive one,
`2 ^ (-1074)`, called a *quantum* here. Arithmetic is therefore exact integer
arithmetic on quanta followed by one rounding, and no operation needs a
rounding analysis of its own: `ofRatio` is the single place where precision
is lost.

Magnitudes are stored by their position in increasing order. Position `0` is
zero, the first `2 ^ 52` positions step by one quantum, and each following
block of `2 ^ 52` positions doubles the step. This makes the representation
canonical, so that two finite numbers are equal exactly when sign and
position agree, and it lets a rounding that carries into the next block come
out right without a separate case: position `k * 2 ^ 52 + m` means `m` steps
of `2 ^ k` quanta, whether or not `m` has reached the next power of two.

## Main definitions

* `Binary64`: The numbers themselves.
* `Binary64.quantaAt`: The magnitude at a position, in quanta.
* `Binary64.ofRatio`: The number nearest to a ratio of quanta.
* `Binary64.add`, `Binary64.sub`, `Binary64.mul`, `Binary64.div`,
  `Binary64.neg`, `Binary64.abs`: Arithmetic.
* `Binary64.order?`: The order, undefined on not-a-number.
* `Binary64.isInteger`, `Binary64.truncate?`: Integral numbers and the integer
  part.

## Theorems

* `Binary64.eq_of_place`: Numbers at one place are equal.
-/

namespace PathScript

/-- The number of finite magnitudes: one block of the smallest ones and 2046
    blocks that each double the step. -/
def finiteMagnitudes : Nat := 2047 * twoTo 52

/-- A binary number of sixty-four bits. A finite magnitude is given by its
    position in increasing order. -/
inductive Binary64 where
  | finite (negative : Bool) (position : Fin finiteMagnitudes)
  | infinite (negative : Bool)
  | nan
  deriving DecidableEq

namespace Binary64

/-- The magnitude at a position, in quanta. -/
def quantaAt (position : Nat) : Nat :=
  if position < twoTo 52 then position
  else (twoTo 52 + position % twoTo 52) * twoTo (position / twoTo 52 - 1)

/-- The number one, in quanta. -/
def quantaPerOne : Nat := twoTo 1074

/-- The position nearest to `num / den` quanta. It may lie beyond the finite
    ones. The step is chosen so that the rounded count of steps has at most
    53 bits. -/
def nearestPosition (num den : Nat) : Nat :=
  let scale := (num / den).log2 - 52
  scale * twoTo 52 + roundHalfEven num (den * twoTo scale)

/-- The number nearest to `num / den` quanta, with the given sign; too large a
    ratio goes to infinity. -/
def ofRatio (negative : Bool) (num den : Nat) : Binary64 :=
  if h : nearestPosition num den < finiteMagnitudes then
    .finite negative ⟨nearestPosition num den, h⟩
  else .infinite negative

/-- Zero with the given sign. -/
def zero (negative : Bool) : Binary64 :=
  .finite negative ⟨0, by decide⟩

/-- The number nearest to an integer. -/
def ofInt (n : Int) : Binary64 :=
  ofRatio (decide (n < 0)) (n.natAbs * quantaPerOne) 1

/-- The number one. -/
def one : Binary64 := ofInt 1

/-- Whether a number is neither infinite nor not-a-number. -/
def isFinite : Binary64 → Bool
  | .finite _ _ => true
  | _ => false

/-- The number with its sign turned round. -/
def neg : Binary64 → Binary64
  | .finite negative position => .finite (!negative) position
  | .infinite negative => .infinite (!negative)
  | .nan => .nan

/-- The number without its sign. -/
def abs : Binary64 → Binary64
  | .finite _ position => .finite false position
  | .infinite _ => .infinite false
  | .nan => .nan

/-- The number nearest to a whole count of quanta. A count of zero takes the
    sign given. -/
def ofQuanta (zeroNegative : Bool) (quanta : Int) : Binary64 :=
  if quanta = 0 then zero zeroNegative
  else ofRatio (decide (quanta < 0)) quanta.natAbs 1

/-- The sum. Opposite infinities have none, and a sum of zero is negative only
    if both terms are. -/
def add : Binary64 → Binary64 → Binary64
  | .finite s p, .finite t q =>
      ofQuanta (s && t) (signed s (quantaAt p) + signed t (quantaAt q))
  | .finite _ _, .infinite t => .infinite t
  | .infinite s, .finite _ _ => .infinite s
  | .infinite s, .infinite t => if s = t then .infinite s else .nan
  | .nan, _ => .nan
  | _, .nan => .nan

/-- The difference. -/
def sub (x y : Binary64) : Binary64 := x.add y.neg

/-- The product. Infinity times zero has none. -/
def mul : Binary64 → Binary64 → Binary64
  | .finite s p, .finite t q =>
      ofRatio (s != t) (quantaAt p * quantaAt q) quantaPerOne
  | .finite s p, .infinite t => if quantaAt p = 0 then .nan else .infinite (s != t)
  | .infinite s, .finite t q => if quantaAt q = 0 then .nan else .infinite (s != t)
  | .infinite s, .infinite t => .infinite (s != t)
  | .nan, _ => .nan
  | _, .nan => .nan

/-- The quotient. Zero by zero and infinity by infinity have none, and any
    other number by zero is infinite. -/
def div : Binary64 → Binary64 → Binary64
  | .finite s p, .finite t q =>
      if quantaAt q = 0 then
        if quantaAt p = 0 then .nan else .infinite (s != t)
      else ofRatio (s != t) (quantaAt p * quantaPerOne) (quantaAt q)
  | .finite s _, .infinite t => zero (s != t)
  | .infinite s, .finite t _ => .infinite (s != t)
  | .infinite _, .infinite _ => .nan
  | .nan, _ => .nan
  | _, .nan => .nan

/-- A number's place on the integer line, in quanta. The infinities lie just
    beyond the finite numbers and not-a-number has no place. -/
def place? : Binary64 → Option Int
  | .finite negative position => some (signed negative (quantaAt position))
  | .infinite negative => some (signed negative (quantaAt finiteMagnitudes))
  | .nan => none

/-- How two numbers compare; the signed zeros are equal and not-a-number
    compares with nothing. -/
def order? (x y : Binary64) : Option Ordering :=
  match x.place?, y.place? with
  | some a, some b => some (compare a b)
  | _, _ => none

/-- Numerical equality: the signed zeros are equal, not-a-number differs from
    everything. -/
def eq (x y : Binary64) : Bool := x.order? y == some .eq

/-- Numbers at one place are equal. -/
theorem eq_of_place {x y : Binary64} {a : Int} (hx : x.place? = some a) (hy : y.place? = some a) :
    x.eq y = true := by
  have hcompare : compare a a = Ordering.eq := Std.ReflCmp.compare_self
  simp only [eq, order?, hx, hy, hcompare, beq_self_eq_true]

/-- Whether the first number is below the second. -/
def lt (x y : Binary64) : Bool := x.order? y == some .lt

/-- Whether the first number is at most the second. -/
def le (x y : Binary64) : Bool := x.lt y || x.eq y

/-- Whether a number is finite and has no fraction. -/
def isInteger : Binary64 → Bool
  | .finite _ position => quantaAt position % quantaPerOne == 0
  | _ => false

/-- The integer part of a finite number, with its sign. -/
def truncate? : Binary64 → Option Int
  | .finite negative position => some (signed negative (quantaAt position / quantaPerOne))
  | _ => none

/-- The integer that a number is, if it is one. -/
def toInt? (x : Binary64) : Option Int :=
  if x.isInteger then x.truncate? else none

end Binary64

end PathScript
