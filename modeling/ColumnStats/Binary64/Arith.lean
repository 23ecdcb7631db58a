import ColumnStats.Binary64.Basic

/-!
# Arithmetic on 64-bit numbers

Every operation forms the exact result as a fraction of units and rounds it once. What has no
number as its result (opposite infinities added, zero times infinity, a negative root) is NaN.

* `neg_neg`: negation is an involution;
* `add_comm`, `mul_comm`: sums and products do not depend on the order of two numbers;
* `nan_add`, `add_nan`, `sub_nan`, `nan_mul`, `nan_div`, `sqrt_nan`: what is done with NaN gives NaN;
* `finite_add_finite` and the like: the operations case by case.
-/

namespace ColumnStats.Binary64

/-! ## Sums -/

/-- The count of units with its sign. -/
def signed (negative : Bool) (units : Nat) : Int := if negative then -units else units

/-- A sum that is exactly zero is negative only where both terms are. -/
def add : Binary64 → Binary64 → Binary64
  | nan, _ => nan
  | _, nan => nan
  | infinite s, infinite t => if s = t then infinite s else nan
  | infinite s, finite _ _ _ => infinite s
  | finite _ _ _, infinite t => infinite t
  | finite s m _, finite t n _ =>
    let sum := signed s m + signed t n
    if sum = 0 then zero (s && t) else ofFraction (sum < 0) sum.natAbs 1

instance : Add Binary64 := ⟨add⟩

/-- A difference is the sum with the other sign. -/
def sub (x y : Binary64) : Binary64 := x + -y

instance : Sub Binary64 := ⟨sub⟩

/-! ## Products and quotients -/

/-- The sign of a product is negative where the signs of its factors differ. -/
def mul : Binary64 → Binary64 → Binary64
  | nan, _ => nan
  | _, nan => nan
  | infinite s, infinite t => infinite (s ^^ t)
  | infinite s, finite t n _ => if n = 0 then nan else infinite (s ^^ t)
  | finite s m _, infinite t => if m = 0 then nan else infinite (s ^^ t)
  | finite s m _, finite t n _ => ofFraction (s ^^ t) (m * n) unitsPerOne

instance : Mul Binary64 := ⟨mul⟩

/-- Zero divided by zero is NaN; all else divided by zero is infinite. -/
def div : Binary64 → Binary64 → Binary64
  | nan, _ => nan
  | _, nan => nan
  | infinite _, infinite _ => nan
  | infinite s, finite t _ _ => infinite (s ^^ t)
  | finite s _ _, infinite t => zero (s ^^ t)
  | finite s m _, finite t n _ =>
    if n = 0 then (if m = 0 then nan else infinite (s ^^ t))
    else ofFraction (s ^^ t) (m * unitsPerOne) n

instance : Div Binary64 := ⟨div⟩

/-! ## Square roots -/

/-- The root of `n` units has `√(n * 2 ^ 1074)` units. Its whole part has more than 500 bits unless
`n = 0`, so a root that is not whole may be rounded as if it lay halfway to the next count. -/
def sqrtUnits (n : Nat) : Binary64 :=
  let square := n * unitsPerOne
  let root := square.sqrt
  ofFraction false (2 * root + if root * root = square then 0 else 1) 2

/-- The root of a zero is that zero; other negative numbers have none. -/
def sqrt : Binary64 → Binary64
  | nan => nan
  | infinite negative => if negative then nan else infinite false
  | finite negative n h =>
    if n = 0 then finite negative n h else if negative then nan else sqrtUnits n

/-! ## Laws -/

protected theorem neg_neg (x : Binary64) : - -x = x := by
  cases x <;> simp [Neg.neg, neg]

protected theorem add_comm (x y : Binary64) : x + y = y + x := by
  change add x y = add y x
  cases x <;> cases y <;> simp only [add]
  · split <;> simp_all [eq_comm]
  · rw [Int.add_comm, Bool.and_comm]

protected theorem mul_comm (x y : Binary64) : x * y = y * x := by
  change mul x y = mul y x
  cases x <;> cases y <;> simp only [mul, Bool.xor_comm, Nat.mul_comm]

/-! ## NaN -/

@[simp] protected theorem nan_add (x : Binary64) : nan + x = nan := rfl

@[simp] protected theorem add_nan (x : Binary64) : x + nan = nan := by
  cases x <;> rfl

@[simp] protected theorem sub_nan (x : Binary64) : x - nan = nan := x.add_nan

@[simp] protected theorem nan_sub (x : Binary64) : nan - x = nan := rfl

@[simp] protected theorem nan_mul (x : Binary64) : nan * x = nan := rfl

@[simp] protected theorem nan_div (x : Binary64) : nan / x = nan := rfl

@[simp] theorem sqrt_nan : sqrt nan = nan := rfl

/-! ## Cases -/

section Cases

variable {s t : Bool} {m n : Nat} {hm : Representable m} {hn : Representable n}

theorem infinite_add_infinite :
    infinite s + infinite t = if s = t then infinite s else nan := rfl

theorem infinite_add_finite : infinite s + finite t n hn = infinite s := rfl

theorem finite_add_finite : finite s m hm + finite t n hn =
    if signed s m + signed t n = 0 then zero (s && t)
    else ofFraction (signed s m + signed t n < 0) (signed s m + signed t n).natAbs 1 := rfl

theorem infinite_mul_infinite : infinite s * infinite t = infinite (s ^^ t) := rfl

theorem infinite_mul_finite :
    infinite s * finite t n hn = if n = 0 then nan else infinite (s ^^ t) := rfl

theorem finite_mul_finite :
    finite s m hm * finite t n hn = ofFraction (s ^^ t) (m * n) unitsPerOne := by
  change mul _ _ = _
  rw [mul]

theorem infinite_div_finite : infinite s / finite t n hn = infinite (s ^^ t) := rfl

theorem finite_div_finite (h : n ≠ 0) :
    finite s m hm / finite t n hn = ofFraction (s ^^ t) (m * unitsPerOne) n := if_neg h

theorem sqrt_finite : sqrt (finite s m hm) =
    if m = 0 then finite s m hm else if s then nan else sqrtUnits m := rfl

end Cases

end ColumnStats.Binary64
