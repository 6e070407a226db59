import Listing.Number.Arithmetic
import Listing.Number.Quotient
import Listing.Value.Equality

/-!
# Calculating with values

Numbers are calculated with in one kind: two integers, truth values among them, as integers, a
binary number and an integer as binary numbers, a decimal and an integer as decimals. A binary
number and a decimal have no kind in common, and neither has any value that is no number.
-/

namespace Listing

namespace Value

/-- The integer that a value is. -/
def integer? : Value → Option Int
  | .bool b => some (if b then 1 else 0)
  | .int n => some n
  | _ => none

/-- The binary number that a number other than a decimal is. -/
def toBinary (v : Value) : Except Error Binary64 :=
  match v, v.integer? with
  | .binary x, _ => .ok x
  | _, some n =>
    match Binary64.ofInt n with
    | .infinite _ => .error .overflow
    | x => .ok x
  | _, none => .error .wrongKind

/-- The decimal that a number other than a binary one is. -/
def toDecimal (v : Value) : Except Error Decimal :=
  match v, v.integer? with
  | .decimal d, _ => .ok d
  | _, some n => .ok (.ofInt n)
  | _, none => .error .wrongKind

/-- Is the value a decimal? -/
def isDecimal : Value → Bool
  | .decimal _ => true
  | _ => false

/-- A result of decimals, which has to have a meaning. -/
def ofDecimal? : Option Decimal → Except Error Value
  | some d => .ok (.decimal d)
  | none => .error .undefinedOrder

/-- Calculate with two numbers in the kind that they have in common. -/
def calculate (integers : Int → Int → Except Error Value)
    (binaries : Binary64 → Binary64 → Except Error Value)
    (decimals : Decimal → Decimal → Option Decimal) (a b : Value) : Except Error Value :=
  match a.integer?, b.integer? with
  | some m, some n => integers m n
  | _, _ => do
    if a.isDecimal || b.isDecimal then ofDecimal? (decimals (← a.toDecimal) (← b.toDecimal))
    else binaries (← a.toBinary) (← b.toBinary)

/-- The sum of two numbers. -/
def add : Value → Value → Except Error Value :=
  calculate (fun m n => .ok (.int (m + n))) (fun x y => .ok (.binary (x.add y))) Decimal.add?

/-- The difference of two numbers. -/
def sub : Value → Value → Except Error Value :=
  calculate (fun m n => .ok (.int (m - n))) (fun x y => .ok (.binary (x.add y.neg)))
    fun x y => x.add? y.neg

/-- The product of two numbers. -/
def mul : Value → Value → Except Error Value :=
  calculate (fun m n => .ok (.int (m * n))) (fun x y => .ok (.binary (x.mul y))) Decimal.mul?

/-- The least integer not below the quotient of two numbers, the second of which is not zero. The
quotient of two integers is rounded to a binary number. -/
def quotientCeiling (a b : Value) : Except Error Int := do
  match a.integer?, b.integer? with
  | some m, some n =>
    match Number.quotientCeiling? m n with
    | some q => return q
    | none => .error .overflow
  | _, _ =>
    if a.isDecimal || b.isDecimal then
      match (← a.toDecimal).div? (← b.toDecimal) with
      | some (.finite s c e) => return (Exact.mk s c e).ceiling
      | some (.infinite _) => .error .overflow
      | some (.nan _ _ _) => .error .badValue
      | none => .error .undefinedOrder
    else
      match (← a.toBinary).div (← b.toBinary) with
      | .finite s m e => return Number.ceiling s m e
      | .infinite _ => .error .overflow
      | .nan => .error .badValue

/-! ## Multiples -/

/-- Is the first number a multiple of the second, which is not zero? -/
def isExactMultiple (x y : Exact) : Bool :=
  let e := min x.exponent y.exponent
  let scaled := fun z : Exact => z.coefficient * Nat.pow 10 (z.exponent - e).toNat
  scaled x % scaled y == 0

/-- Is the first decimal a multiple of the second? There is no answer where the quotient has too
many digits. -/
def isDecimalMultiple (x y : Decimal) : Except Error Bool :=
  match x, y with
  | .nan _ true _, _ | _, .nan _ true _ => .error .undefinedOrder
  | .nan _ _ _, _ | _, .nan _ _ _ => .ok false
  | .infinite _, _ => .error .undefinedOrder
  | .finite _ c _, .infinite _ => .ok (c == 0)
  | .finite _ _ _, .finite _ 0 _ => .error .undefinedOrder
  | .finite _ 0 _, .finite _ _ _ => .ok true
  | .finite _ c e, .finite _ d f =>
    let digits : Int := Binary64.digitCount c + e - (Binary64.digitCount d + f)
    if digits < 0 then .ok false
    else if Decimal.precision < digits then .error .undefinedOrder
    else
      let k := min e f
      let quotient := c * Nat.pow 10 (e - k).toNat / (d * Nat.pow 10 (f - k).toNat)
      if Decimal.precision < Binary64.digitCount quotient then .error .undefinedOrder
      else .ok (isExactMultiple ⟨false, c, e⟩ ⟨false, d, f⟩)

/-- Is the first binary number a multiple of the second? -/
def isBinaryMultiple (x y : Binary64) : Except Error Bool :=
  if y.isZero then .error .divisionByZero
  else
    match x, y with
    | .finite s m e, .finite t n f => .ok (isExactMultiple (.ofBinary s m e) (.ofBinary t n f))
    | x, .infinite _ => .ok x.isZero
    | _, _ => .ok false

/-- Is the first number a multiple of the second? -/
def isMultiple (a b : Value) : Except Error Bool :=
  match a, b with
  | .decimal x, .decimal y => isDecimalMultiple x y
  | a, b =>
    match a.integer?, b.integer? with
    | some _, some 0 => .error .divisionByZero
    | some m, some n => .ok (m % n == 0)
    | _, _ => do isBinaryMultiple (← a.toBinary) (← b.toBinary)

end Value

end Listing
