import Addon.Number.Division
import Addon.Number.Power
import Addon.Value.Fault

/-!
# Arithmetic

Arithmetic on integers of any size and on doubles. An integer meets a double as the nearest double,
which has to exist.
-/

namespace Addon

/-- A number that takes part in arithmetic. Booleans do not. -/
inductive Number.Operand where
  | int (n : Int)
  | float (x : Float)

namespace Value

/-- The operand of a value that is one. -/
def operand? : Value → Option Number.Operand
  | .int n => some (.int n)
  | .float x => some (.float x)
  | .nan _ => some (.float Number.notANumber)
  | _ => none

end Value

namespace Number.Operand

/-- The double nearest to an operand. -/
def toFloat : Operand → Except Fault Float
  | .int n => match ofInt? n with
    | some x => .ok x
    | none => .error .overflow
  | .float x => .ok x

/-- Applies one operation to integers and another to doubles. -/
def lift (ints : Int → Int → Int) (floats : Float → Float → Float) :
    Operand → Operand → Except Fault Value
  | .int n, .int m => .ok (.int (ints n m))
  | a, b => do
    let x ← a.toFloat
    let y ← b.toFloat
    return .float (floats x y)

def add : Operand → Operand → Except Fault Value :=
  lift (· + ·) (· + ·)

def sub : Operand → Operand → Except Fault Value :=
  lift (· - ·) (· - ·)

def mul : Operand → Operand → Except Fault Value :=
  lift (· * ·) (· * ·)

/-- The quotient as a double. -/
def div : Operand → Operand → Except Fault Value
  | .int n, .int m =>
    if m = 0 then .error .divisionByZero
    else match ofQuotient? n m with
      | some x => .ok (.float x)
      | none => .error .overflow
  | a, b => do
    let x ← a.toFloat
    let y ← b.toFloat
    if y == 0 then throw .divisionByZero else return .float (x / y)

/-- The quotient rounded down. -/
def floorDiv : Operand → Operand → Except Fault Value
  | .int n, .int m => if m = 0 then .error .divisionByZero else .ok (.int (n.fdiv m))
  | a, b => do
    let x ← a.toFloat
    let y ← b.toFloat
    if y == 0 then throw .divisionByZero else return .float (flooredQuotient x y)

/-- The remainder of the quotient rounded down. -/
def mod : Operand → Operand → Except Fault Value
  | .int n, .int m => if m = 0 then .error .divisionByZero else .ok (.int (n.fmod m))
  | a, b => do
    let x ← a.toFloat
    let y ← b.toFloat
    if y == 0 then throw .divisionByZero else return .float (flooredRemainder x y)

/-- The power of two doubles as a value. -/
def floatPow (x y : Float) : Except Fault Value :=
  match power x y with
  | .real z => .ok (.float z)
  | .complex re im => .ok (.complex re im)
  | .divisionByZero => .error .divisionByZero
  | .overflow => .error .overflow

/-- The number of bits of an integer that fits into memory. -/
def maxBits : Nat := twoPow 32

/-- The power of an integer. Powers of zero, one and minus one have any exponent. -/
def intPow (n : Int) (m : Nat) : Except Fault Int :=
  if n.natAbs ≤ 1 then .ok (if m = 0 || n = -1 && m % 2 = 0 then 1 else n)
  else if maxBits < m * n.natAbs.log2 then .error .outOfMemory
  else
    let size : Int := Nat.pow n.natAbs m
    .ok (if n < 0 && m % 2 = 1 then -size else size)

/-- The power; an integer one only when the exponent is not negative. -/
def pow : Operand → Operand → Except Fault Value
  | .int n, .int m => if 0 ≤ m then (intPow n m.toNat).map .int else do
    let x ← (int n).toFloat
    let y ← (int m).toFloat
    floatPow x y
  | a, b => do
    let x ← a.toFloat
    let y ← b.toFloat
    floatPow x y

/-- The operand with its sign turned. -/
def neg : Operand → Value
  | .int n => .int (-n)
  | .float x => .float (-x)

end Number.Operand

namespace Value

/-- One more than the largest index. -/
def indexBound : Int := Number.twoPow 63

/-- The number of items that fits into memory. -/
def maxItems : Nat := Number.twoPow 30

/-- Items repeated so many times. `tooLong` is the fault of a result that no index could reach. -/
def repeated {α : Type} (tooLong : Fault) (items : List α) (count : Int) : Except Fault (List α) :=
  if count < -indexBound || indexBound ≤ count then .error .overflow
  else if items.isEmpty then .ok []
  else if indexBound ≤ items.length * count then .error tooLong
  else if maxItems < items.length * count.toNat then .error .outOfMemory
  else .ok (List.replicate count.toNat items).flatten

end Value

end Addon
