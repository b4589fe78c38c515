import Mathlib.Algebra.Group.Nat.Defs
import Mathlib.Data.Nat.Basic

namespace Fectp

/-!
# Binary floating point

A value is a whole number of the smallest unit of its format.  An operation is
computed exactly and then rounded to the nearest value with so many significant
bits, and to the one with an even last bit if two are as near.  Values have no
upper end, so nothing overflows.
-/

structure FloatFormat where
  /-- How many significant bits a value has. -/
  precision : Nat
  /-- How many bits after the point the smallest unit has. -/
  scale : Nat

namespace FloatFormat

def single : FloatFormat := ⟨24, 149⟩

def double : FloatFormat := ⟨53, 1074⟩

/-- The whole number nearest to a quotient. -/
def nearest (numerator denominator : Nat) : Nat :=
  let quotient := numerator / denominator
  let rest := numerator % denominator
  if 2 * rest < denominator then quotient
  else if denominator < 2 * rest then quotient + 1
  else quotient + quotient % 2

variable (format : FloatFormat)

def one : Nat :=
  2 ^ format.scale

/-- The value nearest to a quotient that is not negative. -/
def magnitude (numerator denominator : Nat) : Nat :=
  let spacing :=
    2 ^ ((numerator / denominator).log2 + 1 - format.precision)
  nearest numerator (denominator * spacing) * spacing

/-- The value nearest to a quotient. -/
def round (numerator : Int) (denominator : Nat) : Int :=
  match numerator with
  | .ofNat above =>
      format.magnitude above denominator
  | .negSucc below =>
      -format.magnitude (below + 1) denominator

def ofNat (number : Nat) : Int :=
  format.round (number * format.one : Nat) 1

def add (first second : Int) : Int :=
  format.round (first + second) 1

def sub (first second : Int) : Int :=
  format.round (first - second) 1

def mul (first second : Int) : Int :=
  format.round (first * second) format.one

/-- One value divided by another that is positive. -/
def div (first second : Int) : Int :=
  format.round (first * format.one) second.toNat

/-- A number of nanoseconds, in seconds: the whole ones and the rest apart. -/
def seconds (nanoseconds : Nat) : Int :=
  format.add (format.ofNat (nanoseconds / 1000000000))
    (format.div (format.ofNat (nanoseconds % 1000000000))
      (format.ofNat 1000000000))

end FloatFormat

end Fectp
