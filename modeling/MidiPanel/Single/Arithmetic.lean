import MidiPanel.Single.Basic

/-!
# Arithmetic on singles

Every operation computes the exact result as a ratio of natural numbers and rounds it once, to the
nearest single with ties to even. An exact zero sum is the positive zero unless both terms are
negative zeros; a product or quotient takes the sign that the signs of its operands give, zeros
included.
-/

namespace MidiPanel.Single

open Rounding

/-- The single nearest to a natural number. -/
def ofNat (n : Nat) : Single := ofUnits false (n * unitsPerOne) 1

instance (n : Nat) : OfNat Single n := ⟨ofNat n⟩

/-- The same magnitude with the other sign. -/
def negate : Single → Single
  | .nan => .nan
  | .infinite negative => .infinite (!negative)
  | .finite negative units fits => .finite (!negative) units fits

/-- The rounded sum of two signed magnitudes. -/
def addFinite (negative₁ : Bool) (units₁ : Nat) (negative₂ : Bool) (units₂ : Nat) : Single :=
  if negative₁ = negative₂ then ofUnits negative₁ (units₁ + units₂) 1
  else if units₂ < units₁ then ofUnits negative₁ (units₁ - units₂) 1
  else if units₁ < units₂ then ofUnits negative₂ (units₂ - units₁) 1
  else ofUnits false 0 1

/-- The sum; infinities of opposite signs have none. -/
def add : Single → Single → Single
  | .nan, _ | _, .nan => .nan
  | .infinite s, .infinite t => if s = t then .infinite s else .nan
  | .infinite s, .finite _ _ _ => .infinite s
  | .finite _ _ _, .infinite t => .infinite t
  | .finite s m _, .finite t n _ => addFinite s m t n

/-- The difference: the sum with the negated second term. -/
def sub (a b : Single) : Single := add a b.negate

/-- The product; zero times infinity has none. -/
def mul : Single → Single → Single
  | .nan, _ | _, .nan => .nan
  | .infinite s, .infinite t => .infinite (s != t)
  | .infinite s, .finite t n _ => if n = 0 then .nan else .infinite (s != t)
  | .finite s m _, .infinite t => if m = 0 then .nan else .infinite (s != t)
  | .finite s m _, .finite t n _ => ofUnits (s != t) (m * n) unitsPerOne

/-- The quotient; a nonzero single over zero is infinite, zero over zero has none. -/
def div : Single → Single → Single
  | .nan, _ | _, .nan => .nan
  | .infinite _, .infinite _ => .nan
  | .infinite s, .finite t _ _ => .infinite (s != t)
  | .finite s _ _, .infinite t => ofUnits (s != t) 0 1
  | .finite s m _, .finite t n _ =>
    if n = 0 then if m = 0 then .nan else .infinite (s != t)
    else ofUnits (s != t) (m * unitsPerOne) n

instance : Neg Single := ⟨negate⟩
instance : Add Single := ⟨add⟩
instance : Sub Single := ⟨sub⟩
instance : Mul Single := ⟨mul⟩
instance : Div Single := ⟨div⟩

/-! ## Whole numbers -/

/-- The greatest count of 32 bits. -/
def countLimit : Nat := UInt32.size - 1

/-- A count of 32 bits: `whole` turns the units of a finite magnitude into ones. Negative singles
and `nan` count zero, and what is too large counts as the greatest count. -/
def countWith (whole : Nat → Nat) : Single → Nat
  | .nan => 0
  | .infinite negative => if negative then 0 else countLimit
  | .finite negative units _ => if negative then 0 else min (whole units) countLimit

/-- The whole part as a count. -/
def truncate : Single → Nat := countWith (· / unitsPerOne)

/-- The nearest whole number as a count; a half counts as one. -/
def round : Single → Nat := countWith fun units => (units + unitsPerOne / 2) / unitsPerOne

end MidiPanel.Single
