import MidiPanel.Single.Rounding

/-!
# Single-precision numbers

A single is not a number, an infinity, or a signed magnitude counted in units of `2 ^ -149`, the
smallest positive single. A magnitude has at most 24 significant bits and stays below `2 ^ 128`,
which is what makes it representable. Both zeros are kept apart.

The bit patterns are those of IEEE 754: one sign bit, eight exponent bits, 23 fraction bits. All
patterns that stand for "not a number" are read as one value.

The order compares values, so both zeros are equal in it, and nothing is comparable with `nan`.
-/

namespace MidiPanel

open Rounding

/-- The number of units in one. -/
def Single.unitsPerOne : Nat := 1 <<< 149

/-- One past the greatest magnitude of a finite single, in units. -/
def Single.limit : Nat := Single.unitsPerOne <<< 128

/-- The magnitudes of finite singles, in units of `2 ^ -149`. -/
def Single.Fits (units : Nat) : Prop := HasPrecision 24 units ∧ units < Single.limit

/-- A single-precision number; `units` counts multiples of `2 ^ -149`. -/
inductive Single where
  | nan
  | infinite (negative : Bool)
  | finite (negative : Bool) (units : Nat) (fits : Single.Fits units)
  deriving DecidableEq

namespace Single

/-- The single nearest to `± num / den` units; what exceeds every finite single is infinite. -/
def ofUnits (negative : Bool) (num den : Nat) : Single :=
  let units := toPrecision 24 num den
  if h : units < limit then
    .finite negative units ⟨hasPrecision_toPrecision (by decide) num den, h⟩
  else .infinite negative

instance : Inhabited Single := ⟨ofUnits false 0 1⟩

/-! ## Bit patterns -/

theorem shift_le_shift {j k : Nat} (h : j ≤ k) : 1 <<< j ≤ 1 <<< k := by
  rw [Nat.one_shiftLeft, Nat.one_shiftLeft]
  exact Nat.pow_le_pow_right (by decide) h

theorem shift_le_limit {k : Nat} (h : k ≤ 149 + 128) : 1 <<< k ≤ limit :=
  Nat.le_trans (shift_le_shift h) (Nat.le_of_eq (Nat.shiftLeft_add 1 149 128))

theorem fits_subnormal {f : Nat} (h : f < 1 <<< 23) : Fits f :=
  ⟨⟨f, 0, Nat.lt_of_lt_of_le h (by decide), rfl⟩,
    Nat.lt_of_lt_of_le h (shift_le_limit (by decide))⟩

theorem fits_normal {f e : Nat} (hf : f < 1 <<< 23) (he : e < 254) :
    Fits ((1 <<< 23 + f) <<< e) := by
  have hm : 1 <<< 23 + f < 1 <<< 24 := by omega
  refine ⟨⟨1 <<< 23 + f, e, hm, rfl⟩, Nat.lt_of_lt_of_le ?_ (shift_le_limit (k := 24 + e) (by omega))⟩
  rw [Nat.shiftLeft_add, Nat.shiftLeft_eq _ e, Nat.shiftLeft_eq _ e]
  exact Nat.mul_lt_mul_of_pos_right hm (Nat.two_pow_pos e)

/-- The single with this bit pattern. -/
def ofBits (bits : UInt32) : Single :=
  let negative := 0x80000000 ≤ bits.toNat
  let exponent := bits.toNat >>> 23 % 0x100
  let fraction := bits.toNat % (1 <<< 23)
  have hf : fraction < 1 <<< 23 := Nat.mod_lt _ (by decide)
  if exponent = 0 then .finite negative fraction (fits_subnormal hf)
  else if h : exponent < 255 then
    .finite negative ((1 <<< 23 + fraction) <<< (exponent - 1)) (fits_normal hf (by omega))
  else if fraction = 0 then .infinite negative
  else .nan

/-- The exponent and fraction bits of a finite magnitude. A normal magnitude is `m <<< k` with a
24-bit `m`, whose top bit adds the missing one to the exponent. -/
def magnitudeBits (units : Nat) : Nat :=
  if units < 1 <<< 23 then units
  else
    let k := units.log2 - 23
    k <<< 23 + units >>> k

/-- The bit pattern; the quiet pattern `7fc00000` for `nan`. -/
def toBits : Single → UInt32
  | .nan => 0x7FC00000
  | .infinite negative => if negative then 0xFF800000 else 0x7F800000
  | .finite negative units _ =>
    UInt32.ofNat ((if negative then 0x80000000 else 0) + magnitudeBits units)

/-! ## Order -/

/-- The value in units, with infinity just past every finite magnitude; `none` for `nan`. -/
def rank : Single → Option Int
  | .nan => none
  | .infinite negative => some (if negative then -limit else limit)
  | .finite negative units _ => some (if negative then -units else units)

/-- Holds if both ranks exist and `r` relates them. -/
def compareWith (r : Int → Int → Bool) (a b : Single) : Bool :=
  match a.rank, b.rank with
  | some x, some y => r x y
  | _, _ => false

instance : LT Single := ⟨fun a b => a.compareWith (fun x y => decide (x < y)) b = true⟩

instance : LE Single := ⟨fun a b => a.compareWith (fun x y => decide (x ≤ y)) b = true⟩

instance (a b : Single) : Decidable (a < b) := inferInstanceAs (Decidable (_ = true))

instance (a b : Single) : Decidable (a ≤ b) := inferInstanceAs (Decidable (_ = true))

/-- Neither an infinity nor `nan`. -/
def isFinite : Single → Bool
  | .finite _ _ _ => true
  | _ => false

/-- The greater of two singles; the other one if one of them is `nan`. -/
def maximum : Single → Single → Single
  | .nan, b => b
  | a, .nan => a
  | a, b => if a < b then b else a

/-- The lesser of two singles; the other one if one of them is `nan`. -/
def minimum : Single → Single → Single
  | .nan, b => b
  | a, .nan => a
  | a, b => if b < a then b else a

/-- `x` moved into the interval from `low` to `high`; `nan` stays `nan`. -/
def clamp (x low high : Single) : Single :=
  let raised := if x < low then low else x
  if high < raised then high else raised

end Single
end MidiPanel
