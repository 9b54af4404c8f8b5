import MidiPanel.Proofs.Surface.Painting
import Mathlib.Data.Nat.Bitwise

/-!
# Frames as images

A frame is packed row by row, each row into whole bytes, the leftmost pixel highest; an image is
read in the same order. So an image packed from a frame draws the pixels of that frame wherever the
panel has pixels, and an image drawn on a dark panel of its size packs to its own bytes again, but
for the bits behind the end of each row, which come back as zero.

Results:
* `testBit_byteAt`, `getElem?_toImageBytes`: the bits of a byte, and the bytes of a frame.
* `Bitmap.isLit_toImageBytes`: what an image packed from a frame shows.
* `PixelPanel.register_eq_ok_iff`, `PixelPanel.get?_drawBitmap`: which images are accepted, and what
  they draw.
* `PixelPanel.image_round_trip`: both round trips.
-/

namespace MidiPanel

/-! ## Bits -/

/-- Packing bits, the first one highest. -/
theorem testBit_foldl_range (bits : Nat → Bool) (n : Nat) {k : Nat} (hk : k < n) :
    ((List.range n).foldl (fun byte bit => 2 * byte + (bits bit).toNat) 0).testBit (n - 1 - k) =
      bits k := by
  induction n with
  | zero => omega
  | succ n ih =>
    rw [List.range_succ, List.foldl_append, List.foldl_cons, List.foldl_nil, ← Nat.bit_val]
    by_cases hlast : k = n
    · have hlow : n + 1 - 1 - k = 0 := by omega
      rw [hlow, Nat.testBit_bit_zero, hlast]
    · have hhigher : n + 1 - 1 - k = (n - 1 - k) + 1 := by omega
      rw [hhigher, Nat.testBit_bit_succ]
      exact ih (by omega)

theorem testBit_toNat_ofNat (n : Nat) {k : Nat} (hk : k < 8) :
    (UInt8.ofNat n).toNat.testBit k = n.testBit k := by
  show (n % 2 ^ 8).testBit k = _
  rw [Nat.testBit_mod_two_pow, decide_eq_true hk, Bool.true_and]

/-- Bytes with the same bits are the same. -/
theorem eq_of_testBit {a b : UInt8} (h : ∀ k < 8, a.toNat.testBit k = b.toNat.testBit k) :
    a = b := by
  apply UInt8.toNat_inj.mp
  apply Nat.eq_of_testBit_eq
  intro k
  by_cases hk : k < 8
  · exact h k hk
  · have hle : 2 ^ 8 ≤ 2 ^ k := Nat.pow_le_pow_right (by omega) (by omega)
    rw [Nat.testBit_lt_two_pow (Nat.lt_of_lt_of_le a.toNat_lt hle),
      Nat.testBit_lt_two_pow (Nat.lt_of_lt_of_le b.toNat_lt hle)]

namespace FrameBuffer

/-! ## Bytes -/

section Rows

variable {α : Type} (f : Nat → Nat → α) (height width : Nat)

theorem length_flatMap_rows :
    ((List.range height).flatMap fun y => (List.range width).map (f y)).length =
      height * width := by
  induction height with
  | zero => simp
  | succ height ih =>
    rw [List.range_succ, List.flatMap_append, List.length_append, ih, Nat.succ_mul]
    simp

/-- The entries of rows that stand one behind the other. -/
theorem getElem?_flatMap_rows {y i : Nat} (hy : y < height) (hi : i < width) :
    ((List.range height).flatMap fun y => (List.range width).map (f y))[y * width + i]? =
      some (f y i) := by
  induction height with
  | zero => omega
  | succ height ih =>
    rw [List.range_succ, List.flatMap_append, List.flatMap_singleton]
    have hlength := length_flatMap_rows f height width
    rcases Nat.lt_or_eq_of_le (Nat.lt_succ_iff.mp hy) with hlt | rfl
    · have hin : y * width + i < width * height := index_lt hi hlt
      have hcomm := Nat.mul_comm width height
      rw [List.getElem?_append_left (by omega)]
      exact ih hlt
    · rw [List.getElem?_append_right (by omega), hlength, Nat.add_sub_cancel_left]
      simp [hi]

end Rows

variable (fb : FrameBuffer)

theorem length_toImageBytes : fb.toImageBytes.length = fb.height * bytesPerRow fb.width :=
  length_flatMap_rows _ _ _

theorem getElem?_toImageBytes {y i : Nat} (hy : y < fb.height) (hi : i < bytesPerRow fb.width) :
    fb.toImageBytes[y * bytesPerRow fb.width + i]? = some (fb.byteAt i y) :=
  getElem?_flatMap_rows _ _ _ hy hi

theorem testBit_byteAt (i y : Nat) {bit : Nat} (hbit : bit < 8) :
    (fb.byteAt i y).toNat.testBit (7 - bit) = fb.isLit (8 * i + bit) y := by
  unfold byteAt
  rw [testBit_toNat_ofNat _ (by omega)]
  exact testBit_foldl_range (fun bit => fb.isLit (8 * i + bit) y) 8 hbit

theorem bytesPerRow_pos {width : Nat} : 0 < bytesPerRow width ↔ 0 < width := by
  unfold bytesPerRow
  omega

theorem div_lt_bytesPerRow {width x : Nat} (hx : x < width) : x / 8 < bytesPerRow width := by
  unfold bytesPerRow
  omega

end FrameBuffer

namespace Bitmap

open FrameBuffer

theorem ofBytes_eq_ok_iff {width : Nat} {data : Array UInt8} {b : Bitmap} :
    ofBytes width data = .ok b ↔
      b = ⟨width, data⟩ ∧ 0 < width ∧ 0 < data.size ∧ data.size % bytesPerRow width = 0 := by
  have hwidth : 0 < bytesPerRow width ↔ 0 < width := bytesPerRow_pos
  unfold ofBytes
  dsimp only
  split
  next hbad =>
    constructor
    · intro h
      cases h
    · rintro ⟨-, hpos, hsize, hwhole⟩
      omega
  next hgood =>
    constructor
    · intro h
      cases h
      exact ⟨rfl, by omega, by omega, by omega⟩
    · rintro ⟨rfl, -⟩
      rfl

/-- An image packed from a frame shows the pixels of the frame. -/
theorem isLit_toImageBytes (fb : FrameBuffer) {x y : Nat} (hx : x < fb.width)
    (hy : y < fb.height) :
    (Bitmap.mk fb.width fb.toImageBytes.toArray).isLit x y = fb.isLit x y := by
  unfold isLit
  dsimp only
  rw [Array.getD_eq_getD_getElem?, List.getElem?_toArray,
    getElem?_toImageBytes fb hy (div_lt_bytesPerRow hx), Option.getD_some,
    testBit_byteAt fb _ _ (Nat.mod_lt x (by omega)), Nat.div_add_mod]

end Bitmap

namespace PixelPanel

open FrameBuffer

/-! ## Images on panels -/

/-- Which images are accepted; they take the place of the one before. -/
theorem register_eq_ok_iff {lcd known : PixelPanel} {id : ImageId} {width : Nat}
    {data : Array UInt8} :
    lcd.register id width data = .ok known ↔
      (0 < width ∧ 0 < data.size ∧ data.size % bytesPerRow width = 0) ∧
        known = { lcd with images := (id, ⟨width, data⟩) :: lcd.images.filter (·.1 ≠ id) } := by
  unfold register
  cases hread : Bitmap.ofBytes width data with
  | error fault =>
    constructor
    · intro h
      cases h
    · rintro ⟨haccepted, -⟩
      have hok := Bitmap.ofBytes_eq_ok_iff.mpr ⟨rfl, haccepted⟩
      rw [hread] at hok
      cases hok
  | ok bitmap =>
    obtain ⟨rfl, haccepted⟩ := Bitmap.ofBytes_eq_ok_iff.mp hread
    constructor
    · intro h
      cases h
      exact ⟨haccepted, rfl⟩
    · rintro ⟨-, rfl⟩
      rfl

/-- An image that is accepted is drawn by its id from then on. -/
theorem perform_drawImage_of_register {lcd known : PixelPanel} {id : ImageId} {width : Nat}
    {data : Array UInt8} (h : lcd.register id width data = .ok known) :
    Surface.perform known (.drawImage id) =
      .ok { known with frame := drawBitmap lcd.frame ⟨width, data⟩ } := by
  obtain ⟨-, rfl⟩ := register_eq_ok_iff.mp h
  show perform _ (.drawImage id) = _
  simp [perform]

theorem get?_drawBitmap (fb : FrameBuffer) (b : Bitmap) (x y : Nat) :
    (drawBitmap fb b).get? x y =
      if x < b.width ∧ y < b.height then (fb.get? x y).map fun _ => b.isLit x y
      else fb.get? x y := by
  unfold drawBitmap
  rw [get?_paint]
  by_cases hin : x < b.width ∧ y < b.height
  · have hcontains : Rect.Contains ⟨0, 0, b.width, b.height⟩ x y := by
      unfold Rect.Contains
      dsimp only
      omega
    rw [if_pos hin, if_pos hcontains]
    simp
  · have hcontains : ¬Rect.Contains ⟨0, 0, b.width, b.height⟩ x y := by
      unfold Rect.Contains
      dsimp only
      omega
    rw [if_neg hin, if_neg hcontains]

/-- A frame with at least one pixel is accepted as an image of its size. -/
theorem exists_register (fb : FrameBuffer) (hwidth : 0 < fb.width) (hheight : 0 < fb.height)
    (lcd : PixelPanel) (id : ImageId) :
    (Bitmap.mk fb.width fb.toImageBytes.toArray).height = fb.height ∧
      ∃ known, lcd.register id fb.width fb.toImageBytes.toArray = .ok known := by
  have hpos : 0 < bytesPerRow fb.width := bytesPerRow_pos.mpr hwidth
  have hsize : fb.toImageBytes.toArray.size = fb.height * bytesPerRow fb.width :=
    fb.length_toImageBytes
  constructor
  · unfold Bitmap.height
    rw [hsize, Nat.mul_div_cancel _ hpos]
  · refine ⟨_, register_eq_ok_iff.mpr ⟨?_, rfl⟩⟩
    rw [hsize]
    exact ⟨hwidth, Nat.mul_pos hheight hpos, Nat.mul_mod_left _ _⟩

end PixelPanel

/-! ## Padding -/

namespace Bitmap

open FrameBuffer

/-- How many bits of a byte lie behind the end of its row. -/
def padding (width i : Nat) : Nat := 8 * (i % bytesPerRow width + 1) - width

/-- The data with the bits behind the end of each row set to zero. -/
def clearPadding (width : Nat) (data : List UInt8) : List UInt8 :=
  data.mapIdx fun i byte => .ofNat (byte.toNat >>> padding width i <<< padding width i)

theorem testBit_clearPadding (byte : UInt8) (width i : Nat) {bit : Nat} (hbit : bit < 8) :
    (UInt8.ofNat (byte.toNat >>> padding width i <<< padding width i)).toNat.testBit (7 - bit) =
      (decide (8 * (i % bytesPerRow width) + bit < width) && byte.toNat.testBit (7 - bit)) := by
  have hwithin : 8 * (i % bytesPerRow width) + bit < width ↔ padding width i ≤ 7 - bit := by
    unfold padding
    omega
  rw [testBit_toNat_ofNat _ (by omega), Nat.testBit_shiftLeft]
  by_cases hle : padding width i ≤ 7 - bit
  · rw [Nat.testBit_shiftRight]
    simp [hwithin, hle]
  · simp [hwithin, hle]

end Bitmap

namespace PixelPanel

open FrameBuffer

theorem isLit_drawBitmap_filled (b : Bitmap) (x y : Nat) :
    (drawBitmap (.filled b.width b.height false) b).isLit x y =
      (decide (x < b.width ∧ y < b.height) && b.isLit x y) := by
  have hdark := isLit_filled_false b.width b.height x y
  unfold FrameBuffer.isLit at hdark ⊢
  rw [get?_drawBitmap]
  by_cases hin : x < b.width ∧ y < b.height
  · obtain ⟨on, hon⟩ : ∃ on, (filled b.width b.height false).get? x y = some on :=
      exists_get?_eq hin
    simp [hin, hon]
  · simpa [hin] using hdark

/-- An image on a dark panel of its size packs to its own data, but for the padding. -/
theorem toImageBytes_drawBitmap {b : Bitmap} (hwidth : 0 < b.width)
    (hwhole : b.data.size % bytesPerRow b.width = 0) :
    (drawBitmap (.filled b.width b.height false) b).toImageBytes =
      Bitmap.clearPadding b.width b.data.toList := by
  have hpos : 0 < bytesPerRow b.width := bytesPerRow_pos.mpr hwidth
  have hsize : b.height * bytesPerRow b.width = b.data.size :=
    Nat.div_mul_cancel (Nat.dvd_of_mod_eq_zero hwhole)
  generalize hdrawn : drawBitmap (.filled b.width b.height false) b = drawn
  obtain ⟨hdrawnWidth, hdrawnHeight⟩ : drawn.width = b.width ∧ drawn.height = b.height := by
    rw [← hdrawn]
    exact sameSize_paint _ _ _
  apply List.ext_getElem?
  intro j
  by_cases hj : j < b.data.size
  · -- byte `j` is the byte `i` of row `y`
    obtain ⟨y, i, hi, rfl⟩ : ∃ y i, i < bytesPerRow b.width ∧ j = y * bytesPerRow b.width + i :=
      ⟨j / bytesPerRow b.width, j % bytesPerRow b.width, Nat.mod_lt j hpos,
        (Nat.div_add_mod' j _).symm⟩
    have hy : y < b.height := by
      by_contra hle
      have := Nat.mul_le_mul_right (bytesPerRow b.width) (Nat.not_lt.mp hle)
      omega
    have hpacked := drawn.getElem?_toImageBytes (hdrawnHeight ▸ hy) (hdrawnWidth ▸ hi)
    rw [hdrawnWidth] at hpacked
    rw [hpacked, Bitmap.clearPadding, List.getElem?_mapIdx, Array.getElem?_toList,
      Array.getElem?_eq_getElem hj, Option.map_some]
    refine congrArg some (eq_of_testBit ?_)
    intro k hk
    obtain ⟨bit, hbit, rfl⟩ : ∃ bit, bit < 8 ∧ k = 7 - bit := ⟨7 - k, by omega, by omega⟩
    rw [testBit_byteAt _ _ _ hbit, Bitmap.testBit_clearPadding _ _ _ hbit, ← hdrawn,
      isLit_drawBitmap_filled, Nat.mul_add_mod_self_right, Nat.mod_eq_of_lt hi]
    have hcolumn : (8 * i + bit) / 8 = i := by omega
    have hplace : (8 * i + bit) % 8 = bit := by omega
    simp only [Bitmap.isLit, hcolumn, hplace, hy, and_true]
    rw [Array.getD_eq_getD_getElem?, Array.getElem?_eq_getElem hj, Option.getD_some]
  · have hlength : drawn.toImageBytes.length = b.data.size := by
      rw [length_toImageBytes, hdrawnWidth, hdrawnHeight, hsize]
    rw [List.getElem?_eq_none (by omega), List.getElem?_eq_none]
    simpa [Bitmap.clearPadding] using hj

/-- A frame with at least one pixel is accepted as an image, by any panel and under any id, and then
drawn pixel by pixel: every pixel of the panel within the size of the frame is as in the frame, and
all others are as before. The other way round, an image that is accepted and drawn on a dark panel
of its size packs to its data with the padding of the rows cleared. -/
theorem image_round_trip :
    (∀ (fb : FrameBuffer), 0 < fb.width → 0 < fb.height → ∀ (lcd : PixelPanel) (id : ImageId),
      ∃ known drawn, lcd.register id fb.width fb.toImageBytes.toArray = .ok known ∧
        Surface.perform known (.drawImage id) = .ok drawn ∧
        ∀ x y, drawn.frame.get? x y =
          if x < fb.width ∧ y < fb.height then (lcd.frame.get? x y).bind fun _ => fb.get? x y
          else lcd.frame.get? x y) ∧
    (∀ (lcd known : PixelPanel) (id : ImageId) (width : Nat) (data : Array UInt8),
      lcd.register id width data = .ok known →
      lcd.frame = .filled width (data.size / bytesPerRow width) false →
      ∃ drawn, Surface.perform known (.drawImage id) = .ok drawn ∧
        drawn.frame.toImageBytes = Bitmap.clearPadding width data.toList) := by
  constructor
  · intro fb hwidth hheight lcd id
    obtain ⟨hsame, known, hknown⟩ := exists_register fb hwidth hheight lcd id
    refine ⟨known, _, hknown, perform_drawImage_of_register hknown, ?_⟩
    intro x y
    dsimp only
    rw [get?_drawBitmap, hsame]
    by_cases hin : x < fb.width ∧ y < fb.height
    · rw [if_pos hin, if_pos hin, Bitmap.isLit_toImageBytes fb hin.1 hin.2]
      obtain ⟨on, hon⟩ := exists_get?_eq hin
      rw [FrameBuffer.isLit, hon]
      cases lcd.frame.get? x y <;> rfl
    · rw [if_neg hin, if_neg hin]
  · intro lcd known id width data hknown hdark
    obtain ⟨⟨hwidth, -, hwhole⟩, -⟩ := register_eq_ok_iff.mp hknown
    refine ⟨_, perform_drawImage_of_register hknown, ?_⟩
    rw [hdark]
    exact toImageBytes_drawBitmap (b := ⟨width, data⟩) hwidth hwhole

/-- A frame of ten columns on a smaller panel, and an image of ten columns whose padding is set. -/
theorem image_round_trip_ten :
    let frame := ((FrameBuffer.filled 10 2 false).set 0 0 true).set 9 1 true
    let small : PixelPanel := ⟨.filled 9 1 true, [], true, 0⟩
    let dark : PixelPanel := ⟨.filled 10 2 false, [], true, 0⟩
    let data : Array UInt8 := #[0xA5, 0xFF, 0x5A, 0x7F]
    (∃ known drawn, small.register 7 10 frame.toImageBytes.toArray = .ok known ∧
      Surface.perform known (.drawImage 7) = .ok drawn ∧
      drawn.frame.get? 0 0 = some true ∧ drawn.frame.get? 8 0 = some false ∧
      drawn.frame.get? 9 1 = none) ∧
    ∃ known drawn, dark.register 7 10 data = .ok known ∧
      Surface.perform known (.drawImage 7) = .ok drawn ∧
      drawn.frame.toImageBytes = [0xA5, 0xC0, 0x5A, 0x40] := by
  intro frame small dark data
  obtain ⟨hframe, hdata⟩ := image_round_trip
  constructor
  · obtain ⟨known, drawn, hknown, hdrawn, hpixels⟩ := hframe frame (by decide) (by decide) small 7
    refine ⟨known, drawn, hknown, hdrawn, ?_, ?_, ?_⟩
    · exact (hpixels 0 0).trans (by decide)
    · exact (hpixels 8 0).trans (by decide)
    · exact (hpixels 9 1).trans (by decide)
  · obtain ⟨known, hknown⟩ : ∃ known, dark.register 7 10 data = .ok known :=
      ⟨_, register_eq_ok_iff.mpr ⟨by decide, rfl⟩⟩
    have hheight : 2 = data.size / bytesPerRow 10 := by decide
    obtain ⟨drawn, hdrawn, hbytes⟩ :=
      hdata dark known 7 10 data hknown (congrArg (filled 10 · false) hheight)
    exact ⟨known, drawn, hknown, hdrawn, hbytes.trans (by decide)⟩

end PixelPanel
end MidiPanel
