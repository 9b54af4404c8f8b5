import MidiPanel.Proofs.Surface.Painting

/-!
# Filling a rectangle

Filling a rectangle gives the pixels that it shares with a buffer its colour. Two other ways to do
so come to the same buffer. One plots every point of the rectangle, those outside the buffer too, in
whatever order. The other cuts the rectangle down to the buffer and fills one slice of the stored
pixels for each row that is left; every slice lies in the store, wherever the rectangle lies.

How two rectangles are intersected, and which is the last point of one, is left open: `Clipping`
has both as parameters, `Clipping.Exact` what is relied on.

Results:
* `ext_get?`: buffers of one size with the same pixels are the same.
* `eq_fill`: what makes a buffer a filled one.
* `get?_plotAll`, `plotAll_eq_fill`: every pixel behind plotted points.
* `get?_fillSlice?`, `fillRows?_eq_fill`: every pixel behind a slice, and behind those of all rows.
* `fill_agrees`: the three ways to fill a rectangle.
-/

namespace MidiPanel

/-! ## Clipping -/

/-- A rectangle with signed words of 32 bits for its corners and unsigned ones for its size. -/
structure Rect.Fits (area : Rect) : Prop where
  left : -0x80000000 ≤ area.left
  top : -0x80000000 ≤ area.top
  right : area.left + area.width ≤ 0x80000000
  bottom : area.top + area.height ≤ 0x80000000
  width : area.width < UInt32.size
  height : area.height < UInt32.size

/-- How rectangles are clipped: what two of them share, and the last point of one that has points.
-/
structure Clipping where
  intersection : Rect → Rect → Rect
  bottomRight? : Rect → Option (Int × Int)

/-- For all rectangles that fit in words: the intersection does so too and has the points that both
have; the last point is that in the last column of the last row, and an empty rectangle has none. -/
structure Clipping.Exact (clipping : Clipping) : Prop where
  fits_intersection {area area' : Rect} (h : area.Fits) (h' : area'.Fits) :
    (clipping.intersection area area').Fits
  contains_intersection {area area' : Rect} (h : area.Fits) (h' : area'.Fits) (x y : Int) :
    (clipping.intersection area area').Contains x y ↔ area.Contains x y ∧ area'.Contains x y
  bottomRight?_eq {area : Rect} (h : area.Fits) : clipping.bottomRight? area =
    if area.width = 0 ∨ area.height = 0 then none
    else some (area.left + area.width - 1, area.top + area.height - 1)

namespace Clipping

/-- Takes the inner one of each pair of edges; rectangles that share nothing share an empty one. -/
def byEdges : Clipping where
  intersection area area' :=
    let left := max area.left area'.left
    let top := max area.top area'.top
    let right := min (area.left + area.width) (area'.left + area'.width)
    let bottom := min (area.top + area.height) (area'.top + area'.height)
    if left < right ∧ top < bottom then ⟨left, top, (right - left).toNat, (bottom - top).toNat⟩
    else ⟨0, 0, 0, 0⟩
  bottomRight? area :=
    if area.width = 0 ∨ area.height = 0 then none
    else some (area.left + area.width - 1, area.top + area.height - 1)

theorem byEdges_exact : byEdges.Exact where
  fits_intersection := by
    rintro area area' ⟨hleft, htop, hright, hbottom, hwidth, hheight⟩ -
    unfold byEdges
    dsimp only
    split
    · constructor <;> dsimp only <;> omega
    · constructor <;> decide
  contains_intersection := by
    intro area area' _ _ x y
    unfold byEdges
    dsimp only
    split
    · unfold Rect.Contains
      dsimp only
      omega
    · unfold Rect.Contains
      dsimp only
      omega
  bottomRight?_eq _ := rfl

end Clipping

theorem Rect.mem_points {area : Rect} {p : Int × Int} :
    p ∈ area.points ↔ area.Contains p.1 p.2 := by
  unfold points Contains
  simp only [List.mem_flatMap, List.mem_map, List.mem_range]
  constructor
  · rintro ⟨dy, hdy, dx, hdx, rfl⟩
    omega
  · intro h
    exact ⟨(p.2 - area.top).toNat, by omega, (p.1 - area.left).toNat, by omega,
      Prod.ext (by dsimp only; omega) (by dsimp only; omega)⟩

namespace FrameBuffer

/-- The rectangle of all pixels. -/
def bounds (fb : FrameBuffer) : Rect := ⟨0, 0, fb.width, fb.height⟩

/-- Gives the stored pixels from `first` to `last` one colour; `none` if they are not all there. -/
def fillSlice? (fb : FrameBuffer) (first last : Nat) (on : Bool) : Option FrameBuffer :=
  if first ≤ last + 1 ∧ last < fb.width * fb.height then
    some ⟨fb.width, fb.height, .ofFn fun i =>
      if first ≤ i.val ∧ i.val ≤ last then on else fb.pixels.get i⟩
  else none

/-- Cuts a rectangle down to the buffer and fills one slice for each row that is left; `none` if a
corner lies before the first column or row, or a slice is not in the store. -/
def fillRows? (clipping : Clipping) (fb : FrameBuffer) (area : Rect) (on : Bool) :
    Option FrameBuffer :=
  let common := clipping.intersection area fb.bounds
  match clipping.bottomRight? common with
  | none => some fb
  | some (right, bottom) => do
    let x₀ ← common.left.toNat?
    let y₀ ← common.top.toNat?
    let x₁ ← right.toNat?
    let y₁ ← bottom.toNat?
    (List.range' y₀ (y₁ + 1 - y₀)).foldlM (fun fb y =>
      fb.fillSlice? (y * fb.width + x₀) (y * fb.width + x₁) on) fb

/-! ## Point by point -/

/-- A buffer is its size and its pixels. -/
theorem ext_get? {fb fb' : FrameBuffer} (hsize : SameSize fb fb')
    (h : ∀ x y, fb'.get? x y = fb.get? x y) : fb' = fb := by
  obtain ⟨width, height, pixels⟩ := fb
  obtain ⟨width', height', pixels'⟩ := fb'
  obtain ⟨rfl, rfl⟩ := hsize
  refine congrArg (FrameBuffer.mk width' height') (Vector.ext ?_)
  intro i hi
  have hpos : 0 < width' := Nat.pos_of_mul_pos_right (Nat.lt_of_le_of_lt (Nat.zero_le i) hi)
  have hin : i % width' < width' ∧ i / width' < height' :=
    ⟨Nat.mod_lt i hpos, Nat.div_lt_of_lt_mul hi⟩
  have hpixel := h (i % width') (i / width')
  unfold get? at hpixel
  dsimp only at hpixel
  rw [dif_pos hin, dif_pos hin, Option.some_inj] at hpixel
  simpa only [Nat.div_add_mod'] using hpixel

theorem sameSize_plot (fb : FrameBuffer) (x y : Int) (on : Bool) : SameSize fb (fb.plot x y on) := by
  unfold plot
  split
  · exact sameSize_set fb _ _ on
  · exact ⟨rfl, rfl⟩

theorem sameSize_plotAll (fb : FrameBuffer) (points : List (Int × Int)) (on : Bool) :
    SameSize fb (fb.plotAll points on) := by
  refine sameSize_foldl (fun fb p => ?_) fb points
  exact sameSize_plot fb p.1 p.2 on

theorem get?_plot (fb : FrameBuffer) (x y : Int) (on : Bool) (x' y' : Nat) :
    (fb.plot x y on).get? x' y' =
      if (x' : Int) = x ∧ (y' : Int) = y then (fb.get? x' y').map fun _ => on
      else fb.get? x' y' := by
  unfold plot
  by_cases hsame : (x' : Int) = x ∧ (y' : Int) = y
  · rw [if_pos (by omega), get?_set, if_pos (by omega), if_pos hsame]
  · rw [if_neg hsame]
    split
    · rw [get?_set, if_neg (by omega)]
    · rfl

/-- The points of the list get the colour, all others keep theirs. -/
theorem get?_plotAll (fb : FrameBuffer) (points : List (Int × Int)) (on : Bool) (x y : Nat) :
    (fb.plotAll points on).get? x y =
      if ((x : Int), (y : Int)) ∈ points then (fb.get? x y).map fun _ => on else fb.get? x y := by
  unfold plotAll
  induction points generalizing fb with
  | nil => simp
  | cons p points ih =>
    rw [List.foldl_cons, ih, get?_plot]
    by_cases hp : (x : Int) = p.1 ∧ (y : Int) = p.2
    · have hmem : ((x : Int), (y : Int)) ∈ p :: points := by
        rw [hp.1, hp.2]
        exact List.mem_cons_self
      rw [if_pos hp, if_pos hmem, Option.map_map]
      exact ite_self _
    · have hmem : ((x : Int), (y : Int)) ∈ p :: points ↔ ((x : Int), (y : Int)) ∈ points := by
        rw [List.mem_cons, Prod.ext_iff, or_iff_right hp]
      rw [if_neg hp]
      simp only [hmem]

theorem get?_fill (fb : FrameBuffer) (area : Rect) (on : Bool) (x y : Nat) :
    (fb.fill area on).get? x y =
      if area.Contains x y then (fb.get? x y).map fun _ => on else fb.get? x y :=
  get?_paint fb area _ x y

/-- Whatever leaves the colour on the pixels of the rectangle, and all others alone, fills it. -/
theorem eq_fill {fb fb' : FrameBuffer} {area : Rect} {on : Bool} (hsize : SameSize fb fb')
    (h : ∀ x y : Nat, x < fb.width ∧ y < fb.height → fb'.get? x y =
      if area.Contains x y then (fb.get? x y).map fun _ => on else fb.get? x y) :
    fb' = fb.fill area on := by
  have hsize' := sameSize_paint fb area fun _ _ => on
  refine ext_get? ⟨hsize.1.trans hsize'.1.symm, hsize.2.trans hsize'.2.symm⟩ ?_
  intro x y
  rw [get?_fill]
  by_cases hin : x < fb.width ∧ y < fb.height
  · exact h x y hin
  · have hin' : ¬(x < fb'.width ∧ y < fb'.height) := by rwa [hsize.1, hsize.2]
    rw [get?_eq_none_iff.mpr hin, get?_eq_none_iff.mpr hin', Option.map_none, ite_self]

/-- Filling is plotting all points of the rectangle, in whatever order and however often. -/
theorem plotAll_eq_fill (fb : FrameBuffer) {area : Rect} {points : List (Int × Int)}
    (h : ∀ p, p ∈ points ↔ area.Contains p.1 p.2) (on : Bool) :
    fb.plotAll points on = fb.fill area on := by
  refine eq_fill (sameSize_plotAll fb points on) ?_
  intro x y _
  rw [get?_plotAll]
  simp only [h]

/-! ## Slice by slice -/

/-- The pixels of one row from one column to another are stored side by side. -/
theorem index_between_iff {width x y x₀ x₁ y₀ : Nat} (hx : x < width) (hx₁ : x₁ < width) :
    y₀ * width + x₀ ≤ y * width + x ∧ y * width + x ≤ y₀ * width + x₁ ↔
      y = y₀ ∧ x₀ ≤ x ∧ x ≤ x₁ := by
  constructor
  · rintro ⟨hfirst, hlast⟩
    obtain hbefore | rfl | hbehind := Nat.lt_trichotomy y y₀
    · have := Nat.mul_le_mul_right width (show y + 1 ≤ y₀ from hbefore)
      rw [Nat.add_one_mul] at this
      omega
    · omega
    · have := Nat.mul_le_mul_right width (show y₀ + 1 ≤ y from hbehind)
      rw [Nat.add_one_mul] at this
      omega
  · rintro ⟨rfl, hfirst, hlast⟩
    omega

/-- The slice of a row within the buffer is there, and nothing else changes. -/
theorem get?_fillSlice? (fb : FrameBuffer) {x₀ x₁ y₀ : Nat} (hx₀ : x₀ ≤ x₁) (hx₁ : x₁ < fb.width)
    (hy₀ : y₀ < fb.height) (on : Bool) :
    ∃ fb', fb.fillSlice? (y₀ * fb.width + x₀) (y₀ * fb.width + x₁) on = some fb' ∧
      SameSize fb fb' ∧ ∀ x y, fb'.get? x y =
        if y = y₀ ∧ x₀ ≤ x ∧ x ≤ x₁ then (fb.get? x y).map fun _ => on else fb.get? x y := by
  have hlast : y₀ * fb.width + x₁ < fb.width * fb.height := index_lt hx₁ hy₀
  refine ⟨_, if_pos ⟨by omega, hlast⟩, ⟨rfl, rfl⟩, ?_⟩
  intro x y
  unfold get?
  dsimp only
  by_cases hin : x < fb.width ∧ y < fb.height
  · rw [dif_pos hin, dif_pos hin, Vector.getElem_ofFn]
    simp only [index_between_iff hin.1 hx₁]
    split <;> rfl
  · rw [dif_neg hin, dif_neg hin, Option.map_none, ite_self]

/-- The slices of rows below each other, all of them within the buffer. -/
theorem foldlM_fillSlice? (fb : FrameBuffer) {x₀ x₁ : Nat} (hx₀ : x₀ ≤ x₁) (hx₁ : x₁ < fb.width)
    (on : Bool) {y₀ n : Nat} (hn : y₀ + n ≤ fb.height) :
    ∃ fb', (List.range' y₀ n).foldlM (fun fb y =>
        fb.fillSlice? (y * fb.width + x₀) (y * fb.width + x₁) on) fb = some fb' ∧
      SameSize fb fb' ∧ ∀ x y, fb'.get? x y =
        if (y₀ ≤ y ∧ y < y₀ + n) ∧ x₀ ≤ x ∧ x ≤ x₁ then (fb.get? x y).map fun _ => on
        else fb.get? x y := by
  induction n with
  | zero => exact ⟨fb, rfl, ⟨rfl, rfl⟩, fun x y => (if_neg (by omega)).symm⟩
  | succ n ih =>
    obtain ⟨before, hbefore, hsize, hpixels⟩ := ih (by omega)
    obtain ⟨behind, hbehind, hsize', hpixels'⟩ := before.get?_fillSlice? hx₀
      (show x₁ < before.width by rw [hsize.1]; exact hx₁)
      (show y₀ + n < before.height by rw [hsize.2]; omega) on
    refine ⟨behind, ?_, hsize.trans hsize', ?_⟩
    · rw [List.range'_concat, List.foldlM_append, hbefore]
      simpa using hbehind
    · intro x y
      rw [hpixels', hpixels]
      by_cases hrow : y = y₀ + n
      · have habove : ¬((y₀ ≤ y ∧ y < y₀ + n) ∧ x₀ ≤ x ∧ x ≤ x₁) := by omega
        have hlast : (y₀ ≤ y ∧ y < y₀ + (n + 1)) ∧ x₀ ≤ x ∧ x ≤ x₁ ↔
            y = y₀ + n ∧ x₀ ≤ x ∧ x ≤ x₁ := by omega
        rw [if_neg habove]
        simp only [hlast]
      · have hother : ¬(y = y₀ + n ∧ x₀ ≤ x ∧ x ≤ x₁) := by omega
        have hothers : (y₀ ≤ y ∧ y < y₀ + (n + 1)) ∧ x₀ ≤ x ∧ x ≤ x₁ ↔
            (y₀ ≤ y ∧ y < y₀ + n) ∧ x₀ ≤ x ∧ x ≤ x₁ := by omega
        rw [if_neg hother]
        simp only [hothers]

theorem contains_bounds_iff {fb : FrameBuffer} {x y : Int} :
    fb.bounds.Contains x y ↔ (0 ≤ x ∧ x < fb.width) ∧ (0 ≤ y ∧ y < fb.height) := by
  unfold Rect.Contains bounds
  dsimp only
  omega

/-- The first and the last point of a rectangle within a buffer are pixels. -/
theorem exists_corners {fb : FrameBuffer} {area : Rect}
    (hnonempty : ¬(area.width = 0 ∨ area.height = 0))
    (h : ∀ x y, area.Contains x y → fb.bounds.Contains x y) :
    ∃ x₀ y₀ x₁ y₁ : Nat, (area.left = x₀ ∧ area.top = y₀) ∧
      (area.left + area.width - 1 = x₁ ∧ area.top + area.height - 1 = y₁) ∧
      (x₀ ≤ x₁ ∧ x₁ < fb.width) ∧ (y₀ ≤ y₁ ∧ y₁ < fb.height) := by
  have hfirst := contains_bounds_iff.mp
    (h area.left area.top (by unfold Rect.Contains; omega))
  have hlast := contains_bounds_iff.mp
    (h (area.left + area.width - 1) (area.top + area.height - 1) (by unfold Rect.Contains; omega))
  obtain ⟨x₀, hx₀⟩ := Int.eq_ofNat_of_zero_le hfirst.1.1
  obtain ⟨y₀, hy₀⟩ := Int.eq_ofNat_of_zero_le hfirst.2.1
  obtain ⟨x₁, hx₁⟩ := Int.eq_ofNat_of_zero_le hlast.1.1
  obtain ⟨y₁, hy₁⟩ := Int.eq_ofNat_of_zero_le hlast.2.1
  exact ⟨x₀, y₀, x₁, y₁, ⟨hx₀, hy₀⟩, ⟨hx₁, hy₁⟩, by omega, by omega⟩

/-- Every slice of a clipped rectangle is in the store, and filling them fills the rectangle. -/
theorem fillRows?_eq_fill {clipping : Clipping} (h : clipping.Exact) {fb : FrameBuffer}
    (hfb : fb.bounds.Fits) {area : Rect} (harea : area.Fits) (on : Bool) :
    fb.fillRows? clipping area on = some (fb.fill area on) := by
  have hcommon := h.contains_intersection harea hfb
  have hlast := h.bottomRight?_eq (h.fits_intersection harea hfb)
  unfold fillRows?
  dsimp only
  generalize clipping.intersection area fb.bounds = common at hcommon hlast ⊢
  -- of a pixel, the part that is cut out tells as much as the rectangle
  have hpixel {x y : Nat} (hin : x < fb.width ∧ y < fb.height) :
      area.Contains x y ↔ common.Contains x y :=
    ((hcommon x y).trans (and_iff_left (contains_bounds_iff.mpr (by omega)))).symm
  rw [hlast]
  by_cases hempty : common.width = 0 ∨ common.height = 0
  · rw [if_pos hempty]
    refine congrArg some (eq_fill ⟨rfl, rfl⟩ ?_)
    intro x y hin
    have hout : ¬common.Contains x y := by
      unfold Rect.Contains
      omega
    rw [if_neg (mt (hpixel hin).mp hout)]
  · rw [if_neg hempty]
    obtain ⟨x₀, y₀, x₁, y₁, ⟨hx₀, hy₀⟩, ⟨hx₁, hy₁⟩, ⟨hx, hwidth⟩, hy, hheight⟩ :=
      exists_corners hempty fun x y hin => ((hcommon x y).mp hin).2
    dsimp only
    rw [hx₁, hy₁, hx₀, hy₀]
    obtain ⟨filled, hfilled, hsize, hpixels⟩ := fb.foldlM_fillSlice? hx hwidth on
      (show y₀ + (y₁ + 1 - y₀) ≤ fb.height by omega)
    refine hfilled.trans (congrArg some (eq_fill hsize ?_))
    intro x y hin
    have hvisited : (y₀ ≤ y ∧ y < y₀ + (y₁ + 1 - y₀)) ∧ x₀ ≤ x ∧ x ≤ x₁ ↔ area.Contains x y := by
      rw [hpixel hin]
      unfold Rect.Contains
      omega
    rw [hpixels]
    simp only [hvisited]

/-- Whatever the buffer, the rectangle and the colour, as long as sizes and corners fit in words and
rectangles are clipped exactly: filling slice by slice finds every slice in the store and comes to
the buffer that plotting all points of the rectangle comes to. In it the pixels that rectangle and
buffer share have the colour, and all others are as before. -/
theorem fill_agrees {clipping : Clipping} (h : clipping.Exact) {fb : FrameBuffer}
    (hfb : fb.bounds.Fits) {area : Rect} (harea : area.Fits) (on : Bool) :
    fb.fillRows? clipping area on = some (fb.fill area on) ∧
      fb.fill area on = fb.plotAll area.points on ∧
      ∀ x y : Nat, (fb.fill area on).get? x y =
        if area.Contains x y then (fb.get? x y).map fun _ => on else fb.get? x y :=
  ⟨fillRows?_eq_fill h hfb harea on, (plotAll_eq_fill fb (fun _ => Rect.mem_points) on).symm,
    get?_fill fb area on⟩

/-- A rectangle across the lower left corner of a buffer. -/
theorem fill_agrees_corner :
    let fb := filled 8 4 false
    let area : Rect := ⟨-3, 2, 5, 10⟩
    Clipping.byEdges.Exact ∧ fb.bounds.Fits ∧ area.Fits ∧
      fb.fillRows? .byEdges area true = some (fb.fill area true) ∧
      fb.fill area true = fb.plotAll area.points true ∧
      (fb.fill area true).get? 1 3 = some true ∧ (fb.fill area true).get? 2 3 = some false ∧
      (fb.fill area true).get? 1 4 = none := by
  intro fb area
  have hfb : fb.bounds.Fits := by constructor <;> decide
  have harea : area.Fits := by constructor <;> decide
  obtain ⟨hrows, hpoints, hpixels⟩ := fill_agrees Clipping.byEdges_exact hfb harea true
  refine ⟨Clipping.byEdges_exact, hfb, harea, hrows, hpoints, ?_, ?_, ?_⟩
  · exact (hpixels 1 3).trans (by decide)
  · exact (hpixels 2 3).trans (by decide)
  · exact (hpixels 1 4).trans (by decide)

end FrameBuffer
end MidiPanel
