import MidiPanel.Proofs.Surface.Bitmap

/-!
# Stored pixels in pieces

A frame is written out in three ways: as lines of characters, as a plain portable bitmap, and packed
into bytes. Each way can go through the stored pixels in pieces of a row, and the last one through
each row in pieces of eight, of which the last is mostly shorter; it begins anew with each row. What
they write is what is told pixel by pixel.

Results:
* `chunks_eq_map`: the pieces of a list.
* `chunks_store`: the pieces of a store are the rows of the frame.
* `testBit_packChunk`, `packChunk_row`: a piece of a row as a byte.
* `bytesInChunks_eq`, `asciiInChunks_eq`, `pbmInChunks_eq`: the three ways.
-/

namespace MidiPanel

/-! ## Pieces of a list -/

section Chunks

variable {α : Type}

/-- The pieces of `size` entries that a list falls into; the last one may be shorter. A piece has at
least one entry. -/
def chunks (size : Nat) : List α → List (List α)
  | [] => []
  | x :: xs => (x :: xs.take (size - 1)) :: chunks size (xs.drop (size - 1))
termination_by xs => xs.length
decreasing_by
  rw [List.length_drop, List.length_cons]
  omega

theorem chunks_eq_map {size : Nat} (h : 0 < size) (xs : List α) :
    chunks size xs = (List.range ((xs.length + (size - 1)) / size)).map fun i =>
      (xs.drop (i * size)).take size := by
  induction xs using chunks.induct size with
  | case1 =>
    rw [chunks, List.length_nil, Nat.zero_add, Nat.div_eq_of_lt (by omega)]
    rfl
  | case2 x xs ih =>
    obtain ⟨k, rfl⟩ : ∃ k, size = k + 1 := ⟨size - 1, by omega⟩
    rw [Nat.add_sub_cancel] at ih
    have hcount : ((x :: xs).length + k) / (k + 1) = ((xs.drop k).length + k) / (k + 1) + 1 := by
      rw [List.length_cons, List.length_drop]
      rcases Nat.lt_or_ge xs.length k with hlt | hge
      · rw [Nat.sub_eq_zero_of_le hlt.le, Nat.zero_add, Nat.div_eq_of_lt (Nat.lt_succ_self k),
          Nat.div_eq_of_lt_le] <;> omega
      · rw [Nat.sub_add_cancel hge, ← Nat.add_div_right _ (Nat.succ_pos k)]
        congr 1
        omega
    rw [chunks, Nat.add_sub_cancel, ih, hcount, List.range_succ_eq_map, List.map_cons, List.map_map]
    refine congrArg₂ List.cons (by simp) (List.map_congr_left fun i _ => ?_)
    have hdrop : (i + 1) * (k + 1) = k + i * (k + 1) + 1 := by
      rw [Nat.add_one_mul]
      omega
    rw [Function.comp_apply, Nat.succ_eq_add_one, hdrop, List.drop_succ_cons, List.drop_drop]

end Chunks

/-! ## Rows in a store -/

namespace FrameBuffer

variable (fb : FrameBuffer)

/-- The pixels as they are stored, row after row. -/
def store : List Bool := fb.pixels.toList

theorem getElem?_store {x y : Nat} (hx : x < fb.width) (hy : y < fb.height) :
    fb.store[y * fb.width + x]? = some (fb.isLit x y) := by
  have hin : x < fb.width ∧ y < fb.height := ⟨hx, hy⟩
  have hindex := index_lt hx hy
  unfold store isLit get?
  rw [dif_pos hin, Vector.getElem?_toList, Vector.getElem?_eq_getElem hindex]
  rfl

theorem getElem?_row (x y : Nat) :
    (fb.row y)[x]? = if x < fb.width then some (fb.isLit x y) else none := by
  unfold row
  rw [List.getElem?_map]
  split
  next h => rw [List.getElem?_range h, Option.map_some]
  next h => rw [List.getElem?_eq_none (by rw [List.length_range]; omega), Option.map_none]

theorem slice_store {y : Nat} (hy : y < fb.height) :
    (fb.store.drop (y * fb.width)).take fb.width = fb.row y := by
  apply List.ext_getElem?
  intro x
  rw [List.getElem?_take, getElem?_row]
  split
  next hx => rw [List.getElem?_drop, getElem?_store fb hx hy]
  next => rfl

theorem chunks_store (h : 1 ≤ fb.width) : chunks (max fb.width 1) fb.store = fb.rows := by
  have hsize : fb.store.length = fb.width * fb.height := fb.pixels.length_toList
  have hcount : (fb.store.length + (fb.width - 1)) / fb.width = fb.height := by
    rw [hsize, Nat.mul_add_div h, Nat.div_eq_of_lt (by omega), Nat.add_zero]
  rw [Nat.max_eq_left h, chunks_eq_map h, hcount]
  refine List.map_congr_left fun y hy => ?_
  exact fb.slice_store (List.mem_range.mp hy)

/-! ## Rows in bytes -/

/-- Packs up to eight pixels into a byte: one bit for each that is lit, the first one highest. -/
def packChunk (chunk : List Bool) : UInt8 :=
  (chunk.zipIdx.filter (·.1)).foldl (fun byte p => byte ||| 0x80 >>> UInt8.ofNat p.2) 0

theorem testBit_mark : ∀ place < 8, ∀ bit < 8,
    (0x80 >>> UInt8.ofNat place).toNat.testBit (7 - bit) = decide (place = bit) := by
  decide

/-- The bits that are set behind each other, from a place on. -/
theorem testBit_foldl_mark (chunk : List Bool) {place bit : Nat} (byte : UInt8)
    (hplace : place + chunk.length ≤ 8) (hbit : bit < 8) :
    (((chunk.zipIdx place).filter (·.1)).foldl
        (fun byte p => byte ||| 0x80 >>> UInt8.ofNat p.2) byte).toNat.testBit (7 - bit) =
      (byte.toNat.testBit (7 - bit) ||
        (decide (place ≤ bit) && chunk[bit - place]?.getD false)) := by
  induction chunk generalizing place byte with
  | nil => simp
  | cons on chunk ih =>
    rw [List.length_cons] at hplace
    have hlater : place + 1 + chunk.length ≤ 8 := by omega
    have hmark := testBit_mark place (by omega) bit hbit
    -- a bit is that of the first pixel or one of those behind it
    have hsplit : (decide (place ≤ bit) && (on :: chunk)[bit - place]?.getD false) =
        (decide (place = bit) && on ||
          decide (place + 1 ≤ bit) && chunk[bit - (place + 1)]?.getD false) := by
      obtain hbefore | rfl | hbehind := Nat.lt_trichotomy bit place
      · have hne : place ≠ bit := by omega
        have hnle : ¬place + 1 ≤ bit := by omega
        simp [hne, hnle, Nat.not_le.mpr hbefore]
      · simp
      · obtain ⟨k, rfl⟩ : ∃ k, bit = place + 1 + k := ⟨bit - (place + 1), by omega⟩
        have hindex : place + 1 + k - place = k + 1 := by omega
        have hne : place ≠ place + 1 + k := by omega
        have hle : place ≤ place + 1 + k := by omega
        simp [hindex, hne, hle]
    rw [List.zipIdx_cons, hsplit]
    cases on with
    | false =>
      rw [List.filter_cons_of_neg Bool.false_ne_true, ih byte hlater, Bool.and_false,
        Bool.false_or]
    | true =>
      rw [List.filter_cons_of_pos rfl, List.foldl_cons, ih _ hlater, UInt8.toNat_or,
        Nat.testBit_or, hmark, Bool.and_true, Bool.or_assoc]

theorem testBit_packChunk {chunk : List Bool} (h : chunk.length ≤ 8) {bit : Nat} (hbit : bit < 8) :
    (packChunk chunk).toNat.testBit (7 - bit) = chunk[bit]?.getD false := by
  unfold packChunk
  rw [testBit_foldl_mark chunk 0 (by omega) hbit]
  simp

theorem isLit_of_width_le {x y : Nat} (h : fb.width ≤ x) : fb.isLit x y = false := by
  unfold isLit
  rw [get?_eq_none_iff.mpr (by omega)]
  rfl

theorem packChunk_row (i y : Nat) :
    packChunk (((fb.row y).drop (i * 8)).take 8) = fb.byteAt i y := by
  apply eq_of_testBit
  intro k hk
  obtain ⟨bit, hbit, rfl⟩ : ∃ bit, bit < 8 ∧ k = 7 - bit := ⟨7 - k, by omega, by omega⟩
  rw [testBit_packChunk (by rw [List.length_take]; omega) hbit, testBit_byteAt fb i y hbit,
    List.getElem?_take_of_lt hbit, List.getElem?_drop, getElem?_row, Nat.mul_comm i]
  split
  next => rfl
  next hout => exact (fb.isLit_of_width_le (Nat.not_lt.mp hout)).symm

/-! ## Going through the stored pixels -/

/-- Lines of characters, from the stored pixels in pieces of a row. -/
def asciiInChunks : String :=
  String.ofList <| (chunks (max fb.width 1) fb.store).flatMap fun row =>
    row.map (fun on => if on then '#' else '.') ++ ['\n']

/-- A plain portable bitmap, from the stored pixels in pieces of a row. -/
def pbmInChunks : String :=
  let row (pixels : List Bool) : String :=
    " ".intercalate (pixels.map fun on => if on then "1" else "0") ++ "\n"
  s!"P1\n{fb.width} {fb.height}\n" ++
    String.join ((chunks (max fb.width 1) fb.store).map row)

/-- Bytes, from the stored pixels in pieces of a row and those in pieces of eight. -/
def bytesInChunks : List UInt8 :=
  (chunks (max fb.width 1) fb.store).flatMap fun row => (chunks 8 row).map packChunk

variable {fb}

theorem bytesInChunks_eq (h : 1 ≤ fb.width) : fb.bytesInChunks = fb.toImageBytes := by
  have hrow (y : Nat) : (chunks 8 (fb.row y)).map packChunk =
      (List.range (bytesPerRow fb.width)).map fun i => fb.byteAt i y := by
    have hlength : (fb.row y).length = fb.width := by simp [row]
    rw [chunks_eq_map (by decide), hlength, List.map_map]
    exact List.map_congr_left fun i _ => fb.packChunk_row i y
  unfold bytesInChunks toImageBytes
  rw [chunks_store fb h, rows, List.flatMap_map]
  simp only [hrow]

end FrameBuffer

theorem PixelPanel.asciiInChunks_eq {lcd : PixelPanel} (h : 1 ≤ lcd.frame.width) :
    lcd.frame.asciiInChunks = lcd.toAscii := by
  unfold FrameBuffer.asciiInChunks toAscii
  rw [FrameBuffer.chunks_store _ h]

theorem PixelPanel.pbmInChunks_eq {lcd : PixelPanel} (h : 1 ≤ lcd.frame.width) :
    lcd.frame.pbmInChunks = lcd.toPbm := by
  unfold FrameBuffer.pbmInChunks toPbm
  rw [FrameBuffer.chunks_store _ h]

end MidiPanel
