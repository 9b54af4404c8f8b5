/-!
# The 6 by 10 font of pixel panels

Glyphs for the codes `20` to `7f`. A glyph is one number of ten bytes, top row first; within a byte
the highest bit is the leftmost column and the two lowest bits are unused. The glyph of `7f` is that
of the question mark, which also stands for every character without a glyph.
-/

namespace MidiPanel.Font

/-- The width of a glyph in pixels; glyphs follow each other without a gap. -/
def width : Nat := 6

/-- The height of a glyph in pixels. -/
def height : Nat := 10

/-- The glyphs of the codes `20` to `7f`. -/
def glyphs : Array Nat := #[
    0x00000000000000000000, 0x00202020202000200000, 0x00505050000000000000,
    0x005050f850f850500000, 0x002070a0702870200000, 0x0048a8502050a8900000,
    0x0040a0a040a890680000, 0x00202020000000000000, 0x00102040404020100000,
    0x00402010101020400000, 0x00008850f85088000000, 0x00002020f82020000000,
    0x00000000000030204000, 0x00000000f80000000000, 0x00000000000020702000,
    0x00080810204080800000, 0x00205088888850200000, 0x002060a0202020f80000,
    0x00708808304080f80000, 0x00f80810300888700000, 0x0010305090f810100000,
    0x00f880b0c80888700000, 0x00304080b0c888700000, 0x00f80810102040400000,
    0x00708888708888700000, 0x00708898680810600000, 0x00002070200020702000,
    0x00002070200030204000, 0x00081020402010080000, 0x000000f800f800000000,
    0x00402010081020400000, 0x00708810202000200000, 0x00708898a8b080700000,
    0x0020508888f888880000, 0x00f04848704848f00000, 0x00708880808088700000,
    0x00f04848484848f00000, 0x00f88080f08080f80000, 0x00f88080f08080800000,
    0x00708880809888700000, 0x00888888f88888880000, 0x00702020202020700000,
    0x00381010101090600000, 0x008890a0c0a090880000, 0x00808080808080f80000,
    0x008888d8a88888880000, 0x008888c8a89888880000, 0x00708888888888700000,
    0x00f08888f08080800000, 0x007088888888a8700800, 0x00f08888f0a090880000,
    0x00708880700888700000, 0x00f82020202020200000, 0x00888888888888700000,
    0x00888888505050200000, 0x00888888a8a8d8880000, 0x00888850205088880000,
    0x00888850202020200000, 0x00f80810204080f80000, 0x00704040404040700000,
    0x00808040201008080000, 0x00701010101010700000, 0x00205088000000000000,
    0x0000000000000000f800, 0x20100000000000000000, 0x00000070087888780000,
    0x008080b0c888c8b00000, 0x00000070888088700000, 0x00080868988898680000,
    0x0000007088f880700000, 0x00304840f04040400000, 0x00000078888878088870,
    0x008080b0c88888880000, 0x00200060202020700000, 0x00080018080808484830,
    0x0080808890e090880000, 0x00602020202020700000, 0x000000d0a8a8a8880000,
    0x000000b0c88888880000, 0x00000070888888700000, 0x000000b0c888c8b08080,
    0x00000068988898680808, 0x000000b0c88080800000, 0x00000070807008f00000,
    0x004040f0404048300000, 0x00000088888898680000, 0x00000088885050200000,
    0x0000008888a8a8500000, 0x00000088502050880000, 0x00000088889868088870,
    0x000000f8102040f80000, 0x00182010601020180000, 0x00202020202020200000,
    0x00601020182010600000, 0x0048a890000000000000, 0x00708810202000200000]

/-- The glyph of a character; the question mark's for characters outside `20` to `7f`. -/
def glyph (c : Char) : Nat :=
  let code := if 0x20 ≤ c.toNat ∧ c.toNat ≤ 0x7F then c.toNat else '?'.toNat
  glyphs.getD (code - 0x20) 0

/-- Whether a glyph lights the pixel `column` from its left edge and `row` from its top. -/
def isLit (c : Char) (column row : Nat) : Bool :=
  column < width && row < height && (glyph c).testBit (79 - (8 * row + column))

end MidiPanel.Font
