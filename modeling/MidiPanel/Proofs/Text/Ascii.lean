import Mathlib.Data.String.Basic

/-!
# ASCII characters

A code below `80` is a character of its own, and that character takes one byte, which is the code.
-/

namespace MidiPanel

theorem toNat_ofNat_of_ascii {code : UInt8} (h : code < 0x80) :
    (Char.ofNat code.toNat).toNat = code.toNat := by
  have hlt : code.toNat < 128 := h
  have hvalid : code.toNat.isValidChar := Or.inl (by omega)
  unfold Char.ofNat
  rw [dif_pos hvalid]
  rfl

theorem utf8Size_of_ascii {c : Char} (h : c.toNat < 128) : c.utf8Size = 1 := by
  unfold Char.utf8Size
  rw [if_pos]
  show c.toNat ≤ 127
  omega

theorem utf8Len_of_ascii {cs : List Char} (h : ∀ c ∈ cs, c.toNat < 128) :
    String.utf8Len cs = cs.length := by
  induction cs with
  | nil => rfl
  | cons c cs ih =>
    have hsize : c.utf8Size = 1 := utf8Size_of_ascii (h c List.mem_cons_self)
    have hcs : String.utf8Len cs = cs.length := ih fun c hc => h c (List.mem_cons_of_mem _ hc)
    rw [String.utf8Len_cons, hcs, hsize, List.length_cons]

theorem utf8EncodeChar_of_ascii {code : UInt8} (h : code < 0x80) :
    String.utf8EncodeChar (Char.ofNat code.toNat) = [code] := by
  have hnat := toNat_ofNat_of_ascii h
  have hsize : (Char.ofNat code.toNat).utf8Size = 1 := by
    apply utf8Size_of_ascii
    rw [hnat]
    exact h
  rw [String.utf8EncodeChar_eq_singleton hsize, List.singleton_inj]
  apply UInt8.toNat_inj.mp
  show (Char.ofNat code.toNat).toNat % 256 = code.toNat
  rw [hnat]
  exact Nat.mod_eq_of_lt code.toNat_lt

end MidiPanel
