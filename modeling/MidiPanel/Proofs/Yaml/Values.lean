import Mathlib.Data.List.Nodup
import MidiPanel.Proofs.Yaml.Mapping

/-!
# Values that read back

What is written for a number, a boolean, a text or an unset value is a scalar that is read back as
the same. A number or a boolean is a plain word; a text that would read as something else is in
quotes. A mapping is read field by field.

Results:
* `unsignedOf?_toString`: a whole number is read back from its digits.
* `Restores`, `RestoresField.option`: a value, and one that may be unset.
* `restores_below`, `restores_word`, `restores_bool`, `restores_single`, `restores_string`: the
  kinds of values.
* `fieldsOf_mapping`, `optional_field`: the fields of a mapping.
-/

namespace MidiPanel.Yaml

/-! ## Whole numbers -/

theorem isWordChar_of_isDigit {c : Char} (h : c.isDigit = true) : isWordChar c = true := by
  simp [isWordChar, Char.isAlphanum, h]

theorem isWordChar_of_mem_toDigits {n : Nat} {c : Char} (h : c ∈ Nat.toDigits 10 n) :
    isWordChar c = true :=
  isWordChar_of_isDigit (Nat.isDigit_of_mem_toDigits (by decide) (by decide) h)

theorem digitsIn?_of_isDigit {digits : List Char} (hne : digits ≠ [])
    (h : ∀ c ∈ digits, c.isDigit = true) :
    digitsIn? 10 digits = some (Nat.ofDigitChars 10 digits 0) := by
  have hfold (n : Nat) : digits.foldlM (fun n c =>
      (hexDigit? c).bind fun d => if d < 10 then some (10 * n + d) else none) n =
        some (Nat.ofDigitChars 10 digits n) := by
    clear hne
    induction digits generalizing n with
    | nil => rfl
    | cons c digits ih =>
      obtain ⟨hc, hdigits⟩ := List.forall_mem_cons.mp h
      have hvalue : c.toNat - '0'.toNat < 10 := by
        simp [Char.isDigit, UInt32.le_iff_toNat_le] at hc ⊢
        omega
      have hdigit : hexDigit? c = some (c.toNat - '0'.toNat) := if_pos hc
      rw [List.foldlM_cons, hdigit, Option.bind_some, if_pos hvalue, Nat.ofDigitChars_cons]
      exact ih hdigits _
  unfold digitsIn?
  rw [List.isEmpty_eq_false_iff.mpr hne, if_neg Bool.false_ne_true, hfold]

theorem head?_toDigits {n : Nat} (h : 0 < n) : (Nat.toDigits 10 n).head? ≠ some '0' := by
  induction n using Nat.strongRecOn with
  | ind n ih =>
    by_cases hn : n < 10
    · rw [Nat.toDigits_of_lt_base hn]
      simpa using Nat.ne_of_gt h
    · have hshorter := ih (n / 10) (by omega) (by omega)
      rw [Nat.toDigits_of_base_le (by decide) (Nat.le_of_not_lt hn),
        List.head?_append_of_ne_nil _ Nat.toDigits_ne_nil]
      exact hshorter

theorem leadsWithZero_toDigits (n : Nat) : leadsWithZero (Nat.toDigits 10 n) = false := by
  rcases Nat.eq_zero_or_pos n with rfl | hn
  · rfl
  · simp [leadsWithZero, head?_toDigits hn]

theorem unsignedOf?_toString (n : Nat) : unsignedOf? (toString n) = some n := by
  have hdigits : ∀ c ∈ Nat.toDigits 10 n, c.isDigit = true := by
    intro c hc
    exact Nat.isDigit_of_mem_toDigits (by decide) (by decide) hc
  have hother {c : Char} (hc : c.isDigit = false) : c ∉ Nat.toDigits 10 n := by
    intro hmem
    exact Bool.noConfusion ((hdigits c hmem).symm.trans hc)
  have hwhole : wholeOf? (Nat.toDigits 10 n) = some n := by
    unfold wholeOf?
    split
    next heq => exact absurd (heq ▸ by simp) (hother (c := 'x') (by decide))
    next heq => exact absurd (heq ▸ by simp) (hother (c := 'o') (by decide))
    next heq => exact absurd (heq ▸ by simp) (hother (c := 'b') (by decide))
    next =>
      rw [leadsWithZero_toDigits, if_neg Bool.false_ne_true,
        digitsIn?_of_isDigit Nat.toDigits_ne_nil hdigits,
        Nat.ofDigitChars_toDigits (by decide) (by decide)]
  unfold unsignedOf?
  rw [Nat.toString_eq_repr, Nat.toList_repr]
  split
  next heq => exact absurd (heq ▸ by simp) (hother (c := '+') (by decide))
  next => exact hwhole

/-! ## Written and read back -/

/-- A text on one line is no null, and is read back as this value. -/
def Restores {α : Type} (read : Reader α) (text : String) (value : α) : Prop :=
  ∃ c : Scalar, Reads text.toList c ∧ c.spellsNull = false ∧ read (.scalar c) = pure value

/-- What is written behind the name of a field is read back as this setting. -/
def RestoresField {α : Type} (read : Reader α) (text : String) (value : Option α) : Prop :=
  ∃ c : Scalar, Reads text.toList c ∧ Reader.optional read (.scalar c) = pure value

section Restores

variable {α : Type} {read : Reader α} {text : String} {value : α}

theorem optional_scalar (read : Reader α) {c : Scalar} (htag : c.tag = none)
    (hnull : c.spellsNull = false) :
    Reader.optional read (.scalar c) = some <$> read (.scalar c) := by
  show (pure (Node.scalar c) >>= _ : Resolving (Option α)) = _
  rw [pure_bind]
  simp [htag, hnull]

/-- A setting is written as null if it is unset. -/
theorem RestoresField.option {write : α → String} {value : Option α}
    (h : ∀ x ∈ value, Restores read (write x) x) :
    RestoresField read (optionScalar write value) value := by
  cases value with
  | none =>
    have hnull := Reads.plain "null".toList (by decide) (by decide)
    exact ⟨_, hnull, rfl⟩
  | some x =>
    obtain ⟨c, hreads, hnull, hread⟩ := h x rfl
    refine ⟨c, hreads, ?_⟩
    rw [optional_scalar read hreads.tag_eq hnull, hread, map_pure]

theorem Restores.map {β : Type} (f : α → β) (h : Restores read text value) :
    Restores (fun node => f <$> read node) text (f value) := by
  obtain ⟨c, hreads, hnull, hread⟩ := h
  refine ⟨c, hreads, hnull, ?_⟩
  show f <$> read (.scalar c) = pure (f value)
  rw [hread, map_pure]

/-- A word with a value is a plain scalar of its kind, if the words that are something else have
none. -/
theorem restores_ofKind {kind : String} {value? : String → Option α}
    (hchars : ∀ c ∈ text.toList, isWordChar c = true)
    (hnone : ∀ other ∈ ["", "-", "~", "null", "Null", "NULL"], value? other = none)
    (hvalue : value? text = some value) : Restores (Reader.ofKind kind value?) text value := by
  have hother {other : String} (h : other ∈ ["", "-", "~", "null", "Null", "NULL"]) :
      text ≠ other := by
    rintro rfl
    cases (hnone text h).symm.trans hvalue
  have hnull : isNullText text = false := by
    rw [isNullText, ← Bool.not_eq_true, List.contains_iff_mem]
    intro hmem
    exact hother (List.mem_cons_of_mem _ (by simp_all)) rfl
  have hempty : text.toList ≠ [] := by
    rw [ne_eq, String.toList_eq_nil_iff]
    exact hother (by decide)
  have hdash : text.toList ≠ ['-'] := by
    intro h
    exact @hother "-" (by decide) (String.toList_inj.mp h)
  have hbegins := beginsPlain_of_isWordChar hchars hempty hdash []
  rw [List.append_nil] at hbegins
  have hreads := Reads.plain text.toList (isSmooth_of_isWordChar hchars) hbegins
  rw [String.ofList_toList] at hreads
  refine ⟨_, hreads, by simp [Scalar.spellsNull, hnull], ?_⟩
  show (pure (Node.scalar ⟨.plain, none, text⟩) >>= _ : Resolving α) = _
  rw [pure_bind]
  simp [Scalar.mayBe, hvalue, Reader.expect]

theorem restores_below {limit n : Nat} (h : n < limit) :
    Restores (Reader.below limit) (natScalar n) n := by
  refine restores_ofKind ?_ ?_ ?_
  · intro c hc
    rw [natScalar, Nat.toString_eq_repr, Nat.toList_repr] at hc
    exact isWordChar_of_mem_toDigits hc
  · have hnone : ∀ other ∈ ["", "-", "~", "null", "Null", "NULL"], unsignedOf? other = none := by
      decide
    intro other hmem
    rw [hnone other hmem]
    rfl
  · rw [natScalar, unsignedOf?_toString]
    simp [Option.filter, h]

theorem restores_word (x : UInt32) : Restores Reader.word (natScalar x.toNat) x := by
  have hmap := (restores_below x.toNat_lt).map UInt32.ofNat
  rw [UInt32.ofNat_toNat] at hmap
  exact hmap

theorem restores_bool (b : Bool) : Restores Reader.bool (boolScalar b) b := by
  cases b
  · exact restores_ofKind (List.all_eq_true.mp (by decide)) (by decide) (by decide)
  · exact restores_ofKind (List.all_eq_true.mp (by decide)) (by decide) (by decide)

theorem isWordChar_of_mem_int {n : Int} {c : Char} (h : c ∈ (toString n).toList) :
    isWordChar c = true := by
  cases n with
  | ofNat n =>
    have h' : c ∈ (Nat.repr n).toList := h
    rw [Nat.toList_repr] at h'
    exact isWordChar_of_mem_toDigits h'
  | negSucc n =>
    have h' : c ∈ ("-" ++ Nat.repr (n + 1)).toList := h
    rw [String.toList_append, Nat.toList_repr, List.mem_append] at h'
    rcases h' with hsign | hdigit
    · rw [List.mem_singleton.mp hsign]
      decide
    · exact isWordChar_of_mem_toDigits hdigit

/-- Wherever the point is placed among digits, the outcome is a word. -/
theorem isWordChar_of_mem_layout {digits : List Char} (h : ∀ c ∈ digits, isWordChar c = true)
    (exponent : Int) : ∀ c ∈ Single.layout digits exponent, isWordChar c = true := by
  have hzeros (n : Nat) : ∀ c ∈ List.replicate n '0', isWordChar c = true := by
    intro c hc
    rw [List.eq_of_mem_replicate hc]
    decide
  have hpower (n : Int) : ∀ c ∈ 'e' :: (toString n).toList, isWordChar c = true :=
    List.forall_mem_cons.mpr ⟨by decide, fun _ => isWordChar_of_mem_int⟩
  unfold Single.layout
  dsimp only
  split
  · exact List.forall_mem_append.mpr ⟨List.forall_mem_append.mpr ⟨h, hzeros _⟩,
      List.all_eq_true.mp (by decide)⟩
  split
  · refine List.forall_mem_append.mpr ⟨?_, List.forall_mem_cons.mpr ⟨by decide, ?_⟩⟩
    · exact fun c hc => h c (List.mem_of_mem_take hc)
    · exact fun c hc => h c (List.mem_of_mem_drop hc)
  split
  · refine List.forall_mem_cons.mpr ⟨by decide, List.forall_mem_cons.mpr ⟨by decide, ?_⟩⟩
    exact List.forall_mem_append.mpr ⟨hzeros _, h⟩
  split
  next first second rest _ =>
    simp only [List.forall_mem_cons] at h
    obtain ⟨hfirst, hsecond, hrest⟩ := h
    refine List.forall_mem_append.mpr ⟨?_, hpower _⟩
    simp only [List.forall_mem_cons]
    exact ⟨hfirst, by decide, hsecond, hrest⟩
  next => exact List.forall_mem_append.mpr ⟨h, hpower _⟩

theorem isWordChar_of_mem_singleScalar (x : Single) :
    ∀ c ∈ (singleScalar x).toList, isWordChar c = true := by
  cases x with
  | nan => exact List.all_eq_true.mp (by decide)
  | infinite negative => cases negative <;> exact List.all_eq_true.mp (by decide)
  | finite negative units fits =>
    have hsign : ∀ c ∈ (if negative then "-" else "").toList, isWordChar c = true := by
      cases negative <;> exact List.all_eq_true.mp (by decide)
    have hmagnitude : ∀ c ∈ Single.magnitudeText units, isWordChar c = true := by
      unfold Single.magnitudeText
      split
      · exact List.all_eq_true.mp (by decide)
      · refine isWordChar_of_mem_layout (fun c hc => ?_) _
        have hkept : c ∈ Nat.toDigits 10 (Single.shortest units).digits := by
          have hdropped := List.mem_reverse.mp hc
          exact List.mem_reverse.mp ((List.dropWhile_sublist _).mem hdropped)
        exact isWordChar_of_mem_toDigits hkept
    rw [singleScalar, String.toList_append, String.toList_ofList]
    exact List.forall_mem_append.mpr ⟨hsign, hmagnitude⟩

/-- A single whose shortest digits read back as it. -/
theorem restores_single {x : Single} (h : singleOf? (singleScalar x) = some x) :
    Restores Reader.single (singleScalar x) x :=
  restores_ofKind (isWordChar_of_mem_singleScalar x) (by decide) h

/-- A printable text. -/
theorem restores_string (h : ∀ c ∈ text.toList, isShown c = true) :
    Restores Reader.string (textScalar text) text := by
  obtain ⟨style, hreads, hplain⟩ := reads_textScalar h
  refine ⟨_, hreads, ?_, ?_⟩
  · cases hstyle : style with
    | plain =>
      have hvalue := hplain hstyle
      simp only [readsAsValue, Bool.or_eq_false_iff] at hvalue
      simp [Scalar.spellsNull, hvalue]
    | _ => rfl
  · show (pure (Node.scalar ⟨style, none, text⟩) >>= _ : Resolving String) = _
    rw [pure_bind]

end Restores

/-! ## Fields -/

theorem lookup_of_mem {fields : Fields} {name : String} {node : Node}
    (hnodup : (fields.map Prod.fst).Nodup) (h : (name, node) ∈ fields) :
    fields.lookup name = some node := by
  obtain ⟨before, after, rfl⟩ := List.append_of_mem h
  refine List.lookup_eq_some_iff.mpr ⟨before, after, rfl, fun field hfield => ?_⟩
  rw [List.map_append, List.map_cons, List.nodup_append] at hnodup
  rw [bne_iff_ne]
  exact (hnodup.2.2 _ (List.mem_map_of_mem hfield) _ List.mem_cons_self).symm

theorem lookup_eq_none_of_not_mem {fields : Fields} {name : String}
    (h : name ∉ fields.map Prod.fst) : fields.lookup name = none := by
  rw [List.lookup_eq_none_iff]
  intro field hfield
  rw [bne_iff_ne]
  rintro rfl
  exact h (List.mem_map_of_mem hfield)

theorem keyName_keyNode (name : String) :
    keyName (keyNode name.toList) = (pure name : Resolving String) := by
  show (pure (Node.scalar _) >>= _ : Resolving String) = _
  rw [pure_bind, String.ofList_toList]

/-- A mapping whose keys are known and differ is read field by field. -/
theorem fieldsOf_mapping {known : List String} {fields : Fields}
    (hknown : ∀ field ∈ fields, field.1 ∈ known) (hnodup : (fields.map Prod.fst).Nodup) :
    fieldsOf known (.mapping (fields.map fun field => (keyNode field.1.toList, field.2))) =
      pure fields.reverse := by
  -- the fields so far are other ones
  have hfold (done : Fields) (hfresh : ((fields.map Prod.fst) ++ done.map Prod.fst).Nodup) :
      (fields.map fun field => (keyNode field.1.toList, field.2)).foldlM
        (fun (fields : Fields) pair => do
          let name ← keyName pair.1
          if !known.contains name then return fields
          else if (fields.lookup name).isSome then throw .duplicateKey
          else return (name, pair.2) :: fields) done =
        (pure (fields.reverse ++ done) : Resolving Fields) := by
    clear hnodup
    induction fields generalizing done with
    | nil => rfl
    | cons field fields ih =>
      obtain ⟨hfield, hfields⟩ := List.forall_mem_cons.mp hknown
      have hnew : done.lookup field.1 = none := by
        rw [List.map_cons, List.cons_append, List.nodup_cons] at hfresh
        exact lookup_eq_none_of_not_mem fun hmem => hfresh.1 (List.mem_append_right _ hmem)
      have hrest : ((fields.map Prod.fst) ++ (field :: done).map Prod.fst).Nodup :=
        List.nodup_middle.mpr hfresh
      rw [List.map_cons, List.foldlM_cons]
      dsimp only
      rw [keyName_keyNode, pure_bind, List.contains_iff_mem.mpr hfield, hnew]
      show (pure (field :: done) >>= _ : Resolving Fields) = _
      rw [pure_bind, ih hfields _ hrest]
      simp
  unfold fieldsOf
  show (pure (Node.mapping _) >>= _ : Resolving Fields) = _
  rw [pure_bind]
  exact (hfold [] (by simpa using hnodup)).trans (by rw [List.append_nil])

/-- A field of such a mapping. -/
theorem optional_field {α : Type} {read : Reader α} {fields : Fields} {name : String} {node : Node}
    (hnodup : (fields.map Prod.fst).Nodup) (h : (name, node) ∈ fields) :
    Fields.optional fields.reverse name read = Reader.optional read node := by
  have hnodup' : (fields.reverse.map Prod.fst).Nodup := by
    rw [List.map_reverse]
    exact List.nodup_reverse.mpr hnodup
  unfold Fields.optional Fields.withDefault
  rw [lookup_of_mem hnodup' (List.mem_reverse.mpr h)]

end MidiPanel.Yaml
