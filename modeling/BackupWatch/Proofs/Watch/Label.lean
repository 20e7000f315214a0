import BackupWatch.Watch.Object

/-!
The value of a label fits, for every backup name and every digest. A name that is too long is cut at
the last boundary between two of its characters in the first 57 bytes. As no character has more than
four bytes, at most three of the 57 are lost, and what is cut off gives way to six digits.
-/

namespace BackupWatch.Watch

section Cut

variable {budget : Nat} {cs : List Char}

theorem utf8ByteSize_ofList_cons (c : Char) (cs : List Char) :
    (String.ofList (c :: cs)).utf8ByteSize = c.utf8Size + (String.ofList cs).utf8ByteSize := by
  rw [String.ofList_cons, String.utf8ByteSize_append, String.utf8ByteSize_singleton]

/-- What is taken is a beginning of the characters. -/
theorem takeBytes_prefix (budget : Nat) (cs : List Char) : takeBytes budget cs <+: cs := by
  induction cs generalizing budget with
  | nil => exact List.prefix_rfl
  | cons c cs ih =>
    unfold takeBytes
    split
    · exact List.cons_prefix_cons.mpr ⟨rfl, ih _⟩
    · exact List.nil_prefix

theorem size_le_of_prefix {taken : List Char} (h : taken <+: cs) :
    (String.ofList taken).utf8ByteSize ≤ (String.ofList cs).utf8ByteSize := by
  obtain ⟨rest, rfl⟩ := h
  rw [String.ofList_append, String.utf8ByteSize_append]
  exact Nat.le_add_right ..

/-- What is taken fits the budget. -/
theorem size_takeBytes_le (budget : Nat) (cs : List Char) :
    (String.ofList (takeBytes budget cs)).utf8ByteSize ≤ budget := by
  induction cs generalizing budget with
  | nil => simp [takeBytes]
  | cons c cs ih =>
    unfold takeBytes
    split
    · next hfits =>
      rw [utf8ByteSize_ofList_cons]
      have hrest := ih (budget - c.utf8Size)
      omega
    · simp

/-- No other leading characters within the budget are more. -/
theorem prefix_takeBytes {taken : List Char} (h : taken <+: cs)
    (hbudget : (String.ofList taken).utf8ByteSize ≤ budget) : taken <+: takeBytes budget cs := by
  induction cs generalizing budget taken with
  | nil => simpa [takeBytes] using h
  | cons c cs ih =>
    cases taken with
    | nil => exact List.nil_prefix
    | cons d taken =>
      obtain ⟨rfl, hrest⟩ := List.cons_prefix_cons.mp h
      rw [utf8ByteSize_ofList_cons] at hbudget
      have hfits : d.utf8Size ≤ budget := by omega
      rw [takeBytes, if_pos hfits]
      exact List.cons_prefix_cons.mpr ⟨rfl, ih hrest (by omega)⟩

/-- What is left of the budget has no room for a character. -/
theorem lt_size_takeBytes_add (h : budget < (String.ofList cs).utf8ByteSize) :
    budget < (String.ofList (takeBytes budget cs)).utf8ByteSize + 4 := by
  induction cs generalizing budget with
  | nil => simp at h
  | cons c cs ih =>
    rw [utf8ByteSize_ofList_cons] at h
    unfold takeBytes
    split
    · next hfits =>
      rw [utf8ByteSize_ofList_cons]
      have hrest := ih (show budget - c.utf8Size < (String.ofList cs).utf8ByteSize by omega)
      omega
    · next hfull =>
      have hsize := c.utf8Size_le_four
      simp only [String.ofList_nil, String.utf8ByteSize_empty]
      omega

end Cut

section Digits

def hexDigits : List Char := "0123456789abcdef".toList

theorem mem_hexDigits_of_mem_hexByte {b : UInt8} {c : Char} (h : c ∈ Digest.hexByte b) :
    c ∈ hexDigits := by
  have hdigit : ∀ n < 16, Nat.digitChar n ∈ hexDigits := by decide
  have hbyte := b.toNat_lt
  simp only [Digest.hexByte, List.mem_cons, List.not_mem_nil, or_false] at h
  rcases h with rfl | rfl
  · exact hdigit _ (by omega)
  · exact hdigit _ (by omega)

theorem size_of_hexDigits {digits : List Char} (h : ∀ c ∈ digits, c ∈ hexDigits) :
    (String.ofList digits).utf8ByteSize = digits.length := by
  have hone : hexDigits.all (·.utf8Size == 1) = true := by decide
  induction digits with
  | nil => simp
  | cons c digits ih =>
    have hsize := beq_iff_eq.mp (List.all_eq_true.mp hone c (h c (List.mem_cons_self ..)))
    rw [utf8ByteSize_ofList_cons, hsize, ih fun d hd => h d (List.mem_cons_of_mem c hd),
      List.length_cons, Nat.add_comm]

/-- The first six digits of a digest are those of its first three bytes. -/
theorem digestDigits_eq {digest : List UInt8} (h : digest.length = 32) :
    digestDigits digest = (digest.take 3).flatMap Digest.hexByte ∧
      (digestDigits digest).length = 6 := by
  obtain ⟨a, b, c, rest, rfl⟩ : ∃ a b c rest, digest = a :: b :: c :: rest := by
    match digest with
    | a :: b :: c :: rest => exact ⟨a, b, c, rest, rfl⟩
  exact ⟨rfl, rfl⟩

end Digits

/-- What a name that is too long is shortened to: all up to its last boundary between characters
among the first 57 bytes, and the first six digits of its digest. -/
structure Shortened (digest : List UInt8 → List UInt8) (name kept digits : String) : Prop where
  leading : ∃ rest, name = kept ++ rest
  boundary : kept.rawEndPos.IsValid name
  last : ∀ p : String.Pos.Raw, p.IsValid name → p.byteIdx ≤ 57 → p.byteIdx ≤ kept.utf8ByteSize
  at_least : 54 ≤ kept.utf8ByteSize
  at_most : kept.utf8ByteSize ≤ 57
  digits_eq : digits.toList = ((digest name.toUTF8.toList).take 3).flatMap Digest.hexByte
  length_digits : digits.length = 6
  hex : ∀ c ∈ digits.toList, c ∈ hexDigits

section Value

variable {digest : List UInt8 → List UInt8} {name kept digits : String}

/-- The hexadecimal digits take six bytes. -/
theorem Shortened.size_digits (h : Shortened digest name kept digits) :
    digits.utf8ByteSize = 6 := by
  have hsize := size_of_hexDigits h.hex
  rw [String.ofList_toList] at hsize
  exact hsize.trans h.length_digits

/-- A name that fits is its own label value. -/
theorem labelValueBy_of_le (h : name.utf8ByteSize ≤ 63) : labelValueBy digest name = name :=
  if_pos h

/-- A name that does not fit is cut and marked with digits of its digest. -/
theorem shortened_of_lt (hdigest : ∀ message, (digest message).length = 32)
    (h : 63 < name.utf8ByteSize) :
    ∃ kept digits, labelValueBy digest name = kept ++ digits ∧
      Shortened digest name kept digits := by
  have hname : 57 < (String.ofList name.toList).utf8ByteSize := by
    rw [String.ofList_toList]
    omega
  obtain ⟨rest, hrest⟩ := takeBytes_prefix 57 name.toList
  obtain ⟨hdigits, hlength⟩ := digestDigits_eq (hdigest name.toUTF8.toList)
  have hleading : name = String.ofList (takeBytes 57 name.toList) ++ String.ofList rest := by
    rw [← String.ofList_append, hrest, String.ofList_toList]
  refine ⟨String.ofList (takeBytes 57 name.toList),
    String.ofList (digestDigits (digest name.toUTF8.toList)), ?_, ?_⟩
  · rw [← String.ofList_append]
    exact if_neg (Nat.not_le.mpr h)
  · refine ⟨⟨_, hleading⟩, ?_, ?_, ?_, size_takeBytes_le 57 _, ?_, ?_, ?_⟩
    · exact String.Pos.Raw.isValid_iff_exists_append.mpr ⟨_, _, hleading, rfl⟩
    · intro p hp hbudget
      obtain ⟨before, after, hsplit, rfl⟩ := String.Pos.Raw.isValid_iff_exists_append.mp hp
      have hbefore : before.toList <+: name.toList := ⟨after.toList, by simp [hsplit]⟩
      have hsize := size_le_of_prefix (prefix_takeBytes hbefore (by simpa using hbudget))
      simpa using hsize
    · have hroom := lt_size_takeBytes_add hname
      omega
    · rw [String.toList_ofList]
      exact hdigits
    · simpa using hlength
    · intro c hc
      rw [String.toList_ofList, hdigits] at hc
      obtain ⟨b, _, hb⟩ := List.mem_flatMap.mp hc
      exact mem_hexDigits_of_mem_hexByte hb

/-- A label value fits, whether the name has been cut or not. -/
theorem size_labelValueBy_le (hdigest : ∀ message, (digest message).length = 32) (name : String) :
    (labelValueBy digest name).utf8ByteSize ≤ 63 := by
  by_cases h : name.utf8ByteSize ≤ 63
  · rwa [labelValueBy_of_le h]
  · obtain ⟨kept, digits, hvalue, hshort⟩ := shortened_of_lt hdigest (Nat.lt_of_not_le h)
    have hkept := hshort.at_most
    have hdigits := hshort.size_digits
    rw [hvalue, String.utf8ByteSize_append]
    omega

end Value

theorem belongsTo_iff_of_label {o : Object} {value backup : String}
    (h : o.labels.find? backupLabel = some value) :
    o.belongsTo backup = true ↔ value = labelValue backup := by
  simp only [Object.belongsTo, h, beq_iff_eq]

/-- Whatever the digest, a label value has at most 63 bytes. Up to there it is the name itself. From
there on it is all of the name up to the last boundary between characters in its first 57 bytes, and
six digits. A value is its own value, so that an object labelled with it belongs to the name and to
the shortened name alike, and no two names that need not be shortened share their objects. -/
theorem label_values_fit (digest : List UInt8 → List UInt8)
    (hdigest : ∀ message, (digest message).length = 32) (name : String) :
    (labelValueBy digest name).utf8ByteSize ≤ 63 ∧
    (name.utf8ByteSize ≤ 63 → labelValueBy digest name = name) ∧
    (63 < name.utf8ByteSize → 60 ≤ (labelValueBy digest name).utf8ByteSize ∧
      ∃ kept digits, labelValueBy digest name = kept ++ digits ∧
        Shortened digest name kept digits) ∧
    labelValueBy digest (labelValueBy digest name) = labelValueBy digest name ∧
    (∀ o : Object, o.labels.find? backupLabel = some (labelValue name) →
      o.belongsTo name = true ∧ o.belongsTo (labelValue name) = true) ∧
    ∀ (o : Object) (other : String), name.utf8ByteSize ≤ 63 → other.utf8ByteSize ≤ 63 →
      o.labels.find? backupLabel = some name → (o.belongsTo other = true ↔ other = name) := by
  have hidem : ∀ {digest : List UInt8 → List UInt8}, (∀ message, (digest message).length = 32) →
      labelValueBy digest (labelValueBy digest name) = labelValueBy digest name :=
    fun hdigest => labelValueBy_of_le (size_labelValueBy_le hdigest name)
  refine ⟨size_labelValueBy_le hdigest name, labelValueBy_of_le, fun hlong => ?_, hidem hdigest,
    fun o hlabel => ?_, fun o other hname hother hlabel => ?_⟩
  · obtain ⟨kept, digits, hvalue, hshort⟩ := shortened_of_lt hdigest hlong
    refine ⟨?_, kept, digits, hvalue, hshort⟩
    have hkept := hshort.at_least
    have hdigits := hshort.size_digits
    rw [hvalue, String.utf8ByteSize_append]
    omega
  · rw [belongsTo_iff_of_label hlabel, belongsTo_iff_of_label hlabel]
    exact ⟨rfl, (hidem Digest.length_sha256).symm⟩
  · rw [belongsTo_iff_of_label hlabel, labelValue, labelValueBy_of_le hother]
    exact eq_comm

/-- A name in which the 57th byte is the first of two that make one character. -/
def crossedName : String :=
  String.ofList (List.replicate 56 'b') ++ (String.singleton 'é' ++ "-nightly")

/-- The character on the cut is left out. -/
theorem label_values_fit_crossed_cut :
    ∃ kept digits, labelValue crossedName = kept ++ digits ∧
      Shortened Digest.sha256 crossedName kept digits ∧ kept.utf8ByteSize = 56 ∧
      (labelValue crossedName).utf8ByteSize = 62 := by
  have hlong : 63 < crossedName.utf8ByteSize := by decide +kernel
  obtain ⟨_, kept, digits, hvalue, hshort⟩ :=
    (label_values_fit Digest.sha256 Digest.length_sha256 crossedName).2.2.1 hlong
  obtain ⟨start, hstart, hname⟩ : ∃ start : String, start.utf8ByteSize = 56 ∧
      crossedName = start ++ (String.singleton 'é' ++ "-nightly") := ⟨_, by decide +kernel, rfl⟩
  have hlower : 56 ≤ kept.utf8ByteSize := by
    have hvalid : start.rawEndPos.IsValid crossedName :=
      hname ▸ String.Pos.Raw.isValid_rawEndPos.append_right _
    have hlast := hshort.last _ hvalid
    rw [String.byteIdx_rawEndPos, hstart] at hlast
    exact hlast (by omega)
  have hne : kept.utf8ByteSize ≠ 57 := by
    intro hcut
    have hvalid := hshort.boundary
    rw [hname, String.Pos.Raw.isValid_append, String.Pos.Raw.isValid_append,
      String.Pos.Raw.isValid_singleton] at hvalid
    have htwo : 'é'.utf8Size = 2 := by decide
    have hpast : (kept.rawEndPos - start).byteIdx = 1 := by
      rw [String.Pos.Raw.byteIdx_sub_string, String.byteIdx_rawEndPos, hcut, hstart]
    rcases hvalid with hvalid | ⟨_, (hzero | hsize) | ⟨hbehind, _⟩⟩
    · have hle := hvalid.le_utf8ByteSize
      rw [String.byteIdx_rawEndPos] at hle
      omega
    · rw [hzero] at hpast
      cases hpast
    · omega
    · rw [String.Pos.Raw.le_iff, hpast, String.byteIdx_rawEndPos, String.utf8ByteSize_singleton]
        at hbehind
      omega
  have hupper := hshort.at_most
  have hkept : kept.utf8ByteSize = 56 := by omega
  refine ⟨kept, digits, hvalue, hshort, hkept, ?_⟩
  change (labelValueBy Digest.sha256 crossedName).utf8ByteSize = 62
  rw [hvalue, String.utf8ByteSize_append, hkept, hshort.size_digits]

end BackupWatch.Watch
