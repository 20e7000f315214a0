/-!
The order of texts by their bytes. A longer code of a character begins with a larger byte, and
codes of one length hold the digits of their characters, the first digit first. Texts in the order
of their characters are thus in the order of their bytes.
-/

namespace BackupWatch.Text

open String

def bytes (text : String) : List UInt8 := text.toUTF8.data.toList

/-- The bytes of a text are those of its characters in a row. -/
theorem bytes_eq_flatMap (text : String) : bytes text = text.toList.flatMap utf8EncodeChar := by
  have hcode : text.toUTF8 = text.toList.utf8Encode := by
    conv => lhs; rw [← ofList_toList (s := text)]
    exact toByteArray_ofList
  rw [bytes, hcode]
  exact List.toList_data_toByteArray

/-- Whatever comes behind two characters, their codes are in their order. -/
theorem utf8EncodeChar_append_lt {c d : Char} (h : c < d) (behind other : List UInt8) :
    utf8EncodeChar c ++ behind < utf8EncodeChar d ++ other := by
  have hlt : c.val.toNat < d.val.toNat := h
  have hbound : d.val.toNat < 0x110000 := by
    rcases d.valid with h | ⟨_, h⟩ <;> omega
  -- By the lengths of the two codes. No byte overflows, so that bytes compare like numbers.
  fun_cases utf8EncodeChar c <;> fun_cases utf8EncodeChar d <;>
    simp (disch := omega) only [List.cons_append, List.nil_append, List.cons_lt_cons_iff,
      UInt8.lt_iff_toNat_lt, ← UInt8.toNat_inj, UInt8.toNat_ofNat', Nat.mod_eq_of_lt] <;>
    omega

/-- UTF-8 keeps the order of characters, and so of texts. -/
theorem flatMap_utf8EncodeChar_lt {cs ds : List Char} (h : cs < ds) :
    cs.flatMap utf8EncodeChar < ds.flatMap utf8EncodeChar := by
  induction cs generalizing ds with
  | nil =>
    cases ds with
    | nil => exact absurd h (List.lt_irrefl _)
    | cons d ds =>
      obtain ⟨byte, more, hcode⟩ := List.exists_cons_of_ne_nil (utf8EncodeChar_ne_nil (c := d))
      rw [List.flatMap_cons, hcode]
      exact List.nil_lt_cons ..
  | cons c cs ih =>
    cases ds with
    | nil => exact absurd h (List.not_lt_nil _)
    | cons d ds =>
      rw [List.flatMap_cons, List.flatMap_cons]
      rcases List.cons_lt_cons_iff.mp h with hlt | ⟨rfl, hrest⟩
      · exact utf8EncodeChar_append_lt hlt _ _
      · exact List.append_left_lt (ih hrest)

theorem bytes_lt_of_lt {a b : String} (h : a < b) : bytes a < bytes b := by
  rw [bytes_eq_flatMap, bytes_eq_flatMap]
  exact flatMap_utf8EncodeChar_lt h

end BackupWatch.Text
