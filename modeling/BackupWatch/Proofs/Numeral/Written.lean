import BackupWatch.Numeral.Unsigned
import BackupWatch.Text.Blank

/-!
How the values of settings may be written. White space may stand on both sides; a number is at most
one plus sign and decimal digits, as many as one likes; a truth value is one of two words. What is
read of a text is what it says if it is written so, and nothing otherwise.
-/

namespace BackupWatch

namespace Text

variable {p : Char → Bool} {cs body : List Char}

/-- A text with white space on both sides, or on none. -/
def Padded (body text : List Char) : Prop :=
  ∃ lead trail, text = lead ++ body ++ trail ∧
    (∀ c ∈ lead, isBlank c = true) ∧ ∀ c ∈ trail, isBlank c = true

theorem isBlank_of_isDigit {c : Char} (h : c.isDigit = true) : isBlank c = false := by
  simp only [Char.isDigit, Bool.and_eq_true, decide_eq_true_eq, UInt32.le_iff_toNat_le, ge_iff_le]
    at h
  have hlow : 48 ≤ c.toNat := h.1
  have hhigh : c.toNat ≤ 57 := h.2
  simp only [isBlank, Bool.or_eq_false_iff, Bool.and_eq_false_iff, decide_eq_false_iff_not,
    beq_eq_false_iff_ne]
  omega

theorem dropWhile_eq_nil (h : ∀ c ∈ cs, p c = true) : cs.dropWhile p = [] := by
  rw [← List.append_nil cs, List.dropWhile_append_of_pos h, List.dropWhile_nil]

theorem stripBy_eq_self (h : ∀ c ∈ cs, p c = false) : stripBy p cs = cs := by
  have hkept {ds : List Char} (hds : ∀ c ∈ ds, p c = false) : ds.dropWhile p = ds := by
    cases ds with
    | nil => rfl
    | cons d rest => simp [List.dropWhile, hds d List.mem_cons_self]
  rw [stripBy, hkept h, hkept fun c hc => h c (List.mem_reverse.mp hc), List.reverse_reverse]

/-- What is stripped from both ends may as well not be there. -/
theorem stripBy_append {lead trail : List Char} (hlead : ∀ c ∈ lead, p c = true)
    (htrail : ∀ c ∈ trail, p c = true) : stripBy p (lead ++ cs ++ trail) = stripBy p cs := by
  have hreverse : ∀ c ∈ trail.reverse, p c = true := fun c hc => htrail c (List.mem_reverse.mp hc)
  unfold stripBy
  rw [List.append_assoc, List.dropWhile_append_of_pos hlead, List.dropWhile_append]
  split
  · next hempty =>
    rw [dropWhile_eq_nil htrail, List.isEmpty_iff.mp hempty]
  · rw [List.reverse_append, List.dropWhile_append_of_pos hreverse]

/-- What is stripped off are characters of the sort on both sides. -/
theorem exists_stripped (p : Char → Bool) (cs : List Char) :
    ∃ lead trail, cs = lead ++ stripBy p cs ++ trail ∧
      (∀ c ∈ lead, p c = true) ∧ ∀ c ∈ trail, p c = true := by
  have htaken : ∀ cs : List Char, ∀ c ∈ cs.takeWhile p, p c = true :=
    fun cs => List.all_eq_true.mp List.all_takeWhile
  refine ⟨cs.takeWhile p, ((cs.dropWhile p).reverse.takeWhile p).reverse, ?_, htaken cs,
    fun c hc => htaken _ c (List.mem_reverse.mp hc)⟩
  rw [stripBy, List.append_assoc, ← List.reverse_append, List.takeWhile_append_dropWhile,
    List.reverse_reverse, List.takeWhile_append_dropWhile]

/-- To trim a text is to take off its padding. -/
theorem trim_eq_iff_padded {text : String} (hbody : ∀ c ∈ body, isBlank c = false) :
    (trim text).toList = body ↔ Padded body text.toList := by
  rw [trim, String.toList_ofList]
  constructor
  · rintro rfl
    exact exists_stripped isBlank text.toList
  · rintro ⟨lead, trail, heq, hlead, htrail⟩
    rw [heq, stripBy_append hlead htrail, stripBy_eq_self hbody]

end Text

namespace Numeral

/-- A numeral, and the number that it stands for. -/
def Denotes (numeral : List Char) (n : Nat) : Prop :=
  ∃ digits, (numeral = digits ∨ numeral = '+' :: digits) ∧ digits ≠ [] ∧
    (∀ c ∈ digits, c.isDigit = true) ∧ n = Nat.ofDigitChars 10 digits 0

/-- A text that says a number of at most 64 bits. -/
def Says (text : String) (n : Nat) : Prop :=
  (∃ numeral, Text.Padded numeral text.toList ∧ Denotes numeral n) ∧ n < limit

def SaysTruth (text : String) (b : Bool) : Prop := Text.Padded (toString b).toList text.toList

theorem digit?_eq (c : Char) :
    digit? c = if c.isDigit then some (c.toNat - '0'.toNat) else none := by
  have hiff : c.isDigit = true ↔ '0' ≤ c ∧ c ≤ '9' := Char.isDigit_iff_toNat
  simp only [digit?, hiff]
  rfl

/-- Reading more digits never makes the number smaller. -/
theorem le_ofDigitChars (digits : List Char) (acc : Nat) :
    acc ≤ Nat.ofDigitChars 10 digits acc := by
  induction digits generalizing acc with
  | nil => exact Nat.le_refl _
  | cons c rest ih =>
    rw [Nat.ofDigitChars_cons]
    have hrest := ih (10 * acc + (c.toNat - '0'.toNat))
    omega

/-- A number that is too large already gets no smaller by more digits. -/
theorem readDigits_eq_ok_iff {cs : List Char} {acc n : Nat} (hacc : acc < limit) :
    readDigits acc cs = .ok n ↔
      (∀ c ∈ cs, c.isDigit = true) ∧ n = Nat.ofDigitChars 10 cs acc ∧ n < limit := by
  induction cs generalizing acc with
  | nil =>
    constructor
    · intro h
      cases h
      exact ⟨List.forall_mem_nil _, rfl, hacc⟩
    · rintro ⟨_, rfl, _⟩
      rfl
  | cons c rest ih =>
    rw [readDigits, digit?_eq, Nat.ofDigitChars_cons, List.forall_mem_cons, Nat.mul_comm 10 acc]
    by_cases hdigit : c.isDigit = true
    · simp only [hdigit, if_true, true_and]
      split
      · next hsmall => exact ih hsmall
      · next hlarge =>
        constructor
        · intro h
          cases h
        · rintro ⟨_, heq, hlimit⟩
          have hle := le_ofDigitChars rest (acc * 10 + (c.toNat - '0'.toNat))
          exact absurd (Nat.lt_of_le_of_lt (heq ▸ hle) hlimit) hlarge
    · simp [hdigit]

/-- A plus sign stands once, in front of at least one digit. -/
theorem denotes_plus {rest : List Char} {n : Nat} :
    Denotes ('+' :: rest) n ↔
      rest ≠ [] ∧ (∀ c ∈ rest, c.isDigit = true) ∧ n = Nat.ofDigitChars 10 rest 0 := by
  constructor
  · rintro ⟨digits, rfl | heq, hsome, hdigits, hn⟩
    · exact absurd (hdigits '+' List.mem_cons_self) (by decide)
    · cases heq
      exact ⟨hsome, hdigits, hn⟩
  · rintro ⟨hsome, hdigits, hn⟩
    exact ⟨rest, Or.inr rfl, hsome, hdigits, hn⟩

theorem denotes_of_ne_plus {c : Char} (h : c ≠ '+') {rest : List Char} {n : Nat} :
    Denotes (c :: rest) n ↔
      (∀ d ∈ c :: rest, d.isDigit = true) ∧ n = Nat.ofDigitChars 10 (c :: rest) 0 := by
  constructor
  · rintro ⟨digits, rfl | heq, _, hdigits, hn⟩
    · exact ⟨hdigits, hn⟩
    · cases heq
      exact absurd rfl h
  · rintro ⟨hdigits, hn⟩
    exact ⟨c :: rest, Or.inl rfl, List.cons_ne_nil c rest, hdigits, hn⟩

theorem read_of_ne_plus {c : Char} (h : c ≠ '+') (rest : List Char) :
    read (c :: rest) = readDigits 0 (c :: rest) := by
  rw [read] <;> simp_all

/-- The reader takes the numerals of numbers below the limit, and nothing else. -/
theorem read_eq_ok_iff {cs : List Char} {n : Nat} :
    read cs = .ok n ↔ Denotes cs n ∧ n < limit := by
  cases cs with
  | nil =>
    refine ⟨fun h => (nomatch h), ?_⟩
    rintro ⟨⟨digits, rfl | heq, hsome, _⟩, _⟩
    · exact absurd rfl hsome
    · cases heq
  | cons c rest =>
    by_cases hplus : c = '+'
    · subst hplus
      rw [denotes_plus]
      cases rest with
      | nil => exact ⟨fun h => (nomatch h), fun ⟨⟨hsome, _⟩, _⟩ => absurd rfl hsome⟩
      | cons d rest =>
        change readDigits 0 (d :: rest) = .ok n ↔ _
        rw [readDigits_eq_ok_iff (by decide), and_assoc, and_assoc]
        exact (and_iff_right (List.cons_ne_nil d rest)).symm
    · rw [read_of_ne_plus hplus, denotes_of_ne_plus hplus, readDigits_eq_ok_iff (by decide),
        and_assoc]

/-- A numeral has no blank inside. -/
theorem isBlank_of_denotes {numeral : List Char} {n : Nat} (h : Denotes numeral n) :
    ∀ c ∈ numeral, Text.isBlank c = false := by
  obtain ⟨digits, hwritten, _, hdigits, _⟩ := h
  have hkept : ∀ c ∈ digits, Text.isBlank c = false :=
    fun c hc => Text.isBlank_of_isDigit (hdigits c hc)
  rcases hwritten with rfl | rfl
  · exact hkept
  · exact List.forall_mem_cons.mpr ⟨by decide, hkept⟩

/-- A trimmed text is read as a number just when the text says it. -/
theorem unsigned_trim_eq_ok_iff {text : String} {n : Nat} :
    unsigned (Text.trim text) = .ok n ↔ Says text n := by
  rw [unsigned, read_eq_ok_iff]
  constructor
  · rintro ⟨hdenotes, hlimit⟩
    exact ⟨⟨_, (Text.trim_eq_iff_padded (isBlank_of_denotes hdenotes)).mp rfl, hdenotes⟩, hlimit⟩
  · rintro ⟨⟨numeral, hpadded, hdenotes⟩, hlimit⟩
    rw [(Text.trim_eq_iff_padded (isBlank_of_denotes hdenotes)).mpr hpadded]
    exact ⟨hdenotes, hlimit⟩

theorem truthValue_eq_ok_iff {word : String} {b : Bool} :
    truthValue word = .ok b ↔ word = toString b := by
  have htrue : toString true = "true" := rfl
  have hfalse : toString false = "false" := rfl
  unfold truthValue
  cases b <;> grind

theorem truthValue_trim_eq_ok_iff {text : String} {b : Bool} :
    truthValue (Text.trim text) = .ok b ↔ SaysTruth text b := by
  have hletters : (toString b).toList.all (!Text.isBlank ·) = true := by
    cases b <;> rfl
  have hbody : ∀ c ∈ (toString b).toList, Text.isBlank c = false :=
    fun c hc => (Bool.not_eq_true' _).mp (List.all_eq_true.mp hletters c hc)
  rw [truthValue_eq_ok_iff, SaysTruth, ← Text.trim_eq_iff_padded hbody, String.toList_inj]

end Numeral
end BackupWatch
