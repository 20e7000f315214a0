import BackupWatch.Json.Reading
import Mathlib.Data.List.Forall2
import Mathlib.Data.List.Nodup

/-!
Values that a reader does not tell apart. What a record has no field for plays no part, at any
depth, and an optional field may be null or absent. Likenesses of values are built along the records
that are read, and a reader that is built along with them reads alike values alike.
-/

namespace BackupWatch.Json

abbrev Likeness := Json → Json → Prop

/-- Alike values are both refused, or read as the same. -/
def Respects (alike : Likeness) (read : Reader α) : Prop := ∀ a b, alike a b → read a = read b

/-- A value without fields. Two objects in its place are alike whatever they hold. -/
inductive BareAlike : Likeness
  | same (value : Json) : BareAlike value value
  | objects (a b : Members) : BareAlike (.object a) (.object b)

/-- An object of which every key counts: a map of texts, or a word with nothing under it. -/
inductive EntriesAlike : Likeness
  | same (value : Json) : EntriesAlike value value
  | objects {a b : Members}
    (entries : List.Forall₂ (fun m n => m.1 = n.1 ∧ BareAlike m.2 n.2) a b) :
    EntriesAlike (.object a) (.object b)

inductive ItemsAlike (alike : Likeness) : Likeness
  | same (value : Json) : ItemsAlike alike value value
  | lists {a b : List Json} (items : List.Forall₂ alike a b) :
    ItemsAlike alike (.array a) (.array b)

/-- A field of a record, and how its values are compared. -/
structure Field where
  key : String
  /-- Null is as good as absence. -/
  nullable : Bool
  alike : Likeness

namespace Field

def optional (key : String) (alike : Likeness) : Field := ⟨key, true, alike⟩

/-- A field that is required or has a default. -/
def strict (key : String) (alike : Likeness) : Field := ⟨key, false, alike⟩

def seen (f : Field) : Option Json → Option Json
  | some .null => if f.nullable then none else some .null
  | value => value

def Agree (f : Field) (a b : Option Json) : Prop := Option.Rel f.alike (f.seen a) (f.seen b)

end Field

structure Record where
  fields : List Field
  /-- A list of the fields may end before the last of them. -/
  brief : Bool

namespace Record

/-- Members agree on the fields of a record. -/
def Agree (r : Record) (a b : Members) : Prop :=
  ∀ f ∈ r.fields, f.Agree (a.find? f.key) (b.find? f.key)

/-- Values in the place of a record: objects, of which only the fields count, or lists of the fields
in their order. -/
inductive Alike (r : Record) : Likeness
  | same (value : Json) : r.Alike value value
  | objects {a b : Members} (agree : r.Agree a b) : r.Alike (.object a) (.object b)
  | lists {a b : List Json}
    (agree : ∀ (i : Nat) (f : Field), r.fields[i]? = some f → f.Agree a[i]? b[i]?)
    (size : a.length = b.length ∨
      r.brief = true ∧ a.length ≤ r.fields.length ∧ b.length ≤ r.fields.length) :
    r.Alike (.array a) (.array b)

end Record

attribute [simp] BareAlike.same EntriesAlike.same ItemsAlike.same Record.Alike.same

section Bare

/-- A reader that takes no object cannot tell bare values that are alike apart. -/
theorem respects_of_objects {read : Reader α} (h : ∀ members, read (.object members) = none) :
    Respects BareAlike read := by
  rintro _ _ (_ | _)
  · rfl
  · rw [h, h]

theorem respects_text : Respects BareAlike readText := respects_of_objects fun _ => rfl

theorem respects_bool : Respects BareAlike readBool := respects_of_objects fun _ => rfl

theorem respects_integer : Respects BareAlike readInteger := respects_of_objects fun _ => rfl

theorem mapM_congr {α β : Type} {alike : α → α → Prop} {read : α → Option β} {as bs : List α}
    (h : List.Forall₂ alike as bs) (hread : ∀ a b, alike a b → read a = read b) :
    as.mapM read = bs.mapM read := by
  induction h with
  | nil => rfl
  | cons hhead _ ih => rw [List.mapM_cons, List.mapM_cons, hread _ _ hhead, ih]

/-- A reader of items that respects a likeness respects it item by item. -/
theorem respects_array {alike : Likeness} {read : Reader α} (h : Respects alike read) :
    Respects (ItemsAlike alike) (readArray read) := by
  rintro _ _ (_ | hitems)
  · rfl
  · exact mapM_congr hitems h

theorem respects_textMap : Respects EntriesAlike readTextMap := by
  rintro _ _ (_ | hentries)
  · rfl
  · refine mapM_congr hentries fun m n ⟨hkey, hvalue⟩ => ?_
    rw [hkey, respects_text _ _ hvalue]

/-- A word stands alone or as the key of a single null, and entries that are alike keep both. -/
theorem respects_word : Respects EntriesAlike readWord := by
  rintro _ _ (_ | hentries)
  · rfl
  · cases hentries with
    | nil => rfl
    | @cons m n _ _ hhead hrest =>
      obtain ⟨key, value⟩ := m
      obtain ⟨other, value'⟩ := n
      obtain ⟨rfl, hvalue⟩ := hhead
      cases hrest with
      | nil => cases hvalue <;> rfl
      | cons => simp [readWord]

end Bare

section Fields

variable {r : Record} {a b : Members} {alike : Likeness} {read : Reader α}

theorem map_read_of_rel {x y : Option Json} (h : Option.Rel alike x y)
    (hread : Respects alike read) : x.map read = y.map read := by
  cases h with
  | none => rfl
  | some hvalue => exact congrArg some (hread _ _ hvalue)

/-- An optional field is read from what is seen of it. -/
theorem optional_eq_elim (members : Members) (key : String) (alike : Likeness) :
    members.optional key read = (((Field.optional key alike).seen (members.find? key)).map
      read).elim (some none) fun result => result.map some := by
  unfold Members.optional
  rcases members.find? key with _ | value
  · rfl
  · cases value <;> rfl

/-- An optional member reads the same from members that agree on it. -/
theorem Record.Agree.optional (h : r.Agree a b) (key : String) (hread : Respects alike read)
    (hfield : .optional key alike ∈ r.fields) : a.optional key read = b.optional key read := by
  have hseen := map_read_of_rel (h _ hfield) hread
  change ((Field.optional key alike).seen (a.find? key)).map read =
    ((Field.optional key alike).seen (b.find? key)).map read at hseen
  rw [optional_eq_elim a key alike, optional_eq_elim b key alike, hseen]

theorem seen_strict (key : String) (alike : Likeness) (value : Option Json) :
    (Field.strict key alike).seen value = value := by
  rcases value with _ | value
  · rfl
  · cases value <;> rfl

theorem Record.Agree.strict (h : r.Agree a b) (key : String) (hread : Respects alike read)
    (hfield : .strict key alike ∈ r.fields) :
    (a.find? key).map read = (b.find? key).map read := by
  have hagree := h _ hfield
  unfold Field.Agree at hagree
  rw [seen_strict, seen_strict] at hagree
  exact map_read_of_rel hagree hread

theorem Record.Agree.defaulted (h : r.Agree a b) (key : String) (default : α)
    (hread : Respects alike read) (hfield : .strict key alike ∈ r.fields) :
    a.defaulted key default read = b.defaulted key default read := by
  have hdefaulted : ∀ members : Members, members.defaulted key default read =
      ((members.find? key).map read).getD (some default) := by
    intro members
    unfold Members.defaulted
    cases members.find? key <;> rfl
  rw [hdefaulted, hdefaulted, h.strict key hread hfield]

/-- A required member reads the same, or is missing the same, from members that agree on it. -/
theorem Record.Agree.required (h : r.Agree a b) (key : String)
    (hread : Respects alike read) (hfield : .strict key alike ∈ r.fields) :
    a.required key read = b.required key read := by
  have hrequired : ∀ members : Members, members.required key read =
      ((members.find? key).map read).join := by
    intro members
    unfold Members.required
    cases members.find? key <;> rfl
  rw [hrequired, hrequired, h.strict key hread hfield]

end Fields

section Records

variable {r : Record}

/-- In the list of its fields a record has them at their places. -/
theorem find?_zip {fields : List Field} (hkeys : (fields.map Field.key).Nodup) {i : Nat} {f : Field}
    (hfield : fields[i]? = some f) (items : List Json) :
    Members.find? ((fields.map Field.key).zip items) f.key = items[i]? := by
  induction fields generalizing i items with
  | nil => cases hfield
  | cons g rest ih =>
    obtain ⟨hhead, hrest⟩ := List.nodup_cons.mp hkeys
    cases items with
    | nil => rfl
    | cons value items =>
      change List.lookup f.key ((g.key, value) :: (rest.map Field.key).zip items) = _
      cases i with
      | zero =>
        cases hfield
        rw [List.lookup_cons, beq_self_eq_true]
        rfl
      | succ i =>
        have hmem : f.key ∈ rest.map Field.key :=
          List.mem_map_of_mem (List.mem_of_getElem? hfield)
        have hne : (f.key == g.key) = false := beq_false_of_ne fun heq => hhead (heq ▸ hmem)
        rw [List.lookup_cons, hne]
        exact ih hrest hfield items

/-- Lists of items agree as records if they agree item by item, in the order of the fields. -/
theorem agree_of_lists {a b : List Json} (hkeys : (r.fields.map Field.key).Nodup)
    (h : ∀ (i : Nat) (f : Field), r.fields[i]? = some f → f.Agree a[i]? b[i]?) :
    r.Agree ((r.fields.map Field.key).zip a) ((r.fields.map Field.key).zip b) := by
  intro f hf
  obtain ⟨i, hi⟩ := List.mem_iff_getElem?.mp hf
  rw [find?_zip hkeys hi, find?_zip hkeys hi]
  exact h i f hi

/-- Setting a member leaves an object alike if the field of that key, when there is one, does not
tell the new value from what was there. -/
theorem Record.alike_insert (r : Record) {members : Members} {key : String} {value : Json}
    (hsame : ∀ f ∈ r.fields, ∀ v, f.alike v v)
    (hagree : ∀ f ∈ r.fields, f.key = key → f.Agree (members.find? key) (some value)) :
    r.Alike (.object members) (.object (members.insert key value)) := by
  refine .objects fun f hf => ?_
  by_cases hkey : f.key = key
  · rw [hkey, Members.find?_insert_self]
    exact hagree f hf hkey
  · rw [Members.find?_insert_of_ne members value hkey]
    unfold Field.Agree
    cases f.seen (members.find? f.key) with
    | none => exact .none
    | some v => exact .some (hsame f hf v)

theorem Record.alike_insert_field (r : Record) (f : Field) {members : Members} {value : Json}
    (hkeys : (r.fields.map Field.key).Nodup) (hsame : ∀ f ∈ r.fields, ∀ v, f.alike v v)
    (hfield : f ∈ r.fields) (hagree : f.Agree (members.find? f.key) (some value)) :
    r.Alike (.object members) (.object (members.insert f.key value)) :=
  r.alike_insert hsame fun g hg hkey => by
    rw [List.inj_on_of_nodup_map hkeys hg hfield hkey]
    exact hagree

variable {names : List String} {read : Members → Option α}

/-- Lists that are both taken for the fields of a record, or both not, are read as the same. -/
theorem read_list_congr {p q : Prop} [Decidable p] [Decidable q] {a b : List Json} (h : p ↔ q)
    (hread : read (names.zip a) = read (names.zip b)) :
    (if p then some (names.zip a) else none) >>= read =
      (if q then some (names.zip b) else none) >>= read := by
  by_cases hp : p
  · rw [if_pos hp, if_pos (h.mp hp)]
    exact hread
  · rw [if_neg hp, if_neg (mt h.mpr hp)]

theorem respects_record (hnames : r.fields.map Field.key = names) (hkeys : names.Nodup)
    (h : ∀ a b, r.Agree a b → read a = read b) :
    Respects r.Alike fun value => readRecord names value >>= read := by
  have hlength : names.length = r.fields.length := by rw [← hnames, List.length_map]
  rintro _ _ (_ | hagree | ⟨hagree, hsize⟩)
  · rfl
  · exact h _ _ hagree
  · refine read_list_congr ?_ ?_
    · rcases hsize with heq | ⟨-, ha, hb⟩
      · rw [heq]
      · exact iff_of_true (hlength ▸ ha) (hlength ▸ hb)
    · subst hnames
      exact h _ _ (agree_of_lists hkeys hagree)

/-- A record that takes no short list respects agreement on its fields. -/
theorem respects_fullRecord (hnames : r.fields.map Field.key = names) (hkeys : names.Nodup)
    (hfull : r.brief = false) (h : ∀ a b, r.Agree a b → read a = read b) :
    Respects r.Alike fun value => readFullRecord names value >>= read := by
  rintro _ _ (_ | hagree | ⟨hagree, hsize⟩)
  · rfl
  · exact h _ _ hagree
  · refine read_list_congr ?_ ?_
    · rcases hsize with heq | ⟨hbrief, -⟩
      · rw [heq]
      · cases hfull.symm.trans hbrief
    · subst hnames
      exact h _ _ (agree_of_lists hkeys hagree)

/-- A record that is never given as a list. -/
theorem respects_members (h : ∀ a b, r.Agree a b → read a = read b) :
    Respects r.Alike fun value => readMembers value >>= read := by
  rintro _ _ (_ | hagree | _)
  · rfl
  · exact h _ _ hagree
  · rfl

end Records

end BackupWatch.Json
