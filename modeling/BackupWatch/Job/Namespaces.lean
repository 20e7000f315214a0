/-!
Sets of namespaces, each once and in byte order.
-/

namespace BackupWatch.Job

/-- Puts a name where it belongs in a sorted list, unless it is there. -/
def insertSorted (name : String) : List String → List String
  | [] => [name]
  | head :: rest =>
    if name = head then head :: rest
    else if name < head then name :: head :: rest
    else head :: insertSorted name rest

theorem mem_insertSorted {name other : String} {names : List String} :
    other ∈ insertSorted name names ↔ other = name ∨ other ∈ names := by
  induction names with
  | nil => simp [insertSorted]
  | cons head rest ih =>
    unfold insertSorted
    split
    · next h => subst h; simp
    · split
      · simp
      · simp only [List.mem_cons, ih]
        constructor
        · rintro (h | h | h) <;> simp [h]
        · rintro (h | h | h) <;> simp [h]

theorem pairwise_insertSorted {name : String} {names : List String}
    (h : names.Pairwise (· < ·)) : (insertSorted name names).Pairwise (· < ·) := by
  induction names with
  | nil => simp [insertSorted]
  | cons head rest ih =>
    obtain ⟨hhead, hrest⟩ := List.pairwise_cons.mp h
    unfold insertSorted
    split
    · exact h
    · next hne =>
      split
      · next hlt =>
        refine List.pairwise_cons.mpr ⟨?_, h⟩
        intro other hother
        rcases List.mem_cons.mp hother with rfl | hmem
        · exact hlt
        · exact String.lt_trans hlt (hhead other hmem)
      · next hnlt =>
        refine List.pairwise_cons.mpr ⟨?_, ih hrest⟩
        intro other hother
        rcases mem_insertSorted.mp hother with rfl | hmem
        · rcases Std.lt_trichotomy head other with h' | h' | h'
          · exact h'
          · exact absurd h'.symm hne
          · exact absurd h' hnlt
        · exact hhead other hmem

structure Namespaces where
  names : List String
  sorted : names.Pairwise (· < ·)

namespace Namespaces

def empty : Namespaces := ⟨[], .nil⟩

instance : Inhabited Namespaces := ⟨empty⟩

def insert (name : String) (set : Namespaces) : Namespaces :=
  ⟨insertSorted name set.names, pairwise_insertSorted set.sorted⟩

def ofList (names : List String) : Namespaces := names.foldr insert empty

def contains (set : Namespaces) (name : String) : Bool := set.names.contains name

@[simp] theorem mem_names_ofList {name : String} {names : List String} :
    name ∈ (ofList names).names ↔ name ∈ names := by
  induction names with
  | nil => simp [ofList, empty]
  | cons head rest ih =>
    have : (ofList (head :: rest)).names = insertSorted head (ofList rest).names := rfl
    rw [this, mem_insertSorted, ih, List.mem_cons]

end Namespaces
end BackupWatch.Job
