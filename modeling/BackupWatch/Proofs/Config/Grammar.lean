import BackupWatch.Proofs.Config.Accepted
import BackupWatch.Proofs.Numeral.Written

/-!
What settings are accepted, and what becomes of a configuration under those that are not. Each key
has a grammar for its value; the keys are taken in their order up to the first whose value is not
in its grammar, and each that is taken sets what it is for, and nothing else.
-/

namespace BackupWatch.Config

open Numeral

variable {settings : Settings} {c : Config}

/-- The keys, in the order in which they are taken. -/
def Key.order : List Key := [.uploadTimeout, .uploadPace, .propagationTimeout, .migration]

/-- The values that a key may have. -/
def Key.Fits : Key → String → Prop
  | uploadTimeout, raw => ∃ n, Says raw n ∧ n * 60 < limit
  | uploadPace, raw => ∃ n, Says raw n ∧ n ≠ 0
  | propagationTimeout, raw => ∃ n, Says raw n
  | migration, raw => ∃ b, SaysTruth raw b

/-- A key that is absent, or has a value that it may have. -/
def Key.Sound (settings : Settings) (key : Key) : Prop :=
  ∀ raw, settings.find? key.text = some raw → key.Fits raw

/-- What comes of a value that a key may not have. Only minutes whose seconds leave 64 bits stop the
program. -/
inductive Key.Complains : Key → String → Failure → Prop
  | misread {key : Key} {raw : String} (cause : Numeral.Fault) :
      Complains key raw (.error (.config ("invalid value " ++ Text.quoted raw ++ " for "
        ++ key.text ++ ": " ++ cause.message)))
  | paceTooShort {raw : String} (h : Says raw 0) :
      Complains .uploadPace raw
        (.error (.config (Key.uploadPace.text ++ " must be at least one second")))
  | tooManyMinutes {raw : String} {n : Nat} (h : Says raw n) (hmany : limit ≤ n * 60) :
      Complains .uploadTimeout raw (.fault .productOutOfRange)

/-- The value that the settings have for a key, if it is among some. -/
def Settings.among (settings : Settings) (keys : List Key) (key : Key) : Option String :=
  if key ∈ keys then settings.find? key.text else none

structure Values.SaidBy (settings : Settings) (keys : List Key) (v : Values) : Prop where
  minutes : Option.Rel Says (settings.among keys .uploadTimeout) v.minutes
  pace : Option.Rel Says (settings.among keys .uploadPace) v.pace
  propagation : Option.Rel Says (settings.among keys .propagationTimeout) v.propagation
  migration : Option.Rel SaysTruth (settings.among keys .migration) v.migration

/-- What becomes of a configuration: all keys are taken, or all up to the first that is not
sound. -/
inductive Applied (settings : Settings) (c : Config) : Option Fault × Config → Prop
  | through {v : Values} (hsound : ∀ key : Key, key.Sound settings)
      (hv : v.SaidBy settings Key.order) : Applied settings c (none, v.onto c)
  | stopped {before after : List Key} {key : Key} {raw : String} {fault : Fault} {v : Values}
      (horder : Key.order = before ++ key :: after) (hsound : ∀ k ∈ before, k.Sound settings)
      (hraw : settings.find? key.text = some raw) (hunfit : ¬ key.Fits raw)
      (hfault : key.Complains raw fault.toFailure) (hv : v.SaidBy settings before) :
      Applied settings c (some fault, v.onto c)

section Among

variable {α : Type} {means : String → α → Prop} {value : Option α} {before : List Key}
variable {key other : Key}

theorem rel_among_self (h : Option.Rel means (settings.find? key.text) value) :
    Option.Rel means (settings.among (before ++ [key]) key) value := by
  rwa [Settings.among, if_pos (List.mem_append_right before List.mem_cons_self)]

theorem rel_among_of_ne (hne : other ≠ key)
    (h : Option.Rel means (settings.among before other) value) :
    Option.Rel means (settings.among (before ++ [key]) other) value := by
  unfold Settings.among at h ⊢
  simpa only [List.mem_append, List.mem_singleton, hne, or_false] using h

theorem eq_none_of_rel (hnot : key ∉ before)
    (h : Option.Rel means (settings.among before key) value) : value = none := by
  rw [Settings.among, if_neg hnot] at h
  cases h
  rfl

end Among

def changeOf (settings : Settings) : Key → Config → Except Fault Config
  | .uploadTimeout => applyKey settings .uploadTimeout unsigned setUploadTimeout
  | .uploadPace => applyKey settings .uploadPace unsigned setUploadPace
  | .propagationTimeout => applyKey settings .propagationTimeout unsigned setPropagationTimeout
  | .migration => applyKey settings .migration truthValue setMigration

theorem changes_eq_map (settings : Settings) :
    changes settings = Key.order.map (changeOf settings) := rfl

/-- A key is sound and is taken, or it is not and is refused. -/
inductive Taken (settings : Settings) (c : Config) (before : List Key) (key : Key) :
    Except Fault Config → Prop
  | set {v : Values} (hsound : key.Sound settings) (hv : v.SaidBy settings (before ++ [key])) :
      Taken settings c before key (.ok (v.onto c))
  | refused {raw : String} {fault : Fault} (hraw : settings.find? key.text = some raw)
      (hunfit : ¬ key.Fits raw) (hfault : key.Complains raw fault.toFailure) :
      Taken settings c before key (.error fault)

section Taken

variable {before : List Key} {key : Key} {v : Values}

/-- A key is taken as its values are read, if what it is for is set by each that it may have. -/
theorem taken_of_reads {α : Type} {read : String → Except Numeral.Fault α}
    {means : String → α → Prop} (hread : ∀ {raw a}, read (Text.trim raw) = .ok a ↔ means raw a)
    (good : α → Prop) (hfits : ∀ raw, key.Fits raw ↔ ∃ a, means raw a ∧ good a)
    {change : Config → α → Except Fault Config} (with' : Option α → Values) (hnone : with' none = v)
    (hset : ∀ a, good a → change (v.onto c) a = .ok ((with' (some a)).onto c))
    (hbad : ∀ raw a, means raw a → ¬ good a →
      ∃ fault, change (v.onto c) a = .error fault ∧ key.Complains raw fault.toFailure)
    (hsaid : ∀ value, Option.Rel means (settings.find? key.text) value →
      (with' value).SaidBy settings (before ++ [key])) :
    Taken settings c before key (applyKey settings key read change (v.onto c)) := by
  unfold applyKey value?
  cases hraw : settings.find? key.text with
  | none =>
    have habsent : key.Sound settings := fun raw h => nomatch hraw.symm.trans h
    exact hnone ▸ .set habsent (hsaid none (hraw ▸ .none))
  | some raw =>
    cases hvalue : read (Text.trim raw) with
    | error cause =>
      simp only [hvalue]
      refine .refused hraw ?_ (.misread cause)
      rw [hfits]
      rintro ⟨a, hsays, _⟩
      cases hvalue.symm.trans (hread.mpr hsays)
    | ok a =>
      have hsays := hread.mp hvalue
      have honly : ∀ b, means raw b → b = a :=
        fun b hb => Except.ok.inj ((hread.mpr hb).symm.trans hvalue)
      simp only [hvalue]
      change Taken settings c before key (change (v.onto c) a)
      by_cases hgood : good a
      · rw [hset a hgood]
        refine .set (fun other hother => ?_) (hsaid (some a) (hraw ▸ .some hsays))
        cases hraw.symm.trans hother
        exact (hfits raw).mpr ⟨a, hsays, hgood⟩
      · obtain ⟨fault, herror, hcomplains⟩ := hbad raw a hsays hgood
        rw [herror]
        refine .refused hraw ?_ hcomplains
        rw [hfits]
        rintro ⟨b, hb, hgood'⟩
        exact hgood (honly b hb ▸ hgood')

/-- A key that may have whatever can be read is taken. -/
theorem taken_of_reads_any {α : Type} {read : String → Except Numeral.Fault α}
    {means : String → α → Prop} (hread : ∀ {raw a}, read (Text.trim raw) = .ok a ↔ means raw a)
    (hfits : ∀ raw, key.Fits raw ↔ ∃ a, means raw a)
    {change : Config → α → Except Fault Config} (with' : Option α → Values) (hnone : with' none = v)
    (hset : ∀ a, change (v.onto c) a = .ok ((with' (some a)).onto c))
    (hsaid : ∀ value, Option.Rel means (settings.find? key.text) value →
      (with' value).SaidBy settings (before ++ [key])) :
    Taken settings c before key (applyKey settings key read change (v.onto c)) := by
  have hgood : ∀ raw, key.Fits raw ↔ ∃ a, means raw a ∧ True := by
    simpa only [and_true] using hfits
  exact taken_of_reads hread (fun _ => True) hgood with' hnone (fun a _ => hset a)
    (fun _ _ _ hbad => absurd trivial hbad) hsaid

/-- Each key is taken or refused by its own grammar, on what the keys before it have set. -/
theorem taken (hnot : key ∉ before) (hv : v.SaidBy settings before) :
    Taken settings c before key (changeOf settings key (v.onto c)) := by
  cases key with
  | uploadTimeout =>
    have hnone : { v with minutes := none } = v := by rw [← eq_none_of_rel hnot hv.minutes]
    refine taken_of_reads unsigned_trim_eq_ok_iff (· * 60 < limit) (fun _ => Iff.rfl)
      (fun value => { v with minutes := value }) hnone (fun _ hfew => if_pos hfew) ?_
      fun value hvalue => ?_
    · intro raw n hsays hmany
      exact ⟨.tooManyMinutes, if_neg hmany, .tooManyMinutes hsays (Nat.le_of_not_lt hmany)⟩
    · exact ⟨rel_among_self hvalue, rel_among_of_ne (by decide) hv.pace,
        rel_among_of_ne (by decide) hv.propagation, rel_among_of_ne (by decide) hv.migration⟩
  | uploadPace =>
    have hnone : { v with pace := none } = v := by rw [← eq_none_of_rel hnot hv.pace]
    refine taken_of_reads unsigned_trim_eq_ok_iff (· ≠ 0) (fun _ => Iff.rfl)
      (fun value => { v with pace := value }) hnone (fun _ hsome => if_neg hsome) ?_
      fun value hvalue => ?_
    · intro raw n hsays hzero
      obtain rfl := Decidable.not_not.mp hzero
      exact ⟨.paceTooShort, rfl, .paceTooShort hsays⟩
    · exact ⟨rel_among_of_ne (by decide) hv.minutes, rel_among_self hvalue,
        rel_among_of_ne (by decide) hv.propagation, rel_among_of_ne (by decide) hv.migration⟩
  | propagationTimeout =>
    have hnone : { v with propagation := none } = v := by
      rw [← eq_none_of_rel hnot hv.propagation]
    refine taken_of_reads_any unsigned_trim_eq_ok_iff (fun _ => Iff.rfl)
      (fun value => { v with propagation := value }) hnone (fun _ => rfl) fun value hvalue => ?_
    exact ⟨rel_among_of_ne (by decide) hv.minutes, rel_among_of_ne (by decide) hv.pace,
      rel_among_self hvalue, rel_among_of_ne (by decide) hv.migration⟩
  | migration =>
    have hnone : { v with migration := none } = v := by rw [← eq_none_of_rel hnot hv.migration]
    refine taken_of_reads_any truthValue_trim_eq_ok_iff (fun _ => Iff.rfl)
      (fun value => { v with migration := value }) hnone (fun _ => rfl) fun value hvalue => ?_
    exact ⟨rel_among_of_ne (by decide) hv.minutes, rel_among_of_ne (by decide) hv.pace,
      rel_among_of_ne (by decide) hv.propagation, rel_among_self hvalue⟩

/-- By induction on the keys that are left: those before have been taken. -/
theorem applied_from {after : List Key} (horder : Key.order = before ++ after)
    (hsound : ∀ k ∈ before, k.Sound settings) (hv : v.SaidBy settings before) :
    Applied settings c (applyEach (after.map (changeOf settings)) (v.onto c)) := by
  induction after generalizing before v with
  | nil =>
    rw [List.append_nil] at horder
    refine .through (fun key => hsound key ?_) (horder ▸ hv)
    rw [← horder]
    cases key <;> decide
  | cons key rest ih =>
    have hnodup : (before ++ key :: rest).Nodup := horder ▸ (by decide : Key.order.Nodup)
    have hnot : key ∉ before := fun hmem =>
      List.nodup_append.mp hnodup |>.2.2 key hmem key List.mem_cons_self rfl
    have htaken : Taken settings c before key (changeOf settings key (v.onto c)) := taken hnot hv
    rw [List.map_cons, applyEach]
    generalize changeOf settings key (v.onto c) = result at htaken
    cases htaken with
    | set hkey hnext =>
      refine ih (by rw [horder, List.append_assoc, List.singleton_append]) ?_ hnext
      intro k hk
      rcases List.mem_append.mp hk with hmem | hmem
      · exact hsound k hmem
      · rw [List.mem_singleton.mp hmem]
        exact hkey
    | refused hraw hunfit hfault => exact .stopped horder hsound hraw hunfit hfault hv

end Taken

theorem applied (c : Config) (settings : Settings) : Applied settings c (c.apply settings) := by
  have hnone : (Values.mk none none none none).SaidBy settings [] := ⟨.none, .none, .none, .none⟩
  rw [apply, changes_eq_map]
  exact applied_from (v := ⟨none, none, none, none⟩) rfl (List.forall_mem_nil _) hnone

/-- Settings with the same four values are applied alike. -/
theorem apply_congr {other : Settings}
    (h : ∀ key : Key, other.find? key.text = settings.find? key.text) :
    c.apply other = c.apply settings := by
  unfold apply changes applyKey value?
  simp only [h]

/-- The grammar of settings. They are accepted just when each key that is there has a value in its
grammar. The values of all keys, or of those before the first that is not sound, are then set, and
nothing else is changed; of the first that is not sound it is said what is wrong. Other keys play
no part. -/
theorem apply_accepts_grammar (c : Config) (settings : Settings) :
    ((c.apply settings).1 = none ↔ ∀ key : Key, key.Sound settings) ∧
    Applied settings c (c.apply settings) ∧
    ∀ other : Settings, (∀ key : Key, other.find? key.text = settings.find? key.text) →
      c.apply other = c.apply settings := by
  have happlied := applied c settings
  refine ⟨?_, happlied, fun _ => apply_congr⟩
  generalize c.apply settings = result at happlied
  cases happlied with
  | through hsound _ => exact iff_of_true rfl hsound
  | @stopped _ _ key raw _ _ _ _ hraw hunfit _ _ =>
    exact iff_of_false nofun fun hsound => hunfit (hsound key raw hraw)

/-- A time-out that is padded and signed, and a pace of no seconds before a bad time-out. -/
def pacelessSettings : Settings :=
  [("dataUploadTimeout", " +0090\n"), ("propagationTimeout", "2 minutes"),
    ("dataUploadCheckPace", "00")]

theorem apply_pacelessSettings :
    standard.apply (("dataUploadPace", "5") :: pacelessSettings) =
        (some .paceTooShort, (Values.mk (some 90) none none none).onto standard) ∧
      ¬ ∀ key : Key, key.Sound (("dataUploadPace", "5") :: pacelessSettings) := by
  have hgrammar := apply_accepts_grammar standard pacelessSettings
  have hsame : ∀ key : Key,
      Settings.find? (("dataUploadPace", "5") :: pacelessSettings) key.text =
        pacelessSettings.find? key.text := by
    intro key
    cases key <;> decide +kernel
  have hstopped : standard.apply pacelessSettings =
      (some .paceTooShort, (Values.mk (some 90) none none none).onto standard) := rfl
  refine ⟨(hgrammar.2.2 _ hsame).trans hstopped, fun hsound => ?_⟩
  have haccepted := hgrammar.1.mpr fun key raw hraw => hsound key raw ((hsame key).trans hraw)
  rw [hstopped] at haccepted
  cases haccepted

end BackupWatch.Config
