import BackupWatch.Proofs.Job.Threshold

/-!
The classification of a listing. Whether an object counts is said of the object alone, so that a
count depends neither on the order of a listing nor on what else is in it: it adds up over the
parts of a listing, and fails on the first object of those that count that has failed.
-/

namespace BackupWatch.Job

open Watch

/-- An object is a backup's by its label or, if it has none, by the stem of its name. -/
def MadeFor (backup : String) (o : Object) : Prop :=
  match o.labels.find? backupLabel with
  | some value => value = labelValue backup
  | none => ∃ ending, o.identity.name = backup ++ "-" ++ ending

/-- An object counts if it passes all four filters. -/
structure Counts (kind : Kind) (ctx : Context) (leftovers : Leftovers) (o : Object) : Prop where
  ofKind : o.kind = kind
  recent : ∀ ids, leftovers.entries.get kind = some ids → o.identity ∉ ids
  inScope : kind.scope = .cluster → ∃ ns ∈ ctx.included.names, o.referenceNamespace = some ns
  own : MadeFor ctx.backup o

section Filters

variable {kind : Kind} {ctx : Context} {leftovers : Leftovers} {o : Object}

/-- The label, or the stem of the name, as the program compares it. -/
theorem belongsTo_iff_madeFor {backup : String} :
    o.belongsTo backup = true ↔ MadeFor backup o := by
  unfold Object.belongsTo MadeFor
  cases o.labels.find? backupLabel with
  | some value => simp only [beq_iff_eq]
  | none =>
    simp only [List.isPrefixOf_iff_prefix]
    constructor
    · rintro ⟨ending, heq⟩
      refine ⟨String.ofList ending, String.toList_inj.mp ?_⟩
      simpa using heq.symm
    · rintro ⟨ending, heq⟩
      exact ⟨ending.toList, by simp [heq]⟩

theorem contains_iff_mem_entries {id : Identity} :
    leftovers.contains kind id = true ↔
      ∃ ids, leftovers.entries.get kind = some ids ∧ id ∈ ids := by
  unfold Leftovers.contains
  cases leftovers.entries.get kind <;> simp

theorem inScope_iff :
    inScope ctx o = true ↔
      (o.kind.scope = .cluster → ∃ ns ∈ ctx.included.names, o.referenceNamespace = some ns) := by
  unfold inScope
  cases o.kind.scope with
  | cluster => cases o.referenceNamespace <;> simp [Context.includes, Namespaces.contains]
  | includedNamespaces => simp
  | backupNamespace => simp

/-- The four filters let an object pass just when it counts. -/
theorem isRelevant_iff_counts :
    isRelevant kind ctx leftovers o = true ↔ Counts kind ctx leftovers o := by
  simp only [isRelevant, Bool.and_eq_true, beq_iff_eq, Bool.not_eq_true', Bool.eq_false_iff, ne_eq,
    contains_iff_mem_entries, inScope_iff, belongsTo_iff_madeFor]
  constructor
  · rintro ⟨⟨⟨rfl, hrecent⟩, hscope⟩, hown⟩
    exact ⟨rfl, fun ids hids hmem => hrecent ⟨ids, hids, hmem⟩, hscope, hown⟩
  · rintro ⟨rfl, hrecent, hscope, hown⟩
    refine ⟨⟨⟨rfl, ?_⟩, hscope⟩, hown⟩
    rintro ⟨ids, hids, hmem⟩
    exact hrecent ids hids hmem

instance : DecidablePred (Counts kind ctx leftovers) :=
  fun _ => decidable_of_iff _ isRelevant_iff_counts

end Filters

instance : Add Tally where
  add a b := ⟨a.relevant + b.relevant, a.completed + b.completed, a.pending + b.pending⟩

section Objects

variable {objects others : List Object}

/-- Tallies of two listings add up. -/
theorem Tally.of_append (objects others : List Object) :
    Tally.of (objects ++ others) = .of objects + .of others := by
  simp only [Tally.of, List.length_append, List.countP_append]
  rfl

/-- The order of a listing does not matter to its tally. -/
theorem Tally.of_perm (h : objects.Perm others) : Tally.of objects = .of others := by
  simp only [Tally.of, h.length_eq, h.countP_eq]

end Objects

section Listings

variable {kind : Kind} {ctx : Context} {leftovers : Leftovers} {listing other : List Object}

theorem counts_congr {others : Leftovers}
    (h : leftovers.entries.get kind = others.entries.get kind) {o : Object} :
    Counts kind ctx leftovers o ↔ Counts kind ctx others o := by
  constructor
  · rintro ⟨hkind, hrecent, hscope, hown⟩
    exact ⟨hkind, h ▸ hrecent, hscope, hown⟩
  · rintro ⟨hkind, hrecent, hscope, hown⟩
    exact ⟨hkind, h ▸ hrecent, hscope, hown⟩

theorem mem_relevantIn {o : Object} :
    o ∈ relevantIn kind ctx leftovers listing ↔ o ∈ listing ∧ Counts kind ctx leftovers o := by
  rw [relevantIn, List.mem_filter, isRelevant_iff_counts]

theorem relevantIn_append (first second : List Object) :
    relevantIn kind ctx leftovers (first ++ second) =
      relevantIn kind ctx leftovers first ++ relevantIn kind ctx leftovers second :=
  List.filter_append ..

theorem relevantIn_eq_nil (h : ∀ o ∈ listing, ¬ Counts kind ctx leftovers o) :
    relevantIn kind ctx leftovers listing = [] := by
  refine List.filter_eq_nil_iff.mpr fun o ho => ?_
  rw [isRelevant_iff_counts]
  exact h o ho

theorem countP_relevantIn (p : Object → Bool) :
    (relevantIn kind ctx leftovers listing).countP p =
      listing.countP fun o => Counts kind ctx leftovers o ∧ p o = true := by
  rw [relevantIn, List.countP_filter]
  refine List.countP_congr fun o _ => ?_
  simp [isRelevant_iff_counts, and_comm]

/-- A count fails just when it meets a failure, whatever else there is. -/
theorem classify_fails_iff :
    (∃ e, classify kind ctx leftovers listing = .error e) ↔
      ∃ o ∈ listing, Counts kind ctx leftovers o ∧ o.phase = .failed := by
  rw [classify_eq]
  cases hfind : (relevantIn kind ctx leftovers listing).find? hasFailed with
  | none =>
    have hnone := List.find?_eq_none.mp hfind
    refine ⟨fun ⟨_, he⟩ => (nomatch he), ?_⟩
    rintro ⟨o, ho, hcounts, hfailed⟩
    exact absurd (by simpa [hasFailed] using hfailed) (hnone o (mem_relevantIn.mpr ⟨ho, hcounts⟩))
  | some o =>
    obtain ⟨ho, hcounts⟩ := mem_relevantIn.mp (List.mem_of_find?_eq_some hfind)
    have hfailed : o.phase = .failed := by simpa [hasFailed] using List.find?_some hfind
    exact ⟨fun _ => ⟨o, ho, hcounts, hfailed⟩, fun _ => ⟨failure o, rfl⟩⟩

/-- The failure that is reported is the first in the listing. -/
theorem classify_of_first_failed {before after : List Object} {o : Object}
    (hbefore : ∀ p ∈ before, Counts kind ctx leftovers p → p.phase ≠ .failed)
    (hcounts : Counts kind ctx leftovers o) (hfailed : o.phase = .failed) :
    classify kind ctx leftovers (before ++ o :: after) =
      .error (.jobFailed kind o.identity.text "Failed" o.message) := by
  have hnone : (relevantIn kind ctx leftovers before).find? hasFailed = none := by
    refine List.find?_eq_none.mpr fun p hp => ?_
    obtain ⟨hmem, hp⟩ := mem_relevantIn.mp hp
    simpa [hasFailed] using hbefore p hmem hp
  have hfirst : (relevantIn kind ctx leftovers (o :: after)).find? hasFailed = some o := by
    rw [relevantIn, List.filter_cons_of_pos (isRelevant_iff_counts.mpr hcounts)]
    exact List.find?_cons_of_pos (by simpa [hasFailed] using hfailed)
  rw [classify_eq, relevantIn_append, List.find?_append, hnone, hfirst, Option.none_or]
  simp only [failure, hcounts.ofKind, hfailed, Phase.text]

/-- The tally is empty just when nothing counts. -/
theorem relevant_eq_zero_iff {t : Tally} (h : classify kind ctx leftovers listing = .ok t) :
    t.relevant = 0 ↔ ∀ o ∈ listing, ¬ Counts kind ctx leftovers o := by
  obtain ⟨rfl, _⟩ := eq_of_classify_eq_ok h
  constructor
  · intro hnone o ho hcounts
    have hmem := mem_relevantIn.mpr ⟨ho, hcounts⟩
    rw [List.length_eq_zero_iff.mp hnone] at hmem
    cases hmem
  · exact fun hnone => List.length_eq_zero_iff.mpr (relevantIn_eq_nil hnone)

theorem tally_of_classify {t : Tally} (h : classify kind ctx leftovers listing = .ok t) :
    t.completed = listing.countP (fun o =>
        Counts kind ctx leftovers o ∧ o.phase = .completed) ∧
      t.pending = listing.countP (fun o =>
        Counts kind ctx leftovers o ∧ (o.phase = .new ∨ o.phase = .inProgress)) ∧
      t.relevant = t.completed + t.pending := by
  obtain ⟨rfl, hunfailed⟩ := eq_of_classify_eq_ok h
  refine ⟨?_, ?_, (countP_isComplete_add_countP_isPending hunfailed).symm⟩
  · refine (countP_relevantIn isComplete).trans ?_
    simp only [isComplete, decide_eq_true_iff]
  · refine (countP_relevantIn isPending).trans ?_
    simp only [isPending, decide_eq_true_iff]

/-- Apart from which failure is named, classifying is a count of what is relevant. -/
theorem toOption_classify :
    (classify kind ctx leftovers listing).toOption =
      if ∃ o ∈ listing, Counts kind ctx leftovers o ∧ o.phase = .failed then none
      else some (.of (relevantIn kind ctx leftovers listing)) := by
  rcases hcount : classify kind ctx leftovers listing with e | t
  · rw [if_pos (classify_fails_iff.mp ⟨e, hcount⟩)]
    rfl
  · obtain ⟨rfl, hunfailed⟩ := eq_of_classify_eq_ok hcount
    rw [if_neg fun ⟨o, ho, hcounts, hfailed⟩ =>
      hunfailed o (mem_relevantIn.mpr ⟨ho, hcounts⟩) hfailed]
    rfl

theorem toOption_classify_of_perm (h : listing.Perm other) :
    (classify kind ctx leftovers listing).toOption =
      (classify kind ctx leftovers other).toOption := by
  have hrelevant : (relevantIn kind ctx leftovers listing).Perm
      (relevantIn kind ctx leftovers other) := h.filter _
  simp only [toOption_classify, h.mem_iff, Tally.of_perm hrelevant]

/-- Parts of a listing are classified one by one. -/
theorem classify_append (first second : List Object) :
    classify kind ctx leftovers (first ++ second) = do
      let t ← classify kind ctx leftovers first
      return t + (← classify kind ctx leftovers second) := by
  rw [classify_eq, classify_eq, classify_eq, relevantIn_append, List.find?_append, Tally.of_append]
  cases (relevantIn kind ctx leftovers first).find? hasFailed with
  | some o => rfl
  | none => cases (relevantIn kind ctx leftovers second).find? hasFailed <;> rfl

end Listings

/-- A count is exact: it fails just when an object that counts has failed, on the first of them, and
otherwise gives the numbers of those that count, by phase. The order of the listing decides only
which failure is reported, what does not count changes nothing, and parts add up. -/
theorem classify_counts_in_any_order (kind : Kind) (ctx : Context) (leftovers : Leftovers) :
    (∀ listing, (∃ e, classify kind ctx leftovers listing = .error e) ↔
      ∃ o ∈ listing, Counts kind ctx leftovers o ∧ o.phase = .failed) ∧
    (∀ before o after, (∀ p ∈ before, Counts kind ctx leftovers p → p.phase ≠ .failed) →
      Counts kind ctx leftovers o → o.phase = .failed →
      classify kind ctx leftovers (before ++ o :: after) =
        .error (.jobFailed kind o.identity.text "Failed" o.message)) ∧
    (∀ listing t, classify kind ctx leftovers listing = .ok t →
      t.completed = listing.countP (fun o =>
        Counts kind ctx leftovers o ∧ o.phase = .completed) ∧
      t.pending = listing.countP (fun o =>
        Counts kind ctx leftovers o ∧ (o.phase = .new ∨ o.phase = .inProgress)) ∧
      t.relevant = t.completed + t.pending) ∧
    (∀ listing other, listing.Perm other →
      (classify kind ctx leftovers listing).toOption =
        (classify kind ctx leftovers other).toOption) ∧
    (∀ before others after, (∀ o ∈ others, ¬ Counts kind ctx leftovers o) →
      classify kind ctx leftovers (before ++ others ++ after) =
        classify kind ctx leftovers (before ++ after)) ∧
    ∀ first second, classify kind ctx leftovers (first ++ second) = do
      let t ← classify kind ctx leftovers first
      return t + (← classify kind ctx leftovers second) := by
  refine ⟨fun _ => classify_fails_iff, fun _ _ _ => classify_of_first_failed,
    fun _ _ => tally_of_classify, fun _ _ => toOption_classify_of_perm, ?_, classify_append⟩
  intro before others after hothers
  refine classify_congr ?_
  rw [relevantIn_append, relevantIn_append, relevantIn_eq_nil hothers, List.append_nil,
    relevantIn_append]

/-- Two uploads of the backup, one of them listed twice, beside a leftover, an upload of another
backup that has failed and an object of another kind that has failed. -/
def mixedUploads : List Object :=
  uploads [("nightly-b", .new), ("nightly-old", .completed), ("weekly-a", .failed),
    ("nightly-a", .completed), ("nightly-a", .completed)] ++
  [⟨.volumeBackup, ⟨"nightly-c", some "openshift-adp"⟩, [], none, .failed, none⟩]

def oldUpload : Leftovers :=
  Leftovers.empty.record .dataUpload (uploads [("nightly-old", .completed)])

theorem classify_mixedUploads :
    classify .dataUpload (nightly true) oldUpload mixedUploads = .ok ⟨3, 2, 1⟩ ∧
      (classify .dataUpload (nightly true) oldUpload mixedUploads.reverse).toOption =
        some ⟨3, 2, 1⟩ ∧
      classify .dataUpload (nightly true) oldUpload
          (mixedUploads ++ uploads [("nightly-d", .failed), ("nightly-e", .failed)]) =
        .error (.jobFailed .dataUpload "openshift-adp/nightly-d" "Failed" none) := by
  have hlaws := classify_counts_in_any_order .dataUpload (nightly true) oldUpload
  have hcount : classify .dataUpload (nightly true) oldUpload mixedUploads = .ok ⟨3, 2, 1⟩ := by
    rfl
  refine ⟨hcount, ?_, ?_⟩
  · rw [hlaws.2.2.2.1 _ _ (List.reverse_perm mixedUploads), hcount]
    rfl
  · exact hlaws.2.1 mixedUploads
      ⟨.dataUpload, ⟨"nightly-d", some "openshift-adp"⟩, [], none, .failed, none⟩
      (uploads [("nightly-e", .failed)]) (by decide) (by decide) rfl

end BackupWatch.Job
