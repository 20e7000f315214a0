import BackupWatch.Proofs.Job.Check

/-!
The threshold of a kind. A check finishes a kind on the number of complete objects alone: none of
those that count may have failed, and as many as expected must be complete. It does not look at how
many more there are, so that what it leaves pending is what exceeds the expected number.
-/

namespace BackupWatch.Job

open Act Cluster Watch

variable {κ : Type}

/-- Objects none of which has failed are complete or pending. -/
theorem countP_isComplete_add_countP_isPending {objects : List Object}
    (h : ∀ o ∈ objects, o.phase ≠ .failed) :
    objects.countP isComplete + objects.countP isPending = objects.length := by
  have hsame : objects.countP (fun o => !isComplete o) = objects.countP isPending := by
    refine List.countP_congr fun o ho => ?_
    have hphase := h o ho
    cases hcase : o.phase <;> simp_all [isComplete, isPending]
  rw [List.length_eq_countP_add_countP isComplete, ← hsame]
  simp

theorem expectedUnits_pos (ctx : Context) : 0 < ctx.expectedUnits := by
  unfold Context.expectedUnits
  split <;> decide

/-- The objects of a listing that count for a checker, which records the leftovers of its kind from
the listing first, unless that has been done. -/
def countedIn (ctx : Context) (checker : Checker) (job : JobState) (listing : List Object) :
    List Object :=
  relevantIn checker.kind ctx (job.note checker.kind listing).leftovers listing

/-- As many objects are complete as are expected, and none has failed. -/
structure AtThreshold (ctx : Context) (objects : List Object) : Prop where
  none_failed : ∀ o ∈ objects, o.phase ≠ .failed
  complete : objects.countP isComplete = ctx.expectedUnits

section Verdict

variable {ctx : Context} {checker : Checker} {job : JobState}

/-- The reason is the threshold when there are objects and as many Completed ones as expected. -/
theorem reason_verdict_eq_threshold_iff {t : Tally} :
    (job.verdict ctx checker t).reason = some .threshold ↔
      t.relevant ≠ 0 ∧ t.completed = ctx.expectedUnits := by
  simp only [JobState.verdict, judge]
  by_cases hnone : t.relevant = 0
  · simp only [hnone, if_true]
    cases (job.completion.get checker.kind).started <;> cases checker.mayStayEmpty <;> simp
  · by_cases hall : t.completed = ctx.expectedUnits <;> simp [hnone, hall]

/-- On a count of objects, a verdict is given on the threshold just when they are at it. -/
theorem classify_at_threshold_iff {listing : List Object} :
    (∃ t, classify checker.kind ctx (job.note checker.kind listing).leftovers listing = .ok t ∧
      (job.verdict ctx checker t).reason = some .threshold) ↔
      AtThreshold ctx (countedIn ctx checker job listing) := by
  constructor
  · rintro ⟨t, hcount, hreason⟩
    obtain ⟨rfl, hnone⟩ := eq_of_classify_eq_ok hcount
    exact ⟨hnone, (reason_verdict_eq_threshold_iff.mp hreason).2⟩
  · rintro ⟨hnone, hcomplete⟩
    have hsome : (countedIn ctx checker job listing).length ≠ 0 := by
      have hle := List.countP_le_length (p := isComplete) (l := countedIn ctx checker job listing)
      have hpos := expectedUnits_pos ctx
      omega
    refine ⟨.of (countedIn ctx checker job listing), ?_,
      reason_verdict_eq_threshold_iff.mpr ⟨hsome, hcomplete⟩⟩
    have hfind : (countedIn ctx checker job listing).find? hasFailed = none := by
      refine List.find?_eq_none.mpr fun o ho => ?_
      simpa [hasFailed] using hnone o ho
    rw [classify_eq]
    unfold countedIn at hfind ⊢
    rw [hfind]

end Verdict

section Check

variable {client : Client κ} {ctx : Context} {checker : Checker} {s : Session κ JobState}

/-- Only a count of a listing finishes a kind on the threshold. -/
theorem exists_count_of_threshold {o : Outcome} (ho : (check client ctx checker s).1 = .ok o)
    (hreason : o.reason = some .threshold) :
    (s.own.completion.get checker.kind).finished = false ∧
      ∃ listing t, (listInScope client ctx checker.kind s).1 = .ok listing ∧
        classify checker.kind ctx (s.own.note checker.kind listing).leftovers listing = .ok t ∧
        o = s.own.verdict ctx checker t := by
  have hcheck := checking client ctx checker s
  generalize check client ctx checker s = result at hcheck ho
  cases hcheck with
  | cached _ =>
    cases ho
    cases hreason
  | refused _ _ _ => cases ho
  | failed _ _ _ _ => cases ho
  | @counted listing _ t _ hopen hlist _ hcount hverdict =>
    cases ho
    exact ⟨hopen, listing, t, by rw [hlist], hcount, hverdict⟩

theorem check_of_count {listing : List Object} {t : Tally}
    (hopen : (s.own.completion.get checker.kind).finished = false)
    (hlisting : (listInScope client ctx checker.kind s).1 = .ok listing)
    (hcount : classify checker.kind ctx (s.own.note checker.kind listing).leftovers listing =
      .ok t) :
    (check client ctx checker s).1 = .ok (s.own.verdict ctx checker t) := by
  have hcheck := checking client ctx checker s
  generalize check client ctx checker s = result at hcheck
  cases hcheck with
  | cached hdone =>
    rw [hopen] at hdone
    cases hdone
  | refused _ hlist _ =>
    rw [hlist] at hlisting
    cases hlisting
  | failed _ hlist _ hfailed =>
    rw [hlist] at hlisting
    cases hlisting
    cases hfailed.symm.trans hcount
  | counted _ hlist _ hcounted hverdict =>
    rw [hlist] at hlisting
    cases hlisting
    cases hcounted.symm.trans hcount
    exact congrArg Except.ok hverdict

end Check

/-- A check finishes a kind on the threshold just when the kind had not finished before and the
check could list it at the threshold. What is then reported as pending are the objects of the
listing that count and are not complete, as many as exceed the expected number: there are none just
when the listing holds no more than that. -/
theorem finishes_on_complete_alone (client : Client κ) (ctx : Context) (checker : Checker)
    (s : Session κ JobState) :
    ((∃ o, (check client ctx checker s).1 = .ok o ∧ o.reason = some .threshold) ↔
      (s.own.completion.get checker.kind).finished = false ∧
        ∃ listing, (listInScope client ctx checker.kind s).1 = .ok listing ∧
          AtThreshold ctx (countedIn ctx checker s.own listing)) ∧
    ∀ o, (check client ctx checker s).1 = .ok o → o.reason = some .threshold →
      ∀ listing, (listInScope client ctx checker.kind s).1 = .ok listing →
        o.finished = true ∧ o.completed = ctx.expectedUnits ∧
        o.pending = (countedIn ctx checker s.own listing).countP isPending ∧
        (countedIn ctx checker s.own listing).length = ctx.expectedUnits + o.pending ∧
        (o.pending = 0 ↔ (countedIn ctx checker s.own listing).length ≤ ctx.expectedUnits) := by
  refine ⟨⟨?_, ?_⟩, ?_⟩
  · rintro ⟨o, ho, hreason⟩
    obtain ⟨hopen, listing, t, hlisting, hcount, rfl⟩ := exists_count_of_threshold ho hreason
    exact ⟨hopen, listing, hlisting, classify_at_threshold_iff.mp ⟨t, hcount, hreason⟩⟩
  · rintro ⟨hopen, listing, hlisting, hthreshold⟩
    obtain ⟨t, hcount, hreason⟩ := classify_at_threshold_iff.mpr hthreshold
    exact ⟨_, check_of_count hopen hlisting hcount, hreason⟩
  · intro o ho hreason listing hlisting
    obtain ⟨_, other, t, hother, hcount, rfl⟩ := exists_count_of_threshold ho hreason
    cases hother.symm.trans hlisting
    obtain ⟨hnone, hcomplete⟩ := classify_at_threshold_iff.mp ⟨t, hcount, hreason⟩
    obtain ⟨rfl, _⟩ := eq_of_classify_eq_ok hcount
    have hall := countP_isComplete_add_countP_isPending hnone
    rw [hcomplete] at hall
    refine ⟨?_, hcomplete, rfl, hall.symm, ?_⟩
    · exact (congrArg Option.isSome hreason).trans rfl
    change (countedIn ctx checker s.own listing).countP isPending = 0 ↔ _
    omega

def uploads (held : List (String × Phase)) : List Object :=
  held.map fun (name, phase) =>
    ⟨.dataUpload, ⟨name, some "openshift-adp"⟩, [], none, phase, none⟩

def uploading (held : List (String × Phase)) : Client Unit where
  accepts _ := true
  reply request _ _ := match request with
    | .list _ _ => ⟨.ok (uploads held), 0, ()⟩
    | .readPause _ => ⟨.ok ⟨none, none⟩, 0, ()⟩
    | .writePause _ _ _ => ⟨.ok (), 0, ()⟩
    | .nodePools _ => ⟨.ok [], 0, ()⟩
    | .controlPlane _ => ⟨.ok none, 0, ()⟩
    | .controlPlanesIn _ => ⟨.ok [], 0, ()⟩

def nightly (highlyAvailable : Bool) : Context :=
  { Context.new "nightly" "openshift-adp" ["clusters"] with highlyAvailable }

def seededEmpty : Session Unit JobState :=
  ⟨0, fun _ => 0, (), JobState.fresh.note .dataUpload []⟩

def fiveUploads : List (String × Phase) :=
  [("nightly-a", .completed), ("nightly-b", .new), ("nightly-c", .completed),
    ("nightly-d", .inProgress), ("nightly-e", .completed)]

/-- Three replicas are taken for done with three uploads, though two more are on their way. -/
theorem finishes_on_three_of_five :
    (check (uploading fiveUploads) (nightly true) ⟨.dataUpload, false⟩ seededEmpty).1 =
        .ok ⟨.dataUpload, true, true, 3, 2, 3, some .threshold⟩ ∧
      (countedIn (nightly true) ⟨.dataUpload, false⟩ seededEmpty.own
        (uploads fiveUploads)).length = 3 + 2 := by
  have hcheck : (check (uploading fiveUploads) (nightly true) ⟨.dataUpload, false⟩
      seededEmpty).1 = .ok ⟨.dataUpload, true, true, 3, 2, 3, some .threshold⟩ := rfl
  have hcounts := (finishes_on_complete_alone (uploading fiveUploads) (nightly true)
    ⟨.dataUpload, false⟩ seededEmpty).2 _ hcheck rfl (uploads fiveUploads) rfl
  exact ⟨hcheck, hcounts.2.2.2.1⟩

/-- A single replica is taken for done while an upload that counts is in progress. -/
theorem finishes_with_one_in_progress :
    (check (uploading [("nightly-a", .completed), ("nightly-b", .inProgress)]) (nightly false)
        ⟨.dataUpload, true⟩ seededEmpty).1 =
          .ok ⟨.dataUpload, true, true, 1, 1, 1, some .threshold⟩ ∧
      ∃ o ∈ countedIn (nightly false) ⟨.dataUpload, true⟩ seededEmpty.own
          (uploads [("nightly-a", .completed), ("nightly-b", .inProgress)]),
        o.phase = .inProgress := by
  refine ⟨rfl, ⟨.dataUpload, ⟨"nightly-b", some "openshift-adp"⟩, [], none, .inProgress, none⟩, ?_,
    rfl⟩
  decide

end BackupWatch.Job
