import BackupWatch.Proofs.Job.Listing

/-!
What the leftovers of a job are, and what they do to its checks. They are those of the first
successful listing, whichever of seeding and checking made it; a check counts as if the leftovers
were not in its listing; and no stage is touched before all have theirs.
-/

namespace BackupWatch.Job

open Act Cluster Watch

variable {κ : Type} {client : Client κ} {ctx : Context}

theorem Leftovers.mem_completedIn {kind : Kind} {listing : List Object} {id : Identity} :
    id ∈ Leftovers.completedIn kind listing ↔
      ∃ o ∈ listing, o.kind = kind ∧ o.phase = .completed ∧ o.identity = id := by
  simp [Leftovers.completedIn, List.mem_eraseDups, and_assoc]

/-- Recording the leftovers of one kind leaves those of the others alone. -/
theorem JobState.entries_note (job : JobState) (kind other : Kind) (listing : List Object) :
    (job.note kind listing).leftovers.entries.get other =
      if other = kind then noted kind (job.leftovers.entries.get kind) (.ok listing)
      else job.leftovers.entries.get other := by
  split
  · next heq =>
    subst heq
    unfold note Leftovers.record Leftovers.isBuilt
    cases hids : job.leftovers.entries.get other with
    | some ids => simp [noted, hids]
    | none => simp [noted]
  · next hne => exact (sameAt_note job hne listing).leftovers

/-- The history of a job explains what it remembers as leftovers of a kind. -/
def Explained (ctx : Context) (kind : Kind) (s : Session (Chronicle κ) JobState) : Prop :=
  Recorded ctx kind s.history (s.own.leftovers.entries.get kind)

/-- A listing of a kind asks for nothing but lists of that kind. -/
theorem Listing.request {kind : Kind} {new : List Exchange}
    {result : Except Failure (List Object)} (h : Listing ctx kind new result) :
    ∀ e ∈ new, ∃ ns, e.request = .list kind ns := by
  intro e he
  cases h with
  | refused f => cases he
  | sent hsurvey =>
    cases hsurvey with
    | complete _ =>
      obtain ⟨answer, _, rfl⟩ := List.mem_map.mp he
      exact ⟨_, rfl⟩
    | broken _ _ =>
      rcases List.mem_append.mp he with hmem | hmem
      · obtain ⟨answer, _, rfl⟩ := List.mem_map.mp hmem
        exact ⟨_, rfl⟩
      · obtain rfl := List.mem_singleton.mp hmem
        exact ⟨_, rfl⟩

section Listed

variable {kind other : Kind} {s later : Session (Chronicle κ) JobState}

/-- A listing that fails explains as much as the history before it. -/
theorem Explained.refused (h : Explained ctx other s) {f : Failure}
    (hlist : listInScope client.recorded ctx kind s = (.error f, later))
    (hown : later.own = s.own) : Explained ctx other later := by
  obtain ⟨new, hnew, hlisting⟩ := listing_listInScope client ctx kind s
  rw [hlist] at hnew hlisting
  rw [Explained, hnew, hown]
  by_cases heq : other = kind
  · subst heq
    exact Recorded.listing h hlisting
  · refine Recorded.append h fun e he ns hrequest => ?_
    obtain ⟨_, hother⟩ := hlisting.request e he
    cases hrequest.symm.trans hother
    exact heq rfl

/-- After a listing the leftovers are explained by it, if they have not been before. -/
theorem Explained.listed (h : Explained ctx other s) {listing : List Object} {job : JobState}
    (hlist : listInScope client.recorded ctx kind s = (.ok listing, later))
    (hjob : job.leftovers = (s.own.note kind listing).leftovers) :
    Explained ctx other { later with own := job } := by
  obtain ⟨new, hnew, hlisting⟩ := listing_listInScope client ctx kind s
  rw [hlist] at hnew hlisting
  change Recorded ctx other later.history (job.leftovers.entries.get other)
  rw [hnew, hjob, JobState.entries_note]
  split
  · next heq =>
    subst heq
    exact Recorded.listing h hlisting
  · next hne =>
    refine Recorded.append h fun e he ns hrequest => ?_
    obtain ⟨_, hother⟩ := hlisting.request e he
    cases hrequest.symm.trans hother
    exact hne rfl

theorem Seeding.explained {result : Except Failure Unit × Session (Chronicle κ) JobState}
    (h : Seeding client.recorded ctx kind s result) (hs : Explained ctx other s) :
    Explained ctx other result.2 := by
  cases h with
  | built _ => exact hs
  | refused _ hlist hown => exact hs.refused hlist hown
  | listed _ hlist _ => exact hs.listed hlist rfl

theorem Checking.explained {checker : Checker}
    {result : Except Failure Outcome × Session (Chronicle κ) JobState}
    (h : Checking client.recorded ctx checker s result) (hs : Explained ctx other s) :
    Explained ctx other result.2 := by
  cases h with
  | cached _ => exact hs
  | refused _ hlist hown => exact hs.refused hlist hown
  | failed _ hlist _ _ => exact hs.listed hlist rfl
  | counted _ hlist _ _ _ => exact hs.listed hlist rfl

end Listed

/-- Leaving out the leftovers is the same as never having listed them. -/
theorem relevantIn_without_leftovers (kind : Kind) (ctx : Context) (leftovers : Leftovers)
    (listing : List Object) :
    relevantIn kind ctx leftovers listing =
      relevantIn kind ctx .empty
        (listing.filter fun o => !leftovers.contains kind o.identity) := by
  unfold relevantIn
  rw [List.filter_filter]
  refine List.filter_congr fun o _ => ?_
  have hempty : Leftovers.empty.contains kind o.identity = false := by
    cases kind <;> rfl
  simp only [isRelevant, hempty]
  cases o.kind == kind <;> cases leftovers.contains kind o.identity <;> simp

/-- A check of a kind with leftovers counts its listing as if these were not in it. -/
theorem check_without_leftovers {checker : Checker} {s later : Session κ JobState}
    {listing : List Object} (hbuilt : s.own.leftovers.isBuilt checker.kind = true)
    (hopen : (s.own.completion.get checker.kind).finished = false)
    (hlist : listInScope client ctx checker.kind s = (.ok listing, later)) :
    (check client ctx checker s).1 =
      ((classify checker.kind ctx .empty
        (listing.filter fun o => !s.own.leftovers.contains checker.kind o.identity)).map
          (s.own.verdict ctx checker)).mapError .error := by
  have hsame : classify checker.kind ctx .empty
      (listing.filter fun o => !s.own.leftovers.contains checker.kind o.identity) =
      classify checker.kind ctx s.own.leftovers listing :=
    classify_congr (relevantIn_without_leftovers checker.kind ctx s.own.leftovers listing).symm
  have hnote : s.own.note checker.kind listing = s.own := by
    rw [JobState.note, Leftovers.record_of_isBuilt hbuilt]
  rw [hsame]
  have hcheck := checking client ctx checker s
  generalize check client ctx checker s = result at hcheck
  cases hcheck with
  | cached hdone =>
    rw [hopen] at hdone
    cases hdone
  | refused _ hlist' _ => cases hlist.symm.trans hlist'
  | failed _ hlist' _ hcount =>
    cases hlist.symm.trans hlist'
    rw [hnote] at hcount
    rw [hcount]
    rfl
  | counted _ hlist' _ hcount hverdict =>
    cases hlist.symm.trans hlist'
    rw [hnote] at hcount
    rw [hcount, hverdict]
    rfl

namespace Progress

theorem Step.explained {s later : Session (Chronicle κ) Progress}
    (h : Step client.recorded ctx s later) {kind : Kind}
    (hs : Explained ctx kind (s.focus Progress.job)) :
    Explained ctx kind (later.focus Progress.job) := by
  cases h with
  | pass millis => exact hs
  | seed _ => exact (seeding client.recorded ctx _ (s.focus Progress.job)).explained hs
  | check _ => exact (checking client.recorded ctx _ (s.focus Progress.job)).explained hs
  | finish _ => exact hs

/-- As long as leftovers are missing, nothing is known of any stage. -/
def SeededFirst (p : Progress) : Prop := p.Seeded ∨ ∀ kind, p.job.Untouched kind

/-- No step learns anything of a stage while leftovers are missing. -/
theorem Step.seededFirst {s later : Session κ Progress} (h : Step client ctx s later)
    (hs : s.own.SeededFirst) : later.own.SeededFirst := by
  rcases hs with hseeded | hnone
  · exact Or.inl (h.advances.seeded hseeded)
  · rcases h.completion with hsame | ⟨_, _, _, _, hdecides⟩
    · refine Or.inr fun kind => ?_
      rw [JobState.Untouched, hsame]
      exact hnone kind
    · exact Or.inl (h.advances.seeded hdecides.at_stage.seeded)

theorem seededFirst_fresh (chain : Chain) : (fresh chain).SeededFirst :=
  Or.inr fun kind => PerKind.get_same _ kind

end Progress
end BackupWatch.Job
