import BackupWatch.Proofs.Job.Check
import BackupWatch.Proofs.Job.Listing
import BackupWatch.Proofs.Timeline
import Mathlib.Data.List.Perm.Subperm

/-!
Regular histories. The relevant objects of a stage are those that count towards it; in a regular
history they stay once they are there, do not fail, stay complete once they are, and are never
more than expected, and all are complete in time, whenever they came and in whatever order. A
check counts those of its time.
-/

namespace BackupWatch.Job

open Act Cluster Time Watch

variable {σ : Type}

section Listing

variable (t : Timeline) (ctx : Context)

def listingAt (clock : Nat) (kind : Kind) : List Object :=
  (places ctx kind).flatMap (t.listed clock kind)

/-- A history lists each place as it is at the time, and no time passes. -/
theorem run_mapM_listed (kind : Kind) (names : List String) (s : Session Journal σ) :
    ∃ journal, names.mapM (fun ns => t.client.ask (.list kind (some ns))) s =
      (.ok (names.map fun ns => t.listed s.clock kind (some ns)),
        { s with cluster := journal }) := by
  induction names generalizing s with
  | nil => exact ⟨s.cluster, rfl⟩
  | cons name rest ih =>
    obtain ⟨journal, hrest⟩ := ih
      { s with cluster := s.cluster ++ [(s.clock, .list kind (some name))] }
    refine ⟨journal, ?_⟩
    rw [List.mapM_cons, run_bind, Timeline.run_ask]
    simp only
    rw [run_bind_pure, hrest]
    rfl

/-- A history lists a kind wherever the backup looks for it. -/
theorem run_listInScope (kind : Kind) (s : Session Journal σ) :
    ∃ journal, listInScope t.client ctx kind s =
      (.ok (listingAt t ctx s.clock kind), { s with cluster := journal }) := by
  have hask : ∀ ns, places ctx kind = [ns] →
      t.client.ask (.list kind ns) s = (.ok (listingAt t ctx s.clock kind),
        { s with cluster := s.cluster ++ [(s.clock, .list kind ns)] }) := by
    intro ns hplaces
    rw [listingAt, hplaces, List.flatMap_singleton, Timeline.run_ask]
    rfl
  unfold listInScope
  cases hscope : kind.scope with
  | cluster => exact ⟨_, hask none (by rw [places, hscope])⟩
  | backupNamespace => exact ⟨_, hask _ (by rw [places, hscope])⟩
  | includedNamespaces =>
    obtain ⟨journal, hlists⟩ := run_mapM_listed t kind ctx.included.names s
    refine ⟨journal, ?_⟩
    have haccepts : (ctx.included.names.all fun ns =>
        t.client.accepts (.list kind (some ns))) = true := by
      simp [Timeline.client]
    unfold listEach
    simp only [haccepts, Bool.not_true, Bool.and_false, Bool.false_eq_true, if_false]
    rw [run_bind_pure, hlists, listingAt, places, hscope, List.flatMap_map]
    rfl

/-- No object is listed twice, since each has a place of its own. -/
theorem nodup_identities_listingAt (clock : Nat) (kind : Kind) :
    ((listingAt t ctx clock kind).map Object.identity).Nodup := by
  have hplaces := nodup_places ctx kind
  rw [listingAt, List.map_flatMap, List.nodup_flatMap]
  refine ⟨fun ns _ => t.nodup_identities_listed clock kind ns, ?_⟩
  have hsome : places ctx kind = [none] ∨ ∀ ns ∈ places ctx kind, ns ≠ none := by
    unfold places
    cases kind.scope <;> simp
  rcases hsome with hnone | hsome
  · rw [hnone]
    exact List.pairwise_singleton _ _
  · refine hplaces.imp_of_mem fun {first second} hfirst hsecond hne => ?_
    intro id hid hid'
    obtain ⟨a, ha, rfl⟩ := List.mem_map.mp hid
    obtain ⟨b, hb, hsame⟩ := List.mem_map.mp hid'
    simp only [Timeline.listed, List.mem_filter, decide_eq_true_eq, hsome first hfirst,
      hsome second hsecond, false_or] at ha hb
    exact hne (by rw [← ha.2.2, ← hb.2.2, hsame])

/-- The objects that count towards a kind at some time, for a job whose leftovers were recorded at
another. -/
def relevantAt (seeded clock : Nat) (kind : Kind) : List Object :=
  relevantIn kind ctx (Leftovers.empty.record kind (listingAt t ctx seeded kind))
    (listingAt t ctx clock kind)

end Listing

theorem relevantAt_congr {t : Timeline} {clock other : Nat}
    (h : t.population clock = t.population other) (ctx : Context) (seeded : Nat) (kind : Kind) :
    relevantAt t ctx seeded clock kind = relevantAt t ctx seeded other kind := by
  have hlisted : t.listed clock kind = t.listed other kind := by
    funext ns
    rw [Timeline.listed, Timeline.listed, h]
  have hlisting : listingAt t ctx clock kind = listingAt t ctx other kind := by
    rw [listingAt, hlisted, listingAt]
  rw [relevantAt, hlisting, relevantAt]

/-- A history in which the data of a backup is moved within the time-out from the first check on. -/
structure Regular (t : Timeline) (ctx : Context) (settings : Poll.Settings)
    (seeded first : Nat) : Prop where
  begun : ∀ kind ∈ (Chain.forJob ctx).stages.head?, relevantAt t ctx seeded first kind ≠ []
  bounded : ∀ kind ∈ (Chain.forJob ctx).stages, ∀ clock, first ≤ clock →
    (relevantAt t ctx seeded clock kind).length ≤ ctx.expectedUnits
  unfailed : ∀ kind ∈ (Chain.forJob ctx).stages, ∀ clock, first ≤ clock →
    ∀ o ∈ relevantAt t ctx seeded clock kind, o.phase ≠ .failed
  lasting : ∀ kind ∈ (Chain.forJob ctx).stages, ∀ clock later, first ≤ clock → clock ≤ later →
    ∀ o ∈ relevantAt t ctx seeded clock kind, ∃ same ∈ relevantAt t ctx seeded later kind,
      same.identity = o.identity ∧ (o.phase = .completed → same.phase = .completed)
  complete : ∀ kind ∈ (Chain.forJob ctx).stages, ∃ clock, first ≤ clock ∧
    (Duration.ofMillis clock).nanoseconds ≤ Poll.deadline settings first ∧
    (relevantAt t ctx seeded clock kind).countP isComplete = ctx.expectedUnits

structure AllComplete (t : Timeline) (ctx : Context) (seeded clock : Nat) (kind : Kind) :
    Prop where
  length : (relevantAt t ctx seeded clock kind).length = ctx.expectedUnits
  completed : ∀ o ∈ relevantAt t ctx seeded clock kind, o.phase = .completed

theorem Context.expectedUnits_pos (ctx : Context) : 0 < ctx.expectedUnits := by
  unfold Context.expectedUnits
  split <;> decide

section Regular

variable {t : Timeline} {ctx : Context} {settings : Poll.Settings} {seeded first : Nat}
variable {clock later : Nat} {kind : Kind}

theorem AllComplete.ne_nil (h : AllComplete t ctx seeded clock kind) :
    relevantAt t ctx seeded clock kind ≠ [] := by
  intro hnil
  have hlength := h.length
  rw [hnil, List.length_nil] at hlength
  exact absurd hlength (Nat.ne_of_lt ctx.expectedUnits_pos)

theorem nodup_identities_relevantAt (t : Timeline) (ctx : Context) (seeded clock : Nat)
    (kind : Kind) : ((relevantAt t ctx seeded clock kind).map Object.identity).Nodup :=
  (nodup_identities_listingAt t ctx clock kind).sublist (List.filter_sublist.map _)

theorem Regular.allComplete_of_count (h : Regular t ctx settings seeded first)
    (hkind : kind ∈ (Chain.forJob ctx).stages) (hclock : first ≤ clock)
    (hcount : ctx.expectedUnits ≤ (relevantAt t ctx seeded clock kind).countP isComplete) :
    AllComplete t ctx seeded clock kind := by
  have hbound := h.bounded kind hkind clock hclock
  have hle := List.countP_le_length (p := isComplete) (l := relevantAt t ctx seeded clock kind)
  refine ⟨by omega, fun o ho => ?_⟩
  have hall := List.countP_eq_length.mp (show (relevantAt t ctx seeded clock kind).countP
    isComplete = (relevantAt t ctx seeded clock kind).length by omega) o ho
  simpa [isComplete] using hall

/-- What is complete stays so: the objects of the one time are among those of the other, and no
more than these are expected. -/
theorem Regular.allComplete_later (h : Regular t ctx settings seeded first)
    (hkind : kind ∈ (Chain.forJob ctx).stages) (hclock : first ≤ clock) (hlater : clock ≤ later)
    (hall : AllComplete t ctx seeded clock kind) : AllComplete t ctx seeded later kind := by
  refine h.allComplete_of_count hkind (Nat.le_trans hclock hlater) ?_
  have hsubset : (relevantAt t ctx seeded clock kind).map Object.identity ⊆
      ((relevantAt t ctx seeded later kind).filter isComplete).map Object.identity := by
    intro id hid
    obtain ⟨o, ho, rfl⟩ := List.mem_map.mp hid
    obtain ⟨same, hsame, hidentity, hstays⟩ := h.lasting kind hkind clock later hclock hlater o ho
    refine List.mem_map.mpr ⟨same, List.mem_filter.mpr ⟨hsame, ?_⟩, hidentity⟩
    simpa [isComplete] using hstays (hall.completed o ho)
  have hle := (List.subperm_of_subset (nodup_identities_relevantAt t ctx seeded clock kind)
    hsubset).length_le
  rwa [List.length_map, List.length_map, hall.length, ← List.countP_eq_length_filter] at hle

theorem Regular.ne_nil_later (h : Regular t ctx settings seeded first)
    (hkind : kind ∈ (Chain.forJob ctx).stages) (hclock : first ≤ clock) (hlater : clock ≤ later)
    (hsome : relevantAt t ctx seeded clock kind ≠ []) :
    relevantAt t ctx seeded later kind ≠ [] := by
  obtain ⟨o, ho⟩ := List.exists_mem_of_ne_nil _ hsome
  obtain ⟨same, hsame, _⟩ := h.lasting kind hkind clock later hclock hlater o ho
  exact List.ne_nil_of_mem hsame

/-- As long as a kind is not complete the time-out of the first check has not passed. -/
theorem Regular.early (h : Regular t ctx settings seeded first)
    (hkind : kind ∈ (Chain.forJob ctx).stages) (hopen : ¬ AllComplete t ctx seeded clock kind) :
    (Duration.ofMillis clock).nanoseconds < Poll.deadline settings first := by
  obtain ⟨done, hdone, hintime, hcount⟩ := h.complete kind hkind
  by_contra hlate
  have hpast : done ≤ clock := by
    have hle := Nat.le_trans hintime (Nat.not_lt.mp hlate)
    simp only [Duration.ofMillis] at hle
    omega
  exact hopen (h.allComplete_later hkind hdone hpast
    (h.allComplete_of_count hkind hdone (Nat.le_of_eq hcount.symm)))

end Regular

theorem relevantIn_congr {kind : Kind} {ctx : Context} {leftovers others : Leftovers}
    (h : leftovers.entries.get kind = others.entries.get kind) (listing : List Object) :
    relevantIn kind ctx leftovers listing = relevantIn kind ctx others listing := by
  have hsame : ∀ id, leftovers.contains kind id = others.contains kind id := by
    intro id
    rw [Leftovers.contains, Leftovers.contains, h]
  unfold relevantIn isRelevant
  simp only [hsame]

/-- Of objects that are there if they have been or may not be missing, a verdict says whether
there are any and whether the expected number is complete. -/
theorem JobState.verdict_of_seen {job : JobState} (ctx : Context) {checker : Checker}
    {objects : List Object} (hfed : checker.mayStayEmpty = true → objects ≠ [])
    (hseen : (job.completion.get checker.kind).started = true → objects ≠ []) :
    ((job.verdict ctx checker (.of objects)).started = true ↔ objects ≠ []) ∧
    ((job.verdict ctx checker (.of objects)).finished = true ↔
      objects.countP isComplete = ctx.expectedUnits) := by
  have hpos := ctx.expectedUnits_pos
  unfold verdict judge Tally.of
  cases objects with
  | nil =>
    have hstarted : (job.completion.get checker.kind).started = false := by
      simpa using hseen
    have hempty : checker.mayStayEmpty = false := by
      simpa using hfed
    simp [hstarted, hempty]
    omega
  | cons o rest =>
    by_cases hall : (o :: rest).countP isComplete = ctx.expectedUnits <;> simp [hall]

def JobState.SeededAt (t : Timeline) (ctx : Context) (seeded : Nat) (kind : Kind)
    (job : JobState) : Prop :=
  job.leftovers.entries.get kind =
    some (Leftovers.completedIn kind (listingAt t ctx seeded kind))

section Check

variable {t : Timeline} {ctx : Context} {seeded : Nat} {kind : Kind}

theorem JobState.SeededAt.isBuilt {job : JobState} (h : job.SeededAt t ctx seeded kind) :
    job.leftovers.isBuilt kind = true := by
  rw [Leftovers.isBuilt, show job.leftovers.entries.get kind = _ from h]
  rfl

theorem JobState.SeededAt.relevantIn_eq {job : JobState} (h : job.SeededAt t ctx seeded kind)
    (clock : Nat) : relevantIn kind ctx job.leftovers (listingAt t ctx clock kind) =
      relevantAt t ctx seeded clock kind := by
  refine relevantIn_congr (Eq.trans h ?_) _
  cases kind <;> rfl

/-- A check of an unfinished kind without failures counts the relevant objects of its time. -/
theorem run_check_of_seededAt {checker : Checker} {s : Session Journal JobState}
    (hseeded : s.own.SeededAt t ctx seeded checker.kind)
    (hopen : (s.own.completion.get checker.kind).finished = false)
    (hunfailed : ∀ o ∈ relevantAt t ctx seeded s.clock checker.kind, o.phase ≠ .failed) :
    ∃ o journal, o = s.own.verdict ctx checker
        (.of (relevantAt t ctx seeded s.clock checker.kind)) ∧
      check t.client ctx checker s =
        (.ok o, { s with own := s.own.settle o, cluster := journal }) := by
  obtain ⟨journal, hlist⟩ := run_listInScope t ctx checker.kind s
  have hnote : s.own.note checker.kind (listingAt t ctx s.clock checker.kind) = s.own := by
    rw [JobState.note, Leftovers.record_of_isBuilt hseeded.isBuilt]
  have hnone : (relevantAt t ctx seeded s.clock checker.kind).find? hasFailed = none := by
    refine List.find?_eq_none.mpr fun o ho => ?_
    simpa [hasFailed] using hunfailed o ho
  have hclassify : classify checker.kind ctx s.own.leftovers
      (listingAt t ctx s.clock checker.kind) =
        .ok (.of (relevantAt t ctx seeded s.clock checker.kind)) := by
    rw [classify_eq, hseeded.relevantIn_eq, hnone]
  have hcheck := checking t.client ctx checker s
  generalize check t.client ctx checker s = result at hcheck
  cases hcheck with
  | cached hdone =>
    rw [hopen] at hdone
    cases hdone
  | refused _ hlist' _ => cases hlist.symm.trans hlist'
  | failed _ hlist' _ hcount =>
    cases hlist.symm.trans hlist'
    rw [hnote, hclassify] at hcount
    cases hcount
  | counted _ hlist' _ hcount hverdict =>
    cases hlist.symm.trans hlist'
    rw [hnote, hclassify] at hcount
    cases hcount
    rw [hnote]
    exact ⟨_, journal, hverdict, rfl⟩

end Check

end BackupWatch.Job
