import BackupWatch.Job.Progress
import BackupWatch.Proofs.Job.Check
import BackupWatch.Proofs.Job.Leftovers
import BackupWatch.Proofs.Twins

/-!
The own objects of a job among those that are listed. Objects of others may come and go in a
listing, and are even remembered as leftovers, but as long as no identity passes from an own object
to another one or back, nothing that a job does or says depends on them.
-/

namespace BackupWatch.Job

open Act Cluster Watch

variable {κ κ' σ : Type}

/-- An object of a kind that the backup has made, as far as can be seen. -/
def isOwn (ctx : Context) (kind : Kind) (o : Object) : Bool :=
  o.kind == kind && inScope ctx o && o.belongsTo ctx.backup

def ownIn (ctx : Context) (kind : Kind) (listing : List Object) : List Object :=
  listing.filter (isOwn ctx kind)

theorem relevantIn_eq_filter_ownIn (kind : Kind) (ctx : Context) (leftovers : Leftovers)
    (listing : List Object) :
    relevantIn kind ctx leftovers listing =
      (ownIn ctx kind listing).filter fun o => !leftovers.contains kind o.identity := by
  unfold relevantIn ownIn
  rw [List.filter_filter]
  refine List.filter_congr fun o _ => ?_
  unfold isRelevant isOwn
  cases o.kind == kind <;> cases leftovers.contains kind o.identity <;> simp

/-- In a listing, the own objects of the kind are those that have the identity of one. -/
def Separates (ctx : Context) (mine : Kind → Identity → Prop) (kind : Kind)
    (listing : List Object) : Prop :=
  ∀ o ∈ listing, o.kind = kind → (isOwn ctx kind o = true ↔ mine kind o.identity)

/-- Two listings of a kind that have the same own objects, in the same order. -/
structure SameOwn (ctx : Context) (mine : Kind → Identity → Prop) (kind : Kind)
    (left right : List Object) : Prop where
  own : ownIn ctx kind left = ownIn ctx kind right
  left : Separates ctx mine kind left
  right : Separates ctx mine kind right

/-- Answers that are the same, up to the objects of others in a listing. -/
def sameFor (ctx : Context) (mine : Kind → Identity → Prop) :
    (request : Request) → request.Answer → request.Answer → Prop
  | .list kind _, left, right => SameOwn ctx mine kind left right
  | _, left, right => left = right

/-- Two jobs with the same completions, and with the same leftovers among their own objects. -/
structure JobState.Alike (mine : Kind → Identity → Prop) (left right : JobState) : Prop where
  completion : left.completion = right.completion
  built : ∀ kind, left.leftovers.isBuilt kind = right.leftovers.isBuilt kind
  contains : ∀ kind id, mine kind id →
    left.leftovers.contains kind id = right.leftovers.contains kind id

section Listings

variable {ctx : Context} {mine : Kind → Identity → Prop} {kind : Kind}

/-- Listings of many places have the same own objects if those of each place do. -/
theorem SameOwn.flatten {left right : List (List Object)}
    (h : List.Forall₂ (SameOwn ctx mine kind) left right) :
    SameOwn ctx mine kind left.flatten right.flatten := by
  induction h with
  | nil => exact ⟨rfl, fun o ho => absurd ho (by simp), fun o ho => absurd ho (by simp)⟩
  | cons hfirst _ ih =>
    refine ⟨?_, ?_, ?_⟩
    · have hrest := ih.own
      unfold ownIn at hrest ⊢
      simp only [List.flatten_cons, List.filter_append]
      rw [hrest]
      exact congrArg (· ++ _) hfirst.own
    · intro o ho
      rcases List.mem_append.mp (List.flatten_cons ▸ ho) with h | h
      · exact hfirst.left o h
      · exact ih.left o h
    · intro o ho
      rcases List.mem_append.mp (List.flatten_cons ▸ ho) with h | h
      · exact hfirst.right o h
      · exact ih.right o h

/-- Of the own identities, the leftovers hold those of completed own objects. -/
theorem Separates.mem_completedIn {listing : List Object} (h : Separates ctx mine kind listing)
    {id : Identity} (hmine : mine kind id) :
    id ∈ Leftovers.completedIn kind listing ↔
      ∃ o ∈ ownIn ctx kind listing, o.phase = .completed ∧ o.identity = id := by
  rw [Leftovers.mem_completedIn]
  constructor
  · rintro ⟨o, ho, hkind, hphase, rfl⟩
    exact ⟨o, List.mem_filter.mpr ⟨ho, (h o ho hkind).mpr hmine⟩, hphase, rfl⟩
  · rintro ⟨o, ho, hphase, rfl⟩
    obtain ⟨hmem, hown⟩ := List.mem_filter.mp ho
    simp only [isOwn, Bool.and_eq_true, beq_iff_eq] at hown
    exact ⟨o, hmem, hown.1.1, hphase, rfl⟩

/-- Objects of others may become leftovers; own objects do so on both sides or on none. -/
theorem JobState.Alike.note {left right : JobState} (h : left.Alike mine right)
    {listing listing' : List Object} (hsame : SameOwn ctx mine kind listing listing') :
    (left.note kind listing).Alike mine (right.note kind listing') := by
  have hcompleted : ∀ id, mine kind id → ((Leftovers.completedIn kind listing).contains id =
      (Leftovers.completedIn kind listing').contains id) := by
    intro id hmine
    rw [Bool.eq_iff_iff, List.contains_iff_mem, List.contains_iff_mem,
      hsame.left.mem_completedIn hmine, hsame.right.mem_completedIn hmine, hsame.own]
  unfold JobState.note Leftovers.record
  rw [h.built kind]
  by_cases hbuilt : right.leftovers.isBuilt kind = true
  · rw [if_pos hbuilt, if_pos hbuilt]
    exact h
  · rw [if_neg hbuilt, if_neg hbuilt]
    refine ⟨h.completion, fun other => ?_, fun other id hmine => ?_⟩
    · by_cases hother : other = kind
      · subst hother
        simp [Leftovers.isBuilt]
      · have hbefore := h.built other
        unfold Leftovers.isBuilt at hbefore ⊢
        rw [PerKind.get_set_of_ne _ _ hother, PerKind.get_set_of_ne _ _ hother]
        exact hbefore
    · by_cases hother : other = kind
      · subst hother
        simp only [Leftovers.contains, PerKind.get_set_self]
        exact hcompleted id hmine
      · have hbefore := h.contains other id hmine
        unfold Leftovers.contains at hbefore ⊢
        rw [PerKind.get_set_of_ne _ _ hother, PerKind.get_set_of_ne _ _ hother]
        exact hbefore

/-- Objects of others do not change what is counted. -/
theorem JobState.Alike.classify_eq {left right : JobState} (h : left.Alike mine right)
    {listing listing' : List Object} (hsame : SameOwn ctx mine kind listing listing') :
    classify kind ctx left.leftovers listing = classify kind ctx right.leftovers listing' := by
  have hrelevant : relevantIn kind ctx left.leftovers listing =
      relevantIn kind ctx right.leftovers listing' := by
    rw [relevantIn_eq_filter_ownIn, relevantIn_eq_filter_ownIn, hsame.own]
    refine List.filter_congr fun o ho => ?_
    obtain ⟨hmem, hown⟩ := List.mem_filter.mp ho
    have hkind : o.kind = kind := by
      simp only [isOwn, Bool.and_eq_true, beq_iff_eq] at hown
      exact hown.1.1
    rw [h.contains kind o.identity ((hsame.right o hmem hkind).mp hown)]
  exact classify_congr hrelevant

end Listings

/-- A check without the names that it gives to what it computes. -/
theorem check_eq (client : Client κ) (ctx : Context) (checker : Checker) :
    check client ctx checker = (do
      let job ← Act.own
      if (job.completion.get checker.kind).finished then
        return .cached ctx checker.kind (job.completion.get checker.kind)
      let listing ← listInScope client ctx checker.kind
      recordLeftovers checker.kind listing
      let noted ← Act.own
      let tally ← Act.ofExcept (classify checker.kind ctx noted.leftovers listing)
      Act.setOwn (noted.settle (job.verdict ctx checker tally))
      return job.verdict ctx checker tally) := rfl

section Acts

variable {ctx : Context} {mine : Kind → Identity → Prop} {own : σ → σ → Prop}
variable (one : Client κ) (two : Client κ')

instance (kind : Kind) :
    Grows (listInScope one.transcribed ctx kind : Act (Transcript κ) σ (List Object)) :=
  ⟨moves_listInScope (Session.permits_extends one) ctx kind fun _ => trivial⟩

instance (kind : Kind) (names : List String) :
    Grows (listEach one.transcribed kind names : Act (Transcript κ) σ (List Object)) :=
  ⟨moves_listEach (Session.permits_extends one) kind (fun _ => trivial) names⟩

instance (kind : Kind) (listing : List Object) :
    Grows (recordLeftovers kind listing : Act (Transcript κ) JobState Unit) :=
  ⟨moves_recordLeftovers (fun s _ => List.prefix_refl s.replies) kind listing⟩

instance (kind : Kind) : Grows (seed one.transcribed ctx kind) :=
  ⟨moves_seed (Session.permits_extends one) (fun s _ => List.prefix_refl s.replies) ctx kind
    fun _ => trivial⟩

instance (checker : Checker) : Grows (check one.transcribed ctx checker) :=
  ⟨moves_check (Session.permits_extends one) (fun s _ => List.prefix_refl s.replies) ctx checker
    fun _ => trivial⟩

variable {one two} (haccepts : ∀ request, one.accepts request = two.accepts request)

include haccepts

/-- Both listings ask for the same places and give the same own objects. -/
theorem paired_listEach (kind : Kind) (names : List String) :
    Paired (Replied.Alike (sameFor ctx mine)) own
      (listEach one.transcribed kind names : Act (Transcript κ) σ (List Object))
      (listEach two.transcribed kind names) (SameOwn ctx mine kind) := by
  have hask : ∀ ns, Paired (Replied.Alike (sameFor ctx mine)) own
      (one.transcribed.ask (.list kind (some ns)) : Act (Transcript κ) σ (List Object))
      (two.transcribed.ask (.list kind (some ns))) (SameOwn ctx mine kind) :=
    fun ns => paired_ask one two _
  have hlist : Paired (Replied.Alike (sameFor ctx mine)) own
      (do
        let listings ← names.mapM fun ns => one.transcribed.ask (.list kind (some ns))
        return listings.flatten : Act (Transcript κ) σ (List Object))
      (do
        let listings ← names.mapM fun ns => two.transcribed.ask (.list kind (some ns))
        return listings.flatten) (SameOwn ctx mine kind) := by
    refine paired_bind (paired_mapM names hask) fun _ _ hsame => ?_
    exact paired_pure (SameOwn.flatten hsame)
  have hsendable : (names.all fun ns => one.transcribed.accepts (.list kind (some ns))) =
      names.all fun ns => two.transcribed.accepts (.list kind (some ns)) :=
    congrArg names.all (funext fun ns => haccepts _)
  unfold listEach
  rw [hsendable]
  refine paired_ite (fun _ => ?_) fun _ => hlist
  exact paired_bind (paired_throw _) fun _ _ (_ : True) => hlist

theorem paired_listInScope (kind : Kind) :
    Paired (Replied.Alike (sameFor ctx mine)) own
      (listInScope one.transcribed ctx kind : Act (Transcript κ) σ (List Object))
      (listInScope two.transcribed ctx kind) (SameOwn ctx mine kind) := by
  unfold listInScope
  cases kind.scope with
  | cluster => exact paired_ask one two (.list kind none)
  | backupNamespace => exact paired_ask one two (.list kind (some ctx.backupNamespace))
  | includedNamespaces => exact paired_listEach haccepts kind ctx.included.names

theorem paired_seed (kind : Kind) :
    Paired (Replied.Alike (sameFor ctx mine)) (JobState.Alike mine)
      (seed one.transcribed ctx kind) (seed two.transcribed ctx kind) Eq := by
  unfold seed
  refine paired_bind paired_own fun job job' hjob => ?_
  rw [hjob.built kind]
  refine paired_ite (fun _ => paired_pure rfl) fun _ => ?_
  refine paired_bind (paired_listInScope haccepts kind) fun listing listing' hsame => ?_
  exact paired_bind paired_own fun job job' hjob => paired_setOwn (hjob.note hsame)

/-- The verdict hangs on the completions and on the relevant objects, which are own objects. -/
theorem paired_check (checker : Checker) :
    Paired (Replied.Alike (sameFor ctx mine)) (JobState.Alike mine)
      (check one.transcribed ctx checker) (check two.transcribed ctx checker) Eq := by
  rw [check_eq, check_eq]
  refine paired_bind paired_own fun job job' hjob => ?_
  have hverdict : job.verdict ctx checker = job'.verdict ctx checker := by
    unfold JobState.verdict
    rw [hjob.completion]
  rw [hjob.completion, hverdict]
  refine paired_ite (fun _ => paired_pure rfl) fun _ => ?_
  refine paired_bind (paired_listInScope haccepts checker.kind) fun listing listing' hsame => ?_
  have hrecord : Paired (Replied.Alike (sameFor ctx mine)) (JobState.Alike mine)
      (recordLeftovers checker.kind listing : Act (Transcript κ) JobState Unit)
      (recordLeftovers checker.kind listing' : Act (Transcript κ') JobState Unit) Eq :=
    paired_bind paired_own fun _ _ hjob => paired_setOwn (hjob.note hsame)
  refine paired_bind hrecord fun _ _ _ => ?_
  refine paired_bind paired_own fun noted noted' hnoted => ?_
  rw [hnoted.classify_eq hsame]
  refine paired_bind (paired_ofExcept _) fun tally _ htally => ?_
  subst htally
  refine paired_bind (paired_setOwn ?_) fun _ _ _ => paired_pure rfl
  exact ⟨congrArg (PerKind.set · _ _) hnoted.completion, hnoted.built, hnoted.contains⟩

end Acts

namespace Progress

/-- Two jobs as far along, with the same leftovers among their own objects. -/
structure Alike (mine : Kind → Identity → Prop) (left right : Progress) : Prop where
  chain : left.chain = right.chain
  finished : left.finished = right.finished
  job : left.job.Alike mine right.job

theorem alike_fresh (mine : Kind → Identity → Prop) (chain : Chain) :
    (fresh chain).Alike mine (fresh chain) := ⟨rfl, rfl, rfl, fun _ => rfl, fun _ _ _ => rfl⟩

section Acts

variable {ctx : Context} {mine : Kind → Identity → Prop}
variable (one : Client κ) (two : Client κ')

instance {α : Type} {act : Act (Transcript κ) JobState α} [Grows act] : Grows (onJob act) := by
  unfold onJob
  infer_instance

instance : Grows (markFinished : Act (Transcript κ) Progress Unit) := by
  unfold markFinished
  infer_instance

instance : Grows (seedAll one.transcribed ctx) := by
  unfold seedAll
  infer_instance

instance (previous : Option Kind) (stages : List Kind) :
    Grows (passFrom one.transcribed ctx previous stages) := by
  induction stages generalizing previous with
  | nil =>
    unfold passFrom
    infer_instance
  | cons kind later ih =>
    unfold passFrom
    infer_instance

instance : Grows (pass one.transcribed ctx) := by
  unfold pass
  infer_instance

instance (checker : Checker) : Grows (look one.transcribed ctx checker) := by
  unfold look
  infer_instance

instance (settings : Poll.Settings) (previous : Option Kind) (stages : List Kind) :
    Grows (waitFrom one.transcribed ctx settings previous stages) := by
  induction stages generalizing previous with
  | nil =>
    unfold waitFrom
    infer_instance
  | cons kind later ih =>
    unfold waitFrom
    infer_instance

instance (settings : Poll.Settings) : Grows (wait one.transcribed ctx settings) := by
  unfold wait
  infer_instance

theorem stageChecker_congr {left right : JobState} (h : left.Alike mine right)
    (previous : Option Kind) (kind : Kind) :
    stageChecker left previous kind = stageChecker right previous kind := by
  unfold stageChecker
  rw [h.completion]

theorem paired_markFinished :
    Paired (Replied.Alike (sameFor ctx mine)) (Alike mine)
      (markFinished : Act (Transcript κ) Progress Unit)
      (markFinished : Act (Transcript κ') Progress Unit) Eq :=
  paired_bind paired_own fun _ _ h => paired_setOwn ⟨h.chain, rfl, h.job⟩

theorem paired_onJob {α : Type} {x : Act (Transcript κ) JobState α}
    {y : Act (Transcript κ') JobState α}
    (h : Paired (Replied.Alike (sameFor ctx mine)) (JobState.Alike mine) x y Eq) :
    Paired (Replied.Alike (sameFor ctx mine)) (Alike mine) (onJob x) (onJob y) Eq :=
  paired_within h (fun _ _ h => h.job) fun _ _ _ _ h hjob => ⟨h.chain, h.finished, hjob⟩

variable {one two} (haccepts : ∀ request, one.accepts request = two.accepts request)

include haccepts

theorem paired_seedAll :
    Paired (Replied.Alike (sameFor ctx mine)) (Alike mine) (seedAll one.transcribed ctx)
      (seedAll two.transcribed ctx) Eq := by
  unfold seedAll
  refine paired_bind paired_own fun p q h => ?_
  rw [h.chain]
  exact paired_forM _ fun kind => paired_onJob (paired_seed haccepts kind)

/-- Two passes come to the same stages, with the same outcomes. -/
theorem paired_passFrom (previous : Option Kind) (stages : List Kind) :
    Paired (Replied.Alike (sameFor ctx mine)) (Alike mine)
      (passFrom one.transcribed ctx previous stages)
      (passFrom two.transcribed ctx previous stages) Eq := by
  induction stages generalizing previous with
  | nil =>
    unfold passFrom
    exact paired_bind paired_markFinished fun _ _ _ => paired_pure rfl
  | cons kind later ih =>
    unfold passFrom
    refine paired_bind paired_own fun p q h => ?_
    rw [stageChecker_congr h.job]
    refine paired_bind (paired_onJob (paired_check haccepts _)) fun outcome _ houtcome => ?_
    subst houtcome
    refine paired_ite (fun _ => ?_) fun _ => paired_pure rfl
    exact paired_bind (ih (some kind)) fun _ _ hrest => paired_pure (hrest ▸ rfl)

theorem paired_pass :
    Paired (Replied.Alike (sameFor ctx mine)) (Alike mine) (pass one.transcribed ctx)
      (pass two.transcribed ctx) Eq := by
  unfold pass
  refine paired_bind paired_own fun p q h => ?_
  rw [h.finished, h.chain]
  refine paired_ite (fun _ => paired_pure rfl) fun _ => ?_
  exact paired_bind (paired_seedAll haccepts) fun _ _ _ => paired_passFrom haccepts none _

/-- Two waits take the same looks at the same stages. -/
theorem paired_waitFrom (settings : Poll.Settings) (previous : Option Kind)
    (stages : List Kind) :
    Paired (Replied.Alike (sameFor ctx mine)) (Alike mine)
      (waitFrom one.transcribed ctx settings previous stages)
      (waitFrom two.transcribed ctx settings previous stages) Eq := by
  have hlook : ∀ checker, Paired (Replied.Alike (sameFor ctx mine)) (Alike mine)
      (look one.transcribed ctx checker) (look two.transcribed ctx checker) Eq :=
    fun checker => paired_bind (paired_onJob (paired_check haccepts checker))
      fun _ _ h => paired_pure (h ▸ rfl)
  induction stages generalizing previous with
  | nil => exact paired_markFinished
  | cons kind later ih =>
    unfold waitFrom
    refine paired_bind paired_own fun p q h => ?_
    rw [stageChecker_congr h.job]
    exact paired_bind (Poll.paired_run settings _ (hlook _)) fun _ _ _ => ih (some kind)

theorem paired_wait (settings : Poll.Settings) :
    Paired (Replied.Alike (sameFor ctx mine)) (Alike mine) (wait one.transcribed ctx settings)
      (wait two.transcribed ctx settings) Eq := by
  unfold wait
  refine paired_bind paired_own fun p q h => ?_
  rw [h.finished, h.chain]
  refine paired_ite (fun _ => paired_pure rfl) fun _ => ?_
  exact paired_bind (paired_seedAll haccepts) fun _ _ _ =>
    paired_waitFrom haccepts settings none _

end Acts
end Progress
end BackupWatch.Job
