import BackupWatch.Proofs.Chronicle
import BackupWatch.Proofs.Job.Tally

/-!
What recording leftovers and checking do to a session. Both touch the job only after a listing:
a request that fails leaves it as it was, and a count that fails leaves the completions.
-/

namespace BackupWatch.Job

open Act Cluster Watch

variable {κ σ : Type}

section Listing

variable {client : Client κ} {asked : Request → Prop} {R : Session κ σ → Session κ σ → Prop}
variable [IsPreorder (Session κ σ) R]

/-- A list in many places is sent request by request, unless one of them cannot be built. -/
theorem moves_listEach (hR : client.Permits asked R) (kind : Kind)
    (hasked : ∀ ns, asked (.list kind ns)) (names : List String) :
    Moves R (listEach client kind names) := by
  have hlist : Moves R (names.mapM fun ns => client.ask (.list kind (some ns))) :=
    leads_mapM fun ns _ => moves_ask hR (hasked (some ns))
  have hflat : Moves R (do
      let listings ← names.mapM fun ns => client.ask (.list kind (some ns))
      return listings.flatten : Act κ σ (List Object)) :=
    leads_bind _ hlist fun _ => leads_pure _ fun _ _ => trivial
  unfold listEach
  refine leads_ite (fun _ => ?_) fun _ => hflat
  exact leads_bind (fun _ _ => True) (leads_throw _) fun _ => hflat

/-- Listing a kind asks for lists of that kind only. -/
theorem moves_listInScope (hR : client.Permits asked R) (ctx : Context) (kind : Kind)
    (hasked : ∀ ns, asked (.list kind ns)) : Moves R (listInScope client ctx kind) := by
  unfold listInScope
  cases kind.scope with
  | cluster => exact moves_ask hR (hasked none)
  | backupNamespace => exact moves_ask hR (hasked _)
  | includedNamespaces => exact moves_listEach hR kind hasked _

end Listing

theorem own_listInScope (client : Client κ) (ctx : Context) (kind : Kind) (s : Session κ σ) :
    (listInScope client ctx kind s).2.own = s.own :=
  (moves_listInScope (Session.permits_sameOwn client fun _ => True) ctx kind
    (fun _ => trivial) s trivial).1

section Requests

variable {client : Client κ} {asked : Request → Prop}
variable {R : Session κ JobState → Session κ JobState → Prop} [IsPreorder (Session κ JobState) R]

omit [IsPreorder (Session κ JobState) R] in
theorem moves_setOwn (hown : ∀ s job, R s { s with own := job }) (job : JobState) :
    Moves R (Act.setOwn job) := by
  intro s _
  exact ⟨hown s job, fun _ _ => trivial⟩

theorem moves_recordLeftovers (hown : ∀ s job, R s { s with own := job }) (kind : Kind)
    (listing : List Object) : Moves R (recordLeftovers kind listing) :=
  leads_bind (fun _ _ => True) (leads_own fun _ _ => trivial) fun _ => moves_setOwn hown _

/-- Recording leftovers asks for lists of the kind alone. -/
theorem moves_seed (hR : client.Permits asked R) (hown : ∀ s job, R s { s with own := job })
    (ctx : Context) (kind : Kind) (hasked : ∀ ns, asked (.list kind ns)) :
    Moves R (seed client ctx kind) := by
  unfold seed
  refine leads_bind (fun _ _ => True) (leads_own fun _ _ => trivial) fun job => ?_
  refine leads_ite (fun _ => leads_pure _ fun _ _ => trivial) fun _ => ?_
  exact leads_bind _ (moves_listInScope hR ctx kind hasked) fun listing =>
    moves_recordLeftovers hown kind listing

/-- A check asks for lists of its kind alone. -/
theorem moves_check (hR : client.Permits asked R) (hown : ∀ s job, R s { s with own := job })
    (ctx : Context) (checker : Checker) (hasked : ∀ ns, asked (.list checker.kind ns)) :
    Moves R (check client ctx checker) := by
  unfold check
  refine leads_bind (fun _ _ => True) (leads_own fun _ _ => trivial) fun job => ?_
  refine leads_ite (fun _ => leads_pure _ fun _ _ => trivial) fun _ => ?_
  refine leads_bind _ (moves_listInScope hR ctx checker.kind hasked) fun listing => ?_
  refine leads_bind _ (moves_recordLeftovers hown checker.kind listing) fun _ => ?_
  refine leads_bind (fun _ _ => True) (leads_own fun _ _ => trivial) fun noted => ?_
  refine leads_bind (fun _ _ => True) (leads_ofExcept fun _ _ _ _ => trivial) fun tally => ?_
  exact leads_bind _ (moves_setOwn hown _) fun _ => leads_pure _ fun _ _ => trivial

end Requests

/-- All that recording the leftovers of a kind can do. -/
inductive Seeding (client : Client κ) (ctx : Context) (kind : Kind) (s : Session κ JobState) :
    Except Failure Unit × Session κ JobState → Prop
  | built (h : s.own.leftovers.isBuilt kind = true) : Seeding client ctx kind s (.ok (), s)
  | refused {f : Failure} {later : Session κ JobState}
      (h : s.own.leftovers.isBuilt kind = false)
      (hlist : listInScope client ctx kind s = (.error f, later)) (hown : later.own = s.own) :
      Seeding client ctx kind s (.error f, later)
  | listed {listing : List Object} {later : Session κ JobState}
      (h : s.own.leftovers.isBuilt kind = false)
      (hlist : listInScope client ctx kind s = (.ok listing, later)) (hown : later.own = s.own) :
      Seeding client ctx kind s (.ok (), { later with own := s.own.note kind listing })

/-- Recording leftovers does nothing but what `Seeding` says. -/
theorem seeding (client : Client κ) (ctx : Context) (kind : Kind) (s : Session κ JobState) :
    Seeding client ctx kind s (seed client ctx kind s) := by
  have hown := own_listInScope client ctx kind s
  by_cases hbuilt : s.own.leftovers.isBuilt kind = true
  · simp only [seed, run_bind, run_own, hbuilt, if_true, run_pure]
    exact .built hbuilt
  · rcases hlist : listInScope client ctx kind s with ⟨f | listing, later⟩
    · rw [hlist] at hown
      simp only [seed, run_bind, run_own, hbuilt, Bool.false_eq_true, if_false, hlist]
      exact .refused (by simpa using hbuilt) hlist hown
    · rw [hlist] at hown
      simp only [seed, run_bind, run_own, hbuilt, Bool.false_eq_true, if_false, hlist,
        recordLeftovers, run_setOwn]
      rw [show later.own = s.own from hown]
      exact .listed (by simpa using hbuilt) hlist hown

/-- All that a check can do. -/
inductive Checking (client : Client κ) (ctx : Context) (checker : Checker)
    (s : Session κ JobState) : Except Failure Outcome × Session κ JobState → Prop
  | cached (h : (s.own.completion.get checker.kind).finished = true) :
      Checking client ctx checker s
        (.ok (.cached ctx checker.kind (s.own.completion.get checker.kind)), s)
  | refused {f : Failure} {later : Session κ JobState}
      (h : (s.own.completion.get checker.kind).finished = false)
      (hlist : listInScope client ctx checker.kind s = (.error f, later))
      (hown : later.own = s.own) : Checking client ctx checker s (.error f, later)
  | failed {listing : List Object} {later : Session κ JobState} {e : Error}
      (h : (s.own.completion.get checker.kind).finished = false)
      (hlist : listInScope client ctx checker.kind s = (.ok listing, later))
      (hown : later.own = s.own)
      (hcount : classify checker.kind ctx (s.own.note checker.kind listing).leftovers listing =
        .error e) :
      Checking client ctx checker s
        (.error (.error e), { later with own := s.own.note checker.kind listing })
  | counted {listing : List Object} {later : Session κ JobState} {t : Tally} {o : Outcome}
      (h : (s.own.completion.get checker.kind).finished = false)
      (hlist : listInScope client ctx checker.kind s = (.ok listing, later))
      (hown : later.own = s.own)
      (hcount : classify checker.kind ctx (s.own.note checker.kind listing).leftovers listing =
        .ok t)
      (hverdict : o = s.own.verdict ctx checker t) :
      Checking client ctx checker s
        (.ok o, { later with own := (s.own.note checker.kind listing).settle o })

/-- A check does nothing but what `Checking` says. -/
theorem checking (client : Client κ) (ctx : Context) (checker : Checker)
    (s : Session κ JobState) :
    Checking client ctx checker s (check client ctx checker s) := by
  have hown := own_listInScope client ctx checker.kind s
  by_cases hdone : (s.own.completion.get checker.kind).finished = true
  · simp only [check, run_bind, run_own, hdone, if_true, run_pure]
    exact .cached hdone
  · have hopen : (s.own.completion.get checker.kind).finished = false := by simpa using hdone
    rcases hlist : listInScope client ctx checker.kind s with ⟨f | listing, later⟩
    · rw [hlist] at hown
      simp only [check, run_bind, run_own, hdone, Bool.false_eq_true, if_false, hlist]
      exact .refused hopen hlist hown
    · rw [hlist] at hown
      simp only [check, run_bind, run_own, hdone, Bool.false_eq_true, if_false, hlist,
        recordLeftovers, run_setOwn]
      rw [show later.own = s.own from hown]
      rcases hcount : classify checker.kind ctx (s.own.note checker.kind listing).leftovers listing
        with e | t
      · have hfailed := Checking.failed hopen hlist hown hcount
        simp only [JobState.note] at hcount
        rw [hcount]
        exact hfailed
      · have hcounted := Checking.counted hopen hlist hown hcount rfl
        simp only [JobState.note] at hcount
        rw [hcount]
        exact hcounted

/-- How a job may change: leftovers stay once recorded, what has started stays started, and what
has finished stays as it is. -/
structure JobState.Advances (job later : JobState) : Prop where
  leftovers : ∀ kind, job.leftovers.isBuilt kind = true →
    later.leftovers.entries.get kind = job.leftovers.entries.get kind
  started : ∀ kind, (job.completion.get kind).started = true →
    (later.completion.get kind).started = true
  done : ∀ kind, (job.completion.get kind).finished = true →
    later.completion.get kind = job.completion.get kind

namespace JobState

instance : IsPreorder JobState Advances where
  refl _ := ⟨fun _ _ => rfl, fun _ h => h, fun _ _ => rfl⟩
  trans a b c hab hbc := by
    refine ⟨?_, ?_, ?_⟩
    · intro kind hbuilt
      have hsame := hab.leftovers kind hbuilt
      have hbuilt' : b.leftovers.isBuilt kind = true := by
        rw [Leftovers.isBuilt, hsame]
        exact hbuilt
      rw [hbc.leftovers kind hbuilt', hsame]
    · exact fun kind h => hbc.started kind (hab.started kind h)
    · intro kind hdone
      have hsame := hab.done kind hdone
      rw [hbc.done kind (by rw [hsame]; exact hdone), hsame]

theorem Advances.isBuilt {job later : JobState} (h : job.Advances later) {kind : Kind}
    (hbuilt : job.leftovers.isBuilt kind = true) : later.leftovers.isBuilt kind = true := by
  rw [Leftovers.isBuilt, h.leftovers kind hbuilt]
  exact hbuilt

/-- Leftovers that have been recorded are kept when others are. -/
theorem advances_note (job : JobState) (kind : Kind) (listing : List Object) :
    job.Advances (job.note kind listing) := by
  refine ⟨?_, fun _ h => h, fun _ _ => rfl⟩
  intro other hbuilt
  unfold note Leftovers.record
  split
  · rfl
  · next hnot =>
    have hne : other ≠ kind := by
      intro heq
      exact hnot (heq ▸ hbuilt)
    exact PerKind.get_set_of_ne _ _ hne

/-- What a check reports never takes back that a kind has started. -/
theorem advances_settle {job : JobState} {ctx : Context} {checker : Checker} {t : Tally}
    {o : Outcome} (h : (job.completion.get checker.kind).finished = false)
    (ho : o = job.verdict ctx checker t) : job.Advances (job.settle o) := by
  subst ho
  refine ⟨fun _ _ => rfl, ?_, ?_⟩
  · intro kind hstarted
    simp only [settle, PerKind.get_set]
    split
    · next heq =>
      subst heq
      exact started_verdict hstarted
    · exact hstarted
  · intro kind hdone
    simp only [settle, PerKind.get_set]
    split
    · next heq =>
      subst heq
      rw [kind_verdict, h] at hdone
      cases hdone
    · rfl

end JobState

theorem Seeding.advances {client : Client κ} {ctx : Context} {kind : Kind}
    {s : Session κ JobState} {result : Except Failure Unit × Session κ JobState}
    (h : Seeding client ctx kind s result) : s.own.Advances result.2.own := by
  cases h with
  | built _ => exact refl_of JobState.Advances s.own
  | refused _ _ hown => exact hown ▸ refl_of JobState.Advances s.own
  | listed _ _ _ => exact JobState.advances_note ..

/-- However a check ends, the job has advanced. -/
theorem Checking.advances {client : Client κ} {ctx : Context} {checker : Checker}
    {s : Session κ JobState} {result : Except Failure Outcome × Session κ JobState}
    (h : Checking client ctx checker s result) : s.own.Advances result.2.own := by
  cases h with
  | cached _ => exact refl_of JobState.Advances s.own
  | refused _ _ hown => exact hown ▸ refl_of JobState.Advances s.own
  | failed _ _ _ _ => exact JobState.advances_note ..
  | counted hopen _ _ _ hverdict =>
    exact trans_of JobState.Advances (JobState.advances_note ..)
      (JobState.advances_settle hopen hverdict)

end BackupWatch.Job
