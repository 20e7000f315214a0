import BackupWatch.Proofs.Job.Listing
import BackupWatch.Proofs.Raise

/-!
What can become of a listing, a seeding or a check in a cluster whose watched objects stay as they
are. Either no request error is met, and then all is as it must be on what the cluster shows; or
the listing is broken off by a request error, and then nothing has changed.
-/

namespace BackupWatch.Cluster

def Exchange.Succeeds (e : Exchange) : Prop := e.result.isOk = true

/-- The watched objects of a cluster are the same at all times. A listing shows them or fails. -/
def Client.Shows {κ : Type} (client : Client κ)
    (held : Watch.Kind → Option String → List Watch.Object) : Prop :=
  ∀ kind place clock cluster objects,
    (client.reply (.list kind place) clock cluster).result = .ok objects → objects = held kind place

end BackupWatch.Cluster

namespace BackupWatch.Job

open Act Cluster Watch

variable {κ σ α β : Type} {client : Client κ} {ctx : Context}
variable {held : Kind → Option String → List Object}

/-- A listing of a kind was broken off by a request that was refused, or could not be made. -/
inductive Interrupted (client : Client κ) (ctx : Context) (kind : Kind) :
    Error → Session (Chronicle κ) σ → Session (Chronicle κ) σ → Prop
  | refused {s later : Session (Chronicle κ) σ} {before : List Exchange} {place : Option String}
      {e : Error} (hbefore : ∀ x ∈ before, x.Succeeds)
      (h : later.history = s.history ++ before ++ [⟨.list kind place, .error e⟩]) :
      Interrupted client ctx kind e s later
  | unsendable {s later : Session (Chronicle κ) σ} {place : Option String}
      (hplace : place ∈ places ctx kind) (haccepts : client.accepts (.list kind place) = false)
      (h : Session.Sends Exchange.Succeeds s later) :
      Interrupted client ctx kind .invalidRequest s later

/-- An act met no request error and ended as said, or the listing of a kind was broken off. -/
inductive Trial (client : Client κ) (ctx : Context) (s : Session (Chronicle κ) σ)
    (said : Except Failure α × σ) (cut : Kind → σ → Prop) :
    Except Failure α × Session (Chronicle κ) σ → Prop
  | through {later : Session (Chronicle κ) σ} (h : Session.Sends Exchange.Succeeds s later)
      (hown : later.own = said.2) : Trial client ctx s said cut (said.1, later)
  | interrupted {kind : Kind} {e : Error} {later : Session (Chronicle κ) σ}
      (h : Interrupted client ctx kind e s later) (hcut : cut kind later.own) :
      Trial client ctx s said cut (.error (.error e), later)

section Trials

variable {s : Session (Chronicle κ) σ} {said : Except Failure α × σ} {cut : Kind → σ → Prop}

/-- Successful requests before an interrupted stretch do not make it less interrupted. -/
theorem Interrupted.after {kind : Kind} {e : Error} {middle later : Session (Chronicle κ) σ}
    (hbefore : Session.Sends Exchange.Succeeds s middle)
    (h : Interrupted client ctx kind e middle later) : Interrupted client ctx kind e s later := by
  cases h with
  | @refused _ _ before place _ hmiddle h =>
    obtain ⟨new, hnew, hgranted⟩ := hbefore
    have hall : ∀ x ∈ new ++ before, x.Succeeds :=
      fun x hx => (List.mem_append.mp hx).elim (hgranted x) (hmiddle x)
    exact .refused hall (by rw [h, hnew, List.append_assoc s.history])
  | unsendable hplace haccepts h =>
    exact .unsendable hplace haccepts (trans_of (Session.Sends _) hbefore h)

/-- An interrupted stretch holds a request that has failed. -/
theorem Interrupted.not_sends {kind : Kind} {e : Error} {later : Session (Chronicle κ) σ}
    (h : Interrupted client ctx kind e s later) (he : e ≠ .invalidRequest) :
    ¬ Session.Sends Exchange.Succeeds s later := by
  rintro ⟨new, hnew, hall⟩
  cases h with
  | @refused _ _ before place _ _ h =>
    rw [List.append_assoc, hnew] at h
    have hmem : (⟨.list kind place, .error e⟩ : Exchange) ∈ new := by
      rw [List.append_cancel_left h]
      simp
    cases hall _ hmem
  | unsendable _ _ _ => exact he rfl

theorem Trial.imp {lax : Kind → σ → Prop} {result : Except Failure α × Session (Chronicle κ) σ}
    (h : Trial client ctx s said cut result) (hcut : ∀ kind own, cut kind own → lax kind own) :
    Trial client ctx s said lax result := by
  cases h with
  | through h hown => exact .through h hown
  | interrupted h hlater => exact .interrupted h (hcut _ _ hlater)

/-- What comes behind an act begins where that act is to end. -/
theorem Trial.bind {x : Act (Chronicle κ) σ α} {f : α → Act (Chronicle κ) σ β} {a : α} {own : σ}
    {said : Except Failure β × σ} (hx : Trial client ctx s (.ok a, own) cut (x s))
    (hf : ∀ later : Session (Chronicle κ) σ, later.own = own →
      Trial client ctx later said cut (f a later)) :
    Trial client ctx s said cut ((x >>= f) s) := by
  rw [run_bind]
  generalize x s = result at hx
  cases hx with
  | @through later h hown =>
    have hnext := hf later hown
    simp only
    generalize f a later = last at hnext
    cases hnext with
    | through h' hown' => exact .through (trans_of (Session.Sends _) h h') hown'
    | interrupted h' hcut => exact .interrupted (h'.after h) hcut
  | interrupted h hcut => exact .interrupted h hcut

theorem trial_pure (a : α) (s : Session (Chronicle κ) σ) :
    Trial client ctx s (.ok a, s.own) cut ((pure a : Act (Chronicle κ) σ α) s) :=
  .through (refl_of (Session.Sends _) s) rfl

end Trials

section Listings

variable (hshows : client.Shows held)

def listed (ctx : Context) (held : Kind → Option String → List Object) (kind : Kind) :
    List Object :=
  (places ctx kind).flatMap (held kind)

/-- A listing that is broken off leaves alone what it was made for. -/
abbrev CutAt (kind : Kind) (own : σ) (other : Kind) (later : σ) : Prop :=
  other = kind ∧ later = own

include hshows

theorem trial_ask (kind : Kind) (place : Option String) (s : Session (Chronicle κ) σ) :
    Trial client ctx s (.ok (held kind place), s.own) (CutAt kind s.own)
      (client.recorded.ask (.list kind place) s) := by
  have hasked := Session.history_after client (.list kind place) s
  rcases hreply : (client.recorded.reply (.list kind place) s.clock s.cluster).result
    with e | objects
  · rw [hreply] at hasked
    rw [Client.run_ask, hreply]
    have hnone : ∀ x ∈ ([] : List Exchange), x.Succeeds := by simp
    exact .interrupted (.refused hnone (by rw [hasked, List.append_nil])) ⟨rfl, rfl⟩
  · rw [hreply] at hasked
    rw [Client.run_ask_of_ok hreply, hshows kind place _ _ objects hreply]
    refine .through ⟨_, hasked, ?_⟩ rfl
    intro e he
    rw [List.mem_singleton.mp he]
    rfl

theorem trial_mapM (kind : Kind) (names : List String) (s : Session (Chronicle κ) σ) :
    Trial client ctx s (.ok (names.map fun ns => held kind (some ns)), s.own) (CutAt kind s.own)
      (names.mapM (fun ns => client.recorded.ask (.list kind (some ns))) s) := by
  induction names generalizing s with
  | nil => exact trial_pure _ s
  | cons name rest ih =>
    rw [List.mapM_cons]
    refine Trial.bind (trial_ask hshows kind (some name) s) fun asked hasked => ?_
    rw [← hasked]
    refine Trial.bind (ih asked) fun later hlater => ?_
    rw [← hlater]
    exact trial_pure _ later

/-- A listing in scope shows what is held, or is cut short at the first request that fails. -/
theorem trial_listInScope (ctx : Context) (kind : Kind) (s : Session (Chronicle κ) σ) :
    Trial client ctx s (.ok (listed ctx held kind), s.own) (CutAt kind s.own)
      (listInScope client.recorded ctx kind s) := by
  have hask : ∀ place, places ctx kind = [place] →
      Trial client ctx s (.ok (listed ctx held kind), s.own) (CutAt kind s.own)
        (client.recorded.ask (.list kind place) s) := by
    intro place hplaces
    have hlisted : listed ctx held kind = held kind place := by simp [listed, hplaces]
    rw [hlisted]
    exact trial_ask hshows kind place s
  unfold listInScope
  cases hscope : kind.scope with
  | cluster => exact hask none (by rw [places, hscope])
  | backupNamespace => exact hask _ (by rw [places, hscope])
  | includedNamespaces =>
    have hplaces : places ctx kind = ctx.included.names.map some := by rw [places, hscope]
    have hlisted : listed ctx held kind =
        (ctx.included.names.map fun ns => held kind (some ns)).flatten := by
      rw [listed, hplaces, List.flatMap_map, List.flatMap_def]
    dsimp only
    unfold listEach
    dsimp only
    split
    · next hnot =>
      simp only [Bool.and_eq_true, Bool.not_eq_true', List.all_eq_false] at hnot
      obtain ⟨_, name, hname, haccepts⟩ := hnot
      have hunsendable : client.recorded.accepts (.list kind (some name)) = false := by
        simpa using haccepts
      have hplace : some name ∈ places ctx kind := hplaces ▸ List.mem_map_of_mem hname
      exact .interrupted (.unsendable hplace hunsendable (refl_of _ s)) ⟨rfl, rfl⟩
    · rw [hlisted]
      refine Trial.bind (trial_mapM hshows kind ctx.included.names s) fun later hlater => ?_
      rw [← hlater]
      exact trial_pure _ later

end Listings

def inspect (ctx : Context) (listing : List Object) (checker : Checker) (job : JobState) :
    Except Failure Outcome × JobState :=
  if (job.completion.get checker.kind).finished then
    (.ok (.cached ctx checker.kind (job.completion.get checker.kind)), job)
  else
    let noted := job.note checker.kind listing
    match classify checker.kind ctx noted.leftovers listing with
    | .error e => (.error (.error e), noted)
    | .ok t => (.ok (job.verdict ctx checker t), noted.settle (job.verdict ctx checker t))

/-- Seeding notes the listing as a whole or, cut short, nothing. -/
theorem trial_seed (hshows : client.Shows held) (ctx : Context) (kind : Kind)
    (s : Session (Chronicle κ) JobState) :
    Trial client ctx s (.ok (), s.own.note kind (listed ctx held kind)) (CutAt kind s.own)
      (seed client.recorded ctx kind s) := by
  have hlisting := trial_listInScope hshows ctx kind s
  have hseed := seeding client.recorded ctx kind s
  generalize seed client.recorded ctx kind s = result at hseed
  cases hseed with
  | built hbuilt =>
    rw [JobState.note, Leftovers.record_of_isBuilt hbuilt]
    exact trial_pure () s
  | refused _ hlist hown =>
    rw [hlist] at hlisting
    cases hlisting with
    | interrupted h hcut => exact .interrupted h hcut
  | listed _ hlist hown =>
    rw [hlist] at hlisting
    cases hlisting with
    | through h hown => exact .through h rfl

/-- A check judges the listing as a whole or, cut short, leaves its stage as it was. -/
theorem trial_check (hshows : client.Shows held) (checker : Checker)
    (s : Session (Chronicle κ) JobState) :
    Trial client ctx s (inspect ctx (listed ctx held checker.kind) checker s.own)
      (CutAt checker.kind s.own) (check client.recorded ctx checker s) := by
  have hlisting := trial_listInScope hshows ctx checker.kind s
  have hcheck := checking client.recorded ctx checker s
  generalize check client.recorded ctx checker s = result at hcheck
  unfold inspect
  cases hcheck with
  | cached hdone =>
    rw [if_pos hdone]
    exact trial_pure _ s
  | refused hopen hlist hown =>
    rw [hlist] at hlisting
    cases hlisting with
    | interrupted h hcut => exact .interrupted h hcut
  | failed hopen hlist hown hcount =>
    rw [hlist] at hlisting
    cases hlisting with
    | through h hown =>
      simp only [hopen, hcount]
      exact .through h rfl
  | counted hopen hlist hown hcount hverdict =>
    subst hverdict
    rw [hlist] at hlisting
    cases hlisting with
    | through h hown =>
      simp only [hopen, hcount]
      exact .through h rfl

/-- A look at any listing never takes back what a stage has reached. -/
theorem advances_inspect (ctx : Context) (listing : List Object) (checker : Checker)
    (job : JobState) :
    job.Advances (inspect ctx listing checker job).2 := by
  unfold inspect
  split
  · exact refl_of JobState.Advances job
  · next hopen =>
    simp only
    split
    · exact job.advances_note ..
    · exact trans_of JobState.Advances (job.advances_note ..)
        (JobState.advances_settle (Bool.eq_false_iff.mpr hopen) rfl)

/-- Only the completion of the kind that is checked may change. -/
theorem completion_inspect_of_ne (ctx : Context) {kind : Kind} {checker : Checker}
    (h : kind ≠ checker.kind) (listing : List Object) (job : JobState) :
    (inspect ctx listing checker job).2.completion.get kind = job.completion.get kind := by
  unfold inspect
  split
  · rfl
  · simp only
    split
    · rfl
    · exact PerKind.get_set_of_ne _ _ h

/-- A check reports the completion that it leaves behind. -/
theorem completion_inspect {listing : List Object} {checker : Checker} {job : JobState}
    {o : Outcome} (h : (inspect ctx listing checker job).1 = .ok o) :
    o.kind = checker.kind ∧
      (inspect ctx listing checker job).2.completion.get checker.kind =
        ⟨o.started, o.finished⟩ := by
  unfold inspect at h ⊢
  split at h
  · next hdone =>
    cases h
    rw [if_pos hdone]
    refine ⟨rfl, ?_⟩
    change job.completion.get checker.kind = ⟨(job.completion.get checker.kind).started, true⟩
    rw [← hdone]
  · next hopen =>
    rw [if_neg hopen]
    simp only at h ⊢
    split at h
    · cases h
    · cases h
      exact ⟨rfl, PerKind.get_set_self ..⟩

/-- A check fails only for a job. -/
theorem isJob_of_inspect {listing : List Object} {checker : Checker} {job : JobState}
    {f : Failure} (h : (inspect ctx listing checker job).1 = .error f) : f.IsJob := by
  unfold inspect at h
  split at h
  · cases h
  · simp only at h
    split at h
    · next hcount =>
      cases h
      obtain ⟨o, _, _, rfl⟩ := exists_of_classify_eq_error hcount
      exact ⟨_, _, _, _, rfl⟩
    · cases h

end BackupWatch.Job
