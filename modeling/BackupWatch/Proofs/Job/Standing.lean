import BackupWatch.Proofs.Job.Interrupted

/-!
Clusters that stand. While a cluster stands, it answers every list that a backup asks for, and
always with the same objects. What seedings, checks and passes then come to can be said without the
cluster, on the objects that it holds.
-/

namespace BackupWatch

open Act Cluster Job Watch

variable {κ σ α β : Type}

/-- A standing cluster answers the lists of a backup with the objects held in each place, and stands
also after that. -/
structure Cluster.Client.Stands (client : Client κ) (ctx : Context) (standing : κ → Prop)
    (held : Kind → Option String → List Object) : Prop where
  accepts : ∀ kind, ∀ place ∈ places ctx kind, client.accepts (.list kind place) = true
  result : ∀ kind, ∀ place ∈ places ctx kind, ∀ clock cluster, standing cluster →
    (client.reply (.list kind place) clock cluster).result = .ok (held kind place)
  stands : ∀ kind, ∀ place ∈ places ctx kind, ∀ clock cluster, standing cluster →
    standing (client.reply (.list kind place) clock cluster).cluster

/-- An act has ended as said, and the cluster stands. -/
structure AsSaid (standing : κ → Prop) (said : Except Failure α × σ)
    (ended : Except Failure α × Session κ σ) : Prop where
  result : ended.1 = said.1
  own : ended.2.own = said.2
  stands : standing ended.2.cluster

variable {standing : κ → Prop}

theorem asSaid_pure (a : α) {s : Session κ σ} (hs : standing s.cluster) :
    AsSaid standing (.ok a, s.own) ((pure a : Act κ σ α) s) := ⟨rfl, rfl, hs⟩

theorem AsSaid.bind {x : Act κ σ α} {f : α → Act κ σ β} {s : Session κ σ} {a : α} {own : σ}
    {said : Except Failure β × σ} (hx : AsSaid standing (.ok a, own) (x s))
    (hf : ∀ later : Session κ σ, later.own = own → standing later.cluster →
      AsSaid standing said (f a later)) : AsSaid standing said ((x >>= f) s) := by
  obtain ⟨hresult, hown, hstands⟩ := hx
  rcases hrun : x s with ⟨result, later⟩
  rw [hrun] at hresult hown hstands
  obtain rfl : result = .ok a := hresult
  rw [run_bind_of_ok hrun]
  exact hf later hown hstands

namespace Job

variable {client : Client κ} {ctx : Context} {held : Kind → Option String → List Object}

section Stands

variable (h : client.Stands ctx standing held)

include h

/-- A listing request is answered with what is held there, while the cluster stands. -/
theorem asSaid_ask {kind : Kind} {place : Option String} (hplace : place ∈ places ctx kind)
    {s : Session κ σ} (hs : standing s.cluster) :
    AsSaid standing (.ok (held kind place), s.own) (client.ask (.list kind place) s) := by
  rw [Client.run_ask_of_ok (h.result kind place hplace s.clock s.cluster hs)]
  exact ⟨rfl, rfl, h.stands kind place hplace s.clock s.cluster hs⟩

/-- A standing cluster lists each place with what it holds. -/
theorem asSaid_mapM {kind : Kind} {names : List String}
    (hnames : ∀ name ∈ names, some name ∈ places ctx kind) {s : Session κ σ}
    (hs : standing s.cluster) :
    AsSaid standing (.ok (names.map fun ns => held kind (some ns)), s.own)
      (names.mapM (fun ns => client.ask (.list kind (some ns))) s) := by
  induction names generalizing s with
  | nil => exact asSaid_pure _ hs
  | cons name rest ih =>
    rw [List.mapM_cons]
    refine (asSaid_ask h (hnames name (List.mem_cons_self ..)) hs).bind fun asked hown hasked => ?_
    rw [← hown]
    refine (ih (fun other hother => hnames other (List.mem_cons_of_mem name hother)) hasked).bind
      fun later hown' hlater => ?_
    rw [← hown']
    exact asSaid_pure _ hlater

/-- A standing cluster lists a kind with all that it holds. -/
theorem asSaid_listInScope (kind : Kind) {s : Session κ σ} (hs : standing s.cluster) :
    AsSaid standing (.ok (listed ctx held kind), s.own) (listInScope client ctx kind s) := by
  have hask : ∀ place, places ctx kind = [place] →
      AsSaid standing (.ok (listed ctx held kind), s.own) (client.ask (.list kind place) s) := by
    intro place hplaces
    have hlisted : listed ctx held kind = held kind place := by simp [listed, hplaces]
    have hplace : place ∈ places ctx kind := hplaces ▸ List.mem_singleton.mpr rfl
    rw [hlisted]
    exact asSaid_ask h hplace hs
  unfold listInScope
  cases hscope : kind.scope with
  | cluster => exact hask none (by rw [places, hscope])
  | backupNamespace => exact hask _ (by rw [places, hscope])
  | includedNamespaces =>
    have hplaces : places ctx kind = ctx.included.names.map some := by rw [places, hscope]
    have hnames : ∀ name ∈ ctx.included.names, some name ∈ places ctx kind :=
      fun name hname => hplaces ▸ List.mem_map_of_mem hname
    have hsendable : (ctx.included.names.all fun ns =>
        client.accepts (.list kind (some ns))) = true :=
      List.all_eq_true.mpr fun name hname => h.accepts kind _ (hnames name hname)
    have hlisted : listed ctx held kind =
        (ctx.included.names.map fun ns => held kind (some ns)).flatten := by
      rw [listed, hplaces, List.flatMap_map, List.flatMap_def]
    dsimp only
    unfold listEach
    simp only [hsendable, Bool.not_true, Bool.and_false, Bool.false_eq_true, if_false]
    rw [hlisted]
    refine (asSaid_mapM h hnames hs).bind fun later hown hlater => ?_
    rw [← hown]
    exact asSaid_pure _ hlater

/-- On a standing cluster the leftovers are recorded from what it holds. -/
theorem asSaid_seed (kind : Kind) {s : Session κ JobState} (hs : standing s.cluster) :
    AsSaid standing (.ok (), s.own.note kind (listed ctx held kind)) (seed client ctx kind s) := by
  have hlisting := asSaid_listInScope h kind hs
  have hseed := seeding client ctx kind s
  generalize seed client ctx kind s = result at hseed
  cases hseed with
  | built hbuilt =>
    rw [JobState.note, Leftovers.record_of_isBuilt hbuilt]
    exact ⟨rfl, rfl, hs⟩
  | refused _ hlist _ =>
    rw [hlist] at hlisting
    cases hlisting.result
  | listed _ hlist _ =>
    rw [hlist] at hlisting
    cases hlisting.result
    exact ⟨rfl, rfl, hlisting.stands⟩

/-- A check on a standing cluster is one on the listing of what it holds. -/
theorem asSaid_check (checker : Checker) {s : Session κ JobState} (hs : standing s.cluster) :
    AsSaid standing (inspect ctx (listed ctx held checker.kind) checker s.own)
      (check client ctx checker s) := by
  have hlisting := asSaid_listInScope h checker.kind hs
  have hcheck := checking client ctx checker s
  generalize check client ctx checker s = result at hcheck
  unfold inspect
  cases hcheck with
  | cached hdone =>
    rw [if_pos hdone]
    exact ⟨rfl, rfl, hs⟩
  | refused _ hlist _ =>
    rw [hlist] at hlisting
    cases hlisting.result
  | failed hopen hlist _ hcount =>
    rw [hlist] at hlisting
    cases hlisting.result
    simp only [hopen, hcount]
    exact ⟨rfl, rfl, hlisting.stands⟩
  | counted hopen hlist _ hcount hverdict =>
    subst hverdict
    rw [hlist] at hlisting
    cases hlisting.result
    simp only [hopen, hcount]
    exact ⟨rfl, rfl, hlisting.stands⟩

end Stands

/-- A check of a kind with leftovers that has not finished. -/
theorem inspect_of_isBuilt (listing : List Object) {checker : Checker} {job : JobState}
    (hopen : (job.completion.get checker.kind).finished = false)
    (hbuilt : job.leftovers.isBuilt checker.kind = true) :
    inspect ctx listing checker job =
      match (relevantIn checker.kind ctx job.leftovers listing).find? hasFailed with
      | some o => (.error (.error (failure o)), job)
      | none =>
        (.ok (job.verdict ctx checker (.of (relevantIn checker.kind ctx job.leftovers listing))),
          job.settle (job.verdict ctx checker
            (.of (relevantIn checker.kind ctx job.leftovers listing)))) := by
  have hnote : job.note checker.kind listing = job := by
    rw [JobState.note, Leftovers.record_of_isBuilt hbuilt]
  unfold inspect
  simp only [hopen, if_false, Bool.false_eq_true, hnote, classify_eq]
  cases (relevantIn checker.kind ctx job.leftovers listing).find? hasFailed <;> rfl

namespace Progress

theorem asSaid_onJob {s : Session κ Progress} {act : Act κ JobState α}
    {said : Except Failure α × JobState}
    (h : AsSaid standing said (act (s.focus Progress.job))) :
    AsSaid standing (said.1, { s.own with job := said.2 }) (onJob act s) :=
  ⟨h.result, congrArg (fun job => { s.own with job }) h.own, h.stands⟩

variable (h : client.Stands ctx standing held)

include h

/-- On a standing cluster all leftovers are recorded in a row. -/
theorem asSaid_seeds (kinds : List Kind) {s : Session κ Progress} (hs : standing s.cluster) :
    AsSaid standing (.ok (), { s.own with job := noteAll ctx held kinds s.own.job })
      (kinds.forM (fun kind => onJob (Job.seed client ctx kind)) s) := by
  induction kinds generalizing s with
  | nil => exact asSaid_pure () hs
  | cons kind rest ih =>
    have hfirst := asSaid_onJob (s := s) (asSaid_seed h kind hs)
    refine hfirst.bind fun later hown hlater => (?_ : AsSaid _ _ _)
    have hrest := ih hlater
    rw [hown] at hrest
    exact hrest

/-- From any stage on, a pass over a standing cluster ends as the sweep of it says. -/
theorem asSaid_passFrom (previous : Option Kind) (kinds : List Kind) {s : Session κ Progress}
    (hs : standing s.cluster) :
    AsSaid standing (sweep ctx held previous kinds s.own)
      (passFrom client ctx previous kinds s) := by
  induction kinds generalizing previous s with
  | nil => exact ⟨rfl, rfl, hs⟩
  | cons kind rest ih =>
    have hcheck : AsSaid standing
        ((inspect ctx (listed ctx held kind) (stageChecker s.own.job previous kind) s.own.job).1,
          { s.own with job := (inspect ctx (listed ctx held kind)
            (stageChecker s.own.job previous kind) s.own.job).2 })
        (onJob (Job.check client ctx (stageChecker s.own.job previous kind)) s) :=
      asSaid_onJob (asSaid_check (s := s.focus Progress.job) h _ hs)
    rw [run_passFrom_cons]
    rcases hinspect : inspect ctx (listed ctx held kind) (stageChecker s.own.job previous kind)
      s.own.job with ⟨verdict, job⟩
    rw [hinspect] at hcheck
    generalize onJob (Job.check client ctx (stageChecker s.own.job previous kind)) s = ended
      at hcheck ⊢
    obtain ⟨result, later⟩ := ended
    obtain ⟨hresult, hown, hlater⟩ := hcheck
    obtain rfl : result = verdict := hresult
    have hjob : later.own = { s.own with job } := hown
    cases result with
    | error f =>
      rw [sweep_of_error hinspect]
      exact ⟨rfl, hjob, hlater⟩
    | ok o =>
      by_cases hdone : o.finished = true
      · have hrest := ih (some kind) hlater
        rw [hjob] at hrest
        rw [sweep_of_finished hinspect hdone]
        simp only [hdone, if_true]
        exact ⟨congrArg (Except.map (o :: ·)) hrest.result, hrest.own, hrest.stands⟩
      · rw [sweep_of_pending hinspect hdone]
        simp only [hdone, if_false, Bool.false_eq_true]
        exact ⟨rfl, hjob, hlater⟩

/-- A whole pass over a standing cluster ends as the sweep of the chain says. -/
theorem asSaid_pass {s : Session κ Progress} (hs : standing s.cluster) :
    AsSaid standing (sweepAll ctx held s.own) (pass client ctx s) := by
  unfold pass sweepAll
  rw [run_bind, run_own]
  simp only
  by_cases hfinished : s.own.finished = true
  · rw [if_pos hfinished, if_pos hfinished]
    exact asSaid_pure [] hs
  · rw [if_neg hfinished, if_neg hfinished]
    refine (asSaid_seeds h s.own.chain.stages hs).bind fun later hown hlater => ?_
    have hpass := asSaid_passFrom h none s.own.chain.stages hlater
    rw [hown] at hpass
    exact hpass

end Progress
end Job
end BackupWatch
