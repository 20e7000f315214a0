import BackupWatch.Proofs.Job.Progress
import BackupWatch.Proofs.Raise

/-!
The failure of a watched job, as passes and waits report it: it blames a stage of the chain that
has not finished, and leaves it unfinished.
-/

namespace BackupWatch.Job

open Act Cluster Watch

variable {κ σ : Type} {client : Client κ}

/-- Writing the requests down does not make a client answer with failures. -/
theorem failsNoJob_recorded (h : client.FailsNoJob) : client.recorded.FailsNoJob :=
  fun request clock chronicle => h request clock chronicle.cluster

/-- No listing fails for a job, since only a count finds one that has failed. -/
theorem spares_listInScope (hclient : client.FailsNoJob) (ctx : Context) (kind : Kind) :
    Spares (listInScope client ctx kind : Act κ σ (List Object)) := by
  have hask : ∀ ns, Spares (client.ask (.list kind ns) : Act κ σ (List Object)) :=
    fun ns => hclient.spares_ask (.list kind ns)
  unfold listInScope
  cases kind.scope with
  | cluster => exact hask none
  | backupNamespace => exact hask _
  | includedNamespaces =>
    have hflat : Spares (do
        let listings ← ctx.included.names.mapM fun ns => client.ask (.list kind (some ns))
        return listings.flatten : Act κ σ (List Object)) :=
      raises_bind (raises_mapM _ fun ns => hask (some ns)) fun _ => raises_pure _
    have hinvalid : Spares (Act.fail .invalidRequest : Act κ σ PUnit) :=
      raises_throw fun _ => by simp [Failure.IsJob, Failure.Blames]
    exact raises_ite (raises_bind hinvalid fun _ => hflat) hflat

/-- Recording leftovers counts nothing, so it never fails for a job. -/
theorem spares_seed (hclient : client.FailsNoJob) (ctx : Context) (kind : Kind) :
    Spares (seed client ctx kind) := by
  unfold seed
  refine raises_bind raises_own fun job => raises_ite (raises_pure ()) ?_
  exact raises_bind (spares_listInScope hclient ctx kind) fun listing =>
    raises_bind raises_own fun _ => raises_setOwn _

/-- A check blames the kind that it checks, which stays unfinished. -/
theorem raises_check (hclient : client.FailsNoJob) (ctx : Context) (checker : Checker) :
    Raises (check client ctx checker) fun f s => ∀ kind, f.Blames kind →
      kind = checker.kind ∧ (s.own.completion.get kind).finished = false := by
  intro s f hf kind hblames
  have hcheck := checking client ctx checker s
  generalize hrun : check client ctx checker s = result at hcheck hf
  cases hcheck with
  | cached _ => cases hf
  | refused hopen hlist _ =>
    cases hf
    exact absurd ⟨kind, hblames⟩ (spares_listInScope hclient ctx checker.kind s f (by rw [hlist]))
  | failed hopen _ _ hcount =>
    cases hf
    obtain ⟨_, _, _, he⟩ := exists_of_classify_eq_error hcount
    obtain ⟨name, phase, message, hsame⟩ := hblames
    cases he.symm.trans (Failure.error.inj hsame)
    exact ⟨rfl, hopen⟩
  | counted _ _ _ _ _ => cases hf

namespace Progress

variable {ctx : Context}

/-- A failure blames only stages of the chain that have not finished. -/
def Explains (p : Progress) (f : Failure) : Prop :=
  ∀ kind, f.Blames kind → kind ∈ p.chain.stages ∧ p.isDone kind = false

theorem explains_of_not_isJob {p : Progress} {f : Failure} (h : ¬ f.IsJob) : p.Explains f :=
  fun kind hblames => absurd ⟨kind, hblames⟩ h

/-- A check blames the kind that it checks, and leaves it unfinished. -/
theorem raises_onJob_check (hclient : client.FailsNoJob) (ctx : Context) (checker : Checker) :
    Raises (onJob (Job.check client ctx checker)) fun f s => ∀ kind, f.Blames kind →
      kind = checker.kind ∧ s.own.isDone kind = false :=
  raises_within (raises_check hclient ctx checker) fun _ _ _ h => h

theorem spares_seedAll (hclient : client.FailsNoJob) (ctx : Context) :
    Spares (seedAll client ctx) := by
  refine raises_bind raises_own fun p => raises_forM _ fun kind => ?_
  exact raises_within (spares_seed hclient ctx kind) fun _ _ _ h => h

/-- What a pass blames is a stage that it came to and did not get past. -/
theorem raises_passFrom (hclient : client.FailsNoJob) (ctx : Context) (previous : Option Kind)
    (kinds : List Kind) :
    Raises (passFrom client ctx previous kinds) fun f s => ∀ kind, f.Blames kind →
      kind ∈ kinds ∧ s.own.isDone kind = false := by
  induction kinds generalizing previous with
  | nil => exact raises_of_ok fun _ => ⟨[], rfl⟩
  | cons kind rest ih =>
    unfold passFrom
    refine raises_bind raises_own fun p => ?_
    refine raises_bind ((raises_onJob_check hclient ctx _).imp ?_) fun o => raises_ite ?_ ?_
    · intro f s h other hblames
      obtain ⟨rfl, hopen⟩ := h other hblames
      exact ⟨List.mem_cons_self .., hopen⟩
    · refine raises_bind ((ih (some kind)).imp ?_) fun _ => raises_pure _
      intro f s h other hblames
      exact ⟨List.mem_cons_of_mem kind (h other hblames).1, (h other hblames).2⟩
    · exact raises_pure _

/-- What a wait blames is a stage that it came to and did not get past. -/
theorem raises_waitFrom (hclient : client.FailsNoJob) (ctx : Context) (settings : Poll.Settings)
    (previous : Option Kind) (kinds : List Kind) :
    Raises (waitFrom client ctx settings previous kinds) fun f s => ∀ kind, f.Blames kind →
      kind ∈ kinds ∧ s.own.isDone kind = false := by
  induction kinds generalizing previous with
  | nil => exact raises_of_ok fun _ => ⟨(), rfl⟩
  | cons kind rest ih =>
    unfold waitFrom
    refine raises_bind raises_own fun p => raises_bind ?_ fun _ => (ih (some kind)).imp ?_
    · refine Poll.raises_run settings _ (raises_bind ?_ fun _ => raises_pure _) ?_
      · refine (raises_onJob_check hclient ctx _).imp fun f s h other hblames => ?_
        obtain ⟨rfl, hopen⟩ := h other hblames
        exact ⟨List.mem_cons_self .., hopen⟩
      · exact fun f s h other hblames => absurd ⟨other, hblames⟩ h
    · intro f s h other hblames
      exact ⟨List.mem_cons_of_mem kind (h other hblames).1, (h other hblames).2⟩

/-- A pass blames a stage of the chain that has not finished. -/
theorem raises_pass (hclient : client.FailsNoJob) (ctx : Context) :
    Raises (pass client ctx) fun f s => s.own.Explains f := by
  intro s f hf
  have hpath : Path client ctx s (pass client ctx s).2 := (leads_pass s trivial).1
  have hraises : Raises (do
      if s.own.finished then return []
      seedAll client ctx
      passFrom client ctx none s.own.chain.stages) fun f later => ∀ kind, f.Blames kind →
        kind ∈ s.own.chain.stages ∧ later.own.isDone kind = false := by
    refine raises_ite (raises_pure _) (raises_bind ?_ fun _ => raises_passFrom hclient ctx _ _)
    exact (spares_seedAll hclient ctx).imp fun f later h kind hblames =>
      absurd ⟨kind, hblames⟩ h
  have hpass := hraises s f hf
  intro kind hblames
  rw [hpath.advances.chain]
  exact hpass kind hblames

/-- A wait blames a stage of the chain that has not finished. -/
theorem raises_wait (hclient : client.FailsNoJob) (ctx : Context) (settings : Poll.Settings) :
    Raises (wait client ctx settings) fun f s => s.own.Explains f := by
  intro s f hf
  have hpath : Path client ctx s (wait client ctx settings s).2 := (leads_wait settings s trivial).1
  have hraises : Raises (do
      if s.own.finished then return
      seedAll client ctx
      waitFrom client ctx settings none s.own.chain.stages) fun f later => ∀ kind, f.Blames kind →
        kind ∈ s.own.chain.stages ∧ later.own.isDone kind = false := by
    refine raises_ite (raises_pure _) (raises_bind ?_ fun _ =>
      raises_waitFrom hclient ctx settings _ _)
    exact (spares_seedAll hclient ctx).imp fun f later h kind hblames =>
      absurd ⟨kind, hblames⟩ h
  have hwait := hraises s f hf
  intro kind hblames
  rw [hpath.advances.chain]
  exact hwait kind hblames

end Progress
end BackupWatch.Job
