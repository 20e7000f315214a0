import BackupWatch.Proofs.Job.Leftovers
import BackupWatch.Proofs.Tracker.Order

/-!
Leftovers of earlier attempts, over the runs of a tracker. They are recorded for every stage
before any stage is touched and before anything is written; they are those of the first listing of
their kind for ever; and no check counts them or fails for them.
-/

namespace BackupWatch.Tracker

open Act Cluster Job Pause Watch

variable {κ : Type} {client : Client κ}

abbrev job (s : Session κ Tracker) : Session κ JobState :=
  (s.focus Tracker.progress).focus Progress.job

/-- A step keeps the blacklist of each kind explained by the first listing of that kind. -/
theorem Step.explained {s later : Session (Chronicle κ) Tracker} (h : Step client s later)
    {kind : Kind} (hs : Explained s.own.ctx kind (job s)) :
    Explained s.own.ctx kind (job later) := by
  rcases h.of_progress with ⟨inner, hinner, rfl⟩ | ⟨hprogress, new, hnew, hothers⟩
  · exact hinner.explained hs
  · change Recorded s.own.ctx kind later.history (later.own.progress.job.leftovers.entries.get kind)
    rw [hnew, hprogress]
    refine Recorded.append hs fun e he ns hrequest => ?_
    exact absurd (hrequest ▸ trivial) (hothers e he)

/-- By induction a blacklist stays explained along a path. -/
theorem Path.explained {s later : Session (Chronicle κ) Tracker} (h : Path client s later)
    {kind : Kind} (hs : Explained s.own.ctx kind (job s)) :
    Explained s.own.ctx kind (job later) := by
  induction h with
  | refl => exact hs
  | tail hpath hstep ih =>
    have hctx := (Path.advances hpath).ctx
    exact hctx ▸ hstep.explained (hctx.symm ▸ ih)

/-- A new tracker has no blacklist to explain. -/
theorem explained_start {ctx : Context} {config : Config} {start : Session (Chronicle κ) Tracker}
    (hstart : start.own = Tracker.new ctx config) (hhistory : start.history = []) (kind : Kind) :
    Explained start.own.ctx kind (job start) := by
  have hnone : start.own.progress.job.leftovers.entries.get kind = none := by
    rw [hstart]
    exact PerKind.get_same none kind
  have hunlisted : Unlisted start.own.ctx kind [] := by
    rintro hplaces before sent after listing hsplit hlists
    have hsent : sent = [] := by
      have hlength := congrArg List.length hsplit
      simp only [List.length_nil, List.length_append] at hlength
      exact List.length_eq_zero_iff.mp (by omega)
    have hempty := hlists.length_eq
    rw [hsent] at hempty
    exact hplaces (List.length_eq_zero_iff.mp hempty.symm)
  change Recorded start.own.ctx kind start.history
    (start.own.progress.job.leftovers.entries.get kind)
  rw [hhistory, hnone]
  exact .unbuilt hunlisted

/-- Whoever may write has recorded all leftovers. -/
theorem Writing.seeded {s later : Session (Chronicle κ) Tracker} {during : List Exchange}
    {object : Managed} {target : Target} (h : Writing client s later during object target)
    (hfirst : s.own.progress.SeededFirst) (hsound : s.own.progress.Sound) :
    s.own.progress.Seeded := by
  cases h with
  | pause hmay _ => exact hmay.seeded
  | resume hmay _ _ =>
    rcases hfirst with hseeded | hnone
    · exact hseeded
    · intro kind hkind
      have hdone := hsound hmay.finished kind hkind
      rw [Progress.not_isDone_of_untouched (hnone kind)] at hdone
      cases hdone

section FromStart

variable {ctx : Context} {config : Config} {start s : Session (Chronicle κ) Tracker}
variable (hstart : start.own = Tracker.new ctx config)

include hstart

theorem Path.seededFirst (h : Path client start s) : s.own.progress.SeededFirst := by
  refine h.keeps_progress Progress.SeededFirst (fun _ _ _ hstep => hstep.seededFirst) ?_
  rw [hstart]
  exact Progress.seededFirst_fresh _

/-- The leftovers of a kind are those of its first listing, for ever. -/
theorem Path.first_leftovers (hhistory : start.history = []) (h : Path client start s)
    (kind : Kind) :
    s.own.progress.job.leftovers.isBuilt kind = false ∧ Unlisted ctx kind s.history ∨
      ∃ first, FirstListed ctx kind s.history first ∧
        ∀ later, Path client s later → ∀ id,
          later.own.progress.job.leftovers.contains kind id = true ↔
            ∃ o ∈ first, o.kind = kind ∧ o.phase = .completed ∧ o.identity = id := by
  have hexplained : Recorded start.own.ctx kind s.history
      (s.own.progress.job.leftovers.entries.get kind) :=
    h.explained (explained_start hstart hhistory kind)
  rw [hstart] at hexplained
  generalize hids : s.own.progress.job.leftovers.entries.get kind = ids at hexplained
  cases hexplained with
  | unbuilt hnone => exact Or.inl ⟨by rw [Leftovers.isBuilt, hids]; rfl, hnone⟩
  | @built first hlisted =>
    refine Or.inr ⟨first, hlisted, ?_⟩
    intro later hlater id
    have hbuilt : s.own.progress.job.leftovers.isBuilt kind = true := by
      rw [Leftovers.isBuilt, hids]
      rfl
    have hsame := hlater.advances.progress.job.leftovers kind hbuilt
    rw [Leftovers.contains, hsame, hids, List.contains_iff_mem, Leftovers.mem_completedIn]

/-- Whatever was written was written when all leftovers had been recorded. -/
theorem Path.seeded_before_write (hhistory : start.history = []) (h : Path client start s)
    {before after : List Exchange} {object : Managed} {observed : PauseField} {value : String}
    {result : Except Error Unit}
    (hwrite : s.history = before ++ ⟨.writePause object observed value, result⟩ :: after) :
    ∃ m during, Path client start m ∧ Path client m s ∧ before = m.history ++ during ∧
      ∀ stage ∈ (Chain.forJob ctx).stages,
        m.own.progress.job.leftovers.isBuilt stage = true := by
  have hsplit : s.history = start.history ++ before ++
      ⟨.writePause object observed value, result⟩ :: after := by
    rw [hhistory]
    exact hwrite
  obtain ⟨m, later, during, hm, hhas, hlater, hsame⟩ := h.exists_step hsplit
  obtain ⟨target, _, hwriting⟩ := hhas.exists_writing
  refine ⟨m, during, hm, .head hhas.step hlater, by rwa [hhistory] at hsame, ?_⟩
  have hseeded := hwriting.seeded (hm.seededFirst hstart) (hm.sound hstart)
  rwa [Progress.Seeded, hm.chain_eq hstart] at hseeded

end FromStart

/-- Leftovers are those of the first listing, for ever. No stage starts or finishes and nothing is
written before all stages have theirs. A check of a kind that has them makes of its listing what
it would make of it without them. -/
theorem leftovers_never_count {ctx : Context} {config : Config}
    {start s : Session (Chronicle κ) Tracker} (hstart : start.own = Tracker.new ctx config)
    (hhistory : start.history = []) (hpath : Path client start s) :
    (∀ kind,
      s.own.progress.job.leftovers.isBuilt kind = false ∧ Unlisted ctx kind s.history ∨
      ∃ first, FirstListed ctx kind s.history first ∧
        ∀ later, Path client s later → ∀ id,
          later.own.progress.job.leftovers.contains kind id = true ↔
            ∃ o ∈ first, o.kind = kind ∧ o.phase = .completed ∧ o.identity = id) ∧
    (∀ kind ∈ (Chain.forJob ctx).stages,
      s.own.progress.job.completion.get kind ≠ ⟨false, false⟩ →
        ∀ stage ∈ (Chain.forJob ctx).stages,
          s.own.progress.job.leftovers.isBuilt stage = true) ∧
    (∀ before object observed value result after,
      s.history = before ++ ⟨.writePause object observed value, result⟩ :: after →
        ∃ m during, Path client start m ∧ Path client m s ∧ before = m.history ++ during ∧
          ∀ stage ∈ (Chain.forJob ctx).stages,
            m.own.progress.job.leftovers.isBuilt stage = true) ∧
    (∀ checker listing later, s.own.progress.job.leftovers.isBuilt checker.kind = true →
      (s.own.progress.job.completion.get checker.kind).finished = false →
      listInScope client.recorded s.own.ctx checker.kind (job s) = (.ok listing, later) →
        (Job.check client.recorded s.own.ctx checker (job s)).1 =
          ((classify checker.kind s.own.ctx .empty (listing.filter fun o =>
            !s.own.progress.job.leftovers.contains checker.kind o.identity)).map
              (s.own.progress.job.verdict s.own.ctx checker)).mapError .error) := by
  refine ⟨hpath.first_leftovers hstart hhistory, ?_, ?_, ?_⟩
  · intro kind _ htouched stage hstage
    rcases hpath.seededFirst hstart with hseeded | hnone
    · exact hseeded stage (by rwa [hpath.chain_eq hstart])
    · exact absurd (hnone kind) htouched
  · exact fun _ _ _ _ _ _ => hpath.seeded_before_write hstart hhistory
  · intro checker listing later hbuilt hopen hlist
    exact check_without_leftovers hbuilt hopen hlist

def oldStart : Session (Chronicle (List Object)) Tracker :=
  { failingStart with cluster := ⟨[{ failedUpload with phase := .completed }], []⟩ }

def replaced (objects : List Object) (s : Session (Chronicle (List Object)) Tracker) :
    Session (Chronicle (List Object)) Tracker :=
  { s with cluster := ⟨objects, s.history⟩ }

theorem turn_replaced (objects : List Object) (s : Session (Chronicle (List Object)) Tracker) :
    Turn holding s (replaced objects s) := .idle rfl rfl

/-- The upload of an earlier attempt, complete when the workload is paused, has failed by the time
of the next check, which does not see it. -/
theorem leftovers_never_count_old_upload :
    let s := replaced [failedUpload] (Entry.ensurePaused.run holding.recorded oldStart).2
    Path holding oldStart s ∧
    .writePause sampleCluster ⟨none, none⟩ "true" ∈ s.history.map Exchange.request ∧
    (∀ stage ∈ Chain.standard.stages, s.own.progress.job.leftovers.isBuilt stage = true) ∧
    (Job.check holding.recorded s.own.ctx ⟨.dataUpload, true⟩ (job s)).1 =
      .ok ⟨.dataUpload, false, true, 0, 0, 1, some .notParticipating⟩ := by
  intro s
  have hrun : Run holding oldStart s :=
    .tail (.single (.call .ensurePaused oldStart)) (turn_replaced _ _)
  have hstart : oldStart.own = Tracker.new sampleContext .standard := rfl
  obtain ⟨_, _, _, hcheck⟩ := leftovers_never_count hstart rfl hrun.path
  have hlist : (listInScope holding.recorded s.own.ctx .dataUpload (job s)).1 =
      .ok [failedUpload] := by decide +kernel
  refine ⟨hrun.path, by decide +kernel, by decide +kernel, ?_⟩
  have hcounted := hcheck ⟨.dataUpload, true⟩ [failedUpload] _ (by decide +kernel)
    (by decide +kernel) (Prod.ext hlist rfl)
  exact hcounted.trans (by decide +kernel)

end BackupWatch.Tracker
