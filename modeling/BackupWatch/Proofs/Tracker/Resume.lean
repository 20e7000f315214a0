import BackupWatch.Proofs.Tracker.Obliging

/-!
When a tracker resumes the workload: not for a migration, after progress has finished, and with
every stage of the chain finished by a check of its own. A write of the value of a resume is part
of such a resume.
-/

namespace BackupWatch.Tracker

open Act Cluster Job Pause Watch

variable {κ : Type} {client : Client κ}

/-- Every stage of a chain has finished, each in a check since the start. -/
def AllFinished (client : Client κ) (start m : Session (Chronicle κ) Tracker) (chain : Chain) :
    Prop :=
  ∀ kind ∈ chain.stages,
    m.own.progress.isDone kind = true ∧ FinishedBetween client start m kind

/-- If the chain is finished at the end of a path, a check on the path finished each stage. -/
theorem Path.allFinished {ctx : Context} {config : Config} {start m : Session (Chronicle κ) Tracker}
    (hstart : start.own = Tracker.new ctx config) (h : Path client start m)
    (hfinished : m.own.progress.finished = true) :
    AllFinished client start m (Chain.forJob ctx) := by
  intro kind hkind
  have hdone : m.own.progress.isDone kind = true := by
    refine h.sound hstart hfinished kind ?_
    rw [h.advances.progress.chain, hstart]
    exact hkind
  refine ⟨hdone, h.finishedBetween ?_ hdone⟩
  rw [hstart]
  exact isDone_fresh _ kind

/-- The value of a resume is written only by a resume that starts at a moment when the backup is
known to be no migration and the data of all stages is durable. -/
theorem resume_written_after_all_finished {ctx : Context} {config : Config}
    {start s : Session (Chronicle κ) Tracker} (hstart : start.own = Tracker.new ctx config)
    (hrun : Run client start s) {before after : List Exchange} {object : Managed}
    {observed : PauseField} {result : Except Error Unit}
    (hwrite : s.history =
      start.history ++ before ++ ⟨.writePause object observed "false", result⟩ :: after) :
    ∃ m cluster during rest,
      Path client start m ∧ Path client (resumeNow client.recorded cluster m).2 s ∧
      start.history ++ before = m.history ++ during ∧
      (resumeNow client.recorded cluster m).2.history =
        m.history ++ (during ++ ⟨.writePause object observed "false", result⟩ :: rest) ∧
      ctx.migration = false ∧ config.migration = false ∧
      m.own.progress.finished = true ∧ AllFinished client start m (Chain.forJob ctx) ∧
      ctx.hostedCluster = some cluster ∧
      (object = cluster ∨ ∃ pools, ⟨.nodePools cluster, .ok pools⟩ ∈ during ∧ object ∈ pools) := by
  obtain ⟨m, later, during, hm, hhas, hlater, hsame⟩ := hrun.path.exists_step hwrite
  obtain ⟨rest, hrest⟩ := hhas.history
  have hctx : m.own.ctx = (Tracker.new ctx config).ctx := hstart ▸ hm.advances.ctx
  have hwriting : Writing client m later during object .resume := hhas.writing
  cases hwriting with
  | @resume cluster hmay heq hobject =>
    subst heq
    have hmigration : (ctx.migration || config.migration) = false := by
      have hnone := hmay.migration
      rwa [hctx] at hnone
    have hcluster : ctx.hostedCluster = some cluster := by
      have hsome := hmay.cluster
      rwa [hctx] at hsome
    rw [Bool.or_eq_false_iff] at hmigration
    exact ⟨m, cluster, during, rest, hm, hlater, hsame, hrest, hmigration.1, hmigration.2,
      hmay.finished, hm.allFinished hstart hmay.finished, hcluster, hobject⟩

/-- Without watched objects the first pod brings the resume of the node pool, too. -/
theorem resume_written_to_pool_after_all_finished :
    ∃ s m before result after, Run obliging sampleStart s ∧ Path obliging sampleStart m ∧
      s.history = before ++
        ⟨.writePause ⟨.nodePool, "clusters", "workers"⟩ ⟨none, none⟩ "false", result⟩ :: after ∧
      m.own.progress.finished = true ∧ AllFinished obliging sampleStart m .standard := by
  have hrun : Run obliging sampleStart
      ((Entry.execute samplePod).run obliging.recorded sampleStart).2 := .single (.call _ _)
  have hasked : .writePause ⟨.nodePool, "clusters", "workers"⟩ ⟨none, none⟩ "false" ∈
      ((Entry.execute samplePod).run obliging.recorded sampleStart).2.history.map
        Exchange.request := by decide +kernel
  obtain ⟨before, result, after, hwrite⟩ := Session.exists_split_history hasked
  obtain ⟨m, _, _, _, hm, _, _, _, _, _, hfinished, hall, _⟩ :=
    resume_written_after_all_finished rfl hrun hwrite
  exact ⟨_, m, before, result, after, hrun, hm, hwrite, hfinished, hall⟩

end BackupWatch.Tracker
