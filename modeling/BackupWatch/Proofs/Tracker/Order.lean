import BackupWatch.Proofs.Job.Settled
import BackupWatch.Proofs.Tracker.Calls
import BackupWatch.Proofs.Tracker.Failure

/-!
The chain of a tracker between calls. A run of a tracker, seen from its progress, is a run of the
progress; so its stages finish in order, and it knows whether all have. Kinds that are no stage
are never listed.
-/

namespace BackupWatch.Tracker

open Act Cluster Job Pause Watch

variable {κ α : Type} {client : Client κ}

/-- From one session to another progress takes turns. -/
def Drives (client : Client κ) (s later : Session κ Tracker) : Prop :=
  Progress.Run client (s.focus Tracker.progress) (later.focus Tracker.progress)

instance : IsPreorder (Session κ Tracker) (Drives client) where
  refl _ := .refl
  trans _ _ _ hab hbc := hab.trans hbc

theorem drives_of_progress_eq {s later : Session κ Tracker}
    (h : later.own.progress = s.own.progress) : Drives client s later :=
  .single (.idle h)

theorem drives_onProgress {act : Act κ Progress α}
    (hturn : ∀ s, Progress.Turn client s (act s).2) : Moves (Drives client) (onProgress act) :=
  fun s _ => ⟨.single (hturn (s.focus Tracker.progress)), fun _ _ => trivial⟩

/-- Concluding leaves the progress alone. -/
theorem drives_conclude : Moves (Drives client) (conclude client) := by
  refine moves_conclude_of fun cluster s _ _ => drives_of_progress_eq ?_
  exact resumeNow_keeps client Tracker.progress (fun _ _ => rfl) (fun _ _ => rfl) cluster s

theorem drives_check : Moves (Drives client) (Tracker.check client) :=
  moves_check_of fun ctx => drives_onProgress fun s => .pass ctx s

/-- A pause drives the chain by its seeding only. -/
theorem drives_ensurePaused : Moves (Drives client) (Tracker.ensurePaused client) := by
  refine moves_ensurePaused_of (fun ctx => drives_onProgress fun s => .seed ctx s)
    fun ctx cluster s _ => ⟨drives_of_progress_eq ?_, fun _ _ => trivial⟩
  exact pauseNow_keeps client Tracker.progress (fun _ _ => rfl) (fun _ _ => rfl) ctx cluster s

/-- Each entry drives the chain of stages in its order. -/
theorem drives_entry (client : Client κ) (entry : Entry) :
    Moves (Drives client) (entry.run client) := by
  cases entry with
  | execute item =>
    exact moves_execute_of (fun _ => drives_ensurePaused)
      fun _ => moves_executeData_of drives_check drives_conclude
  | ensurePaused => exact drives_ensurePaused
  | check => exact drives_check
  | finalize =>
    exact moves_finalize_of (fun ctx settings => drives_onProgress fun s => .wait ctx settings s)
      drives_conclude

theorem Run.drives {s later : Session (Chronicle κ) Tracker} (h : Run client s later) :
    Drives client.recorded s later := by
  induction h with
  | refl => exact .refl
  | tail _ hturn ih =>
    cases hturn with
    | call entry => exact ih.trans (drives_entry client.recorded entry _ trivial).1
    | idle hown _ => exact ih.trans (drives_of_progress_eq (congrArg Tracker.progress hown))

def ListsStages (chain : Chain) (e : Exchange) : Prop :=
  ∀ kind ns, e.request = .list kind ns → kind ∈ chain.stages

theorem Step.listsStages {s later : Session (Chronicle κ) Tracker} (h : Step client s later) :
    Session.Sends (ListsStages s.own.progress.chain) s later := by
  rcases h.of_progress with ⟨inner, hinner, rfl⟩ | ⟨_, new, hnew, hothers⟩
  · obtain ⟨new, hnew, hstages⟩ := hinner.sends_stages
    refine ⟨new, hnew, ?_⟩
    intro e he kind ns hrequest
    obtain ⟨stage, hstage, _, hlist⟩ := hstages e he
    cases hrequest.symm.trans hlist
    exact hstage
  · refine ⟨new, hnew, ?_⟩
    intro e he kind ns hrequest
    exact absurd (hrequest ▸ trivial) (hothers e he)

theorem Path.listsStages {s later : Session (Chronicle κ) Tracker} (h : Path client s later) :
    Session.Sends (ListsStages s.own.progress.chain) s later := by
  induction h with
  | refl => exact refl_of (Session.Sends _) s
  | tail hpath hstep ih =>
    have hnext := hstep.listsStages
    rw [(Path.advances hpath).progress.chain] at hnext
    exact trans_of (Session.Sends _) ih hnext

section FromStart

variable {ctx : Context} {config : Config} {start s : Session (Chronicle κ) Tracker}

theorem progress_new (hstart : start.own = Tracker.new ctx config) :
    start.own.progress = .fresh (.forJob ctx) := by
  rw [hstart]
  rfl

theorem Path.chain_eq (hstart : start.own = Tracker.new ctx config) (h : Path client start s) :
    s.own.progress.chain = Chain.forJob ctx :=
  h.advances.progress.chain.trans (congrArg Progress.chain (progress_new hstart))

/-- A kind that is no stage of the chain is never listed, and nothing is learnt of it. -/
theorem Run.of_not_stage (hstart : start.own = Tracker.new ctx config)
    (hrun : Run client start s) {kind : Kind} (hkind : kind ∉ (Chain.forJob ctx).stages) :
    s.own.progress.job.completion.get kind = ⟨false, false⟩ ∧
      s.own.progress.job.leftovers.isBuilt kind = false ∧
      ∃ new, s.history = start.history ++ new ∧ ∀ ns result, ⟨.list kind ns, result⟩ ∉ new := by
  have hnew := progress_new hstart
  have hsame : JobState.SameAt kind start.own.progress.job s.own.progress.job := by
    refine hrun.drives.sameAt ?_
    change kind ∉ start.own.progress.chain.stages
    rwa [hnew]
  obtain ⟨new, hgrown, hstages⟩ := hrun.path.listsStages
  rw [hnew] at hsame hstages
  refine ⟨hsame.completion.trans (PerKind.get_same _ kind), ?_, new, hgrown, ?_⟩
  · rw [Leftovers.isBuilt, hsame.leftovers]
    exact congrArg Option.isSome (PerKind.get_same none kind)
  · intro ns result hmem
    exact hkind (hstages _ hmem kind ns rfl)

end FromStart

/-- Between two calls the finished stages come first, all behind the next one are untouched, no
other kind has been looked at, and progress is marked as finished just with all stages finished. -/
theorem finished_stages_come_first {ctx : Context} {config : Config}
    {start s : Session (Chronicle κ) Tracker} (hstart : start.own = Tracker.new ctx config)
    (hrun : Run client start s) :
    s.own.progress.chain = Chain.forJob ctx ∧
    (∃ done rest, (Chain.forJob ctx).stages = done ++ rest ∧
      (∀ kind ∈ done, s.own.progress.isDone kind = true) ∧
      (∀ kind ∈ rest, s.own.progress.isDone kind = false) ∧
      ∀ kind ∈ rest.tail, s.own.progress.job.completion.get kind = ⟨false, false⟩) ∧
    (∀ kind ∉ (Chain.forJob ctx).stages,
      s.own.progress.job.completion.get kind = ⟨false, false⟩ ∧
      s.own.progress.job.leftovers.isBuilt kind = false ∧
      ∃ new, s.history = start.history ++ new ∧ ∀ ns result, ⟨.list kind ns, result⟩ ∉ new) ∧
    (s.own.progress.finished = true ↔
      ∀ kind ∈ (Chain.forJob ctx).stages, s.own.progress.isDone kind = true) := by
  have hchain := hrun.path.chain_eq hstart
  have horderly : s.own.progress.Orderly := by
    refine hrun.drives.orderly ?_
    change start.own.progress.Orderly
    rw [progress_new hstart]
    exact Progress.orderly_fresh _
  have hsplit := horderly.inOrder.exists_split
  have hsettled := horderly.settled
  rw [hchain] at hsplit
  rw [Progress.Settled, hchain] at hsettled
  exact ⟨hchain, hsplit, fun _ => hrun.of_not_stage hstart, hsettled⟩

/-- A pod while an upload is under way finds the stages before it finished. -/
theorem finished_stages_come_first_uploading :
    let start : Session (Chronicle (List Object)) Tracker := { failingStart with
      cluster := ⟨[{ failedUpload with phase := .inProgress }], []⟩ }
    let s := ((Entry.execute samplePod).run holding.recorded start).2
    Chain.standard.stages.map s.own.progress.isDone = [true, true, false] ∧
    s.own.progress.finished = false ∧
    (∃ done rest, Chain.standard.stages = done ++ rest ∧
      (∀ kind ∈ done, s.own.progress.isDone kind = true) ∧
      (∀ kind ∈ rest, s.own.progress.isDone kind = false) ∧
      ∀ kind ∈ rest.tail, s.own.progress.job.completion.get kind = ⟨false, false⟩) ∧
    (s.own.progress.finished = true ↔
      ∀ kind ∈ Chain.standard.stages, s.own.progress.isDone kind = true) := by
  intro start s
  have hrun : Run holding start s := .single (.call _ _)
  obtain ⟨_, hsplit, _, hsettled⟩ := finished_stages_come_first rfl hrun
  exact ⟨by decide +kernel, by decide +kernel, hsplit, hsettled⟩

end BackupWatch.Tracker
