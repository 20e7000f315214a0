import BackupWatch.Proofs.Job.FirstPass
import BackupWatch.Tracker

/-!
The first check of a tracker, which is all that a look at the state of a backup makes. It never
sees a volume that was complete before: such a volume is a leftover for all that it can tell. So
it reports stages as absent or underway, and finishes just when nothing is open.
-/

namespace BackupWatch.Tracker

open Act Cluster Job Watch Job.Progress

variable {κ : Type} {client : Client κ} {standing : κ → Prop}
variable {held : Kind → Option String → List Object}

/-- A tracker's check of a standing cluster ends as the sweep of its progress says. -/
theorem asSaid_check {s : Session κ Tracker} (h : client.Stands s.own.ctx standing held)
    (hs : standing s.cluster) :
    AsSaid standing
      ((sweepAll s.own.ctx held s.own.progress).1,
        { s.own with progress := (sweepAll s.own.ctx held s.own.progress).2 })
      (check client s) := by
  have hpass := asSaid_pass (s := s.focus Tracker.progress) h hs
  exact ⟨hpass.result, congrArg (fun progress => { s.own with progress }) hpass.own, hpass.stands⟩

/-- The first check of a new tracker, on a standing cluster whose objects have identities of their
own. Nothing counts as completed, and no stage finishes on the expected number. The check stops at
the first stage with an own object that is not complete; with no such stage, and only then, the
tracker has finished. -/
theorem first_check_stops_at_what_is_open {s : Session κ Tracker} {chain : Chain}
    (hfresh : s.own.progress = .fresh chain) (hstands : client.Stands s.own.ctx standing held)
    (hs : standing s.cluster)
    (hdistinct : ∀ kind ∈ chain.stages, DistinctIn kind (listed s.own.ctx held kind)) :
    (∀ outcomes, (check client s).1 = .ok outcomes → ∀ o ∈ outcomes,
      o.completed = 0 ∧ o.reason ≠ some .threshold) ∧
    (∀ before kind after, chain.stages = before ++ kind :: after →
      (∀ stage ∈ before, openIn s.own.ctx stage (listed s.own.ctx held stage) = []) →
      openIn s.own.ctx kind (listed s.own.ctx held kind) ≠ [] →
      StopsAt s.own.ctx before kind (openIn s.own.ctx kind (listed s.own.ctx held kind))
        (check client s).1 (check client s).2.own.progress) ∧
    ((check client s).2.own.isFinished = true ↔ ∀ kind ∈ chain.stages,
      ∀ o ∈ ownIn s.own.ctx kind (listed s.own.ctx held kind), o.phase = .completed) ∧
    ((check client s).2.own.isFinished = true →
      (check client s).1 = .ok (chain.stages.map (.absent s.own.ctx))) := by
  obtain ⟨hresult, hown, _⟩ := asSaid_check hstands hs
  have hprogress : (check client s).2.own.progress =
      (sweepAll s.own.ctx held (.fresh chain)).2 := by
    rw [hown, ← hfresh]
  simp only [hfresh] at hresult
  simp only [isFinished, hprogress, hresult]
  have habsent : ∀ stages : List Kind, ∀ o ∈ stages.map (Outcome.absent s.own.ctx),
      o.completed = 0 ∧ o.reason ≠ some .threshold := by
    intro stages o ho
    obtain ⟨kind, _, rfl⟩ := List.mem_map.mp ho
    exact ⟨rfl, by simp [Outcome.absent]⟩
  have hstops : ∀ before kind after, chain.stages = before ++ kind :: after →
      (∀ stage ∈ before, openIn s.own.ctx stage (listed s.own.ctx held stage) = []) →
      openIn s.own.ctx kind (listed s.own.ctx held kind) ≠ [] →
      StopsAt s.own.ctx before kind (openIn s.own.ctx kind (listed s.own.ctx held kind))
        (sweepAll s.own.ctx held (.fresh chain)).1 (sweepAll s.own.ctx held (.fresh chain)).2 :=
    fun before kind after => sweepAll_of_first_open hdistinct
  refine ⟨?_, hstops, ?_⟩
  · intro outcomes hok o ho
    rcases none_open_or_exists_first s.own.ctx held chain.stages with
      hnone | ⟨before, kind, after, hchain, hbefore, hopen⟩
    · rw [(sweepAll_of_none_open hdistinct hnone).1] at hok
      cases hok
      exact habsent _ o ho
    · rw [(hstops before kind after hchain hbefore hopen).result_eq hok] at ho
      rcases List.mem_append.mp ho with h | h
      · exact habsent _ o h
      · obtain rfl := List.mem_singleton.mp h
        exact ⟨rfl, by simp [Outcome.underway]⟩
  · rcases none_open_or_exists_first s.own.ctx held chain.stages with
      hnone | ⟨before, kind, after, hchain, hbefore, hopen⟩
    · obtain ⟨hreport, hfinished⟩ := sweepAll_of_none_open hdistinct hnone
      exact ⟨iff_of_true hfinished fun kind hkind => eq_nil_openIn_iff.mp (hnone kind hkind),
        fun _ => hreport⟩
    · have hunfinished := (hstops before kind after hchain hbefore hopen).unfinished
      have hmem : kind ∈ chain.stages := by
        rw [hchain]
        exact List.mem_append_right before (List.mem_cons_self ..)
      refine ⟨iff_of_false (by rw [hunfinished]; exact Bool.false_ne_true) ?_, ?_⟩
      · exact fun hall => hopen (eq_nil_openIn_iff.mpr (hall kind hmem))
      · intro hfinished
        cases hunfinished.symm.trans hfinished

/-- A client that has all its turns behind it refuses nothing any more. -/
theorem stands_faltering (held : Kind → Option String → List Object) (ctx : Context) :
    (faltering held).Stands ctx (· = []) held where
  accepts _ _ _ := rfl
  result kind place _ clock turns hturns := by
    subst hturns
    rfl
  stands kind place _ clock turns hturns := by
    subst hturns
    rfl

/-- The content of the first volume is complete, and of its two snapshots one. -/
def halfComplete : Kind → Option String → List Object
  | .snapshotContent, none =>
    [⟨.snapshotContent, ⟨"nightly-content-0", none⟩, [], some "clusters", .completed, none⟩]
  | .snapshot, some "clusters" =>
    [⟨.snapshot, ⟨"nightly-snapshot-0", some "clusters"⟩, [], none, .completed, none⟩,
      ⟨.snapshot, ⟨"nightly-snapshot-1", some "clusters"⟩, [], none, .inProgress, none⟩]
  | _, _ => []

def lookStart : Session (List Bool) Tracker := ⟨0, fun _ => 0, [], .new twoNamespaces .standard⟩

/-- The complete content makes an absent stage, and of the snapshots only one is seen. -/
theorem first_check_stops_at_second_snapshot :
    let client := faltering halfComplete
    (check client lookStart).1 =
      .ok [.absent twoNamespaces .snapshotContent, .underway twoNamespaces .snapshot 1] ∧
    (check client lookStart).2.own.isFinished = false := by
  intro client
  have hdistinct : ∀ kind ∈ Chain.standard.stages,
      DistinctIn kind (listed twoNamespaces halfComplete kind) := by
    unfold DistinctIn
    decide
  have hfresh : lookStart.own.progress = .fresh .standard := rfl
  have hstands : client.Stands lookStart.own.ctx (· = []) halfComplete :=
    stands_faltering halfComplete twoNamespaces
  have hcluster : lookStart.cluster = [] := rfl
  obtain ⟨_, hstops, _⟩ :=
    first_check_stops_at_what_is_open (s := lookStart) hfresh hstands hcluster hdistinct
  have hat := hstops [.snapshotContent] .snapshot [.dataUpload] rfl (by decide) (by decide)
  exact ⟨hat.underway (by decide), hat.unfinished⟩

end BackupWatch.Tracker
