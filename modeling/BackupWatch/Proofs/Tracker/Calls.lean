import BackupWatch.Proofs.Tracker.Run

/-!
Calls of a tracker along a relation of sessions. Whatever contains what a call does in one place,
to the progress, in a pause or in a resume, contains the call.
-/

namespace BackupWatch.Tracker

open Act Cluster Job Pause Watch

variable {κ : Type} {client : Client κ} {R : Session κ Tracker → Session κ Tracker → Prop}
variable [IsPreorder (Session κ Tracker) R]

theorem moves_ensurePaused_of
    (hseed : ∀ ctx, Moves R (onProgress (Progress.seedAll client ctx)))
    (hpause : ∀ ctx cluster, Moves R (pauseNow client ctx cluster)) :
    Moves R (Tracker.ensurePaused client) := by
  unfold Tracker.ensurePaused
  refine leads_bind (fun _ _ => True) (leads_own fun _ _ => trivial) fun t => ?_
  refine leads_ite (fun _ => leads_pure _ fun _ _ => trivial) fun _ => ?_
  refine leads_bind _ (hseed t.ctx) fun _ => ?_
  exact leads_bind (fun _ _ => True) (leads_ofExcept fun _ _ _ _ => trivial) fun cluster =>
    hpause t.ctx cluster

/-- A resume is not made twice, and of no cluster but the hosted one. -/
theorem moves_resumeOnce_of
    (hresume : ∀ cluster s, s.own.resumed = false → s.own.ctx.hostedCluster = some cluster →
      R s (resumeNow client cluster s).2) :
    Moves R (resumeOnce client) := by
  unfold resumeOnce
  refine leads_bind (fun t s => s.own = t) (leads_own fun _ _ => rfl) fun t => ?_
  refine leads_ite (fun _ => leads_pure _ fun _ _ => trivial) fun hunresumed => ?_
  refine leads_ite (fun _ => leads_pure _ fun _ _ => trivial) fun _ => ?_
  refine leads_bind _ (leads_liftDiscovery fun s hs => hs ▸ rfl) fun cluster => ?_
  rintro s ⟨rfl, hcluster⟩
  exact ⟨hresume cluster s (by simpa using hunresumed) hcluster, fun _ _ => trivial⟩

theorem moves_conclude_of
    (hresume : ∀ cluster s, s.own.resumed = false → s.own.ctx.hostedCluster = some cluster →
      R s (resumeNow client cluster s).2) :
    Moves R (conclude client) := by
  refine leads_bind _ (moves_resumeOnce_of hresume) fun _ => ?_
  exact leads_bind (fun _ _ => True) (leads_own fun _ _ => trivial) fun _ =>
    leads_pure _ fun _ _ => trivial

theorem moves_check_of (hpass : ∀ ctx, Moves R (onProgress (Progress.pass client ctx))) :
    Moves R (Tracker.check client) :=
  leads_bind (fun _ _ => True) (leads_own fun _ _ => trivial) fun t => hpass t.ctx

theorem moves_executeData_of (hcheck : Moves R (Tracker.check client))
    (hconclude : Moves R (conclude client)) : Moves R (executeData client) := by
  unfold executeData
  refine leads_bind (fun _ _ => True) (leads_own fun _ _ => trivial) fun _ => ?_
  refine leads_ite (fun _ => ?_) fun _ => hconclude
  refine leads_bind _ hcheck fun _ => ?_
  refine leads_bind (fun _ _ => True) (leads_own fun _ _ => trivial) fun _ => ?_
  exact leads_ite (fun _ => leads_pure _ fun _ _ => trivial) fun _ => hconclude

/-- An item moves as the pause does or as a data item does, by what the item is. -/
theorem moves_execute_of {item : Item}
    (hpause : item.isControlPlane = true → Moves R (Tracker.ensurePaused client))
    (hdata : ¬ item.isControlPlane = true → Moves R (executeData client)) :
    Moves R (Tracker.execute client item) := by
  unfold Tracker.execute
  refine leads_ite (fun hplane => ?_) fun hplane => ?_
  · exact leads_bind _ (hpause hplane) fun _ => leads_pure _ fun _ _ => trivial
  · refine leads_bind (fun _ _ => True) (leads_own fun _ _ => trivial) fun _ => ?_
    exact leads_ite (fun _ => leads_pure _ fun _ _ => trivial) fun _ => hdata hplane

theorem moves_finalize_of
    (hwait : ∀ ctx settings, Moves R (onProgress (Progress.wait client ctx settings)))
    (hconclude : Moves R (conclude client)) : Moves R (Tracker.finalize client) := by
  refine leads_bind (fun _ _ => True) (leads_own fun _ _ => trivial) fun t => ?_
  exact leads_bind _ (hwait t.ctx t.upload) fun _ => hconclude

end BackupWatch.Tracker
