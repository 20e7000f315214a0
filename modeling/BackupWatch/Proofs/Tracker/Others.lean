import BackupWatch.Proofs.Job.Own
import BackupWatch.Proofs.Pause.Twins
import BackupWatch.Proofs.Tracker.Leftovers

/-!
Backups of others. Two trackers of one backup get the same calls at the same times, and their
clients give the same answers, but for what the listings hold beside the own objects of the
backup. Unless an own object and another one have the identity in common, the trackers cannot be
told apart by what they ask for, by what they answer or by how far they get.
-/

namespace BackupWatch.Tracker

open Act Cluster Job Pause Watch

variable {κ κ' : Type}

/-- Two trackers of one backup that differ in foreign leftovers at most. -/
structure Alike (ctx : Context) (mine : Kind → Identity → Prop) (left right : Tracker) : Prop where
  leftCtx : left.ctx = ctx
  rightCtx : right.ctx = ctx
  upload : left.upload = right.upload
  progress : left.progress.Alike mine right.progress
  orchestrator : left.orchestrator = right.orchestrator
  paused : left.paused = right.paused
  resumed : left.resumed = right.resumed

theorem alike_new (mine : Kind → Identity → Prop) (ctx : Context) (config : Config) :
    Alike (new ctx config).ctx mine (new ctx config) (new ctx config) :=
  ⟨rfl, rfl, rfl, Progress.alike_fresh mine _, rfl, rfl, rfl⟩

section Acts

variable (client : Client κ)

instance {α : Type} {act : Act (Transcript κ) Progress α} [Grows act] :
    Grows (onProgress act) := by
  unfold onProgress
  infer_instance

instance {α : Type} {act : Act (Transcript κ) Orchestrator α} [Grows act] :
    Grows (onOrchestrator act) := by
  unfold onOrchestrator
  infer_instance

instance {α : Type} (result : Except DiscoveryFault α) :
    Grows (liftDiscovery result : Act (Transcript κ) Tracker α) := by
  unfold liftDiscovery
  infer_instance

instance (cluster : Managed) (plane : Option Identity) :
    Grows (Orchestrator.pause client.transcribed cluster plane) := by
  unfold Orchestrator.pause
  infer_instance

instance (cluster : Managed) : Grows (Orchestrator.resume client.transcribed cluster) := by
  unfold Orchestrator.resume
  infer_instance

instance : Grows (Tracker.ensurePaused client.transcribed) := by
  unfold Tracker.ensurePaused
  infer_instance

instance : Grows (resumeOnce client.transcribed) := by
  unfold resumeOnce
  infer_instance

instance : Grows (conclude client.transcribed) := by
  unfold conclude
  infer_instance

instance : Grows (Tracker.check client.transcribed) := by
  unfold Tracker.check
  infer_instance

instance : Grows (executeData client.transcribed) := by
  unfold executeData
  infer_instance

instance (item : Item) : Grows (Tracker.execute client.transcribed item) := by
  unfold Tracker.execute
  infer_instance

instance : Grows (Tracker.finalize client.transcribed) := by
  unfold Tracker.finalize
  infer_instance

theorem Entry.grows (entry : Entry) : Grows (entry.run client.transcribed) := by
  cases entry <;> unfold Entry.run <;> infer_instance

end Acts

section Pairs

variable {ctx : Context} {mine : Kind → Identity → Prop} {α : Type}

/-- Only listings may differ between the two sessions. -/
theorem eq_of_sameFor (request : Request) (a b : request.Answer) (hnot : ¬ request.isList)
    (h : sameFor ctx mine request a b) : a = b := by
  cases request with
  | list _ _ => exact absurd trivial hnot
  | readPause _ => exact h
  | writePause _ _ _ => exact h
  | nodePools _ => exact h
  | controlPlane _ => exact h
  | controlPlanesIn _ => exact h

theorem paired_onProgress {x : Act (Transcript κ) Progress α} {y : Act (Transcript κ') Progress α}
    (h : Paired (Replied.Alike (sameFor ctx mine)) (Progress.Alike mine) x y Eq) :
    Paired (Replied.Alike (sameFor ctx mine)) (Alike ctx mine) (onProgress x) (onProgress y)
      Eq :=
  paired_within h (fun _ _ h => h.progress) fun _ _ _ _ h hprogress =>
    ⟨h.leftCtx, h.rightCtx, h.upload, hprogress, h.orchestrator, h.paused, h.resumed⟩

theorem paired_onOrchestrator {x : Act (Transcript κ) Orchestrator α}
    {y : Act (Transcript κ') Orchestrator α}
    (h : Paired (Replied.Alike (sameFor ctx mine)) Eq x y Eq) :
    Paired (Replied.Alike (sameFor ctx mine)) (Alike ctx mine) (onOrchestrator x)
      (onOrchestrator y) Eq :=
  paired_within h (fun _ _ h => h.orchestrator) fun _ _ _ _ h horchestrator =>
    ⟨h.leftCtx, h.rightCtx, h.upload, h.progress, horchestrator, h.paused, h.resumed⟩

variable {one : Client κ} {two : Client κ'}
variable (haccepts : ∀ request, one.accepts request = two.accepts request)

theorem paired_resumeOnce :
    Paired (Replied.Alike (sameFor ctx mine)) (Alike ctx mine) (resumeOnce one.transcribed)
      (resumeOnce two.transcribed) Eq := by
  unfold resumeOnce
  refine paired_bind paired_own fun t t' h => ?_
  rw [h.resumed, h.leftCtx, h.rightCtx]
  refine paired_ite (fun _ => paired_pure rfl) fun _ => ?_
  refine paired_ite (fun _ => paired_pure rfl) fun _ => ?_
  refine paired_bind (paired_ofExcept _) fun cluster _ hcluster => ?_
  subst hcluster
  refine paired_bind (paired_onOrchestrator
    (Orchestrator.paired_resume eq_of_sameFor one two cluster)) fun _ _ _ => ?_
  exact paired_bind paired_own fun t t' h => paired_setOwn
    ⟨h.leftCtx, h.rightCtx, h.upload, h.progress, h.orchestrator, h.paused, rfl⟩

/-- Both trackers conclude alike, since concluding lists no backup objects. -/
theorem paired_conclude :
    Paired (Replied.Alike (sameFor ctx mine)) (Alike ctx mine) (conclude one.transcribed)
      (conclude two.transcribed) Eq := by
  unfold conclude
  refine paired_bind paired_resumeOnce fun _ _ _ => ?_
  refine paired_bind paired_own fun t t' h => paired_pure ?_
  rw [finishedAction, finishedAction, h.leftCtx, h.rightCtx]

include haccepts

/-- Both trackers pause alike, with blacklists that agree on the backup's own objects. -/
theorem paired_ensurePaused :
    Paired (Replied.Alike (sameFor ctx mine)) (Alike ctx mine)
      (Tracker.ensurePaused one.transcribed) (Tracker.ensurePaused two.transcribed) Eq := by
  unfold Tracker.ensurePaused
  refine paired_bind paired_own fun t t' h => ?_
  rw [h.paused, h.leftCtx, h.rightCtx]
  refine paired_ite (fun _ => paired_pure rfl) fun _ => ?_
  refine paired_bind (paired_onProgress (Progress.paired_seedAll haccepts)) fun _ _ _ => ?_
  refine paired_bind (paired_ofExcept _) fun cluster _ hcluster => ?_
  subst hcluster
  refine paired_bind (paired_onOrchestrator
    (Orchestrator.paired_pause eq_of_sameFor one two cluster _)) fun _ _ _ => ?_
  exact paired_bind paired_own fun t t' h => paired_setOwn
    ⟨h.leftCtx, h.rightCtx, h.upload, h.progress, h.orchestrator, rfl, h.resumed⟩

/-- Both trackers check alike: what is not the backup's own does not count. -/
theorem paired_check :
    Paired (Replied.Alike (sameFor ctx mine)) (Alike ctx mine) (Tracker.check one.transcribed)
      (Tracker.check two.transcribed) Eq := by
  unfold Tracker.check
  refine paired_bind paired_own fun t t' h => ?_
  rw [h.leftCtx, h.rightCtx]
  exact paired_onProgress (Progress.paired_pass haccepts)

theorem paired_executeData :
    Paired (Replied.Alike (sameFor ctx mine)) (Alike ctx mine) (executeData one.transcribed)
      (executeData two.transcribed) Eq := by
  unfold executeData
  refine paired_bind paired_own fun t t' h => ?_
  rw [isFinished, isFinished, h.progress.finished]
  refine paired_ite (fun _ => ?_) fun _ => paired_conclude
  refine paired_bind (paired_check haccepts) fun _ _ _ => ?_
  refine paired_bind paired_own fun t t' h => ?_
  rw [isFinished, isFinished, h.progress.finished]
  exact paired_ite (fun _ => paired_pure rfl) fun _ => paired_conclude

theorem paired_execute (item : Item) :
    Paired (Replied.Alike (sameFor ctx mine)) (Alike ctx mine)
      (Tracker.execute one.transcribed item) (Tracker.execute two.transcribed item) Eq := by
  unfold Tracker.execute
  refine paired_ite (fun _ => ?_) fun _ => ?_
  · exact paired_bind (paired_ensurePaused haccepts) fun _ _ _ => paired_pure rfl
  · refine paired_bind paired_own fun t t' h => ?_
    rw [h.leftCtx, h.rightCtx]
    exact paired_ite (fun _ => paired_pure rfl) fun _ => paired_executeData haccepts

theorem paired_finalize :
    Paired (Replied.Alike (sameFor ctx mine)) (Alike ctx mine)
      (Tracker.finalize one.transcribed) (Tracker.finalize two.transcribed) Eq := by
  unfold Tracker.finalize
  refine paired_bind paired_own fun t t' h => ?_
  rw [h.leftCtx, h.rightCtx, h.upload]
  exact paired_bind (paired_onProgress (Progress.paired_wait haccepts _)) fun _ _ _ =>
    paired_conclude

/-- Each entry goes alike in both sessions. -/
theorem paired_entry (entry : Entry) :
    Paired (Replied.Alike (sameFor ctx mine)) (Alike ctx mine) (entry.run one.transcribed)
      (entry.run two.transcribed) Eq := by
  cases entry with
  | execute item => exact paired_execute haccepts item
  | ensurePaused => exact paired_ensurePaused haccepts
  | check => exact paired_check haccepts
  | finalize => exact paired_finalize haccepts

end Pairs

structure Said where
  entry : Entry
  result : Except Failure entry.Answer

/-- Two runs with the same calls in the same order. Between the calls, time may pass and the
clusters may change, but both trackers are called at the same time. -/
inductive Twins (one : Client κ) (two : Client κ') (s : Session (Transcript κ) Tracker)
    (t : Session (Transcript κ') Tracker) :
    List Said → List Said → Session (Transcript κ) Tracker → Session (Transcript κ') Tracker → Prop
  | start : Twins one two s t [] [] s t
  | call {said said' : List Said} {s' : Session (Transcript κ) Tracker}
      {t' : Session (Transcript κ') Tracker} (h : Twins one two s t said said' s' t')
      (entry : Entry) :
      Twins one two s t (said ++ [⟨entry, (entry.run one.transcribed s').1⟩])
        (said' ++ [⟨entry, (entry.run two.transcribed t').1⟩])
        (entry.run one.transcribed s').2 (entry.run two.transcribed t').2
  | idle {said said' : List Said} {s' s'' : Session (Transcript κ) Tracker}
      {t' t'' : Session (Transcript κ') Tracker} (h : Twins one two s t said said' s' t')
      (own : s''.own = s'.own) (replies : s''.replies = s'.replies) (own' : t''.own = t'.own)
      (replies' : t''.replies = t'.replies) (clock : s''.clock = t''.clock)
      (dice : s''.dice = t''.dice) : Twins one two s t said said' s'' t''

/-- Twins that have had alike answers so far are linked. -/
theorem Twins.linked {ctx : Context} {mine : Kind → Identity → Prop} {one : Client κ}
    {two : Client κ'} (haccepts : ∀ request, one.accepts request = two.accepts request)
    {s s' : Session (Transcript κ) Tracker} {t t' : Session (Transcript κ') Tracker}
    {said said' : List Said} (h : Twins one two s t said said' s' t')
    (hstart : Session.Linked (Alike ctx mine) s t)
    (hconcur : Concur (Replied.Alike (sameFor ctx mine)) s'.replies t'.replies) :
    said = said' ∧ Session.Linked (Alike ctx mine) s' t' := by
  induction h with
  | start => exact ⟨rfl, hstart⟩
  | @call said said' s' t' _ entry ih =>
    obtain ⟨hsaid, hlinked⟩ := ih (hconcur.before ((entry.grows one).moves s' trivial).1
      ((entry.grows two).moves t' trivial).1)
    obtain ⟨hagree, hlater⟩ := paired_entry haccepts entry s' t' hlinked hconcur
    exact ⟨by rw [hsaid, hagree.eq], hlater⟩
  | idle _ hown hreplies hown' hreplies' hclock hdice ih =>
    obtain ⟨hsaid, hlinked⟩ := ih (hreplies ▸ hreplies' ▸ hconcur)
    refine ⟨hsaid, hclock, hdice, ?_, ?_⟩
    · rw [hreplies, hreplies']
      exact hlinked.requests
    · rw [hown, hown']
      exact hlinked.own

def Listed (replies : List Replied) (kind : Kind) (o : Object) : Prop :=
  ∃ ns listing took, ⟨.list kind ns, .ok listing, took⟩ ∈ replies ∧ o ∈ listing

/-- Answers that are the same, up to the objects in a listing that are not the backup's own. -/
def sameOwnFor (ctx : Context) : (request : Request) → request.Answer → request.Answer → Prop
  | .list kind _, left, right => ownIn ctx kind left = ownIn ctx kind right
  | _, left, right => left = right

/-- No identity of a kind belongs to an own object here and to another one there. -/
def Unmixed (ctx : Context) (replies : List Replied) : Prop :=
  ∀ kind o other, Listed replies kind o → Listed replies kind other → isOwn ctx kind o = true →
    other.kind = kind → other.identity = o.identity → isOwn ctx kind other = true

def OwnIdentity (ctx : Context) (replies : List Replied) (kind : Kind) (id : Identity) : Prop :=
  ∃ o, Listed replies kind o ∧ isOwn ctx kind o = true ∧ o.identity = id

/-- In a history without mix-ups own identities are told from foreign ones. -/
theorem Unmixed.separates {ctx : Context} {replies : List Replied} (h : Unmixed ctx replies)
    {kind : Kind} {ns : Option String} {listing : List Object} {took : Nat}
    (hmem : ⟨.list kind ns, .ok listing, took⟩ ∈ replies) :
    Separates ctx (OwnIdentity ctx replies) kind listing := by
  intro o ho hkind
  have hlisted : Listed replies kind o := ⟨ns, listing, took, hmem, ho⟩
  constructor
  · exact fun hown => ⟨o, hlisted, hown, rfl⟩
  · rintro ⟨other, hother, hown, hsame⟩
    exact h kind other o hother hlisted hown hkind hsame.symm

/-- Histories that agree on own objects agree on what the trackers may know. -/
theorem Unmixed.concur {ctx : Context} {left right : List Replied}
    (h : Unmixed ctx (left ++ right))
    (hconcur : Concur (Replied.Alike (sameOwnFor ctx)) left right) :
    Concur (Replied.Alike (sameFor ctx (OwnIdentity ctx (left ++ right)))) left right := by
  intro n one two hone htwo hrequest
  have hleft := List.mem_append_left right (List.mem_of_getElem? hone)
  have hright := List.mem_append_right left (List.mem_of_getElem? htwo)
  cases hconcur n one two hone htwo hrequest with
  | error request e took => exact .error request e took
  | @ok request a b took hsame =>
    refine .ok ?_
    cases request with
    | list kind ns => exact ⟨hsame, h.separates hleft, h.separates hright⟩
    | readPause _ => exact hsame
    | writePause _ _ _ => exact hsame
    | nodePools _ => exact hsame
    | controlPlane _ => exact hsame
    | controlPlanesIn _ => exact hsame

/-- Backups of others cannot interfere. Two trackers of one backup, called for the same at the same
times, on clients whose answers differ at most in the objects of others, say the same to their
callers, get equally far, and ask for the same. -/
theorem others_cannot_interfere {one : Client κ} {two : Client κ'}
    (haccepts : ∀ request, one.accepts request = two.accepts request) {ctx : Context}
    {config : Config} {s s' : Session (Transcript κ) Tracker}
    {t t' : Session (Transcript κ') Tracker} {said said' : List Said}
    (hs : s.own = Tracker.new ctx config) (ht : t.own = Tracker.new ctx config)
    (hclock : s.clock = t.clock) (hdice : s.dice = t.dice) (hreplies : s.replies = [])
    (hreplies' : t.replies = []) (htwins : Twins one two s t said said' s' t')
    (hconcur : Concur (Replied.Alike (sameOwnFor ctx)) s'.replies t'.replies)
    (hunmixed : Unmixed ctx (s'.replies ++ t'.replies)) :
    said = said' ∧
      s'.own.progress.job.completion = t'.own.progress.job.completion ∧
      s'.own.progress.finished = t'.own.progress.finished ∧
      s'.own.paused = t'.own.paused ∧ s'.own.resumed = t'.own.resumed ∧
      s'.replies.map Replied.request = t'.replies.map Replied.request := by
  have hlinked : Session.Linked (Alike (Tracker.new ctx config).ctx
      (OwnIdentity (Tracker.new ctx config).ctx (s'.replies ++ t'.replies))) s t := by
    refine ⟨hclock, hdice, by rw [hreplies, hreplies'], ?_⟩
    rw [hs, ht]
    exact alike_new _ ctx config
  obtain ⟨hsaid, hlater⟩ := htwins.linked haccepts hlinked (Unmixed.concur hunmixed hconcur)
  exact ⟨hsaid, hlater.own.progress.job.completion, hlater.own.progress.finished,
    hlater.own.paused, hlater.own.resumed, hlater.requests⟩

def ownUpload : Object :=
  ⟨.dataUpload, ⟨"nightly-upload-0", some "openshift-adp"⟩, [], none, .completed, none⟩

def foreignUpload : Object :=
  ⟨.dataUpload, ⟨"weekly-upload-0", some "openshift-adp"⟩, [], none, .completed, none⟩

def uploading (uploads : List Object) : Session (Transcript (List Object)) Tracker :=
  ⟨0, fun _ => 0, ⟨uploads, []⟩, Tracker.new sampleContext .standard⟩

/-- A minute after the start other objects are in the cluster. -/
def refilled (objects : List Object) (s : Session (Transcript (List Object)) Tracker) :
    Session (Transcript (List Object)) Tracker :=
  ⟨60000, fun _ => 0, ⟨objects, s.replies⟩, s.own⟩

theorem own_refilled (objects : List Object) (s : Session (Transcript (List Object)) Tracker) :
    (refilled objects s).own = s.own := rfl

theorem replies_refilled (objects : List Object)
    (s : Session (Transcript (List Object)) Tracker) : (refilled objects s).replies = s.replies :=
  rfl

def resumedAmong (uploads later : List Object) : Session (Transcript (List Object)) Tracker :=
  ((Entry.execute samplePod).run holding.transcribed (refilled later
    (Entry.ensurePaused.run holding.transcribed (uploading uploads)).2)).2

def repliesAmong (uploads later : List Object) : List Replied :=
  [⟨.list .snapshotContent none, .ok [], 0⟩,
    ⟨.list .snapshot (some "clusters-prod"), .ok [], 0⟩,
    ⟨.list .dataUpload (some "openshift-adp"), .ok uploads, 0⟩,
    ⟨.readPause sampleCluster, .ok ⟨none, none⟩, 0⟩,
    ⟨.writePause sampleCluster ⟨none, none⟩ "true", .ok (), 0⟩,
    ⟨.nodePools sampleCluster, .ok [], 0⟩,
    ⟨.list .snapshotContent none, .ok [], 0⟩,
    ⟨.list .snapshot (some "clusters-prod"), .ok [], 0⟩,
    ⟨.list .dataUpload (some "openshift-adp"), .ok later, 0⟩,
    ⟨.readPause sampleCluster, .ok ⟨none, none⟩, 0⟩,
    ⟨.writePause sampleCluster ⟨none, none⟩ "false", .ok (), 0⟩,
    ⟨.nodePools sampleCluster, .ok [], 0⟩]

instance (request : Request) : DecidableEq request.Answer :=
  match request with
  | .list _ _ => inferInstanceAs (DecidableEq (List Object))
  | .readPause _ => inferInstanceAs (DecidableEq PauseField)
  | .writePause _ _ _ => inferInstanceAs (DecidableEq Unit)
  | .nodePools _ => inferInstanceAs (DecidableEq (List Managed))
  | .controlPlane _ => inferInstanceAs (DecidableEq (Option Resource.ControlPlane))
  | .controlPlanesIn _ => inferInstanceAs (DecidableEq (List Resource.ControlPlane))

deriving instance DecidableEq for Replied

theorem concur_repliesAmong {ctx : Context} {uploads uploads' later later' : List Object}
    (h : ownIn ctx .dataUpload uploads = ownIn ctx .dataUpload uploads')
    (hlater : ownIn ctx .dataUpload later = ownIn ctx .dataUpload later') :
    Concur (Replied.Alike (sameOwnFor ctx)) (repliesAmong uploads later)
      (repliesAmong uploads' later') := by
  refine .of_forall (.cons (.ok rfl) (.cons (.ok rfl) (.cons (.ok h) ?_)))
  refine .cons (.ok rfl) (.cons (.ok rfl) (.cons (.ok rfl) ?_))
  refine .cons (.ok rfl) (.cons (.ok rfl) (.cons (.ok hlater) ?_))
  exact .cons (.ok rfl) (.cons (.ok rfl) (.cons (.ok rfl) .nil))

theorem mem_of_listed_repliesAmong {uploads later : List Object} {kind : Kind} {o : Object}
    (h : Listed (repliesAmong uploads later) kind o) :
    kind = .dataUpload ∧ (o ∈ uploads ∨ o ∈ later) := by
  obtain ⟨ns, listing, took, hmem, ho⟩ := h
  simp only [repliesAmong, List.mem_cons, List.not_mem_nil, or_false] at hmem
  rcases hmem with h | h | h | h | h | h | h | h | h | h | h | h <;> cases h
  · cases ho
  · cases ho
  · exact ⟨rfl, Or.inl ho⟩
  · cases ho
  · cases ho
  · exact ⟨rfl, Or.inr ho⟩

theorem exists_twins_resumedAmong (uploads later uploads' later' : List Object) :
    ∃ said said', Twins holding holding (uploading uploads) (uploading uploads') said said'
      (resumedAmong uploads later) (resumedAmong uploads' later') ∧ said.length = 2 := by
  unfold resumedAmong
  have hpaused := Twins.call (Twins.start : Twins holding holding (uploading uploads)
    (uploading uploads') [] [] (uploading uploads) (uploading uploads')) .ensurePaused
  have hidle := hpaused.idle (own_refilled later _) (replies_refilled _ _)
    (own_refilled later' _) (replies_refilled _ _) rfl rfl
  exact ⟨_, _, hidle.call (.execute samplePod), rfl⟩

/-- Both pauses and both resumes list no other objects than the two uploads. -/
theorem unmixed_repliesAmong :
    Unmixed sampleContext (repliesAmong [foreignUpload] [ownUpload, foreignUpload] ++
      repliesAmong [] [ownUpload]) := by
  have hlisted : ∀ kind o, Listed (repliesAmong [foreignUpload] [ownUpload, foreignUpload] ++
      repliesAmong [] [ownUpload]) kind o →
        kind = .dataUpload ∧ (o = ownUpload ∨ o = foreignUpload) := by
    rintro kind o ⟨ns, listing, took, hmem, ho⟩
    rcases List.mem_append.mp hmem with h | h
    · obtain ⟨hkind, huploads⟩ := mem_of_listed_repliesAmong ⟨ns, listing, took, h, ho⟩
      simp only [List.mem_cons, List.not_mem_nil, or_false] at huploads
      exact ⟨hkind, huploads.elim Or.inr id⟩
    · obtain ⟨hkind, huploads⟩ := mem_of_listed_repliesAmong ⟨ns, listing, took, h, ho⟩
      simp only [List.mem_cons, List.not_mem_nil, or_false, false_or] at huploads
      exact ⟨hkind, Or.inl huploads⟩
  intro kind o other ho hother hown _ hsame
  obtain ⟨rfl, hupload⟩ := hlisted kind o ho
  obtain ⟨_, hforeign⟩ := hlisted _ other hother
  rcases hforeign with rfl | rfl
  · decide
  · rcases hupload with rfl | rfl
    · exact absurd hsame (by decide)
    · exact hown

theorem replies_resumedAmong_foreign :
    (resumedAmong [foreignUpload] [ownUpload, foreignUpload]).replies =
      repliesAmong [foreignUpload] [ownUpload, foreignUpload] := by
  decide +kernel

theorem replies_resumedAmong : (resumedAmong [] [ownUpload]).replies =
    repliesAmong [] [ownUpload] := by
  decide +kernel

/-- An upload of another backup becomes a leftover here and does not exist there. -/
theorem others_cannot_interfere_foreign_upload :
    (resumedAmong [foreignUpload] [ownUpload, foreignUpload]).own.progress.job.leftovers ≠
      (resumedAmong [] [ownUpload]).own.progress.job.leftovers ∧
    (resumedAmong [] [ownUpload]).own.resumed = true ∧
    ∃ said said', Twins holding holding (uploading [foreignUpload]) (uploading []) said said'
        (resumedAmong [foreignUpload] [ownUpload, foreignUpload]) (resumedAmong [] [ownUpload]) ∧
      said.length = 2 ∧ said = said' ∧
      (resumedAmong [foreignUpload] [ownUpload, foreignUpload]).own.resumed =
        (resumedAmong [] [ownUpload]).own.resumed := by
  obtain ⟨said, said', htwins, hlength⟩ :=
    exists_twins_resumedAmong [foreignUpload] [ownUpload, foreignUpload] [] [ownUpload]
  have hconcur : Concur (Replied.Alike (sameOwnFor sampleContext))
      (resumedAmong [foreignUpload] [ownUpload, foreignUpload]).replies
      (resumedAmong [] [ownUpload]).replies := by
    rw [replies_resumedAmong_foreign, replies_resumedAmong]
    exact concur_repliesAmong (by decide) (by decide)
  have hunmixed := unmixed_repliesAmong
  rw [← replies_resumedAmong_foreign, ← replies_resumedAmong] at hunmixed
  have hnew : ∀ uploads, (uploading uploads).own = Tracker.new sampleContext .standard :=
    fun _ => rfl
  obtain ⟨hsaid, _, _, _, hresumed, _⟩ := others_cannot_interfere (fun _ => rfl)
    (hnew [foreignUpload]) (hnew []) rfl rfl rfl rfl htwins hconcur hunmixed
  exact ⟨by decide +kernel, by decide +kernel, said, said', htwins, hlength, hsaid, hresumed⟩

end BackupWatch.Tracker
