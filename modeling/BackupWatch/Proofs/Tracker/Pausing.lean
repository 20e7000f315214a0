import BackupWatch.Proofs.Pause.Sequence
import BackupWatch.Proofs.Tracker.Final

/-!
How a tracker pauses. A call without the pause mark goes through the whole sequence: leftovers
first, then the hosted cluster, the control plane and the node pools. A call that fails on the way
makes no mark, and no other call does, so that the next item of the control plane starts over.
-/

namespace BackupWatch.Tracker

open Act Cluster Job Pause Watch

variable {κ : Type}

/-- The whole sequence: what a call of a tracker without the pause mark does. -/
def pausing (client : Client κ) (ctx : Context) : Act κ Tracker Unit := do
  onProgress (Progress.seedAll client ctx)
  let cluster ← liftDiscovery (hostedCluster ctx)
  pauseNow client ctx cluster

theorem run_ensurePaused_of_unpaused (client : Client κ) {s : Session κ Tracker}
    (h : s.own.paused = false) :
    Tracker.ensurePaused client s = pausing client s.own.ctx s := by
  unfold Tracker.ensurePaused
  rw [run_bind, run_own]
  simp only [h, Bool.false_eq_true, if_false]
  rfl

theorem run_ensurePaused_of_paused (client : Client κ) {s : Session κ Tracker}
    (h : s.own.paused = true) : Tracker.ensurePaused client s = (.ok (), s) := by
  unfold Tracker.ensurePaused
  rw [run_bind, run_own]
  simp only [h, if_true]
  rfl

theorem hostedCluster_eq_ok {ctx : Context} {cluster : Managed}
    (h : (hostedCluster ctx).mapError DiscoveryFault.toError = .ok cluster) :
    ctx.hostedCluster = some cluster := by
  unfold hostedCluster at h
  cases hcluster : ctx.hostedCluster with
  | none =>
    rw [hcluster] at h
    cases h
  | some found =>
    rw [hcluster] at h
    cases h
    rfl

/-- All that a call that pauses may ask for, and how it then ends. -/
inductive Sequence (ctx : Context) (plane : Identity) :
    List Exchange → Except Failure Unit → Prop
  /-- Leftovers could not be recorded, or the hosted cluster is not known. -/
  | unstarted {lists : List Exchange} {f : Failure} (lists_only : ∀ e ∈ lists, e.request.isList) :
      Sequence ctx plane lists (.error f)
  | started {lists course : List Exchange} {cluster : Managed} {result : Except Failure Unit}
      (lists_only : ∀ e ∈ lists, e.request.isList) (known : ctx.hostedCluster = some cluster)
      (runs : Orchestrator.Course cluster plane course result) :
      Sequence ctx plane (lists ++ course) result

theorem adds_onProgress_seedAll (client : Client κ) (ctx : Context) :
    Adds (onProgress (Progress.seedAll client.recorded ctx))
      (fun _ new => ∀ e ∈ new, e.request.isList) fun _ new => ∀ e ∈ new, e.request.isList := by
  refine adds_within (adds_of_moves fun s _ => ⟨?_, fun _ _ => trivial⟩)
  exact (Progress.leads_seedAll s.own.chain s rfl).1.sends_lists

theorem adds_pauseNow (client : Client κ) {ctx : Context} {plane : Identity} (cluster : Managed)
    (hplane : ctx.controlPlane = some plane) :
    Adds (pauseNow client.recorded ctx cluster)
      (fun _ new => Orchestrator.Course cluster plane new (.ok ()))
      fun f new => Orchestrator.Course cluster plane new (.error f) := by
  unfold pauseNow marked
  rw [hplane]
  refine adds_bind _ (adds_within (Orchestrator.adds_pause client cluster plane)) fun _ => ?_
  refine adds_bind_quiet (adds_own fun _ => rfl) fun t => adds_setOwn _ ?_
  intro course hcourse
  rwa [List.append_nil]

/-- Pausing goes through its sequence: listings, then the course of a pause. -/
theorem adds_pausing (client : Client κ) {ctx : Context} {plane : Identity}
    (hplane : ctx.controlPlane = some plane) :
    Adds (pausing client.recorded ctx) (fun _ new => Sequence ctx plane new (.ok ()))
      fun f new => Sequence ctx plane new (.error f) := by
  unfold pausing
  refine adds_bind _ ((adds_onProgress_seedAll client ctx).imp (fun _ _ h => h)
    fun _ _ h => .unstarted h) fun _ => ?_
  refine adds_bind (fun cluster new => new = [] ∧ ctx.hostedCluster = some cluster)
    (adds_ofExcept (fun cluster hok => ⟨rfl, hostedCluster_eq_ok hok⟩) ?_) fun cluster =>
      (adds_pauseNow client cluster hplane).imp ?_ ?_
  · intro e _ lists hlists
    rw [List.append_nil]
    exact .unstarted hlists
  · rintro ⟨⟩ course hcourse _ ⟨rfl, hcluster⟩ lists hlists
    exact .started hlists hcluster hcourse
  · rintro f course hcourse _ ⟨rfl, hcluster⟩ lists hlists
    exact .started hlists hcluster hcourse

/-- A call that fails makes no mark. -/
theorem ends_pausing (client : Client κ) (ctx : Context) :
    Ends (fun s => s.own.paused = false ∧ s.own.ctx = ctx) (pausing client ctx)
      (fun _ _ => True) fun _ s => s.own.paused = false ∧ s.own.ctx = ctx := by
  unfold pausing
  refine ends_bind _ (keeps_of_run fun s hs => hs) fun _ => ?_
  refine ends_bind (fun _ s => s.own.paused = false ∧ s.own.ctx = ctx)
    (ends_ofExcept (fun _ _ _ h => h) fun _ _ _ h => h) fun cluster s hs => ?_
  rcases hrun : pauseNow client ctx cluster s with ⟨f | _, later⟩
  · have hfail : (pauseNow client ctx cluster s).1 = .error f := by rw [hrun]
    have hown : (pauseNow client ctx cluster s).2.own = _ := own_marked_of_error hfail
    rw [hrun] at hown
    exact .error (by rw [hown]; exact hs)
  · exact .ok trivial

/-- Whatever pausing adds to the history is a sequence that ends as the call does. -/
theorem sequence_pausing (client : Client κ) {ctx : Context} {plane : Identity}
    (hplane : ctx.controlPlane = some plane) (s : Session (Chronicle κ) Tracker) :
    ∃ new, (pausing client.recorded ctx s).2.history = s.history ++ new ∧
      Sequence ctx plane new (pausing client.recorded ctx s).1 := by
  have hadds := adds_pausing client hplane s.history s rfl
  generalize pausing client.recorded ctx s = result at hadds
  cases hadds with
  | ok hlater => exact hlater
  | error hlater => exact hlater

/-- Whatever is written but the hosted cluster, this one has been seen paused before, and the
control plane after it. -/
theorem Sequence.cleared {ctx : Context} {plane : Identity} {new before after : List Exchange}
    {ended : Except Failure Unit} {object : Managed} {observed : PauseField} {value : String}
    {result : Except Error Unit} (h : Sequence ctx plane new ended)
    (hnew : new = before ++ ⟨.writePause object observed value, result⟩ :: after)
    (hother : some object ≠ ctx.hostedCluster) :
    ∃ cluster, ctx.hostedCluster = some cluster ∧ Orchestrator.Cleared cluster plane before := by
  have hlist : ∀ lists : List Exchange, (∀ e ∈ lists, e.request.isList) →
      (⟨.writePause object observed value, result⟩ : Exchange) ∉ lists := fun _ hall => hall _
  cases h with
  | unstarted hlists =>
    refine absurd ?_ (hlist _ hlists)
    rw [hnew]
    exact List.mem_append_right before (List.mem_cons_self ..)
  | @started lists course cluster _ hlists hcluster hcourse =>
    obtain ⟨more, rfl⟩ := exists_append_of_not_mem hnew (hlist _ hlists)
    rw [List.append_assoc] at hnew
    have hcleared := hcourse.cleared (List.append_cancel_left hnew) fun hsame =>
      hother (hsame ▸ hcluster.symm)
    exact ⟨cluster, hcluster, hcleared.append_left lists⟩

/-- A sequence that ends well has paused the cluster and every pool, and has seen the plane follow.
-/
theorem Sequence.complete {ctx : Context} {plane : Identity} {new : List Exchange}
    (h : Sequence ctx plane new (.ok ())) :
    ∃ cluster, ctx.hostedCluster = some cluster ∧ (∃ e ∈ new, Shown cluster e) ∧
      (∃ pools, ⟨.nodePools cluster, .ok pools⟩ ∈ new) ∧
        ∀ pools, ⟨.nodePools cluster, .ok pools⟩ ∈ new →
          ∀ pool ∈ pools, ∃ e ∈ new, Shown pool e := by
  cases h with
  | @started lists course cluster _ hlists hcluster hcourse =>
    obtain ⟨⟨e, he, hshown⟩, ⟨pools, hpools⟩, hall⟩ := hcourse.complete
    refine ⟨cluster, hcluster, ⟨e, List.mem_append_right lists he, hshown⟩,
      ⟨pools, List.mem_append_right lists hpools⟩, fun others hothers pool hpool => ?_⟩
    rcases List.mem_append.mp hothers with hmem | hmem
    · exact (hlists _ hmem).elim
    · obtain ⟨e', he', hshown'⟩ := hall others hmem pool hpool
      exact ⟨e', List.mem_append_right lists he', hshown'⟩

def Entry.pauses : Entry → Bool
  | execute item => item.isControlPlane
  | ensurePaused => true
  | check => false
  | finalize => false

/-- What may come between two calls that pause: other calls of the tracker, and whatever happens
to the clock and the cluster. -/
inductive Aside (client : Client κ) :
    Session (Chronicle κ) Tracker → Session (Chronicle κ) Tracker → Prop
  | call {entry : Entry} (other : entry.pauses = false) (s : Session (Chronicle κ) Tracker) :
      Aside client s (entry.run client.recorded s).2
  | idle {s later : Session (Chronicle κ) Tracker} (own : later.own = s.own) : Aside client s later

/-- Only an entry that pauses changes whether a tracker counts as paused. -/
theorem paused_of_other (client : Client κ) {entry : Entry} (h : entry.pauses = false)
    (s : Session κ Tracker) : (entry.run client s).2.own.paused = s.own.paused := by
  cases entry with
  | execute item =>
    have hresuming := moves_execute_of (R := Resuming)
      (fun hplane => absurd (hplane.symm.trans h) (by decide)) (fun _ => moves_executeData client)
    exact (hresuming s trivial).1.paused
  | ensurePaused => cases h
  | check => exact (moves_check client s trivial).1.paused
  | finalize => exact (moves_finalize client s trivial).1.paused

theorem Aside.same {client : Client κ} {s later : Session (Chronicle κ) Tracker}
    (h : Aside client s later) :
    later.own.paused = s.own.paused ∧ later.own.ctx = s.own.ctx := by
  cases h with
  | call hother =>
    exact ⟨paused_of_other client.recorded hother s,
      (Path.advances (leads_entry client _ s trivial).1).ctx⟩
  | idle hown => rw [hown]; exact ⟨rfl, rfl⟩

/-- Whatever else is called between, the tracker stays as paused as it was. -/
theorem same_of_asides {client : Client κ} {s later : Session (Chronicle κ) Tracker}
    (h : Relation.ReflTransGen (Aside client) s later) :
    later.own.paused = s.own.paused ∧ later.own.ctx = s.own.ctx := by
  induction h with
  | refl => exact ⟨rfl, rfl⟩
  | tail _ haside ih => exact ⟨haside.same.1.trans ih.1, haside.same.2.trans ih.2⟩

theorem run_execute_of_unpaused (client : Client κ) {item : Item}
    (hitem : item.isControlPlane = true) {s : Session κ Tracker} (h : s.own.paused = false) :
    Tracker.execute client item s = ((pausing client s.own.ctx s).1.map fun _ => .paused,
      (pausing client s.own.ctx s).2) := by
  unfold Tracker.execute
  rw [if_pos hitem, ← run_ensurePaused_of_unpaused client h]
  exact run_bind_pure _ _ s

/-- A call of a tracker with a known control plane, whatever the client does, writes to a node pool,
or anything but the hosted cluster, only after that cluster was read with `true` or has accepted it,
and the control plane was then read with `true`. A first call that succeeds has read or written
`true` on the hosted cluster and on each pool that it was given. A call that fails leaves the
tracker unpaused, so that the next item of the control plane goes through the whole sequence again,
whatever else the tracker is asked in between. -/
theorem pause_in_order (client : Client κ) {s : Session (Chronicle κ) Tracker} {plane : Identity}
    (hplane : s.own.ctx.controlPlane = some plane) :
    ∃ new, (Tracker.ensurePaused client.recorded s).2.history = s.history ++ new ∧
      (∀ before after object observed value result,
        new = before ++ ⟨.writePause object observed value, result⟩ :: after →
          some object ≠ s.own.ctx.hostedCluster → ∃ cluster,
            s.own.ctx.hostedCluster = some cluster ∧ Orchestrator.Cleared cluster plane before) ∧
      (s.own.paused = false → (Tracker.ensurePaused client.recorded s).1 = .ok () →
        ∃ cluster, s.own.ctx.hostedCluster = some cluster ∧ (∃ e ∈ new, Shown cluster e) ∧
          (∃ pools, ⟨.nodePools cluster, .ok pools⟩ ∈ new) ∧
            ∀ pools, ⟨.nodePools cluster, .ok pools⟩ ∈ new →
              ∀ pool ∈ pools, ∃ e ∈ new, Shown pool e) ∧
      ∀ f, (Tracker.ensurePaused client.recorded s).1 = .error f →
        (Tracker.ensurePaused client.recorded s).2.own.paused = false ∧
          ∀ next, Relation.ReflTransGen (Aside client)
              (Tracker.ensurePaused client.recorded s).2 next →
            (∀ item : Item, item.isControlPlane = true → Tracker.execute client.recorded item next =
              ((pausing client.recorded s.own.ctx next).1.map fun _ => .paused,
                (pausing client.recorded s.own.ctx next).2)) ∧
            ∃ again, (pausing client.recorded s.own.ctx next).2.history = next.history ++ again ∧
              Sequence s.own.ctx plane again (pausing client.recorded s.own.ctx next).1 := by
  cases hpaused : s.own.paused with
  | true =>
    rw [run_ensurePaused_of_paused client.recorded hpaused]
    refine ⟨[], by simp, ?_, fun h => by simp at h, fun f h => by cases h⟩
    intro before after object observed value result hnew
    simp at hnew
  | false =>
    rw [run_ensurePaused_of_unpaused client.recorded hpaused]
    obtain ⟨new, hnew, hsequence⟩ := sequence_pausing client hplane s
    refine ⟨new, hnew, fun before after object observed value result => hsequence.cleared,
      fun _ hok => Sequence.complete (hok ▸ hsequence), fun f hfail => ?_⟩
    have hlater := (ends_pausing client.recorded s.own.ctx).of_error ⟨hpaused, rfl⟩ hfail
    refine ⟨hlater.1, fun next hbetween => ⟨fun item hitem => ?_, ?_⟩⟩
    · obtain ⟨hsame, hctx⟩ := same_of_asides hbetween
      rw [← hctx.trans hlater.2]
      exact run_execute_of_unpaused client.recorded hitem (hsame.trans hlater.1)
    · exact sequence_pausing client hplane next

/-- A cluster that accepts every write, and whose control plane is only there, and paused, from the
second look on. -/
def following : Client Nat where
  accepts _ := true
  reply request _ looks := match request with
    | .list _ _ => ⟨.ok [], 0, looks⟩
    | .readPause _ => ⟨.ok ⟨none, none⟩, 0, looks⟩
    | .writePause _ _ _ => ⟨.ok (), 0, looks⟩
    | .nodePools cluster => ⟨.ok [⟨.nodePool, cluster.ns, "workers"⟩], 0, looks⟩
    | .controlPlane _ =>
      ⟨.ok (if looks = 0 then none else some ⟨default, ⟨some "true", none, none⟩⟩), 0, looks + 1⟩
    | .controlPlanesIn _ => ⟨.ok [], 0, looks⟩

def samplePlane : Identity := ⟨"prod", some "clusters-prod"⟩

def followingStart : Session (Chronicle Nat) Tracker :=
  ⟨0, fun _ => 0, ⟨0, []⟩, Tracker.new { sampleContext with controlPlane := some samplePlane }
    .standard⟩

/-- The pool is written once the control plane has been seen to follow. -/
theorem pause_in_order_late_plane :
    ∃ before result after, (Tracker.ensurePaused following.recorded followingStart).2.history =
        before ++ ⟨.writePause ⟨.nodePool, "clusters", "workers"⟩ ⟨none, none⟩ "true", result⟩ ::
          after ∧
      Orchestrator.Cleared sampleCluster samplePlane before := by
  have hasked : .writePause ⟨.nodePool, "clusters", "workers"⟩ ⟨none, none⟩ "true" ∈
      (Tracker.ensurePaused following.recorded followingStart).2.history.map
        Exchange.request := by decide +kernel
  obtain ⟨before, result, after, hwrite⟩ := Session.exists_split_history hasked
  have hplane : followingStart.own.ctx.controlPlane = some samplePlane := rfl
  obtain ⟨new, hnew, hcleared, _⟩ := pause_in_order following hplane
  obtain ⟨cluster, hcluster, hbefore⟩ :=
    hcleared before after _ _ _ result (hnew.symm.trans hwrite) (by decide)
  cases hcluster
  exact ⟨before, result, after, hwrite, hbefore⟩

end BackupWatch.Tracker
