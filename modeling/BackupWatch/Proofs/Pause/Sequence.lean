import BackupWatch.Proofs.Pause.Reach

/-!
The course of a pause. The hosted cluster comes first; when it is known to be paused, the control
plane is looked at until it has followed; only then are the node pools listed, and each is paused
in turn. A failure ends the course wherever it happens.
-/

namespace BackupWatch.Pause

open Act Cluster Watch

variable {κ σ : Type}

/-- An exchange after which an object is known to be paused: it was read so, or was written so. -/
def Shown (object : Managed) (e : Exchange) : Prop :=
  (∃ field, e = ⟨.readPause object, .ok field⟩ ∧ field.value = some "true") ∨
    ∃ observed, e = ⟨.writePause object observed "true", .ok ()⟩

/-- A look at the control plane that found it paused. -/
def Followed (plane : Identity) (e : Exchange) : Prop :=
  ∃ hcp : Resource.ControlPlane, e = ⟨.controlPlane plane, .ok (some hcp)⟩ ∧
    hcp.spec.pausedUntil = some "true"

/-- The exchange that shows an object at the target is an answer that reads or writes `true`. -/
theorem shown_of_shownBy {object : Managed} {e : Exchange}
    (habout : Orchestrator.About .pause object e) (h : Target.pause.shownBy e = true) :
    Shown object e := by
  obtain ⟨request, result⟩ := e
  obtain rfl | ⟨observed, rfl⟩ := habout
  · cases result with
    | error e => cases h
    | ok field => exact Or.inl ⟨field, rfl, beq_iff_eq.mp h⟩
  · cases result with
    | error e => cases h
    | ok _ => exact Or.inr ⟨observed, rfl⟩

theorem Reached.exists_shown {object : Managed} {new : List Exchange}
    (h : Reached .pause object new) : ∃ e ∈ new, Shown object e := by
  obtain ⟨first, last, rfl, _, hlast⟩ := h.shown
  have hmem : last ∈ first ++ [last] := List.mem_append_right first (List.mem_singleton.mpr rfl)
  exact ⟨last, hmem, shown_of_shownBy (h.about last hmem) hlast⟩

namespace Orchestrator

/-- Each object that is reached has been shown paused by some exchange. -/
theorem AllReached.exists_shown {objects : List Managed} {new : List Exchange}
    (h : AllReached .pause objects new) : ∀ object ∈ objects, ∃ e ∈ new, Shown object e := by
  obtain ⟨parts, hparts, rfl⟩ := h
  induction hparts with
  | nil => simp
  | cons hfirst _ ih =>
    intro other hother
    rw [List.flatten_cons]
    rcases List.mem_cons.mp hother with rfl | hmem
    · obtain ⟨e, he, hshown⟩ := hfirst.exists_shown
      exact ⟨e, List.mem_append_left _ he, hshown⟩
    · obtain ⟨e, he, hshown⟩ := ih other hmem
      exact ⟨e, List.mem_append_right _ he, hshown⟩

def Looks (plane : Identity) (new : List Exchange) : Prop :=
  ∀ e ∈ new, e.request = .controlPlane plane

theorem Looks.concat {plane : Identity} {first : List Exchange} (h : Looks plane first)
    {result : Except Error (Option Resource.ControlPlane)} :
    Looks plane (first ++ [⟨.controlPlane plane, result⟩]) := by
  intro e he
  rcases List.mem_append.mp he with hmem | hmem
  · exact h e hmem
  · rw [List.mem_singleton.mp hmem]

/-- A look that ends the wait has seen the control plane follow, and others have not. -/
theorem adds_propagated (client : Client κ) (plane : Identity) :
    Adds (propagated client.recorded plane Target.pause.value)
      (fun status second => ∀ first, Looks plane first →
        if status.done then Looks plane (first ++ second) ∧ ∃ e ∈ first ++ second, Followed plane e
        else Looks plane (first ++ second))
      fun _ second => ∀ first, Looks plane first → Looks plane (first ++ second) := by
  unfold propagated
  refine adds_bind (fun found new => new = [⟨.controlPlane plane, .ok found⟩])
    (adds_ask client _ (fun _ => rfl) fun _ _ hfirst => hfirst.concat) fun found => ?_
  cases found with
  | none =>
    refine adds_pure _ ?_
    rintro look rfl first hfirst
    exact hfirst.concat
  | some hcp =>
    refine adds_pure _ ?_
    rintro look rfl first hfirst
    rw [List.append_nil]
    split
    · next hdone =>
      have hpaused : hcp.spec.pausedUntil = some Target.pause.value := by simpa using hdone
      exact ⟨hfirst.concat, _, List.mem_append_right first (List.mem_singleton.mpr rfl), hcp, rfl,
        hpaused⟩
    · exact hfirst.concat

/-- A wait that ends well ends with a look at a plane that has followed. -/
theorem adds_awaitPropagation (client : Client κ) (plane : Identity) :
    Adds (awaitPropagation client.recorded (some plane))
      (fun _ new => Looks plane new ∧ ∃ e ∈ new, Followed plane e) fun _ => Looks plane := by
  unfold awaitPropagation
  refine adds_bind_quiet (adds_own fun _ => rfl) fun o => ?_
  have hpoll : Adds (Poll.run o.propagation (awaited plane Target.pause.value)
      (propagated client.recorded plane Target.pause.value))
      (fun _ new => Looks plane new ∧ ∃ e ∈ new, Followed plane e) (fun _ => Looks plane) :=
    Poll.adds_run o.propagation _ (by simp [Looks]) (adds_propagated client plane) fun _ _ h => h
  refine adds_bind _ hpoll fun _ => adds_pure _ fun first hfirst => ?_
  rwa [List.append_nil]

/-- All that a pause can add, and how it then ends. -/
inductive Course (cluster : Managed) (plane : Identity) :
    List Exchange → Except Failure Unit → Prop
  /-- The hosted cluster could not be paused. -/
  | unpaused {first : List Exchange} {f : Failure}
      (first_unreached : Unreached .pause cluster first) : Course cluster plane first (.error f)
  /-- The control plane has not followed, or could not be looked at. -/
  | unfollowed {first looks : List Exchange} {f : Failure}
      (first_reached : Reached .pause cluster first) (looks_only : Looks plane looks) :
      Course cluster plane (first ++ looks) (.error f)
  /-- The node pools could not be listed. -/
  | unlisted {first looks : List Exchange} {e : Error} {f : Failure}
      (first_reached : Reached .pause cluster first) (looks_only : Looks plane looks)
      (followed : ∃ e ∈ looks, Followed plane e) :
      Course cluster plane (first ++ looks ++ [⟨.nodePools cluster, .error e⟩]) (.error f)
  /-- The node pools were paused in turn, up to a failure. -/
  | stopped {first looks rest : List Exchange} {pools : List Managed} {f : Failure}
      (first_reached : Reached .pause cluster first) (looks_only : Looks plane looks)
      (followed : ∃ e ∈ looks, Followed plane e) (rest_stopped : StoppedShort .pause pools rest) :
      Course cluster plane (first ++ looks ++ ⟨.nodePools cluster, .ok pools⟩ :: rest) (.error f)
  /-- The node pools were paused in turn, up to the last. -/
  | ended {first looks rest : List Exchange} {pools : List Managed}
      (first_reached : Reached .pause cluster first) (looks_only : Looks plane looks)
      (followed : ∃ e ∈ looks, Followed plane e) (rest_reached : AllReached .pause pools rest) :
      Course cluster plane (first ++ looks ++ ⟨.nodePools cluster, .ok pools⟩ :: rest) (.ok ())

/-- A pause takes its course: the cluster, the plane, then the pools. -/
theorem adds_pause (client : Client κ) (cluster : Managed) (plane : Identity) :
    Adds (pause client.recorded cluster (some plane))
      (fun _ new => Course cluster plane new (.ok ()))
      fun f new => Course cluster plane new (.error f) := by
  unfold pause
  refine adds_bind _ ((adds_bring client .pause cluster).imp (fun _ _ h => h)
    fun _ _ h => .unpaused h) fun _ => ?_
  refine adds_bind _ ((adds_awaitPropagation client plane).imp (fun _ _ h => h)
    fun _ looks hlooks first hfirst => .unfollowed hfirst hlooks) fun _ => ?_
  refine adds_bind (fun pools new => new = [⟨.nodePools cluster, .ok pools⟩])
    (adds_ask client _ (fun _ => rfl) ?_) fun pools =>
      (adds_bringAll client .pause pools).imp ?_ ?_
  · rintro e looks ⟨hlooks, hfollowed⟩ first hfirst
    rw [← List.append_assoc]
    exact .unlisted hfirst hlooks hfollowed
  · rintro ⟨⟩ rest hrest listed rfl looks ⟨hlooks, hfollowed⟩ first hfirst
    rw [← List.append_assoc]
    exact .ended hfirst hlooks hfollowed hrest
  · rintro f rest hrest listed rfl looks ⟨hlooks, hfollowed⟩ first hfirst
    rw [← List.append_assoc]
    exact .stopped hfirst hlooks hfollowed hrest

/-- Exchanges in which the hosted cluster is seen paused, and after that the control plane. -/
def Cleared (cluster : Managed) (plane : Identity) (before : List Exchange) : Prop :=
  ∃ earlier shown middle look last, Shown cluster shown ∧ Followed plane look ∧
    before = earlier ++ shown :: (middle ++ look :: last)

theorem Cleared.of_parts {cluster : Managed} {plane : Identity} {first looks : List Exchange}
    (hshown : ∃ e ∈ first, Shown cluster e) (hlook : ∃ e ∈ looks, Followed plane e) :
    Cleared cluster plane (first ++ looks) := by
  obtain ⟨shown, hmem, hshown⟩ := hshown
  obtain ⟨look, hmem', hlook⟩ := hlook
  obtain ⟨earlier, middle, rfl⟩ := List.append_of_mem hmem
  obtain ⟨more, last, rfl⟩ := List.append_of_mem hmem'
  refine ⟨earlier, shown, middle ++ more, look, last, hshown, hlook, ?_⟩
  simp only [List.append_assoc, List.cons_append]

/-- Once the cluster is shown and the plane has followed, the pools stay cleared. -/
theorem Cleared.append_right {cluster : Managed} {plane : Identity} {before : List Exchange}
    (h : Cleared cluster plane before) (more : List Exchange) :
    Cleared cluster plane (before ++ more) := by
  obtain ⟨earlier, shown, middle, look, last, hshown, hlook, rfl⟩ := h
  refine ⟨earlier, shown, middle, look, last ++ more, hshown, hlook, ?_⟩
  simp only [List.append_assoc, List.cons_append]

theorem Cleared.append_left {cluster : Managed} {plane : Identity} {before : List Exchange}
    (h : Cleared cluster plane before) (lists : List Exchange) :
    Cleared cluster plane (lists ++ before) := by
  obtain ⟨earlier, shown, middle, look, last, hshown, hlook, rfl⟩ := h
  exact ⟨lists ++ earlier, shown, middle, look, last, hshown, hlook, by rw [List.append_assoc]⟩

/-- Exchanges of a pause up to the list of the node pools. -/
def Early (cluster : Managed) (plane : Identity) (e : Exchange) : Prop :=
  About .pause cluster e ∨ e.request = .controlPlane plane

/-- Before the pools are listed, only the cluster and the plane are spoken of. -/
theorem early_of_mem {cluster : Managed} {plane : Identity} {first looks : List Exchange}
    (hfirst : Touching .pause cluster first) (hlooks : Looks plane looks) :
    ∀ e ∈ first ++ looks, Early cluster plane e := by
  intro e he
  rcases List.mem_append.mp he with hmem | hmem
  · exact Or.inl (hfirst.about e hmem)
  · exact Or.inr (hlooks e hmem)

theorem Early.object_eq {cluster object : Managed} {plane : Identity} {observed : PauseField}
    {value : String} {result : Except Error Unit}
    (h : Early cluster plane ⟨.writePause object observed value, result⟩) : object = cluster := by
  rcases h with (hread | ⟨_, hwrite⟩) | hlook
  · cases hread
  · cases hwrite
    rfl
  · cases hlook

theorem not_early_nodePools {cluster other : Managed} {plane : Identity}
    {result : Except Error (List Managed)} :
    ¬ Early cluster plane ⟨.nodePools other, result⟩ := by
  rintro (habout | hlook)
  · exact not_about_nodePools habout
  · cases hlook

/-- Nothing but the hosted cluster is written before the control plane has followed. -/
theorem Course.cleared {cluster object : Managed} {plane : Identity}
    {new before after : List Exchange} {ended : Except Failure Unit} {observed : PauseField}
    {value : String} {result : Except Error Unit} (h : Course cluster plane new ended)
    (hnew : new = before ++ ⟨.writePause object observed value, result⟩ :: after)
    (hother : object ≠ cluster) : Cleared cluster plane before := by
  have hearly : ∀ early : List Exchange, (∀ e ∈ early, Early cluster plane e) →
      (⟨.writePause object observed value, result⟩ : Exchange) ∉ early :=
    fun early hall hmem => hother (hall _ hmem).object_eq
  have hmem : (⟨.writePause object observed value, result⟩ : Exchange) ∈ new := by
    rw [hnew]
    exact List.mem_append_right before (List.mem_cons_self ..)
  cases h with
  | unpaused hfirst =>
    exact absurd hmem (hearly _ fun e he => Or.inl (hfirst.about e he))
  | unfollowed hfirst hlooks =>
    exact absurd hmem (hearly _ (early_of_mem hfirst.toTouching hlooks))
  | unlisted hfirst hlooks _ =>
    rcases List.mem_append.mp hmem with hmem | hmem
    · exact absurd hmem (hearly _ (early_of_mem hfirst.toTouching hlooks))
    · cases List.mem_singleton.mp hmem
  | stopped hfirst hlooks hfollowed _ | ended hfirst hlooks hfollowed _ =>
    obtain ⟨more, rfl⟩ :=
      exists_append_of_not_mem hnew (hearly _ (early_of_mem hfirst.toTouching hlooks))
    exact (Cleared.of_parts hfirst.exists_shown hfollowed).append_right more

/-- A pause that succeeds has seen the hosted cluster paused, and all pools that it was given. -/
theorem Course.complete {cluster : Managed} {plane : Identity} {new : List Exchange}
    (h : Course cluster plane new (.ok ())) :
    (∃ e ∈ new, Shown cluster e) ∧ (∃ pools, ⟨.nodePools cluster, .ok pools⟩ ∈ new) ∧
      ∀ pools, ⟨.nodePools cluster, .ok pools⟩ ∈ new →
        ∀ pool ∈ pools, ∃ e ∈ new, Shown pool e := by
  cases h with
  | @ended first looks rest pools hfirst hlooks _ hrest =>
    obtain ⟨e, he, hshown⟩ := hfirst.exists_shown
    refine ⟨⟨e, by simp [he], hshown⟩, ⟨pools, by simp⟩, fun others hothers pool hpool => ?_⟩
    -- The node pools are listed only once.
    have hsame : others = pools := by
      rcases List.mem_append.mp hothers with hmem | hmem
      · exact absurd (early_of_mem hfirst.toTouching hlooks _ hmem) not_early_nodePools
      · rcases List.mem_cons.mp hmem with heq | hmem
        · cases heq
          rfl
        · obtain ⟨_, _, hother⟩ := hrest.about _ hmem
          exact absurd hother not_about_nodePools
    obtain ⟨e', he', hshown'⟩ := hrest.exists_shown pool (hsame ▸ hpool)
    exact ⟨e', by simp [he'], hshown'⟩

end Orchestrator
end BackupWatch.Pause
