import BackupWatch.Proofs.Pause.Requests

/-!
The states that the orchestrator keeps of its objects. Bringing an object to a target touches
the state of that object only, and leaves it at the target if it succeeds.
-/

namespace BackupWatch.Pause.Orchestrator

open Act Cluster Watch

theorem lookup_filter_ne {object other : Managed} (states : List (Managed × State))
    (h : other ≠ object) :
    List.lookup other (states.filter fun entry => entry.1 != object) =
      List.lookup other states := by
  induction states with
  | nil => rfl
  | cons entry rest ih =>
    rcases entry with ⟨first, state⟩
    by_cases hfirst : first = object
    · subst hfirst
      have hskip : (other == first) = false := beq_eq_false_iff_ne.mpr h
      simp [List.lookup_cons, hskip, ih]
    · by_cases hother : other = first
      · subst hother
        simp [hfirst]
      · have hskip : (other == first) = false := beq_eq_false_iff_ne.mpr hother
        simp [hfirst, List.lookup_cons, hskip, ih]

/-- Recording the state of one object does not change what is recorded of others. -/
theorem stateOf_record_of_ne (o : Orchestrator) {object other : Managed} (state : State)
    (h : other ≠ object) : (o.record object state).stateOf other = o.stateOf other := by
  have hskip : (other == object) = false := beq_eq_false_iff_ne.mpr h
  simp [stateOf, record, List.lookup_cons, hskip, lookup_filter_ne o.states h]

variable {κ : Type} (client : Client κ)

def Touches (objects : List Managed) (s later : Session κ Orchestrator) : Prop :=
  ∀ other, other ∉ objects → later.own.stateOf other = s.own.stateOf other

instance (objects : List Managed) : IsPreorder (Session κ Orchestrator) (Touches objects) where
  refl _ := fun _ _ => rfl
  trans _ _ _ hab hbc := fun other h => (hbc other h).trans (hab other h)

theorem touches_of_own {objects : List Managed} {s later : Session κ Orchestrator}
    (h : Session.SameOwn s later) : Touches objects s later := by
  intro other _
  rw [show later.own = s.own from h]

theorem leads_recordState (object : Managed) (state : State)
    {pre : Session κ Orchestrator → Prop} :
    Leads (Touches [object]) pre (recordState object state)
      fun _ s => s.own.stateOf object = state := by
  intro s _
  refine ⟨fun other hother => ?_, fun _ _ => stateOf_record_self s.own object state⟩
  exact stateOf_record_of_ne s.own state (fun h => hother (List.mem_singleton.mpr h))

/-- Patching records nothing. -/
theorem leads_apply (policy : Retry.Policy) (object : Managed) (target : Target) :
    Leads (Touches [object]) (fun _ => True) (apply client policy object target.value)
      fun _ _ => True := by
  have hmoves : Moves Session.SameOwn
      (apply client policy object target.value : Act κ Orchestrator Bool) :=
    moves_apply (Session.permits_sameOwn client fun _ => True) policy fun _ _ => trivial
  exact hmoves.mono fun _ _ h => touches_of_own h

/-- What has been brought to a target successfully is recorded there. -/
theorem leads_bring (target : Target) (object : Managed) :
    Leads (Touches [object]) (fun _ => True) (bring client target object)
      fun _ s => s.own.stateOf object = target.reached := by
  have hreach : Leads (Touches [object]) (fun _ => True) (do
      let _ ← apply client (← Act.own).retry object target.value
      recordState object target.reached)
      fun _ s => s.own.stateOf object = target.reached := by
    refine leads_bind (fun _ _ => True) (leads_own fun _ _ => trivial) fun o => ?_
    exact leads_bind _ (leads_apply client o.retry object target) fun _ =>
      leads_recordState object _
  unfold bring
  refine leads_ite (fun _ => ?_) fun _ => hreach
  exact leads_bind (fun _ _ => True) ((leads_recordState object .unpausing).imp
    (fun _ h => h) fun _ _ _ => trivial) fun _ => hreach

/-- Objects that have been brought to a target stay there while others are brought to it. -/
theorem leads_bringAll (target : Target) (already objects : List Managed) :
    Leads (Touches objects) (fun s => ∀ object ∈ already, s.own.stateOf object = target.reached)
      (bringAll client target objects)
      fun _ s => ∀ object ∈ already ++ objects, s.own.stateOf object = target.reached := by
  induction objects generalizing already with
  | nil => exact leads_pure () fun s hs => by simpa using hs
  | cons first rest ih =>
    unfold bringAll
    refine leads_bind (fun _ s => ∀ object ∈ already ++ [first],
      s.own.stateOf object = target.reached) ?_ fun _ => ?_
    · intro s hs
      obtain ⟨htouches, hreached⟩ := leads_bring client target first s trivial
      refine ⟨fun other hother => htouches other (by simp_all), ?_⟩
      intro () hok object hobject
      by_cases hfirst : object = first
      · exact hfirst ▸ hreached () hok
      · have halready : object ∈ already := by simpa [hfirst] using hobject
        rw [htouches object (by simpa using hfirst)]
        exact hs object halready
    · have hnext := (ih (already ++ [first])).mono (S := Touches (first :: rest))
        fun s later h other hother => h other fun hmem => hother (List.mem_cons_of_mem first hmem)
      rwa [List.append_assoc] at hnext

/-- A resume that succeeds leaves the hosted cluster resumed, even if it is listed as a pool. -/
theorem stateOf_resume {cluster : Managed} {s : Session κ Orchestrator}
    (h : (resume client cluster s).1 = .ok ()) :
    (resume client cluster s).2.own.stateOf cluster = .resumed := by
  have hreached := (leads_bring client .resume cluster s trivial).2
  unfold resume at h ⊢
  rw [run_bind] at h ⊢
  rcases hbring : bring client .resume cluster s with ⟨e | _, reached⟩
  · rw [hbring] at h
    cases h
  · rw [hbring] at h hreached
    simp only [run_bind, Client.run_ask] at h ⊢
    rcases hreply : (client.reply (.nodePools cluster) reached.clock reached.cluster).result
      with e | pools
    · rw [hreply] at h
      cases h
    · rw [hreply] at h
      have hpools := (leads_bringAll client .resume [cluster] pools
        (client.after (.nodePools cluster) reached) (by simpa using hreached () rfl)).2 () h
      exact hpools cluster (by simp)

end BackupWatch.Pause.Orchestrator
