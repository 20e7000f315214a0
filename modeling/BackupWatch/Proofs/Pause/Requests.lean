import BackupWatch.Pause.Orchestrator
import BackupWatch.Proofs.Chronicle

/-!
What pausing and resuming ask for, and in what order: only the hosted cluster and its node pools
are written, with the value of the target, and the pools only after they have been listed.
-/

namespace BackupWatch.Pause

open Act Cluster Watch

variable {κ σ : Type}

def Target.asks (target : Target) : Request → Prop
  | .list _ _ => False
  | .readPause _ => True
  | .writePause _ _ value => value = target.value
  | .nodePools _ => True
  | .controlPlane _ => True
  | .controlPlanesIn _ => False

def Target.asksOf (target : Target) (object : Managed) (request : Request) : Prop :=
  request = .readPause object ∨ ∃ observed, request = .writePause object observed target.value

/-- What a target asks of one object it asks of some object. -/
theorem Target.asks_of_asksOf {target : Target} {object : Managed} {request : Request}
    (h : target.asksOf object request) : target.asks request := by
  rcases h with rfl | ⟨observed, rfl⟩
  · exact trivial
  · exact rfl

section Moves

variable {client : Client κ} {asked : Request → Prop}
variable {R : Session κ σ → Session κ σ → Prop} [IsPreorder (Session κ σ) R]

/-- An attempt moves along a relation that the reads and patches of its object permit. -/
theorem moves_attempt (hR : client.Permits asked R) {target : Target} {object : Managed}
    (hasked : ∀ request, target.asksOf object request → asked request) :
    Moves R (attempt client object target.value) := by
  unfold attempt
  refine leads_bind _ (moves_ask hR (hasked _ (Or.inl rfl))) fun observed => ?_
  refine leads_ite (fun _ => leads_pure _ fun _ _ => trivial) fun _ => ?_
  exact leads_bind _ (moves_ask hR (hasked _ (Or.inr ⟨observed, rfl⟩))) fun _ =>
    leads_pure _ fun _ _ => trivial

theorem moves_apply (hR : client.Permits asked R) (policy : Retry.Policy) {target : Target}
    {object : Managed} (hasked : ∀ request, target.asksOf object request → asked request) :
    Moves R (apply client policy object target.value) :=
  Retry.leads_run policy _ hR.pass hR.roll (fun _ _ _ h => h) (moves_attempt hR hasked)

end Moves

namespace Orchestrator

section Moves

variable {client : Client κ} {asked : Request → Prop}
variable {R : Session κ Orchestrator → Session κ Orchestrator → Prop}
variable [IsPreorder (Session κ Orchestrator) R]

omit [IsPreorder (Session κ Orchestrator) R] in
theorem moves_recordState (hown : ∀ s o, R s { s with own := o }) (object : Managed)
    (state : State) : Moves R (recordState (κ := κ) object state) := by
  intro s _
  exact ⟨hown s _, fun _ _ => trivial⟩

theorem moves_bring (hR : client.Permits asked R) (hown : ∀ s o, R s { s with own := o })
    {target : Target} {object : Managed}
    (hasked : ∀ request, target.asksOf object request → asked request) :
    Moves R (bring client target object) := by
  have hreach : Moves R (do
      let _ ← apply client (← Act.own).retry object target.value
      recordState object target.reached) := by
    refine leads_bind (fun _ _ => True) (leads_own fun _ _ => trivial) fun o => ?_
    exact leads_bind _ (moves_apply hR o.retry hasked) fun _ => moves_recordState hown object _
  unfold bring
  refine leads_ite (fun _ => ?_) fun _ => hreach
  exact leads_bind _ (moves_recordState hown object .unpausing) fun _ => hreach

theorem moves_bringAll (hR : client.Permits asked R) (hown : ∀ s o, R s { s with own := o })
    {target : Target} {objects : List Managed}
    (hasked : ∀ object ∈ objects, ∀ request, target.asksOf object request → asked request) :
    Moves R (bringAll client target objects) := by
  induction objects with
  | nil => exact leads_pure () fun _ _ => trivial
  | cons object rest ih =>
    refine leads_bind _ (moves_bring hR hown (hasked object (List.mem_cons_self ..))) fun _ => ?_
    exact ih fun other hother => hasked other (List.mem_cons_of_mem object hother)

/-- Waiting asks for control planes only. -/
theorem moves_awaitPropagation (hR : client.Permits asked R) (plane : Option Identity)
    (hasked : ∀ id, asked (.controlPlane id)) : Moves R (awaitPropagation client plane) := by
  cases plane with
  | none => exact leads_pure () fun _ _ => trivial
  | some id =>
    have hlook : Moves R (propagated client id Target.pause.value) := by
      unfold propagated
      refine leads_bind _ (moves_ask hR (hasked id)) fun found => ?_
      cases found with
      | none => exact leads_pure _ fun _ _ => trivial
      | some _ => exact leads_pure _ fun _ _ => trivial
    unfold awaitPropagation
    refine leads_bind (fun _ _ => True) (leads_own fun _ _ => trivial) fun o => ?_
    refine leads_bind (fun _ _ => True) ?_ fun _ => leads_pure _ fun _ _ => trivial
    exact Poll.leads_run o.propagation _ hR.pass (fun _ _ h => h)
      (hlook.imp (fun _ h => h) fun status _ _ => by split <;> trivial)

/-- Pausing makes only the requests that bring the workload to a pause. -/
theorem moves_pause (hR : client.Permits asked R) (hown : ∀ s o, R s { s with own := o })
    (hasked : ∀ request, Target.pause.asks request → asked request) (cluster : Managed)
    (plane : Option Identity) : Moves R (pause client cluster plane) := by
  have hasksOf : ∀ object request, Target.pause.asksOf object request → asked request :=
    fun _ request h => hasked request (Target.asks_of_asksOf h)
  refine leads_bind _ (moves_bring hR hown (hasksOf cluster)) fun _ => ?_
  refine leads_bind _ (moves_awaitPropagation hR plane fun _ => hasked _ trivial) fun _ => ?_
  refine leads_bind _ (moves_ask hR (hasked _ trivial)) fun pools => ?_
  exact moves_bringAll hR hown fun object _ => hasksOf object

/-- Resuming makes only the requests that bring the workload to a resume. -/
theorem moves_resume (hR : client.Permits asked R) (hown : ∀ s o, R s { s with own := o })
    (hasked : ∀ request, Target.resume.asks request → asked request) (cluster : Managed) :
    Moves R (resume client cluster) := by
  have hasksOf : ∀ object request, Target.resume.asksOf object request → asked request :=
    fun _ request h => hasked request (Target.asks_of_asksOf h)
  refine leads_bind _ (moves_bring hR hown (hasksOf cluster)) fun _ => ?_
  refine leads_bind _ (moves_ask hR (hasked _ trivial)) fun pools => ?_
  exact moves_bringAll hR hown fun object _ => hasksOf object

end Moves

section History

variable (client : Client κ)

def About (target : Target) (object : Managed) (e : Exchange) : Prop :=
  target.asksOf object e.request

theorem sends_bring (target : Target) (object : Managed)
    (s : Session (Chronicle κ) Orchestrator) :
    Session.Sends (About target object) s (bring client.recorded target object s).2 :=
  (moves_bring (Session.permits_sends client fun _ _ h => h) (fun _ _ => .of_history_eq rfl)
    (fun _ h => h) s trivial).1

/-- Every request of a list of objects is about one of them. -/
theorem sends_bringAll (target : Target) (objects : List Managed)
    (s : Session (Chronicle κ) Orchestrator) :
    Session.Sends (fun e => ∃ object ∈ objects, About target object e) s
      (bringAll client.recorded target objects s).2 := by
  have hpermits : client.recorded.Permits (fun request => ∃ o ∈ objects, target.asksOf o request)
      (Session.Sends fun e => ∃ o ∈ objects, About target o e :
        Session (Chronicle κ) Orchestrator → _ → Prop) :=
    Session.permits_sends client fun _ _ h => h
  exact (moves_bringAll hpermits (fun _ _ => .of_history_eq rfl)
    (fun object hobject _ h => ⟨object, hobject, h⟩) s trivial).1

/-- A resume first concerns the hosted cluster alone; it then lists the node pools, and all
that follows concerns a pool of this list. -/
theorem history_resume (cluster : Managed) (s : Session (Chronicle κ) Orchestrator) :
    ∃ first rest, (resume client.recorded cluster s).2.history = s.history ++ (first ++ rest) ∧
      (∀ e ∈ first, About .resume cluster e) ∧
      (rest = [] ∨ ∃ result more, rest = ⟨.nodePools cluster, result⟩ :: more ∧
        ∀ e ∈ more, ∃ pools, result = .ok pools ∧ ∃ object ∈ pools, About .resume object e) := by
  obtain ⟨first, hfirst, habout⟩ := sends_bring client .resume cluster s
  unfold resume
  rw [run_bind]
  rcases hbring : bring client.recorded .resume cluster s with ⟨e | _, reached⟩
  · rw [hbring] at hfirst
    exact ⟨first, [], by simpa using hfirst, habout, Or.inl rfl⟩
  · rw [hbring] at hfirst
    simp only [run_bind, Client.run_ask]
    have hasked := Session.history_after client (.nodePools cluster) reached
    rw [show reached.history = _ from hfirst] at hasked
    rcases hreply :
      (client.recorded.reply (.nodePools cluster) reached.clock reached.cluster).result
      with e | pools
    · refine ⟨first, [⟨.nodePools cluster, .error e⟩], ?_, habout, Or.inr ⟨_, [], rfl, by simp⟩⟩
      rw [hreply, List.append_assoc] at hasked
      exact hasked
    · obtain ⟨more, hmore, hpools⟩ := sends_bringAll client .resume pools
        (client.recorded.after (.nodePools cluster) reached)
      refine ⟨first, ⟨.nodePools cluster, .ok pools⟩ :: more, ?_, habout,
        Or.inr ⟨_, more, rfl, fun e he => ⟨pools, rfl, hpools e he⟩⟩⟩
      rw [hasked, hreply, List.append_assoc, List.append_assoc] at hmore
      exact hmore

/-- What a resume writes is the value of a resume, and it writes it to the hosted cluster or to a
pool that it has been given before. -/
theorem written_resume {client : Client κ} {cluster object : Managed} {observed : PauseField}
    {value : String}
    {result : Except Error Unit} {before after : List Exchange}
    {s : Session (Chronicle κ) Orchestrator}
    (h : (resume client.recorded cluster s).2.history =
      s.history ++ (before ++ ⟨.writePause object observed value, result⟩ :: after)) :
    value = Target.resume.value ∧
      (object = cluster ∨ ∃ pools, ⟨.nodePools cluster, .ok pools⟩ ∈ before ∧ object ∈ pools) := by
  obtain ⟨first, rest, hhistory, hfirst, hrest⟩ := history_resume client cluster s
  have hsplit : before ++ ⟨.writePause object observed value, result⟩ :: after = first ++ rest :=
    List.append_cancel_left (h.symm.trans hhistory)
  have hwrite : ∀ other, About .resume other ⟨.writePause object observed value, result⟩ →
      object = other ∧ value = Target.resume.value := by
    intro other habout
    rcases habout with hread | ⟨_, hwritten⟩
    · cases hread
    · cases hwritten
      exact ⟨rfl, rfl⟩
  rcases List.append_eq_append_iff.mp hsplit with ⟨middle, hmiddle, hlast⟩ | ⟨middle, rfl, hlast⟩
  · cases middle with
    | nil =>
      simp only [List.nil_append] at hlast
      rcases hrest with rfl | ⟨_, more, rfl, _⟩ <;> cases hlast
    | cons e middle =>
      cases hlast
      obtain ⟨hobject, hvalue⟩ := hwrite cluster (hfirst _ (by simp [hmiddle]))
      exact ⟨hvalue, Or.inl hobject⟩
  · rcases hrest with rfl | ⟨listed, more, rfl, hmore⟩
    · simp at hlast
    · cases middle with
      | nil => cases hlast
      | cons e middle =>
        cases hlast
        have hmem : ⟨.writePause object observed value, result⟩ ∈
            middle ++ ⟨.writePause object observed value, result⟩ :: after :=
          List.mem_append_right middle (List.mem_cons_self ..)
        obtain ⟨pools, rfl, other, hother, habout⟩ := hmore _ hmem
        obtain ⟨rfl, hvalue⟩ := hwrite other habout
        exact ⟨hvalue, Or.inr ⟨pools, by simp, hother⟩⟩

end History
end Orchestrator
end BackupWatch.Pause
