import BackupWatch.Proofs.Pause.Reach

/-!
What a resume asks for, told from whether it succeeds. Each object is touched until an exchange
shows it at the target, and not any more; the node pools follow the list of them, in its order. A
resume that fails has stopped short of an object or has no list.
-/

namespace BackupWatch.Pause

open Act Cluster Watch Orchestrator

variable {κ σ : Type}

namespace Orchestrator

/-- The exchanges of a resume that succeeds: the hosted cluster is brought to the target, the node
pools are listed, and all of the list are brought to the target. -/
def Resumption (cluster : Managed) (new : List Exchange) : Prop :=
  ∃ first pools rest, Reached .resume cluster first ∧ AllReached .resume pools rest ∧
    new = first ++ ⟨.nodePools cluster, .ok pools⟩ :: rest

/-- The exchanges of a resume that fails. -/
inductive Abortion (cluster : Managed) : List Exchange → Prop
  | unreached {new : List Exchange} (h : Unreached .resume cluster new) : Abortion cluster new
  | unlisted {first : List Exchange} {e : Error} (h : Reached .resume cluster first) :
      Abortion cluster (first ++ [⟨.nodePools cluster, .error e⟩])
  | stopped {first rest : List Exchange} {pools : List Managed}
      (h : Reached .resume cluster first) (hrest : StoppedShort .resume pools rest) :
      Abortion cluster (first ++ ⟨.nodePools cluster, .ok pools⟩ :: rest)

/-- A resume reaches the cluster, lists its pools and reaches these, up to the request that fails.
-/
theorem adds_resume (client : Client κ) (cluster : Managed) :
    Adds (resume client.recorded cluster) (fun _ => Resumption cluster)
      fun _ => Abortion cluster := by
  unfold resume
  refine adds_bind _ ((adds_bring client .resume cluster).imp (fun _ _ h => h)
    fun _ _ h => .unreached h) fun _ => ?_
  refine adds_bind (fun pools new => new = [⟨.nodePools cluster, .ok pools⟩])
    (adds_ask client _ (fun _ => rfl) ?_) fun pools => (adds_bringAll client .resume pools).imp
      ?_ ?_
  · exact fun e first hfirst => .unlisted hfirst
  · rintro ⟨⟩ rest hrest listed rfl first hfirst
    exact ⟨first, pools, rest, hfirst, hrest, rfl⟩
  · rintro f rest hrest listed rfl first hfirst
    exact .stopped hfirst hrest

/-- What comes in front of the first list of node pools determines that list. -/
theorem eq_of_append_nodePools {cluster : Managed} {first first' rest rest' : List Exchange}
    {result result' : Except Error (List Managed)}
    (h : first ++ ⟨.nodePools cluster, result⟩ :: rest =
      first' ++ ⟨.nodePools cluster, result'⟩ :: rest')
    (hfirst : ∀ e ∈ first, About .resume cluster e)
    (hfirst' : ∀ e ∈ first', About .resume cluster e) :
    result = result' ∧ rest = rest' := by
  obtain ⟨more, hmore⟩ :=
    exists_append_of_not_mem h fun hmem => not_about_nodePools (hfirst _ hmem)
  obtain ⟨more', hmore'⟩ :=
    exists_append_of_not_mem h.symm fun hmem => not_about_nodePools (hfirst' _ hmem)
  have hlength := congrArg List.length hmore
  have hlength' := congrArg List.length hmore'
  rw [List.length_append] at hlength hlength'
  obtain rfl : more = [] := List.length_eq_zero_iff.mp (by omega)
  rw [hmore, List.append_nil] at h
  cases List.append_cancel_left h
  exact ⟨rfl, rfl⟩

/-- What a resume has asked for tells whether it has succeeded. -/
theorem Abortion.not_resumption {cluster : Managed} {new : List Exchange}
    (h : Abortion cluster new) : ¬ Resumption cluster new := by
  rintro ⟨first, pools, rest, hfirst, hrest, hnew⟩
  cases h with
  | unreached hshort =>
    have hmem : (⟨.nodePools cluster, .ok pools⟩ : Exchange) ∈ new := by simp [hnew]
    exact not_about_nodePools (hshort.about _ hmem)
  | unlisted hreached =>
    cases (eq_of_append_nodePools hnew hreached.about hfirst.about).1
  | stopped hreached hstopped =>
    obtain ⟨hpools, rfl⟩ := eq_of_append_nodePools hnew hreached.about hfirst.about
    cases hpools
    have hless := hstopped.countP_lt
    rw [hrest.countP] at hless
    exact Nat.lt_irrefl _ hless

theorem Resumption.ne_nil {cluster : Managed} {new : List Exchange} (h : Resumption cluster new) :
    new ≠ [] := by
  obtain ⟨first, pools, rest, _, _, rfl⟩ := h
  simp

/-- Exchanges of a resume, whether it succeeds or not: none of them is a list of watched objects,
and the first one reads the hosted cluster. -/
structure Attempted (cluster : Managed) (new : List Exchange) : Prop where
  unlisting : ∀ e ∈ new, ¬ e.request.isList
  begun : new.head?.map Exchange.request = some (.readPause cluster)

theorem not_isList_of_about {target : Target} {object : Managed} {e : Exchange}
    (h : About target object e) : ¬ e.request.isList := by
  intro hlist
  rcases h with hread | ⟨_, hwrite⟩
  · rw [hread] at hlist
    exact hlist
  · rw [hwrite] at hlist
    exact hlist

theorem attempted_of_reached {cluster : Managed} {first rest : List Exchange}
    {result : Except Error (List Managed)} (h : Reached .resume cluster first)
    (hrest : ∀ e ∈ rest, ∃ object, About .resume object e) :
    Attempted cluster (first ++ ⟨.nodePools cluster, result⟩ :: rest) := by
  refine ⟨fun e he => ?_, ?_⟩
  · rcases List.mem_append.mp he with hmem | hmem
    · exact not_isList_of_about (h.about e hmem)
    · rcases List.mem_cons.mp hmem with rfl | hmem
      · exact id
      · obtain ⟨_, habout⟩ := hrest e hmem
        exact not_isList_of_about habout
  · have hbegun := h.begun
    cases first with
    | nil => cases hbegun
    | cons e more => exact hbegun

/-- A full resumption has attempted to resume the cluster. -/
theorem Resumption.attempted {cluster : Managed} {new : List Exchange}
    (h : Resumption cluster new) : Attempted cluster new := by
  obtain ⟨first, pools, rest, hfirst, hrest, rfl⟩ := h
  exact attempted_of_reached hfirst fun e he => (hrest.about e he).imp fun _ h => h.2

/-- An aborted resumption has attempted to resume the cluster too, if only that. -/
theorem Abortion.attempted {cluster : Managed} {new : List Exchange} (h : Abortion cluster new) :
    Attempted cluster new := by
  cases h with
  | unreached hshort =>
    exact ⟨fun e he => not_isList_of_about (hshort.about e he), hshort.begun⟩
  | unlisted hreached => exact attempted_of_reached hreached (by simp)
  | stopped hreached hstopped =>
    obtain ⟨before, object, after, reached, last, _, hall, hlast, rfl⟩ := hstopped
    refine attempted_of_reached hreached fun e he => ?_
    rcases List.mem_append.mp he with hmem | hmem
    · exact (hall.about e hmem).imp fun _ h => h.2
    · exact ⟨object, hlast.about e hmem⟩

/-- A resume succeeds just if what it adds is a resumption. -/
theorem exists_resume (client : Client κ) (cluster : Managed)
    (s : Session (Chronicle κ) Orchestrator) :
    ∃ new, (resume client.recorded cluster s).2.history = s.history ++ new ∧
      Attempted cluster new ∧
      ((resume client.recorded cluster s).1 = .ok () ↔ Resumption cluster new) := by
  have hend := adds_resume client cluster s.history s rfl
  generalize resume client.recorded cluster s = result at hend
  cases hend with
  | ok h =>
    obtain ⟨new, hnew, hdone⟩ := h
    exact ⟨new, hnew, hdone.attempted, iff_of_true rfl hdone⟩
  | error h =>
    obtain ⟨new, hnew, hfailed⟩ := h
    exact ⟨new, hnew, hfailed.attempted, iff_of_false (by simp) hfailed.not_resumption⟩

end Orchestrator
end BackupWatch.Pause
