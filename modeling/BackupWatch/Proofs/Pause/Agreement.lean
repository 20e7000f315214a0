import BackupWatch.Proofs.Pause.Recovery
import BackupWatch.Proofs.Pause.States
import BackupWatch.Proofs.Server.Patched

/-!
The states that the orchestrator keeps agree with the store. While nobody else changes the managed
objects, an object on record as paused holds `true`, and one on record as resumed holds `false`,
after any calls and however they have ended. A request that is refused leaves both as they were,
and between the patch of an object and its record nothing can fail, since an object that could be
read can be read after the patch.
-/

namespace BackupWatch.Pause

open Act Cluster Server

def IsManaged (o : Json) : Prop :=
  resourceOf o = Served.hostedCluster.name ∨ resourceOf o = Served.nodePool.name

instance : DecidablePred IsManaged := fun _ => inferInstanceAs (Decidable (_ ∨ _))

def managedPart (store : Store) : Store := store.filter fun o => decide (IsManaged o)

/-- The place in the store that a managed object has by its names. -/
def ownPlace (object : Managed) : Key :=
  ⟨(Served.ofManaged object.kind).name, some object.ns, some object.name⟩

def Holds (store : Store) (object : Managed) (value : String) : Prop :=
  ∃ o, store.find? (ownPlace object) = some o ∧ pausedUntil o = .string value

theorem Target.reached_injective {target other : Target} (h : target.reached = other.reached) :
    target = other := by
  cases target <;> cases other <;> simp [reached] at h ⊢

theorem ownPlace_injective {object other : Managed} (h : ownPlace object = ownPlace other) :
    object = other := by
  rcases object with ⟨kind, ns, name⟩
  rcases other with ⟨kind', ns', name'⟩
  cases kind <;> cases kind' <;> simp_all [ownPlace, Served.ofManaged, Served.name]

theorem isManaged_of_place {object : Managed} {o : Json} (h : keyOf o = ownPlace object) :
    IsManaged o := by
  have hresource : resourceOf o = (Served.ofManaged object.kind).name := congrArg Key.resource h
  cases hkind : object.kind with
  | hostedCluster => exact Or.inl (by rw [hresource, hkind]; rfl)
  | nodePool => exact Or.inr (by rw [hresource, hkind]; rfl)

/-- A patch to the pause field leaves a managed object managed. -/
theorem isManaged_setPause {o : Json} {value : String} :
    IsManaged (setPause (some value) o) ↔ IsManaged o := by
  unfold IsManaged
  rw [show resourceOf (setPause (some value) o) = resourceOf o from
    congrArg Key.resource (keyOf_setPause o value)]

theorem find?_managedPart (store : Store) (object : Managed) :
    Store.find? (managedPart store) (ownPlace object) = store.find? (ownPlace object) :=
  Store.find?_filter fun _ ho => decide_eq_true (isManaged_of_place ho)

/-- Others leave the managed objects alone, and these are well-formed. -/
structure Steady (s : Shared) : Prop where
  calm : ∀ n store, managedPart ((s.others n).change store) = managedPart store
  proper : ∀ o ∈ s.objects, IsManaged o → Proper o

/-- The others leave each managed object where and what it is. -/
theorem Steady.find?_change {s : Shared} (h : Steady s) (n : Nat) (object : Managed) :
    ((s.others n).change s.objects).find? (ownPlace object) =
      s.objects.find? (ownPlace object) := by
  rw [← find?_managedPart, h.calm, find?_managedPart]

theorem Steady.proper_change {s : Shared} (h : Steady s) (n : Nat) {o : Json}
    (ho : o ∈ (s.others n).change s.objects) (hmanaged : IsManaged o) : Proper o := by
  have hmem : o ∈ managedPart ((s.others n).change s.objects) :=
    List.mem_filter.mpr ⟨ho, decide_eq_true hmanaged⟩
  rw [h.calm] at hmem
  exact h.proper o (List.mem_filter.mp hmem).1 hmanaged

/-- What the record says of an object is so in the store. -/
def Agrees (s : Session Shared Orchestrator) (object : Managed) : Prop :=
  ∀ target : Target, s.own.stateOf object = target.reached →
    Holds s.cluster.objects object target.value

structure InStep (s : Session Shared Orchestrator) : Prop where
  steady : Steady s.cluster
  agrees : ∀ object, Agrees s object

def Observed (object : Managed) (field : PauseField) (s : Session Shared Orchestrator) : Prop :=
  ∃ o, s.cluster.objects.find? (ownPlace object) = some o ∧
    Api.pauseField object.kind o = .ok field

/-- An object is at the target, which its record need not say yet. -/
structure Attained (target : Target) (object : Managed) (s : Session Shared Orchestrator) :
    Prop where
  steady : Steady s.cluster
  others : ∀ other, other ≠ object → Agrees s other
  holds : Holds s.cluster.objects object target.value

section Requests

variable {s : Session Shared Orchestrator} {object : Managed}

/-- After a request that has changed nothing. -/
theorem InStep.undisturbed (h : InStep s) {request : Request} {d : Deal}
    (hnext : DealtNext s request d) (hsame : d.after = d.before) : InStep (dealt s d) := by
  have hobjects : (dealt s d).cluster.objects = (s.cluster.others 0).change s.cluster.objects :=
    hsame.trans hnext.before
  refine ⟨⟨fun n store => h.steady.calm (n + 1) store, fun o ho hmanaged => ?_⟩, ?_⟩
  · exact h.steady.proper_change 0 (hobjects ▸ ho) hmanaged
  · intro object target hstate
    obtain ⟨o, hfound, hheld⟩ := h.agrees object target hstate
    exact ⟨o, by rw [hobjects, h.steady.find?_change, hfound], hheld⟩

/-- A request that reads keeps the states in step with the store. -/
theorem InStep.read (h : InStep s) {request : Request} {d : Deal}
    (hnext : DealtNext s request d) (hreads : Reads request) : InStep (dealt s d) :=
  h.undisturbed hnext
    (hnext.fair.unchanged_of_read (Deal.not_patches_of_reads hnext.route hreads))

theorem InStep.proper_of_observed (h : InStep s) {field : PauseField}
    (hobserved : Observed object field s) :
    ∃ o spec, s.cluster.objects.find? (ownPlace object) = some o ∧
      Api.pauseField object.kind o = .ok field ∧ o.member? "spec" = some (.object spec) := by
  obtain ⟨o, hfound, hfield⟩ := hobserved
  obtain ⟨spec, hspec⟩ := (h.steady.proper o (Store.mem_of_find? hfound)
    (isManaged_of_place (Store.keyOf_of_find? hfound))).spec
  exact ⟨o, spec, hfound, hfield, hspec⟩

/-- An object that shows the target's value has attained the target. -/
theorem InStep.attained_of_observed (h : InStep s) {target : Target} {field : PauseField}
    (hobserved : Observed object field s) (hvalue : field.value = some target.value) :
    Attained target object s := by
  obtain ⟨o, spec, hfound, hfield, hspec⟩ := h.proper_of_observed hobserved
  exact ⟨h.steady, fun other _ => h.agrees other, o, hfound,
    (pausedUntil_eq_iff hfield hspec _).mpr hvalue⟩

/-- After a patch the object holds the value, and no other is concerned. -/
theorem InStep.attained_of_sets (h : InStep s) {target : Target} {field : PauseField} {d : Deal}
    (hplain : Plain object.ns object.name)
    (hnext : DealtNext s (.writePause object field target.value) d)
    (hsets : d.Sets object field target.value) : Attained target object (dealt s d) := by
  have hplace : placeOf object = ownPlace object := placeOf_of_plain hplain
  obtain ⟨_, _, _, _, hafter⟩ := hsets.found
  rw [hnext.before, hplace] at hafter
  have hobjects : (dealt s d).cluster.objects = _ := hafter
  refine ⟨⟨fun n store => h.steady.calm (n + 1) store, fun o ho hmanaged => ?_⟩, ?_, ?_⟩
  · rw [hobjects] at ho
    obtain ⟨first, hfirst, rfl⟩ := List.mem_map.mp ho
    by_cases hkey : keyOf first = ownPlace object
    · rw [if_pos hkey] at hmanaged ⊢
      exact (h.steady.proper_change 0 hfirst (isManaged_setPause.mp hmanaged)).setPause _
    · rw [if_neg hkey] at hmanaged ⊢
      exact h.steady.proper_change 0 hfirst hmanaged
  · intro other hother target' hstate
    obtain ⟨o, hfound, hheld⟩ := h.agrees other target' hstate
    refine ⟨o, ?_, hheld⟩
    rw [hobjects, Store.find?_update_of_ne (fun o => keyOf_setPause o _)
      (fun heq => hother (ownPlace_injective heq)), h.steady.find?_change, hfound]
  · obtain ⟨o, hfound, hheld⟩ := hsets.holds
    exact ⟨o, hplace ▸ hfound, hheld⟩

/-- The record of an object changes. -/
theorem inStep_record {state : State} (hsteady : Steady s.cluster)
    (hothers : ∀ other, other ≠ object → Agrees s other)
    (hstate : ∀ target : Target, state = target.reached →
      Holds s.cluster.objects object target.value) :
    InStep { s with own := s.own.record object state } := by
  refine ⟨hsteady, fun other target hother => ?_⟩
  by_cases hsame : other = object
  · subst hsame
    exact hstate target ((Orchestrator.stateOf_record_self _ _ _).symm.trans hother)
  · refine hothers other hsame target ?_
    rw [← hother]
    exact (Orchestrator.stateOf_record_of_ne s.own state hsame).symm

end Requests

theorem keeps_ask_of_reads {request : Request} (hreads : Reads request) :
    Keeps InStep (shared.client.ask request : Act Shared Orchestrator request.Answer) := by
  refine ends_ask_shared request (fun _ hs => hs) ?_
  intro s d hs hnext
  have hlater := hs.read hnext hreads
  cases answer request d with
  | ok _ => exact .ok hlater
  | error _ => exact .error hlater

section Object

variable {object : Managed} (hplain : Plain object.ns object.name)
include hplain

/-- What a read tells of an object is what the store holds at its place. -/
theorem ends_readPause_observed :
    Ends InStep (shared.client.ask (.readPause object) : Act Shared Orchestrator PauseField)
      (fun field s => InStep s ∧ Observed object field s) fun _ => InStep := by
  refine ends_ask_shared (.readPause object) (fun _ hs => hs) ?_
  intro s d hs hnext
  have hlater := hs.read hnext trivial
  have hsame := hnext.fair.unchanged_of_read (Deal.not_patches_of_reads hnext.route trivial)
  cases hanswer : answer (.readPause object) d with
  | error e => exact .error hlater
  | ok field =>
    obtain ⟨o, hfound, _, hfield, _⟩ := (hnext.fair.shows hnext.route hanswer).found
    rw [← hsame, placeOf_of_plain hplain] at hfound
    exact .ok ⟨hlater, o, hfound, hfield⟩

/-- A patch that is carried out is answered, since the object could be read. -/
theorem ends_writePause_attained (target : Target) (field : PauseField) :
    Ends (fun s => InStep s ∧ Observed object field s)
      (shared.client.ask (.writePause object field target.value) : Act Shared Orchestrator Unit)
      (fun _ => Attained target object) fun _ => InStep := by
  refine ends_ask_shared (.writePause object field target.value) (fun _ hs => hs.1) ?_
  rintro s d ⟨hs, hobserved⟩ hnext
  cases hresult : d.result with
  | error status =>
    rw [answer_of_refused_patch hresult]
    exact .error (hs.undisturbed hnext (hnext.fair.unchanged hresult))
  | ok _ =>
    have hsets := hnext.fair.sets hnext.route hresult
    obtain ⟨o, spec, hfound, hfield, hspec⟩ := hs.proper_of_observed hobserved
    obtain ⟨o', hfound', _, hshows, _⟩ := hsets.found
    -- The patch meets the object that was read, since nobody else changes it.
    rw [hnext.before, placeOf_of_plain hplain] at hfound'
    cases hfound.symm.trans ((hs.steady.find?_change 0 object).symm.trans hfound')
    obtain ⟨version, hpatched⟩ := pauseField_setPause hfield hspec target.value
    rw [answer_of_patch hshows, hpatched]
    exact .ok (hs.attained_of_sets hplain hnext hsets)

/-- Bringing an object to a target keeps the states in step, at whichever request it stops. -/
theorem keeps_bring (target : Target) :
    Keeps InStep (Orchestrator.bring shared.client target object) := by
  -- An object that is being unpaused is on record at neither target.
  have hunpausing : Keeps InStep (Orchestrator.recordState object .unpausing) := by
    refine fun s hs => .ok (inStep_record hs.steady (fun other _ => hs.agrees other) ?_)
    intro target' h
    cases target' <;> cases h
  refine Orchestrator.ends_bring_of (fun _ _ hs => ⟨hs.steady, hs.agrees⟩)
    (fun _ hs => ⟨hs.steady, hs.agrees⟩) (ends_readPause_observed hplain)
    (fun field s hsame hs => hs.1.attained_of_observed hs.2 hsame)
    (fun field _ => ends_writePause_attained hplain target field) hunpausing ?_
  refine fun s hs => .ok (inStep_record hs.steady hs.others fun target' h => ?_)
  exact Target.reached_injective h ▸ hs.holds

end Object

theorem keeps_bringAll (target : Target) (objects : List Managed)
    (hplain : ∀ object ∈ objects, Plain object.ns object.name) :
    Keeps InStep (Orchestrator.bringAll shared.client target objects) := by
  induction objects with
  | nil => exact ends_pure () fun _ hs => hs
  | cons object rest ih =>
    exact ends_bind (fun _ => InStep) (keeps_bring (hplain object (List.mem_cons_self ..)) target)
      fun _ => ih fun other hother => hplain other (List.mem_cons_of_mem object hother)

/-- The pools listed for a cluster have plain names, since the stored ones are proper. -/
theorem ends_nodePools_plain {cluster : Managed} (hplain : Plain cluster.ns cluster.name) :
    Ends InStep (shared.client.ask (.nodePools cluster) : Act Shared Orchestrator (List Managed))
      (fun pools s => InStep s ∧ ∀ pool ∈ pools, Plain pool.ns pool.name) fun _ => InStep := by
  refine ends_ask_shared (.nodePools cluster) (fun _ hs => hs) ?_
  intro s d hs hnext
  have hlater := hs.read hnext trivial
  cases hanswer : answer (.nodePools cluster) d with
  | error e => exact .error hlater
  | ok pools =>
    refine .ok ⟨hlater, ?_⟩
    rcases hnext.fair.lists hplain hnext.route with ⟨status, hresult⟩ | hresult
    · obtain ⟨rfl, _⟩ := answer_of_refused hresult hanswer
      simp
    · rw [hnext.before] at hresult
      refine plain_of_answer (fun o ho hresource => ?_) hresult hanswer
      exact hs.steady.proper_change 0 ho (Or.inr hresource)

/-- A call keeps the record in step with the store, however it ends. -/
theorem keeps_call {cluster : Managed} (hplain : Plain cluster.ns cluster.name) (target : Target)
    (plane : Option Watch.Identity) :
    Keeps InStep (target.call shared.client cluster plane) := by
  have hpools : Keeps InStep (do
      let pools : List Managed ← shared.client.ask (.nodePools cluster)
      Orchestrator.bringAll shared.client target pools) := by
    refine ends_bind _ (ends_nodePools_plain hplain) fun pools s hs => ?_
    exact keeps_bringAll target pools hs.2 s hs.1
  cases target with
  | pause =>
    refine ends_bind _ (keeps_bring hplain .pause) fun _ => ?_
    refine ends_bind _ (Orchestrator.keeps_awaitPropagation
      (fun _ _ hs => ⟨hs.steady, hs.agrees⟩) (fun _ => keeps_ask_of_reads trivial) plane)
      fun _ => hpools
  | resume => exact ends_bind _ (keeps_bring hplain .resume) fun _ => hpools

/-- What happens from call to call: a call, which may fail anywhere, or that time passes and others
change anything but the managed objects. -/
inductive Turn : Session Shared Orchestrator → Session Shared Orchestrator → Prop
  | call {s : Session Shared Orchestrator} (target : Target) {cluster : Managed}
      (names : Plain cluster.ns cluster.name) (plane : Option Watch.Identity) :
      Turn s (target.call shared.client cluster plane s).2
  | idle {s later : Session Shared Orchestrator} (own : later.own = s.own)
      (objects : managedPart later.cluster.objects = managedPart s.cluster.objects)
      (calm : ∀ n store, managedPart ((later.cluster.others n).change store) = managedPart store) :
      Turn s later

/-- One turn, a call or a change by others, keeps the states in step with the store. -/
theorem InStep.turn {s later : Session Shared Orchestrator} (h : InStep s) (hturn : Turn s later) :
    InStep later := by
  cases hturn with
  | call target names plane => exact (keeps_call names target plane).run h
  | idle hown hobjects hcalm =>
    refine ⟨⟨hcalm, fun o ho hmanaged => ?_⟩, fun object target hstate => ?_⟩
    · have hmem : o ∈ managedPart later.cluster.objects :=
        List.mem_filter.mpr ⟨ho, decide_eq_true hmanaged⟩
      rw [hobjects] at hmem
      exact h.steady.proper o (List.mem_filter.mp hmem).1 hmanaged
    · rw [hown] at hstate
      obtain ⟨o, hfound, hheld⟩ := h.agrees object target hstate
      exact ⟨o, by rw [← find?_managedPart, hobjects, find?_managedPart, hfound], hheld⟩

/-- By induction over the turns the states are in step with the store at every point. -/
theorem inStep_of_turns {start s : Session Shared Orchestrator} (h : InStep start)
    (hturns : Relation.ReflTransGen Turn start s) : InStep s := by
  induction hturns with
  | refl => exact h
  | tail _ hturn ih => exact ih.turn hturn

/-- The states of an orchestrator agree with the store. It starts without any, and from then on
nobody else changes the managed objects of a store in which they are well-formed; calls pause and
resume hosted clusters in any order, and any request may be refused. Whenever no call is under way,
an object with the state of a paused one holds `true` in its pause field, and an object with the
state of a resumed one holds `false`. -/
theorem states_agree_with_store {retry : Retry.Policy} {propagation : Poll.Settings}
    {start s : Session Shared Orchestrator} (hnew : start.own = .new retry propagation)
    (hproper : ∀ o ∈ start.cluster.objects, IsManaged o → Proper o)
    (hcalm : ∀ n store,
      managedPart ((start.cluster.others n).change store) = managedPart store)
    (hturns : Relation.ReflTransGen Turn start s) (object : Managed) :
    (s.own.stateOf object = .paused → Holds s.cluster.objects object "true") ∧
      (s.own.stateOf object = .resumed → Holds s.cluster.objects object "false") := by
  have hstart : InStep start := by
    refine ⟨⟨hcalm, hproper⟩, fun object target hstate => ?_⟩
    rw [hnew] at hstate
    cases target <;> cases hstate
  have hlast := inStep_of_turns hstart hturns
  exact ⟨hlast.agrees object .pause, hlast.agrees object .resume⟩

/-- Others remove the control plane at once. The patch that should resume the last pool is refused,
and so is the next patch of the hosted cluster. -/
def reluctant (n : Nat) : Interference where
  change store := store.erase Scene.sampleScene.plane
  refusal := if n = 12 ∨ n = 14 then some ⟨500, "InternalError", "try again"⟩ else none

def reluctantStart : Session Shared Orchestrator :=
  ⟨0, fun _ => 0, ⟨Scene.sampleScene.initial, reluctant, []⟩,
    .new .standard ⟨.ofSeconds 120, .ofSeconds 2⟩⟩

def turnedTo (target : Target) (s : Session Shared Orchestrator) :
    Session Shared Orchestrator :=
  (target.call shared.client Scene.sampleScene.cluster none s).2

/-- The session after a pause, a resume that is cut short and a pause that is cut short. -/
def reluctantEnd : Session Shared Orchestrator :=
  turnedTo .pause (turnedTo .resume (turnedTo .pause reluctantStart))

def sampleWorkers : Managed := ⟨.nodePool, "clusters", "workers"⟩

theorem calm_reluctant (n : Nat) (store : Store) :
    managedPart ((reluctant n).change store) = managedPart store := by
  change List.filter _ (List.filter _ store) = List.filter _ store
  rw [List.filter_filter]
  refine List.filter_congr fun o _ => ?_
  by_cases hmanaged : IsManaged o
  · have hplane : keyOf o ≠ Scene.sampleScene.plane := by
      intro heq
      have hresource : resourceOf o = Served.controlPlane.name := congrArg Key.resource heq
      rcases hmanaged with h | h <;> exact absurd (h.symm.trans hresource) (by decide)
    simp [hplane]
  · simp [hmanaged]

theorem run_reluctant : reluctantEnd.own.stateOf Scene.sampleScene.cluster = .resumed ∧
    reluctantEnd.own.stateOf sampleWorkers = .unpausing := by
  decide +kernel

/-- What the last pause was refused is not on record, nor is the pool that was not resumed. -/
theorem states_agree_with_store_reluctant :
    reluctantEnd.own.stateOf Scene.sampleScene.cluster = .resumed ∧
      reluctantEnd.own.stateOf sampleWorkers = .unpausing ∧
      Holds reluctantEnd.cluster.objects Scene.sampleScene.cluster "false" := by
  obtain ⟨hresumed, hunpausing⟩ := run_reluctant
  have hturn : ∀ target s, Turn s (turnedTo target s) := fun target _ =>
    .call target Scene.wellFormed_sampleScene.names none
  have hturns : Relation.ReflTransGen Turn reluctantStart reluctantEnd :=
    ((Relation.ReflTransGen.single (hturn .pause _)).tail (hturn .resume _)).tail (hturn .pause _)
  refine ⟨hresumed, hunpausing, ?_⟩
  exact (states_agree_with_store rfl Scene.wellFormed_sampleScene.proper calm_reluctant hturns
    Scene.sampleScene.cluster).2 hresumed

end BackupWatch.Pause
