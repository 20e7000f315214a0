import BackupWatch.Pause.Orchestrator
import BackupWatch.Proofs.Server.Pools
import Mathlib.Data.List.Nodup

/-!
Calls that bring a workload to a target, while others change nothing but the control plane. What
they have done at any point is told by the patches that were carried out: apart from these, and from
the control plane, the store is as the first call met it. Only what is due is patched, and what has
been patched is not due any more.
-/

namespace BackupWatch.Pause

open Act Cluster Server

variable {σ : Type}

/-- A call that brings a workload to a target. Only a pause waits for a control plane. -/
def Target.call {κ : Type} (target : Target) (client : Client κ) (cluster : Managed)
    (plane : Option Watch.Identity) : Act κ Orchestrator Unit :=
  match target with
  | .pause => Orchestrator.pause client cluster plane
  | .resume => Orchestrator.resume client cluster

namespace Orchestrator

section Rules

variable {κ : Type} {client : Client κ} {target : Target} {object : Managed}
variable {holds attained reached : Session κ Orchestrator → Prop}
variable {seen : PauseField → Session κ Orchestrator → Prop}

/-- An object is brought to a target by a read that shows it there or a write that sets it there,
and then the target is recorded. Time may pass between attempts. -/
theorem ends_bring_of (hpass : ∀ s n, holds s → holds (s.pass n))
    (hroll : ∀ s, holds s → holds s.rolled)
    (hread : Ends holds (client.ask (.readPause object)) seen fun _ => holds)
    (hheld : ∀ field s, field.value = some target.value → seen field s → attained s)
    (hwrite : ∀ field : PauseField, field.value ≠ some target.value →
      Ends (seen field) (client.ask (.writePause object field target.value))
        (fun _ => attained) fun _ => holds)
    (hunpausing : Keeps holds (recordState object .unpausing))
    (hreached : Ends attained (recordState object target.reached) (fun _ => reached)
      fun _ => holds) :
    Ends holds (bring client target object) (fun _ => reached) fun _ => holds := by
  have hattempt : Ends holds (attempt client object target.value) (fun _ => attained)
      fun _ => holds := by
    unfold attempt
    refine ends_bind _ hread fun field => ?_
    refine ends_ite (fun hsame => ends_pure _ fun s hs => hheld field s hsame hs) fun hother => ?_
    exact ends_bind _ (hwrite field hother) fun _ => ends_pure _ fun _ hs => hs
  have happly : ∀ policy, Ends holds (apply client policy object target.value)
      (fun _ => attained) fun _ => holds :=
    fun policy => Retry.ends_run policy _ hpass hroll (fun _ _ hs => hs) (fun _ hs => hs) hattempt
      (fun _ _ hs _ => hs) fun _ _ hs => hs
  have hrest : Ends holds (do
      let _ ← apply client (← Act.own).retry object target.value
      recordState object target.reached) (fun _ => reached) fun _ => holds := by
    refine ends_bind (fun _ => holds) (ends_own fun _ hs => hs) fun o => ?_
    exact ends_bind _ (happly o.retry) fun _ => hreached
  unfold bring
  exact ends_ite (fun _ => ends_bind _ hunpausing fun _ => hrest) fun _ => hrest

/-- Waiting for the control plane keeps what its looks and the passing of time keep. -/
theorem keeps_awaitPropagation (hpass : ∀ s n, holds s → holds (s.pass n))
    (hask : ∀ id, Keeps holds (client.ask (.controlPlane id))) (plane : Option Watch.Identity) :
    Keeps holds (awaitPropagation client plane) := by
  cases plane with
  | none => exact ends_pure () fun _ hs => hs
  | some id =>
    have hlook : Ends holds (propagated client id Target.pause.value)
        (fun status s => if status.done then holds s else holds s) fun _ => holds := by
      unfold propagated
      refine ends_bind _ (hask id) fun found => ?_
      cases found <;> exact ends_pure _ fun s hs => by rwa [ite_self]
    unfold awaitPropagation
    refine ends_bind (fun _ => holds) (ends_own fun _ hs => hs) fun o => ?_
    refine ends_bind (fun _ => holds) ?_ fun _ => ends_pure _ fun _ hs => hs
    exact Poll.ends_run o.propagation _ hpass (fun _ _ hs => hs) hlook

end Rules

end Orchestrator

/-- What a workload is brought to, and the store that the first call meets. -/
structure Scene where
  target : Target
  cluster : Managed
  /-- The control plane, which others may change at any time. -/
  plane : Key
  initial : Store

/-- The places that were patched, in the order of the patches. -/
def patched (done : List Deal) : List Key :=
  (done.filter Deal.accepted).map fun d => keyAt d.route

/-- The objects patched in two runs of deals are those of the first, then those of the second. -/
theorem patched_append (first second : List Deal) :
    patched (first ++ second) = patched first ++ patched second := by
  rw [patched, List.filter_append, List.map_append, patched, patched]

theorem patched_concat_of_accepted (done : List Deal) {d : Deal} (h : d.accepted = true) :
    patched (done ++ [d]) = patched done ++ [keyAt d.route] := by
  rw [patched_append, patched, patched, List.filter_cons_of_pos h]
  rfl

theorem patched_concat_of_not_accepted (done : List Deal) {d : Deal} (h : d.accepted = false) :
    patched (done ++ [d]) = patched done := by
  rw [patched_append]
  simp [patched, h]

namespace Scene

variable (scene : Scene)

def Concerns (o : Json) : Prop := keyOf o = placeOf scene.cluster ∨ OwnedBy scene.cluster o

def Due (o : Json) : Prop :=
  scene.Concerns o ∧ pausedUntil o ≠ .string scene.target.value

/-- The hosted cluster and all node pools are well-formed, and no two objects share a place. -/
structure WellFormed : Prop where
  kind : scene.cluster.kind = .hostedCluster
  names : Plain scene.cluster.ns scene.cluster.name
  plane : scene.plane.resource = Served.controlPlane.name
  keys : (scene.initial.map keyOf).Nodup
  proper : ∀ o ∈ scene.initial, resourceOf o = Served.hostedCluster.name ∨
    resourceOf o = Served.nodePool.name → Proper o

/-- What patches at some places have made of an object. -/
def left (done : List Key) (o : Json) : Json :=
  if keyOf o ∈ done then setPause (some scene.target.value) o else o

/-- Apart from the control plane a store is what patches at some places have made of it. -/
def Kept (done : List Key) (store : Store) : Prop :=
  store.erase scene.plane = (scene.initial.erase scene.plane).map (scene.left done)

/-- The object at a place is at the target, from the beginning or by a patch. -/
def Settled (done : List Key) (key : Key) : Prop :=
  ∃ o ∈ scene.initial, keyOf o = key ∧
    (pausedUntil o = .string scene.target.value ∨ key ∈ done)

def Reached (done : List Key) : Prop := ∀ o ∈ scene.initial, scene.Due o → keyOf o ∈ done

variable {scene}

/-- An object keeps its key, whatever has been patched. -/
@[simp] theorem keyOf_left (done : List Key) (o : Json) : keyOf (scene.left done o) = keyOf o := by
  unfold left
  split
  · exact keyOf_setPause o _
  · rfl

theorem left_of_mem {done : List Key} {o : Json} (h : keyOf o ∈ done) :
    scene.left done o = setPause (some scene.target.value) o := if_pos h

theorem left_of_not_mem {done : List Key} {o : Json} (h : keyOf o ∉ done) :
    scene.left done o = o := if_neg h

/-- An object shows the target's value if it did at first or has been patched since. -/
theorem pausedUntil_left {done : List Key} {o : Json} :
    pausedUntil (scene.left done o) = .string scene.target.value ↔
      pausedUntil o = .string scene.target.value ∨ keyOf o ∈ done := by
  by_cases h : keyOf o ∈ done
  · simp [left_of_mem h, h]
  · simp [left_of_not_mem h, h]

/-- A patch to the pause field does not change to which cluster a pool belongs. -/
theorem ownedBy_left {done : List Key} {o : Json} :
    OwnedBy scene.cluster (scene.left done o) ↔ OwnedBy scene.cluster o := by
  unfold left
  split
  · exact ownedBy_setPause
  · exact Iff.rfl

/-- A proper object is proper after it has been patched. -/
theorem proper_left {done : List Key} {o : Json} (h : Proper o) : Proper (scene.left done o) := by
  unfold Scene.left
  split
  · exact h.setPause _
  · exact h

/-- Every stored object but the plane is one of the first objects, patched or as it was. -/
theorem Kept.mem {done : List Key} {store : Store} (h : scene.Kept done store) {o : Json}
    (ho : o ∈ store) (hplane : keyOf o ≠ scene.plane) :
    ∃ first ∈ scene.initial, keyOf first = keyOf o ∧ o = scene.left done first := by
  have hmem : o ∈ store.erase scene.plane := Store.mem_erase.mpr ⟨ho, hplane⟩
  rw [h] at hmem
  obtain ⟨first, hfirst, rfl⟩ := List.mem_map.mp hmem
  exact ⟨first, (Store.mem_erase.mp hfirst).1, (keyOf_left done first).symm, rfl⟩

/-- Each of the first objects is still stored, as the patches so far leave it. -/
theorem Kept.left_mem {done : List Key} {store : Store} (h : scene.Kept done store) {o : Json}
    (ho : o ∈ scene.initial) (hplane : keyOf o ≠ scene.plane) : scene.left done o ∈ store := by
  have hmem : scene.left done o ∈ (scene.initial.erase scene.plane).map (scene.left done) :=
    List.mem_map_of_mem (Store.mem_erase.mpr ⟨ho, hplane⟩)
  rw [← h] at hmem
  exact (Store.mem_erase.mp hmem).1

/-- A patch of a place that was not patched before. -/
theorem Kept.patch {done : List Key} {store : Store} (h : scene.Kept done store) {key : Key}
    (hnew : key ∉ done) : scene.Kept (done ++ [key])
      (store.update key (setPause (some scene.target.value))) := by
  unfold Kept at h ⊢
  rw [Store.erase_update (fun o => keyOf_setPause o _), h, Store.update, List.map_map]
  refine List.map_congr_left fun o _ => ?_
  simp only [Function.comp_apply, keyOf_left]
  by_cases hkey : keyOf o = key
  · rw [if_pos hkey, left_of_not_mem (hkey ▸ hnew), left_of_mem (by simp [hkey])]
  · simp [left, hkey]

/-- No two of the first objects share a key. -/
theorem WellFormed.unique (h : scene.WellFormed) {o other : Json} (ho : o ∈ scene.initial)
    (hother : other ∈ scene.initial) (hkey : keyOf o = keyOf other) : o = other :=
  List.inj_on_of_nodup_map h.keys ho hother hkey

/-- Calls on the way to the target: what they have done, and what the current one has done since
it began. Some places are known to be settled. -/
structure Partway (scene : Scene) (base : List Deal) (known : List Key) (s : Shared) : Prop where
  calm : ∀ n store, ((s.others n).change store).erase scene.plane = store.erase scene.plane
  kept : scene.Kept (patched s.deals) s.objects
  once : (patched s.deals).Nodup
  due : ∀ key ∈ patched s.deals, ∃ o ∈ scene.initial, keyOf o = key ∧ scene.Due o
  settled : ∀ key ∈ known, scene.Settled (patched s.deals) key
  since : ∃ new, s.deals = base ++ new ∧
    (scene.Reached (patched base) → ∀ d ∈ new, d.patches = false)

/-- A settled key stays settled while more objects are patched. -/
theorem Settled.mono {done : List Key} {key : Key} (h : scene.Settled done key) (more : List Key) :
    scene.Settled (done ++ more) key := by
  obtain ⟨o, ho, hkey, hheld⟩ := h
  exact ⟨o, ho, hkey, hheld.imp_right (List.mem_append_left more)⟩

variable {base : List Deal} {known : List Key}

/-- What the others do to the store before the next request keeps it in step too. -/
theorem Partway.kept_change {s : Shared} (h : scene.Partway base known s) (n : Nat) :
    scene.Kept (patched s.deals) ((s.others n).change s.objects) := (h.calm n _).trans h.kept

theorem Partway.weaken {s : Shared} (h : scene.Partway base known s) {less : List Key}
    (hless : less ⊆ known) : scene.Partway base less s :=
  { h with settled := fun key hkey => h.settled key (hless hkey) }

/-- With an object still due, this call did not begin with everything at the target. -/
theorem Partway.not_reached {s : Shared} (h : scene.Partway base known s) {o : Json}
    (ho : o ∈ scene.initial) (hdue : scene.Due o) (hnew : keyOf o ∉ patched s.deals) :
    ¬ scene.Reached (patched base) := by
  intro hreached
  obtain ⟨new, hsince, _⟩ := h.since
  refine hnew ?_
  rw [hsince, patched_append]
  exact List.mem_append_left _ (hreached o ho hdue)

/-- A deal that was no accepted patch leaves everything as it was. While something is left to do it
may have been a patch. -/
theorem Partway.take {s : Shared} (h : scene.Partway base known s) {d : Deal} {n : Nat}
    (hafter : d.after = (s.others n).change s.objects) (hnot : d.accepted = false)
    (hidle : scene.Reached (patched base) → d.patches = false) :
    scene.Partway base known (s.take d) := by
  have hsame : patched (s.deals ++ [d]) = patched s.deals :=
    patched_concat_of_not_accepted s.deals hnot
  obtain ⟨new, hnew, hquiet⟩ := h.since
  refine ⟨fun n store => h.calm (n + 1) store, ?_, ?_, ?_, ?_, new ++ [d], ?_, ?_⟩
  · change scene.Kept (patched (s.deals ++ [d])) d.after
    rw [hsame, hafter]
    exact h.kept_change n
  · exact hsame ▸ h.once
  · exact hsame ▸ h.due
  · exact hsame ▸ h.settled
  · change s.deals ++ [d] = _
    rw [hnew, List.append_assoc]
  · intro hreached e he
    rcases List.mem_append.mp he with hmem | hmem
    · exact hquiet hreached e hmem
    · rw [List.mem_singleton.mp hmem]
      exact hidle hreached

/-- A patch of an object that was due settles it. -/
theorem Partway.patch {s : Shared} (h : scene.Partway base known s) {d : Deal} {n : Nat}
    {o : Json} (haccepted : d.accepted = true) (ho : o ∈ scene.initial)
    (hkey : keyAt d.route = keyOf o) (hdue : scene.Due o) (hnew : keyOf o ∉ patched s.deals)
    (hafter : d.after = ((s.others n).change s.objects).update (keyOf o)
      (setPause (some scene.target.value))) :
    scene.Partway base (keyOf o :: known) (s.take d) := by
  have hmore : patched (s.deals ++ [d]) = patched s.deals ++ [keyOf o] := by
    rw [patched_concat_of_accepted s.deals haccepted, hkey]
  have hlast : keyOf o ∈ patched (s.deals ++ [d]) := by
    rw [hmore]
    exact List.mem_append_right _ (List.mem_singleton.mpr rfl)
  obtain ⟨new, hsince, _⟩ := h.since
  refine ⟨fun n store => h.calm (n + 1) store, ?_, ?_, ?_, ?_, new ++ [d], ?_, ?_⟩
  · change scene.Kept (patched (s.deals ++ [d])) d.after
    rw [hmore, hafter]
    exact (h.kept_change n).patch hnew
  · change (patched (s.deals ++ [d])).Nodup
    rw [hmore, List.nodup_append]
    refine ⟨h.once, List.nodup_singleton _, ?_⟩
    rintro key hmem _ hsingle rfl
    exact hnew (List.mem_singleton.mp hsingle ▸ hmem)
  · intro key hmem
    change key ∈ patched (s.deals ++ [d]) at hmem
    rw [hmore] at hmem
    rcases List.mem_append.mp hmem with hmem | hmem
    · exact h.due key hmem
    · exact ⟨o, ho, (List.mem_singleton.mp hmem).symm, hdue⟩
  · intro key hmem
    rcases List.mem_cons.mp hmem with rfl | hmem
    · exact ⟨o, ho, rfl, Or.inr hlast⟩
    · change scene.Settled (patched (s.deals ++ [d])) key
      rw [hmore]
      exact (h.settled key hmem).mono _
  · change s.deals ++ [d] = _
    rw [hsince, List.append_assoc]
  · exact fun hreached => absurd hreached (h.not_reached ho hdue hnew)

/-- An object that the target is for, at a place of its own. -/
structure Aims (scene : Scene) (object : Managed) : Prop where
  elsewhere : placeOf object ≠ scene.plane
  right : ∀ o ∈ scene.initial, keyOf o = placeOf object → scene.Concerns o ∧ Proper o

/-- A pause field that was read in this call: it holds the value just if the object is settled. -/
def Seen (scene : Scene) (object : Managed) (field : PauseField) (s : Session Shared σ) : Prop :=
  ∃ o ∈ scene.initial, keyOf o = placeOf object ∧ (field.value = some scene.target.value ↔
    pausedUntil o = .string scene.target.value ∨ keyOf o ∈ patched (deals s))

/-- What holds of the store at each point of a call. -/
abbrev At (scene : Scene) (base : List Deal) (known : List Key) (s : Session Shared σ) : Prop :=
  scene.Partway base known s.cluster

/-- A request that changes nothing leaves everything as it was. -/
theorem Partway.read {s : Session Shared σ} (h : scene.At base known s) {request : Request}
    {d : Deal} (hnext : DealtNext s request d) (hreads : Reads request) :
    scene.At base known (dealt s d) := by
  have hread := Deal.not_patches_of_reads hnext.route hreads
  exact h.take ((hnext.fair.unchanged_of_read hread).trans hnext.before)
    (Deal.not_accepted_of_not_patches hread) fun _ => hread

/-- A read tells the field of an object as the patches so far have left it, or fails and changes
nothing. -/
theorem ends_readPause {object : Managed} (haims : scene.Aims object) :
    Ends (scene.At base known) (shared.client.ask (.readPause object) : Act Shared σ PauseField)
      (fun field s => scene.At base known s ∧ scene.Seen object field s)
      fun _ => scene.At base known := by
  refine ends_ask_shared (.readPause object) (fun _ hs => hs) ?_
  intro s d hs hnext
  have hlater : scene.At base known (dealt s d) := hs.read hnext trivial
  obtain ⟨hfair, hroute, hbefore⟩ := hnext
  have hnot := Deal.not_accepted_of_not_patches (Deal.not_patches_of_reads hroute trivial)
  cases hanswer : answer (.readPause object) d with
  | error e => exact .error hlater
  | ok field =>
    obtain ⟨o', hfound, _, hfield, _⟩ := (hfair.shows hroute hanswer).found
    rw [hbefore] at hfound
    have hkey := Store.keyOf_of_find? hfound
    obtain ⟨o, ho, hsame, rfl⟩ := (hs.kept_change 0).mem (Store.mem_of_find? hfound)
      (by rw [hkey]; exact haims.elsewhere)
    have hplace : keyOf o = placeOf object := hsame.trans hkey
    obtain ⟨spec, hspec⟩ := (proper_left (haims.right o ho hplace).2).spec
    refine .ok ⟨hlater, o, ho, hplace, ?_⟩
    rw [← pausedUntil_eq_iff hfield hspec, pausedUntil_left, deals_dealt,
      patched_concat_of_not_accepted _ hnot]

/-- An accepted write settles its object; a refused one leaves all as it was. -/
theorem ends_writePause {object : Managed} (haims : scene.Aims object) {field : PauseField}
    (hother : field.value ≠ some scene.target.value) :
    Ends (fun s => scene.At base known s ∧ scene.Seen object field s)
      (shared.client.ask (.writePause object field scene.target.value) : Act Shared σ Unit)
      (fun _ => scene.At base (placeOf object :: known)) fun _ => scene.At base known := by
  refine ends_ask_shared (.writePause object field scene.target.value) (fun _ hs => hs.1) ?_
  rintro s d ⟨hs, o, ho, hplace, hseen⟩ ⟨hfair, hroute, hbefore⟩
  obtain ⟨hheld, hnew⟩ := not_or.mp (mt hseen.mpr hother)
  have hdue : scene.Due o := ⟨(haims.right o ho hplace).1, hheld⟩
  cases hresult : d.result with
  | error status =>
    rw [answer_of_refused_patch hresult]
    exact .error (hs.take ((hfair.unchanged hresult).trans hbefore)
      (Deal.not_accepted_of_error hresult) fun hreached =>
        absurd hreached (hs.not_reached ho hdue hnew))
  | ok _ =>
    have hsets := hfair.sets hroute hresult
    obtain ⟨_, _, _, _, hafter⟩ := hsets.found
    have hkey : keyAt d.route = keyOf o := by
      rw [hroute, keyAt_writePause, hplace]
    rw [hbefore, ← hplace] at hafter
    have hlater := hs.patch hsets.accepted ho hkey hdue hnew hafter
    cases hanswer : answer (.writePause object field scene.target.value) d with
    | ok _ => exact .ok (hplace ▸ hlater)
    | error e => exact .error (hlater.weaken (List.subset_cons_self _ _))

/-- An object that is read at the target is settled. -/
theorem Partway.known_of_seen {object : Managed} {field : PauseField} {s : Session Shared σ}
    (h : scene.At base known s) (hseen : scene.Seen object field s)
    (hsame : field.value = some scene.target.value) :
    scene.At base (placeOf object :: known) s := by
  obtain ⟨o, ho, hplace, hheld⟩ := hseen
  refine { h with settled := fun key hmem => ?_ }
  rcases List.mem_cons.mp hmem with rfl | hmem
  · exact ⟨o, ho, hplace, hplace ▸ hheld.mp hsame⟩
  · exact h.settled key hmem

/-- A call that ends well has settled its object, which either showed the value or was written. -/
theorem ends_bring (known : List Key) {object : Managed} (haims : scene.Aims object) :
    Ends (scene.At base known) (Orchestrator.bring shared.client scene.target object)
      (fun _ => scene.At base (placeOf object :: known)) fun _ => scene.At base known := by
  have hrecord : ∀ known state, Keeps (scene.At base known)
      (Orchestrator.recordState object state) :=
    fun known state => keeps_of_run fun _ hs => hs
  refine Orchestrator.ends_bring_of (fun _ _ hs => hs) (fun _ hs => hs) (ends_readPause haims)
    (fun field s hsame hs => hs.1.known_of_seen hs.2 hsame)
    (fun field hother => ends_writePause haims hother) (hrecord _ _) ?_
  exact (hrecord _ _).imp (fun _ h => h) (fun _ _ h => h) fun _ s hs =>
    hs.weaken (List.subset_cons_self _ _)

/-- One object after the other is settled, up to a failure. -/
theorem ends_bringAll {objects : List Managed} (haims : ∀ object ∈ objects, scene.Aims object) :
    Ends (scene.At base known) (Orchestrator.bringAll shared.client scene.target objects)
      (fun _ s => scene.At base known s ∧
        ∀ object ∈ objects, scene.Settled (patched (deals s)) (placeOf object))
      fun _ => scene.At base [] := by
  induction objects generalizing known with
  | nil => exact ends_pure () fun s hs => ⟨hs, by simp⟩
  | cons object rest ih =>
    refine ends_bind _ ((ends_bring known (haims object (List.mem_cons_self ..))).imp
      (fun _ h => h) (fun _ _ h => h) fun _ s hs => hs.weaken (List.nil_subset known)) fun _ => ?_
    refine (ih fun other hother => haims other (List.mem_cons_of_mem object hother)).imp
      (fun _ h => h) ?_ fun _ _ h => h
    rintro ⟨⟩ s ⟨hs, hall⟩
    refine ⟨hs.weaken (List.subset_cons_self _ _), fun other hother => ?_⟩
    rcases List.mem_cons.mp hother with rfl | hmem
    · exact hs.settled _ (List.mem_cons_self ..)
    · exact hall other hmem

/-- A request that reads moves no object. -/
theorem ends_ask_read {request : Request} (hreads : Reads request) :
    Ends (scene.At base known) (shared.client.ask request : Act Shared σ request.Answer)
      (fun _ => scene.At base known) fun _ => scene.At base known := by
  refine ends_ask_shared request (fun _ hs => hs) ?_
  intro s d hs hnext
  have hlater : scene.At base known (dealt s d) := hs.read hnext hreads
  cases answer request d with
  | ok _ => exact .ok hlater
  | error _ => exact .error hlater

/-- Looking at the control plane moves no object of the scene. -/
theorem ends_awaitPropagation (plane : Option Watch.Identity) :
    Ends (scene.At base known) (Orchestrator.awaitPropagation shared.client plane)
      (fun _ => scene.At base known) fun _ => scene.At base known :=
  Orchestrator.keeps_awaitPropagation (fun _ _ hs => hs) (fun _ => ends_ask_read trivial) plane

/-- The node pools of the hosted cluster, as they should be listed. -/
structure Lists (scene : Scene) (pools : List Managed) : Prop where
  aims : ∀ pool ∈ pools, scene.Aims pool
  all : ∀ o ∈ scene.initial, OwnedBy scene.cluster o → ∃ pool ∈ pools, keyOf o = placeOf pool

/-- A list of the node pools that is refused as not found. The client takes the resource for one
that is not served, and so for one without objects. -/
def Unlisted (scene : Scene) (d : Deal) : Prop :=
  d.route = .ofCall (Api.callOf (.nodePools scene.cluster)) ∧
    ∃ status, d.result = .error status ∧ (Api.refusal status).isNotFound = true

/-- Since some point the node pools were missed so. -/
def Missed (scene : Scene) (base : List Deal) (s : Session Shared σ) : Prop :=
  ∃ new, deals s = base ++ new ∧ ∃ d ∈ new, scene.Unlisted d

theorem WellFormed.placeOf_cluster (h : scene.WellFormed) : placeOf scene.cluster =
    ⟨Served.hostedCluster.name, some scene.cluster.ns, some scene.cluster.name⟩ := by
  rw [placeOf_of_plain h.names, h.kind]
  rfl

/-- An object that is not a control plane is not at the plane's key. -/
theorem WellFormed.ne_plane (h : scene.WellFormed) {key : Key} {r : Served}
    (hr : r.name ≠ Served.controlPlane.name) (hkey : key.resource = r.name) :
    key ≠ scene.plane :=
  fun heq => hr (hkey.symm.trans (heq ▸ h.plane))

/-- The hosted cluster is an object that a call may aim at. -/
theorem WellFormed.aims_cluster (h : scene.WellFormed) : scene.Aims scene.cluster := by
  refine ⟨?_, fun o ho hplace => ?_⟩
  · exact h.ne_plane (r := .hostedCluster) (by decide) (congrArg Key.resource h.placeOf_cluster)
  · refine ⟨Or.inl hplace, h.proper o ho (Or.inl ?_)⟩
    exact congrArg Key.resource (hplace.trans h.placeOf_cluster)

theorem WellFormed.aims_of_ownedBy (h : scene.WellFormed) {o : Json} (ho : o ∈ scene.initial)
    (hown : OwnedBy scene.cluster o) {pool : Managed} (hplace : keyOf o = placeOf pool) :
    scene.Aims pool := by
  refine ⟨?_, fun other hother hsame => ?_⟩
  · exact hplace ▸ h.ne_plane (r := .nodePool) (by decide) hown.resource
  · cases h.unique ho hother (hplace.trans hsame.symm)
    exact ⟨Or.inr hown, h.proper o ho (Or.inr hown.resource)⟩

/-- All pools of the cluster are listed, and they are for the target. -/
theorem lists_of_answer (h : scene.WellFormed) {done : List Key} {store : Store}
    (hkept : scene.Kept done store) {pools : List Managed} {d : Deal}
    (hresult : d.result =
      .ok (listing (store.list Served.nodePool.name (some scene.cluster.ns))))
    (hanswer : answer (.nodePools scene.cluster) d = .ok pools) : scene.Lists pools := by
  have hplane : ∀ o : Json, resourceOf o = Served.nodePool.name → keyOf o ≠ scene.plane :=
    fun o hresource => h.ne_plane (r := .nodePool) (by decide) hresource
  have hproper : ∀ o ∈ store, resourceOf o = Served.nodePool.name → Proper o := by
    intro o ho hresource
    obtain ⟨first, hfirst, hkey, rfl⟩ := hkept.mem ho (hplane o hresource)
    exact proper_left (h.proper first hfirst
      (Or.inr ((congrArg Key.resource hkey).trans hresource)))
  obtain ⟨hfrom, hall⟩ := pools_of_answer h.names hproper hresult hanswer
  refine ⟨fun pool hpool => ?_, fun o ho hown => ?_⟩
  · obtain ⟨o, ho, hown, hplace⟩ := hfrom pool hpool
    obtain ⟨first, hfirst, hkey, rfl⟩ := hkept.mem ho (hplane o hown.resource)
    exact h.aims_of_ownedBy hfirst (ownedBy_left.mp hown) (hkey.trans hplace)
  · obtain ⟨pool, hpool, hplace⟩ := hall _ (hkept.left_mem ho (hplane o hown.resource))
      (ownedBy_left.mpr hown)
    exact ⟨pool, hpool, (keyOf_left done o).symm.trans hplace⟩

/-- The listing shows every pool of the cluster, unless it is missed and shows none. -/
theorem ends_nodePools (h : scene.WellFormed) :
    Ends (scene.At base known)
      (shared.client.ask (.nodePools scene.cluster) : Act Shared σ (List Managed))
      (fun pools s => scene.At base known s ∧ (scene.Lists pools ∨
        pools = [] ∧ scene.Missed base s))
      fun _ => scene.At base known := by
  refine ends_ask_shared (.nodePools scene.cluster) (fun _ hs => hs) ?_
  intro s d hs hnext
  have hlater : scene.At base known (dealt s d) := hs.read hnext trivial
  obtain ⟨hfair, hroute, hbefore⟩ := hnext
  cases hanswer : answer (.nodePools scene.cluster) d with
  | error e => exact .error hlater
  | ok pools =>
    refine .ok ⟨hlater, ?_⟩
    rcases hfair.lists h.names hroute with ⟨status, hresult⟩ | hresult
    · obtain ⟨hnone, hmissing⟩ := answer_of_refused hresult hanswer
      obtain ⟨earlier, hearlier, _⟩ := hs.since
      refine Or.inr ⟨hnone, earlier ++ [d], ?_, d, by simp, hroute, status, hresult, hmissing⟩
      rw [deals_dealt, deals, hearlier, List.append_assoc]
    · rw [hbefore] at hresult
      exact Or.inl (lists_of_answer h (hs.kept_change 0) hresult hanswer)

/-- All that is due has been dealt with once the cluster and its pools are settled. -/
theorem WellFormed.reached (h : scene.WellFormed) {done : List Key} {pools : List Managed}
    (hcluster : scene.Settled done (placeOf scene.cluster)) (hlists : scene.Lists pools)
    (hpools : ∀ pool ∈ pools, scene.Settled done (placeOf pool)) : scene.Reached done := by
  have hone : ∀ {o key}, o ∈ scene.initial → keyOf o = key → scene.Settled done key →
      pausedUntil o ≠ .string scene.target.value → key ∈ done := by
    rintro o key ho hkey ⟨other, hother, hsame, hheld⟩ hdue
    cases h.unique ho hother (hkey.trans hsame.symm)
    exact hheld.resolve_left hdue
  rintro o ho ⟨hplace | hown, hdue⟩
  · exact hplace ▸ hone ho hplace hcluster hdue
  · obtain ⟨pool, hpool, hplace⟩ := hlists.all o ho hown
    exact hplace ▸ hone ho hplace (hpools pool hpool) hdue

/-- A call that ends well has reached the cluster and every pool, unless the listing was missed. -/
theorem ends_call (h : scene.WellFormed) (plane : Option Watch.Identity) :
    Ends (scene.At base []) (scene.target.call shared.client scene.cluster plane)
      (fun _ s => scene.At base [placeOf scene.cluster] s ∧
        (scene.Reached (patched (deals s)) ∨ scene.Missed base s))
      fun _ => scene.At base [] := by
  have hpools : Ends (scene.At base [placeOf scene.cluster]) (do
      let pools : List Managed ← shared.client.ask (.nodePools scene.cluster)
      Orchestrator.bringAll shared.client scene.target pools)
      (fun _ s => scene.At base [placeOf scene.cluster] s ∧
        (scene.Reached (patched (deals s)) ∨ scene.Missed base s))
      fun _ => scene.At base [] := by
    refine ends_bind _ ((ends_nodePools h).imp (fun _ hs => hs) (fun _ _ hs => hs)
      fun _ s hs => hs.weaken (List.nil_subset _)) fun pools => ?_
    intro s hs
    obtain ⟨hs, hlists | ⟨rfl, hmissed⟩⟩ := hs
    · refine ((ends_bringAll hlists.aims).imp (fun _ hs => hs) ?_ fun _ _ hs => hs) s hs
      rintro ⟨⟩ later ⟨hlater, hall⟩
      exact ⟨hlater, Or.inl (h.reached (hlater.settled _ (List.mem_cons_self ..)) hlists hall)⟩
    · exact .ok ⟨hs, Or.inr hmissed⟩
  have hbring : Ends (scene.At base [])
      (Orchestrator.bring shared.client scene.target scene.cluster)
      (fun _ => scene.At base [placeOf scene.cluster]) fun _ => scene.At base [] :=
    ends_bring [] h.aims_cluster
  cases htarget : scene.target with
  | pause =>
    rw [htarget] at hbring hpools
    refine ends_bind _ hbring fun _ => ?_
    refine ends_bind _ ((ends_awaitPropagation plane).imp (fun _ hs => hs) (fun _ _ hs => hs)
      fun _ s hs => hs.weaken (List.nil_subset _)) fun _ => hpools
  | resume =>
    rw [htarget] at hbring hpools
    exact ends_bind _ hbring fun _ => hpools

end Scene
end BackupWatch.Pause
