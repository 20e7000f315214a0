import BackupWatch.Proofs.Adds
import BackupWatch.Proofs.Server.Pools
import BackupWatch.Proofs.Text.Bytes
import BackupWatch.Tracker

/-!
How a tracker finds the workload of its backup. The included namespaces are asked in the order of
their bytes until one has a control plane or cannot be asked. The first control plane of that answer
is taken, or nothing is: it has to have a namespace, and an annotation that names a hosted cluster.
-/

namespace BackupWatch.Resource.ControlPlane

/-- The annotation that a control plane has to have: a namespace, a slash and a name. -/
structure NamesCluster (plane : ControlPlane) (ns name : String) : Prop where
  written : ∃ annotations, plane.metadata.annotations = some annotations ∧
    annotations.find? clusterAnnotation = some (ns ++ "/" ++ name)
  whole : '/' ∉ ns.toList
  ns_ne_empty : ns ≠ ""
  name_ne_empty : name ≠ ""

theorem splitReference_of_not_mem {reference : String} (h : '/' ∉ reference.toList) :
    splitReference reference = none := by
  simp only [splitReference, List.dropWhile_eq_nil_iff.mpr (Server.bne_of_not_mem h)]

theorem splitReference_append {ns : String} (h : '/' ∉ ns.toList) (name : String) :
    splitReference (ns ++ "/" ++ name) = if ns = "" ∨ name = "" then none else some (ns, name) := by
  have htoList : (ns ++ "/" ++ name).toList = ns.toList ++ '/' :: name.toList := by simp
  have hns := Server.bne_of_not_mem h
  simp [splitReference, htoList, List.takeWhile_append_of_pos hns, List.dropWhile_append_of_pos hns]

/-- A reference has two parts if its first slash has a text on either side. -/
theorem splitReference_eq_some_iff {reference ns name : String} :
    splitReference reference = some (ns, name) ↔
      reference = ns ++ "/" ++ name ∧ '/' ∉ ns.toList ∧ ns ≠ "" ∧ name ≠ "" := by
  constructor
  · intro h
    by_cases hslash : '/' ∈ reference.toList
    · obtain ⟨before, after, hsplit, hbefore⟩ := List.eq_append_cons_of_mem hslash
      obtain rfl : reference = String.ofList before ++ "/" ++ String.ofList after :=
        String.toList_inj.mp (by simp [hsplit])
      rw [splitReference_append (by simpa using hbefore)] at h
      split at h
      · cases h
      · next hparts =>
        cases h
        exact ⟨rfl, by simpa using hbefore, fun hns => hparts (.inl hns),
          fun hname => hparts (.inr hname)⟩
    · rw [splitReference_of_not_mem hslash] at h
      cases h
  · rintro ⟨rfl, hslash, hns, hname⟩
    rw [splitReference_append hslash, if_neg (not_or.mpr ⟨hns, hname⟩)]

/-- The reference of a plane is read as the cluster that the plane names. -/
theorem clusterReference_eq_some_iff {plane : ControlPlane} {ns name : String} :
    plane.clusterReference = some (ns, name) ↔ plane.NamesCluster ns name := by
  unfold clusterReference
  constructor
  · intro h
    obtain ⟨annotations, hannotations, h⟩ := Option.bind_eq_some_iff.mp h
    obtain ⟨reference, hfind, h⟩ := Option.bind_eq_some_iff.mp h
    obtain ⟨rfl, hwhole, hns, hname⟩ := splitReference_eq_some_iff.mp h
    exact ⟨⟨annotations, hannotations, hfind⟩, hwhole, hns, hname⟩
  · rintro ⟨⟨annotations, hannotations, hfind⟩, hwhole, hns, hname⟩
    refine Option.bind_eq_some_iff.mpr ⟨annotations, hannotations, ?_⟩
    refine Option.bind_eq_some_iff.mpr ⟨_, hfind, ?_⟩
    exact splitReference_eq_some_iff.mpr ⟨rfl, hwhole, hns, hname⟩

end BackupWatch.Resource.ControlPlane

namespace BackupWatch.Tracker

open Act Cluster Job Resource

variable {κ σ : Type}

def barren (ns : String) : Exchange := ⟨.controlPlanesIn ns, .ok []⟩

/-- How a search of namespaces goes, and what it ends in. Whatever ends it, all that was asked
before has no control plane, and nothing is asked behind it. -/
inductive Searched (names : List String) :
    List Exchange → Except Failure (Option ControlPlane) → Prop
  | nowhere : Searched names (names.map barren) (.ok none)
  | refused (before : List String) {after : List String} {ns : String} {e : Error}
      (split : names = before ++ ns :: after) :
      Searched names (before.map barren ++ [⟨.controlPlanesIn ns, .error e⟩]) (.error (.error e))
  | found (before : List String) {after : List String} {ns : String} {plane : ControlPlane}
      {others : List ControlPlane} (split : names = before ++ ns :: after) :
      Searched names (before.map barren ++ [⟨.controlPlanesIn ns, .ok (plane :: others)⟩])
        (.ok (some plane))

theorem Searched.cons {names : List String} {asked : List Exchange}
    {found : Except Failure (Option ControlPlane)} (h : Searched names asked found) (ns : String) :
    Searched (ns :: names) (barren ns :: asked) found := by
  cases h with
  | nowhere => exact .nowhere
  | refused before hsplit => exact .refused (ns :: before) (congrArg (ns :: ·) hsplit)
  | found before hsplit => exact .found (ns :: before) (congrArg (ns :: ·) hsplit)

/-- What is found is the first of the last answer. -/
theorem Searched.found_of_getLast? {names : List String} {asked : List Exchange}
    {found : Except Failure (Option ControlPlane)} {ns : String} {plane : ControlPlane}
    {others : List ControlPlane} (h : Searched names asked found)
    (hlast : asked.getLast? = some ⟨.controlPlanesIn ns, .ok (plane :: others)⟩) :
    found = .ok (some plane) := by
  cases h with
  | nowhere =>
    rw [List.getLast?_map] at hlast
    obtain ⟨last, _, hbarren⟩ := Option.map_eq_some_iff.mp hlast
    cases hbarren
  | refused before hsplit =>
    rw [List.getLast?_concat] at hlast
    cases hlast
  | found before hsplit =>
    rw [List.getLast?_concat] at hlast
    cases hlast
    rfl

/-- The namespaces are searched in order, up to the first with a plane or the first failure. -/
theorem adds_findControlPlane (client : Client κ) (names : List String) :
    Adds (findControlPlane client.recorded names : Act (Chronicle κ) σ (Option ControlPlane))
      (fun found asked => Searched names asked (.ok found))
      fun f asked => Searched names asked (.error f) := by
  induction names with
  | nil => exact adds_pure none .nowhere
  | cons ns rest ih =>
    unfold findControlPlane
    refine adds_bind (fun planes asked => asked = [⟨.controlPlanesIn ns, .ok planes⟩])
      (adds_ask client _ (fun _ => rfl) fun e => .refused [] rfl) fun planes => ?_
    cases planes with
    | nil =>
      refine ih.imp ?_ ?_
      · rintro found asked h _ rfl
        exact h.cons ns
      · rintro f asked h _ rfl
        exact h.cons ns
    | cons plane others =>
      refine adds_pure (some plane) ?_
      rintro _ rfl
      exact .found [] rfl

/-- What a discovery makes of what its search has found. -/
def settle (ctx : Context) (config : Config) : Option ControlPlane → Except Failure Tracker
  | none => .error (.error (DiscoveryFault.noControlPlane ctx.included.names).toError)
  | some plane =>
    ((ctx.applyControlPlane plane).mapError fun f => .error f.toError).map fun ctx => new ctx config

/-- A discovery is the search, settled with what the search has found. -/
theorem run_discover (client : Client κ) (ctx : Context) (config : Config) (s : Session κ σ) :
    discover client ctx config s =
      ((findControlPlane client ctx.included.names s).1.bind (settle ctx config),
        (findControlPlane client ctx.included.names s).2) := by
  unfold discover
  rw [run_bind]
  rcases findControlPlane client ctx.included.names s with ⟨f | found, later⟩
  · rfl
  · cases found with
    | none => rfl
    | some plane =>
      change (liftDiscovery (ctx.applyControlPlane plane) >>= fun ctx =>
        pure (new ctx config)) later = (settle ctx config (some plane), later)
      rw [run_bind_pure, settle, liftDiscovery]
      cases ctx.applyControlPlane plane <;> rfl

/-- What becomes of a control plane that was found. -/
structure Settled (ctx : Context) (config : Config) (plane : ControlPlane)
    (result : Except Failure Tracker) : Prop where
  succeeds_iff : (∃ t, result = .ok t) ↔
    ∃ place ns name, plane.metadata.ns = some place ∧ plane.NamesCluster ns name
  completed : ∀ place ns name, plane.metadata.ns = some place → plane.NamesCluster ns name →
    ∃ t, result = .ok t ∧ t.progress.chain = .forJob t.ctx ∧
      t.ctx = { ctx with
        controlPlane := some ⟨plane.metadata.shownName, some place⟩
        hostedCluster := some ⟨.hostedCluster, ns, name⟩
        highlyAvailable := decide (plane.spec.availability = some .highlyAvailable)
        platform := plane.spec.platform.elim .none PlatformSpec.type
        migration := ctx.migration || config.migration }
  without_namespace : plane.metadata.ns = none → result = .error (.error (.discovery
    (DiscoveryFault.planeWithoutNamespace plane.metadata.shownName).message))
  without_cluster : ∀ place, plane.metadata.ns = some place →
    (∀ ns name, ¬ plane.NamesCluster ns name) → result = .error (.error (.discovery
      (DiscoveryFault.planeWithoutCluster place plane.metadata.shownName).message))

theorem settle_of_no_namespace {ctx : Context} {config : Config} {plane : ControlPlane}
    (h : plane.metadata.ns = none) : settle ctx config (some plane) = .error (.error (.discovery
      (DiscoveryFault.planeWithoutNamespace plane.metadata.shownName).message)) := by
  simp only [settle, Context.applyControlPlane, h]
  rfl

theorem settle_of_no_cluster {ctx : Context} {config : Config} {plane : ControlPlane}
    {place : String} (h : plane.metadata.ns = some place)
    (hcluster : ∀ ns name, ¬ plane.NamesCluster ns name) :
    settle ctx config (some plane) = .error (.error (.discovery
      (DiscoveryFault.planeWithoutCluster place plane.metadata.shownName).message)) := by
  have hnone : plane.clusterReference = none :=
    Option.eq_none_iff_forall_ne_some.mpr fun ⟨ns, name⟩ hsome =>
      hcluster ns name (ControlPlane.clusterReference_eq_some_iff.mp hsome)
  simp only [settle, Context.applyControlPlane, h, hnone]
  rfl

theorem settle_of_cluster {ctx : Context} {config : Config} {plane : ControlPlane}
    {place ns name : String} (h : plane.metadata.ns = some place)
    (hcluster : plane.NamesCluster ns name) :
    settle ctx config (some plane) = .ok (new { ctx with
      controlPlane := some ⟨plane.metadata.shownName, some place⟩
      hostedCluster := some ⟨.hostedCluster, ns, name⟩
      highlyAvailable := decide (plane.spec.availability = some .highlyAvailable)
      platform := plane.spec.platform.elim .none PlatformSpec.type } config) := by
  have hsome := ControlPlane.clusterReference_eq_some_iff.mpr hcluster
  simp only [settle, Context.applyControlPlane, h, hsome, ControlPlane.isHighlyAvailable,
    beq_eq_decide]
  cases plane.spec.platform <;> rfl

/-- What is found settles the context, or the first thing missing is told. -/
theorem settled_settle (ctx : Context) (config : Config) (plane : ControlPlane) :
    Settled ctx config plane (settle ctx config (some plane)) where
  succeeds_iff := by
    constructor
    · rintro ⟨t, ht⟩
      cases hplace : plane.metadata.ns with
      | none =>
        rw [settle_of_no_namespace hplace] at ht
        cases ht
      | some place =>
        by_contra hnone
        rw [settle_of_no_cluster hplace fun ns name hcluster =>
          hnone ⟨place, ns, name, rfl, hcluster⟩] at ht
        cases ht
    · rintro ⟨place, ns, name, hplace, hcluster⟩
      exact ⟨_, settle_of_cluster hplace hcluster⟩
  completed place ns name hplace hcluster :=
    ⟨_, settle_of_cluster hplace hcluster, rfl, rfl⟩
  without_namespace := settle_of_no_namespace
  without_cluster _ := settle_of_no_cluster

/-- A discovery asks the included namespaces in the order of their bytes, up to the first that has a
control plane or refuses, and asks for nothing else. A refusal is its result. The first control
plane that is listed is the one that it is about: the tracker is for the workload that this control
plane names, or there is none. -/
theorem discover_takes_first_plane (client : Client κ) (ctx : Context) (config : Config)
    (s : Session (Chronicle κ) σ) :
    ctx.included.names.Pairwise (fun a b => Text.bytes a < Text.bytes b) ∧
    ∃ asked found, (discover client.recorded ctx config s).2.history = s.history ++ asked ∧
      Searched ctx.included.names asked found ∧
      (∀ f, found = .error f → (discover client.recorded ctx config s).1 = .error f) ∧
      (found = .ok none → (discover client.recorded ctx config s).1 = .error (.error (.discovery
        (DiscoveryFault.noControlPlane ctx.included.names).message))) ∧
      ∀ plane, found = .ok (some plane) →
        Settled ctx config plane (discover client.recorded ctx config s).1 := by
  refine ⟨ctx.included.sorted.imp fun h => Text.bytes_lt_of_lt h, ?_⟩
  obtain ⟨asked, hasked, hsearched⟩ := Adds.exists_new
    (fun found asked => Searched ctx.included.names asked found)
    (adds_findControlPlane client ctx.included.names) s
  rw [run_discover]
  refine ⟨asked, _, hasked, hsearched, ?_, ?_, ?_⟩
  · intro f hfound
    simp only [hfound]
    rfl
  · intro hfound
    simp only [hfound]
    rfl
  · intro plane hfound
    simp only [hfound]
    exact settled_settle ctx config plane

/-- A cluster in which one namespace has control planes. -/
def hosting (planes : List ControlPlane) : Client Unit where
  accepts _ := true
  reply request _ _ := match request with
    | .list _ _ => ⟨.ok [], 0, ()⟩
    | .readPause _ => ⟨.ok ⟨none, none⟩, 0, ()⟩
    | .writePause _ _ _ => ⟨.ok (), 0, ()⟩
    | .nodePools _ => ⟨.ok [], 0, ()⟩
    | .controlPlane _ => ⟨.ok none, 0, ()⟩
    | .controlPlanesIn ns => ⟨.ok (if ns = "clusters-prod" then planes else []), 0, ()⟩

def hostedPlane (name reference : String) : ControlPlane where
  metadata := { (default : Metadata) with
    name := some name
    ns := some "clusters-prod"
    annotations := some [(ControlPlane.clusterAnnotation, reference)] }
  spec := ⟨none, some ⟨.azure⟩, some .highlyAvailable⟩

def sampleIncluded : Context := .new "nightly" "openshift-adp" ["zone", "clusters-prod", "clusters"]

def discoveryStart : Session (Chronicle Unit) Unit := ⟨0, fun _ => 0, ⟨(), []⟩, ()⟩

/-- A second control plane is not looked at, whatever the first one names. -/
theorem discover_takes_first_of_two :
    (∃ t, (discover
        (hosting [hostedPlane "blue" "clusters/a/b", hostedPlane "green" "c/d"]).recorded
        sampleIncluded .standard discoveryStart).1 = .ok t ∧
      t.ctx.hostedCluster = some ⟨.hostedCluster, "clusters", "a/b"⟩ ∧
      t.progress.chain = .snapshotOnly) ∧
    (discover (hosting [hostedPlane "blue" "clusters/", hostedPlane "green" "c/d"]).recorded
      sampleIncluded .standard discoveryStart).1 = .error (.error (.discovery
        "HostedControlPlane clusters-prod/blue does not name its HostedCluster")) := by
  have hnames : sampleIncluded.included.names = ["clusters", "clusters-prod", "zone"] := by
    decide +kernel
  have hsettled : ∀ reference, Settled sampleIncluded .standard (hostedPlane "blue" reference)
      (discover (hosting [hostedPlane "blue" reference, hostedPlane "green" "c/d"]).recorded
        sampleIncluded .standard discoveryStart).1 := by
    intro reference
    obtain ⟨_, asked, found, hasked, hsearched, _, _, hplane⟩ := discover_takes_first_plane
      (hosting [hostedPlane "blue" reference, hostedPlane "green" "c/d"]) sampleIncluded .standard
      discoveryStart
    have hlast : asked.getLast? = some ⟨.controlPlanesIn "clusters-prod",
        .ok [hostedPlane "blue" reference, hostedPlane "green" "c/d"]⟩ := by
      rw [show asked = _ from hasked.symm, run_discover, hnames]
      rfl
    exact hplane _ (hsearched.found_of_getLast? hlast)
  refine ⟨?_, ?_⟩
  · obtain ⟨t, ht, hchain, hctx⟩ := (hsettled "clusters/a/b").completed "clusters-prod" "clusters"
      "a/b" rfl ⟨⟨_, rfl, rfl⟩, by decide, by decide, by decide⟩
    exact ⟨t, ht, by rw [hctx], by rw [hchain, hctx]; rfl⟩
  · refine (hsettled "clusters/").without_cluster "clusters-prod" rfl fun ns name hnames => ?_
    have hsome := ControlPlane.clusterReference_eq_some_iff.mpr hnames
    have hnone : (hostedPlane "blue" "clusters/").clusterReference = none := by rfl
    cases hnone.symm.trans hsome

end BackupWatch.Tracker
