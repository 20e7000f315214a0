import BackupWatch.Proofs.Server.Lists
import Mathlib.Data.Set.Card

/-!
What a check counts, in terms of the store. The places where a kind is listed do not overlap, so
that no stored object is listed twice, and together they are the scope of the kind. What is
counted is therefore each stored object of the backup once.
-/

namespace BackupWatch.Server

open Cluster Job Json Watch

variable {κ : Type}

/-- A stored object of a kind is where the backup looks for it, given the names of the included
namespaces. -/
def inScopeOf (ctx : Context) (names : List String) (kind : Kind) (o : Json) : Bool :=
  match kind with
  | .snapshotContent => (textAt o ["spec", "volumeSnapshotRef", "namespace"]).any names.contains
  | .snapshot => (metadataText o "namespace").any names.contains
  | .dataUpload | .volumeBackup => metadataText o "namespace" == some ctx.backupNamespace

def isCounted (ctx : Context) (names : List String) (leftovers : Leftovers) (kind : Kind)
    (o : Json) : Bool :=
  resourceOf o == (Served.ofKind kind).name && inScopeOf ctx names kind o
    && belongsTo ctx.backup o && !leftovers.contains kind (identityOf kind o)

/-- A list of a kind at a place shows an object, if it is of the resource. -/
def isAt (kind : Kind) (o : Json) (place : Option String) : Bool :=
  (Api.listNamespace kind place).all fun n => (keyOf o).ns == some n

section Places

variable {ctx : Context} {kind : Kind}

/-- The places of a kind do not overlap. -/
theorem pairwise_places (ctx : Context) (kind : Kind) :
    (places ctx kind).Pairwise fun place other => ∀ o,
      isAt kind o place = true → isAt kind o other = false := by
  cases kind with
  | snapshot =>
    refine List.pairwise_map.mpr (ctx.included.sorted.imp ?_)
    intro name other hlt o hname
    have hns : (keyOf o).ns = some name := by simpa [isAt, Api.listNamespace] using hname
    have hne : name ≠ other := fun heq => String.lt_irrefl name (heq ▸ hlt)
    simp [isAt, Api.listNamespace, hns, hne]
  | _ => exact List.pairwise_singleton _ _

theorem includes_of_ofList {names : List String} (h : ctx.included = .ofList names) :
    ctx.includes = names.contains := by
  funext ns
  rw [Bool.eq_iff_iff, Context.includes, Namespaces.contains, h, List.contains_iff_mem,
    Namespaces.mem_names_ofList, List.contains_iff_mem]

/-- Contents have one place, where all of them are. -/
theorem any_isAt_content (ctx : Context) (o : Json) :
    (places ctx .snapshotContent).any (isAt .snapshotContent o) = true := rfl

/-- The places of the other kinds are their scope. -/
theorem any_isAt {names : List String} (h : ctx.included = .ofList names)
    (hkind : kind ≠ .snapshotContent) (o : Json) :
    (places ctx kind).any (isAt kind o) = inScopeOf ctx names kind o := by
  cases kind with
  | snapshotContent => exact absurd rfl hkind
  | snapshot =>
    change (ctx.included.names.map some).any (isAt .snapshot o) =
      (metadataText o "namespace").any names.contains
    have hat : ∀ name, isAt .snapshot o (some name) = true ↔
        metadataText o "namespace" = some name := by
      simp [isAt, Api.listNamespace, keyOf]
    rw [List.any_map, ← includes_of_ofList h, Bool.eq_iff_iff, List.any_eq_true]
    simp only [Function.comp_apply, hat, Option.any_eq_true, Context.includes,
      Namespaces.contains, List.contains_iff_mem]
    constructor
    · intro hany
      obtain ⟨name, hmem, heq⟩ := hany
      exact ⟨name, heq, hmem⟩
    · intro hany
      obtain ⟨name, heq, hmem⟩ := hany
      exact ⟨name, hmem, heq⟩
  | dataUpload => exact Bool.or_false _
  | volumeBackup => exact Bool.or_false _

end Places

theorem countP_add_countP {α : Type} {list : List α} {p q : α → Bool}
    (h : ∀ a, p a = true → q a = false) :
    list.countP p + list.countP q = list.countP fun a => p a || q a := by
  induction list with
  | nil => rfl
  | cons a rest ih =>
    rw [List.countP_cons, List.countP_cons, List.countP_cons, ← ih]
    cases hp : p a with
    | true =>
      simp only [h a hp, Bool.true_or, if_true, Bool.false_eq_true, if_false]
      omega
    | false =>
      simp only [Bool.false_or, Bool.false_eq_true, if_false]
      omega

/-- Counts over parts that do not overlap make up the count over all of them. -/
theorem sum_countP {α β : Type} {list : List α} {parts : List β} {isIn : α → β → Bool}
    (h : parts.Pairwise fun part other => ∀ a, isIn a part = true → isIn a other = false)
    (p : α → Bool) :
    (parts.map fun part => list.countP fun a => isIn a part && p a).sum =
      list.countP fun a => parts.any (isIn a) && p a := by
  induction parts with
  | nil => simp
  | cons part rest ih =>
    obtain ⟨hpart, hrest⟩ := List.pairwise_cons.mp h
    have hapart : ∀ a, (isIn a part && p a) = true → (rest.any (isIn a) && p a) = false := by
      intro a ha
      simp only [Bool.and_eq_true] at ha
      have hnone : rest.any (isIn a) = false :=
        List.any_eq_false.mpr fun other hother => by simp [hpart other hother a ha.1]
      rw [hnone, Bool.false_and]
    rw [List.map_cons, List.sum_cons, ih hrest, countP_add_countP hapart]
    refine List.countP_congr fun a _ => ?_
    rw [List.any_cons, Bool.and_or_distrib_right]

/-- The number of different objects of a store with a property. -/
theorem ncard_eq_countP {store : Store} (h : (store.map keyOf).Nodup) (p : Json → Bool) :
    {o | o ∈ store ∧ p o = true}.ncard = store.countP p := by
  classical
  have hset : {o | o ∈ store ∧ p o = true} = ↑(store.filter p).toFinset := by
    ext o
    simp
  rw [hset, Set.ncard_coe_finset, List.toFinset_card_of_nodup ((List.Nodup.of_map _ h).filter p),
    List.countP_eq_length_filter]

section Count

variable {store : Store} {ctx : Context} {names : List String} {leftovers : Leftovers} {kind : Kind}

/-- An object is in scope as the fields of what is stored say. -/
theorem inScope_of_reflects (hincluded : ctx.included = .ofList names) {o : Json} {kept : Object}
    (h : Reflects kind o kept) :
    ((places ctx kind).any (isAt kind o) && inScope ctx kept) = inScopeOf ctx names kind o := by
  rw [inScope, h.same]
  by_cases hkind : kind = .snapshotContent
  · subst hkind
    rw [any_isAt_content, h.reference rfl, includes_of_ofList hincluded]
    rfl
  · rw [any_isAt hincluded hkind]
    cases kind with
    | snapshotContent => exact absurd rfl hkind
    | _ => exact Bool.and_true _

/-- An object that is listed and relevant is one that counts. -/
theorem isRelevant_of_reflects (hincluded : ctx.included = .ofList names) {o : Json}
    {kept : Object} (h : Reflects kind o kept) (hnamed : (metadataText o "name").isSome = true)
    (hresource : resourceOf o = (Served.ofKind kind).name) :
    ((places ctx kind).any (isAt kind o) && isRelevant kind ctx leftovers kept) =
      isCounted ctx names leftovers kind o := by
  have hscope := inScope_of_reflects hincluded h
  rw [isCounted, ← hscope, isRelevant, h.belongsTo hnamed, h.identity, h.same, hresource]
  cases (places ctx kind).any (isAt kind o) <;> cases inScope ctx kept <;>
    cases belongsTo ctx.backup o <;> simp

theorem countP_shown (place : Option String) (q : Object → Bool) :
    (shown store kind place).countP q = store.countP fun o => isAt kind o place &&
      (resourceOf o == (Served.ofKind kind).name && ((Object.read kind o).map q).getD false) := by
  rw [shown, List.countP_filterMap, Store.list, List.countP_filter]
  refine List.countP_congr fun o _ => ?_
  rw [isAt]
  cases resourceOf o == (Served.ofKind kind).name <;>
    cases (Api.listNamespace kind place).all fun n => (keyOf o).ns == some n <;> simp

/-- The relevant objects in the listing of a kind are the stored objects that count, each once. -/
theorem countP_listed (leftovers : Leftovers) (quality : Phase → Bool)
    (hincluded : ctx.included = .ofList names)
    (hwell : ∀ o ∈ store, resourceOf o = (Served.ofKind kind).name → WellFormed kind o) :
    (relevantIn kind ctx leftovers (listed ctx (shown store) kind)).countP
        (fun kept => quality kept.phase) =
      store.countP fun o => isCounted ctx names leftovers kind o && quality (phaseOf kind o) := by
  rw [relevantIn, List.countP_filter, listed, List.countP_flatMap]
  have hplace : (List.countP fun kept => quality kept.phase && isRelevant kind ctx leftovers kept) ∘
      shown store kind = fun place => store.countP fun o => isAt kind o place &&
        (resourceOf o == (Served.ofKind kind).name && ((Object.read kind o).map fun kept =>
          quality kept.phase && isRelevant kind ctx leftovers kept).getD false) :=
    funext fun place => countP_shown place _
  rw [hplace, sum_countP (pairwise_places ctx kind)]
  refine List.countP_congr fun o ho => ?_
  by_cases hresource : resourceOf o = (Served.ofKind kind).name
  · have hformed := hwell o ho hresource
    obtain ⟨kept, hkept⟩ := Option.isSome_iff_exists.mp hformed.readable
    have hreflects := hformed.reflects hkept
    rw [← isRelevant_of_reflects hincluded hreflects hformed.named hresource, hkept,
      ← hreflects.phase]
    simp only [hresource, beq_self_eq_true, Option.map_some, Option.getD_some, Bool.true_and,
      Bool.and_eq_true]
    tauto
  · have hnot : (resourceOf o == (Served.ofKind kind).name) = false := beq_false_of_ne hresource
    simp [isCounted, hnot]

end Count

def countedIn (store : Store) (ctx : Context) (names : List String) (leftovers : Leftovers)
    (kind : Kind) (phases : List Phase) : Set Json :=
  {o | o ∈ store ∧ isCounted ctx names leftovers kind o = true ∧ phaseOf kind o ∈ phases}

/-- With unique keys the counted objects are as many as the entries of the store that count. -/
theorem ncard_countedIn {store : Store} (h : (store.map keyOf).Nodup) (ctx : Context)
    (names : List String) (leftovers : Leftovers) (kind : Kind) (phases : List Phase) :
    (countedIn store ctx names leftovers kind phases).ncard =
      store.countP fun o => isCounted ctx names leftovers kind o &&
        phases.contains (phaseOf kind o) := by
  rw [← ncard_eq_countP h]
  congr 1
  ext o
  simp [countedIn]

/-- On a store of well-formed objects, none of which has failed, a check counts each stored object
of the backup once: those that are complete, and those that are new or in progress. -/
theorem check_counts_stored_objects_once {api : Api κ} {standing : κ → Prop} {store : Store}
    {ctx : Context} {names : List String} {checker : Checker} {s : Session κ JobState}
    (hserves : Serves api standing store) (hs : standing s.cluster)
    (hunique : (store.map keyOf).Nodup)
    (hwell : ∀ kind, ∀ o ∈ store, resourceOf o = (Served.ofKind kind).name → WellFormed kind o)
    (hincluded : ctx.included = .ofList names)
    (hnames : ∀ name ∈ ctx.backupNamespace :: names, ValidName name)
    (hopen : (s.own.completion.get checker.kind).finished = false)
    (hbuilt : s.own.leftovers.isBuilt checker.kind = true)
    (hnofail : countedIn store ctx names s.own.leftovers checker.kind [.failed] = ∅) :
    ∃ outcome later, check api.client ctx checker s = (.ok outcome, later) ∧
      outcome.completed =
        (countedIn store ctx names s.own.leftovers checker.kind [.completed]).ncard ∧
      outcome.pending =
        (countedIn store ctx names s.own.leftovers checker.kind [.new, .inProgress]).ncard := by
  have hincludedNames : ∀ ns ∈ ctx.included.names, ValidName ns := by
    intro ns hns
    rw [hincluded, Namespaces.mem_names_ofList] at hns
    exact hnames ns (List.mem_cons_of_mem _ hns)
  have hstands : api.client.Stands ctx standing (shown store) :=
    stands_client hserves (hnames _ (List.mem_cons_self ..)) hincludedNames
      fun kind o ho hresource => (hwell kind o ho hresource).readable
  obtain ⟨hresult, hown, _⟩ := asSaid_check hstands checker hs
  have hcount := fun quality => countP_listed s.own.leftovers quality hincluded (hwell checker.kind)
  have hfind : (relevantIn checker.kind ctx s.own.leftovers
      (listed ctx (shown store) checker.kind)).find? hasFailed = none := by
    have hnone := hcount fun phase => [Phase.failed].contains phase
    rw [← ncard_countedIn hunique, hnofail, Set.ncard_empty, List.countP_eq_zero] at hnone
    refine List.find?_eq_none.mpr fun kept hkept => ?_
    simpa [hasFailed] using hnone kept hkept
  rw [inspect_of_isBuilt _ hopen hbuilt, hfind] at hresult
  rcases hrun : check api.client ctx checker s with ⟨result, later⟩
  rw [hrun] at hresult
  obtain rfl := hresult
  refine ⟨_, later, rfl, ?_, ?_⟩
  · rw [ncard_countedIn hunique, ← hcount]
    refine List.countP_congr fun kept _ => ?_
    simp [isComplete]
  · rw [ncard_countedIn hunique, ← hcount fun phase => [.new, .inProgress].contains phase]
    refine List.countP_congr fun kept _ => ?_
    simp [isPending]

def rawSnapshot (ns name backup : String) (ready : Bool) : Json :=
  .object [("kind", .string "VolumeSnapshot"),
    ("metadata", .object [("name", .string name), ("namespace", .string ns),
      ("labels", .object [(backupLabel, .string backup)])]),
    ("spec", .object []), ("status", .object [("readyToUse", .bool ready)])]

/-- Of the snapshots of the backup one is complete, two are in progress, one is a leftover and one
lies elsewhere. The last snapshot belongs to another backup. -/
def snapshotStore : Store :=
  [rawSnapshot "clusters" "volume-0" "nightly" true,
    rawSnapshot "clusters" "volume-1" "nightly" false,
    rawSnapshot "clusters-prod" "volume-0" "nightly" false,
    rawSnapshot "clusters-prod" "volume-2" "nightly" true,
    rawSnapshot "elsewhere" "volume-0" "nightly" true,
    rawSnapshot "clusters" "volume-3" "weekly" true]

/-- The included namespaces are neither in order nor each given once. -/
def snapshotNames : List String := ["clusters-prod", "clusters", "clusters-prod"]

def snapshotContext : Context := .new "nightly" "openshift-adp" snapshotNames

def snapshotStart : Session State JobState where
  clock := 0
  dice _ := 0
  cluster := { State.empty with objects := snapshotStore }
  own :=
    ⟨⟨(PerKind.same none).set .snapshot (some [⟨"volume-2", some "clusters-prod"⟩])⟩,
      .same ⟨false, false⟩⟩

def snapshotChecker : Checker := ⟨.snapshot, false⟩

theorem check_counts_stored_snapshots_once :
    ∃ outcome later,
      check client snapshotContext snapshotChecker snapshotStart = (.ok outcome, later) ∧
      outcome.completed = 1 ∧ outcome.pending = 2 := by
  have hunique : (snapshotStore.map keyOf).Nodup := by decide +kernel
  have hwell : ∀ kind, ∀ o ∈ snapshotStore, resourceOf o = (Served.ofKind kind).name →
      WellFormed kind o := by
    intro kind
    cases kind <;> decide +kernel
  have hnames : ∀ name ∈ snapshotContext.backupNamespace :: snapshotNames, ValidName name := by
    decide +kernel
  have hopen : (snapshotStart.own.completion.get snapshotChecker.kind).finished = false := rfl
  have hbuilt : snapshotStart.own.leftovers.isBuilt snapshotChecker.kind = true := rfl
  have hnofail : countedIn snapshotStore snapshotContext snapshotNames
      snapshotStart.own.leftovers snapshotChecker.kind [.failed] = ∅ := by
    refine Set.eq_empty_iff_forall_notMem.mpr fun o ho => ?_
    have hnone : ∀ o ∈ snapshotStore, ¬ phaseOf .snapshot o ∈ [Phase.failed] := by decide +kernel
    exact hnone o ho.1 ho.2.2
  have hquiet : Quiet snapshotStore snapshotStart.cluster := ⟨rfl, rfl, rfl⟩
  have hincluded : snapshotContext.included = .ofList snapshotNames := rfl
  obtain ⟨outcome, later, hrun, hcompleted, hpending⟩ := check_counts_stored_objects_once
    (serves_quiet snapshotStore) hquiet hunique hwell hincluded hnames hopen hbuilt hnofail
  rw [ncard_countedIn hunique] at hcompleted hpending
  exact ⟨outcome, later, hrun, hcompleted.trans (by decide +kernel),
    hpending.trans (by decide +kernel)⟩

end BackupWatch.Server
