import BackupWatch.Proofs.Job.Standing
import BackupWatch.Proofs.Server.Pools
import BackupWatch.Proofs.Server.Watched

/-!
Lists from a store. The names of namespaces pass through the target of a request unharmed, so that
a list is answered with the stored objects of the namespace, each read as one of its kind.
-/

namespace BackupWatch.Server

open Cluster Job Json Watch

variable {κ : Type}

def isNameChar (c : Char) : Bool :=
  'a' ≤ c && c ≤ 'z' || '0' ≤ c && c ≤ '9' || c == '-' || c == '.'

/-- What all Kubernetes names have in common. -/
structure ValidName (name : String) : Prop where
  short : name.length ≤ 253
  chars : ∀ c ∈ name.toList, isNameChar c = true

instance (name : String) : Decidable (ValidName name) :=
  decidable_of_iff (name.length ≤ 253 ∧ name.toList.all isNameChar = true)
    ⟨fun ⟨short, chars⟩ => ⟨short, List.all_eq_true.mp chars⟩,
      fun h => ⟨h.short, List.all_eq_true.mpr h.chars⟩⟩

/-- A character of one byte that a target may hold anywhere. -/
def isHarmless (c : Char) : Bool :=
  !Call.isForbidden c && c.toNat != 0x60 && c != '"' && c.utf8Size == 1

theorem toNat_of_isNameChar {c : Char} (h : isNameChar c = true) :
    0x2D ≤ c.toNat ∧ c.toNat ≤ 0x7A ∧ c.toNat ≠ 0x60 ∧ c.toNat ≠ 0x3C ∧ c.toNat ≠ 0x3E := by
  simp only [isNameChar, Bool.or_eq_true, Bool.and_eq_true, decide_eq_true_eq, beq_iff_eq] at h
  rcases h with ((⟨hlow, hhigh⟩ | ⟨hlow, hhigh⟩) | rfl) | rfl
  · have hlow' : 97 ≤ c.toNat := hlow
    have hhigh' : c.toNat ≤ 122 := hhigh
    omega
  · have hlow' : 48 ≤ c.toNat := hlow
    have hhigh' : c.toNat ≤ 57 := hhigh
    omega
  · decide
  · decide

/-- The characters of a name mean nothing to a URL. -/
theorem isHarmless_of_isNameChar {c : Char} (h : isNameChar c = true) : isHarmless c = true := by
  obtain ⟨hlow, hhigh, htick, hless, hmore⟩ := toNat_of_isNameChar h
  have hne : ∀ d : Char, c.toNat ≠ d.toNat → c ≠ d := fun d hd heq => hd (congrArg Char.toNat heq)
  have hsize : c.utf8Size = 1 := by
    have hval : c.val.toNat ≤ 127 := Nat.le_trans hhigh (by decide)
    exact Char.utf8Size_eq_one_iff.mpr (UInt32.le_iff_toNat_le.mpr hval)
  have hquote : c ≠ '"' := hne '"' (by change c.toNat ≠ 34; omega)
  have hbefore : c ≠ '<' := hne '<' hless
  have hbehind : c ≠ '>' := hne '>' hmore
  have hcontrol : ¬ c.toNat ≤ 0x20 := by omega
  have hdelete : c.toNat ≠ 0x7F := by omega
  simp [isHarmless, Call.isForbidden, hcontrol, hdelete, htick, hquote, hbefore, hbehind, hsize]

theorem size_of_harmless {cs : List Char} (h : ∀ c ∈ cs, isHarmless c = true) (start : Nat) :
    cs.foldl (fun size c => size + c.utf8Size) start = start + cs.length := by
  induction cs generalizing start with
  | nil => rfl
  | cons c rest ih =>
    have hone : c.utf8Size = 1 := by
      have hc := h c (List.mem_cons_self ..)
      simp only [isHarmless, Bool.and_eq_true, beq_iff_eq] at hc
      exact hc.2
    rw [List.foldl_cons, ih fun d hd => h d (List.mem_cons_of_mem c hd), hone, List.length_cons]
    omega

/-- A text of harmless characters that is not too long is a request target. -/
theorem isTarget_of_harmless {cs : List Char} (h : ∀ c ∈ cs, isHarmless c = true)
    (hsize : cs.length ≤ Call.targetLimit) : Call.isTarget cs = true := by
  have hjudged : ∀ c ∈ cs.takeWhile (· != '#'), isHarmless c = true :=
    fun c hc => h c ((List.takeWhile_sublist _).subset hc)
  have hplace : ∀ c ∈ (cs.takeWhile (· != '#')).takeWhile (· != '?'), isHarmless c = true :=
    fun c hc => hjudged c ((List.takeWhile_sublist _).subset hc)
  have hquery : ∀ c ∈ (cs.takeWhile (· != '#')).dropWhile (· != '?'), isHarmless c = true :=
    fun c hc => hjudged c ((List.dropWhile_sublist _).subset hc)
  simp only [isHarmless, Bool.and_eq_true] at hjudged hplace hquery
  simp only [Call.isTarget, size_of_harmless h, Nat.zero_add, Bool.and_eq_true, decide_eq_true_eq,
    List.all_eq_true]
  exact ⟨⟨⟨hsize, fun c hc => (hjudged c hc).1.1.1⟩, fun c hc => (hplace c hc).1.1.2⟩,
    fun c hc => (hquery c hc).1.2⟩

namespace ValidName

variable {name : String} (h : ValidName name)

include h

theorem not_mem {c : Char} (hc : isNameChar c = false) : c ∉ name.toList := by
  intro hmem
  cases hc.symm.trans (h.chars c hmem)

theorem whole : Whole name.toList := ⟨h.not_mem (by decide), h.not_mem (by decide)⟩

theorem slash : '/' ∉ name.toList := h.not_mem (by decide)

end ValidName

/-- The parts of a target that do not hang on a namespace. -/
def frame (r : Served) : List Char :=
  ("/apis/" ++ r.groupVersion ++ "/").toList ++ Call.scopeWord ++ ['/'] ++ r.name.toList ++ ['?']

theorem harmless_frame (r : Served) :
    (frame r).all isHarmless = true ∧ (frame r).length ≤ 100 := by
  cases r <;> decide +kernel

/-- The request for a listing can be built from any valid name. -/
theorem canBuild_list (r : Served) {place : Option String} (h : ∀ ns ∈ place, ValidName ns) :
    (Call.list r place).canBuild = true := by
  obtain ⟨hframe, hlength⟩ := harmless_frame r
  simp only [frame, List.all_eq_true, List.mem_append, List.length_append] at hframe hlength
  rw [Call.canBuild, Call.hasName, Bool.true_and]
  refine isTarget_of_harmless (fun c hc => ?_) ?_
  · simp only [Call.target, Call.path, Call.resource, List.mem_append] at hc
    cases place with
    | none =>
      simp only [Call.scope, List.not_mem_nil, false_or] at hc
      exact hframe c (by tauto)
    | some ns =>
      simp only [Call.scope, List.mem_append] at hc
      by_cases hns : c ∈ ns.toList
      · exact isHarmless_of_isNameChar ((h ns rfl).chars c hns)
      · exact hframe c (by tauto)
  · simp only [Call.target, Call.path, Call.resource, List.length_append, Call.targetLimit]
    cases place with
    | none =>
      simp only [Call.scope, List.length_nil]
      omega
    | some ns =>
      have hshort : ns.toList.length ≤ 253 := (h ns rfl).short
      simp only [Call.scope, List.length_append]
      omega

/-- A list of all namespaces is asked for without a scope. -/
theorem ofCall_list_all (r : Served) :
    Route.ofCall (.list r none) = ⟨.list, r.groupVersion, r.name, none, none⟩ := by
  cases r <;> decide

/-- Both lists of a kind that are asked for lead to their objects. -/
theorem ofCall_list_of_valid (r : Served) {place : Option String} (h : ∀ ns ∈ place, ValidName ns) :
    Route.ofCall (.list r place) = ⟨.list, r.groupVersion, r.name, place, none⟩ := by
  cases place with
  | none => exact ofCall_list_all r
  | some ns => exact ofCall_list r (h ns rfl).whole (h ns rfl).slash

/-- While a cluster stands, its API answers lists off a store. A resource that is not served is not
found, and there are no objects of it. -/
structure Serves (api : Api κ) (standing : κ → Prop) (store : Store) : Prop where
  answers : ∀ call clock cluster, standing cluster → (Route.ofCall call).verb = .list →
    (api.serve call clock cluster).1 =
        .ok (listing (store.list (Route.ofCall call).resource (Route.ofCall call).ns)) ∨
      ∃ status, (api.serve call clock cluster).1 = .error status ∧ status.code = 404 ∧
        ∀ o ∈ store, resourceOf o ≠ (Route.ofCall call).resource
  stands : ∀ call clock cluster, standing cluster → (Route.ofCall call).verb = .list →
    standing (api.serve call clock cluster).2

/-- A server with a store, to which nothing happens. -/
structure Quiet (store : Store) (s : State) : Prop where
  objects : s.objects = store
  rules : s.rules = []
  events : s.events = []

theorem serve_of_quiet {store : Store} {s : State} (h : Quiet store s) {route : Route}
    (hverb : route.verb = .list) (clock : Nat) :
    s.serve route clock = (.ok (listing (store.list route.resource route.ns)),
      { s with log := ⟨route, 200⟩ :: s.log }) := by
  obtain ⟨objects, rules, events, propagations, log⟩ := s
  obtain ⟨rfl, rfl, rfl⟩ := h
  simp [State.serve, State.settle, State.attempt, State.alter, State.mutateAll, firstFailure,
    alterations, perform, echoes, hverb, codeOf]

theorem serves_quiet (store : Store) : Serves api (Quiet store) store where
  answers call clock s hs hverb := by
    refine Or.inl ?_
    change (s.serve (.ofCall call) clock).1 = _
    rw [serve_of_quiet hs hverb]
  stands call clock s hs hverb := by
    change Quiet store (s.serve (.ofCall call) clock).2
    rw [serve_of_quiet hs hverb]
    exact ⟨hs.objects, hs.rules, hs.events⟩

/-- The stored objects that a list of a kind shows, as they are kept. -/
def shown (store : Store) (kind : Kind) (place : Option String) : List Object :=
  (store.list (Served.ofKind kind).name (Api.listNamespace kind place)).filterMap (Object.read kind)

theorem mapM_eq_filterMap {α β : Type} {f : α → Option β} {list : List α}
    (h : ∀ a ∈ list, (f a).isSome = true) : list.mapM f = some (list.filterMap f) := by
  induction list with
  | nil => rfl
  | cons a rest ih =>
    obtain ⟨b, hb⟩ := Option.isSome_iff_exists.mp (h a (List.mem_cons_self ..))
    rw [List.mapM_cons, hb, ih fun c hc => h c (List.mem_cons_of_mem a hc),
      List.filterMap_cons_some hb]
    rfl

/-- If each stored object of a kind can be read, the answer lists all of them. -/
theorem answerOf_listing {store : Store} {kind : Kind} {place : Option String}
    (hread : ∀ o ∈ store, resourceOf o = (Served.ofKind kind).name →
      (Object.read kind o).isSome = true) :
    Api.answerOf (.list kind place) (.ok (listing (store.list (Served.ofKind kind).name
      (Api.listNamespace kind place)))) = .ok (shown store kind place) := by
  have hall : ∀ o ∈ store.list (Served.ofKind kind).name (Api.listNamespace kind place),
      (Object.read kind o).isSome = true := by
    intro o ho
    obtain ⟨hmem, hlisted⟩ := List.mem_filter.mp ho
    simp only [Bool.and_eq_true, beq_iff_eq] at hlisted
    exact hread o hmem hlisted.1
  change Api.decode (Api.readList (Object.read kind)) _ = _
  have hlist : ∀ items, Api.readList (Object.read kind) (listing items) =
      items.mapM (Object.read kind) := fun _ => rfl
  rw [Api.decode, hlist, mapM_eq_filterMap hall]
  rfl

/-- A kind that the server does not know is answered with no objects. -/
theorem answerOf_unserved {store : Store} {kind : Kind} {place : Option String}
    {status : ApiStatus} (hcode : status.code = 404)
    (hnone : ∀ o ∈ store, resourceOf o ≠ (Served.ofKind kind).name) :
    Api.answerOf (.list kind place) (.error (Api.refusal status)) =
      .ok (shown store kind place) := by
  have hempty : shown store kind place = [] := by
    have hlist : store.list (Served.ofKind kind).name (Api.listNamespace kind place) = [] := by
      refine List.filter_eq_nil_iff.mpr fun o ho => ?_
      simp [hnone o ho]
    rw [shown, hlist]
    rfl
  have hmissing : (Api.refusal status).isNotFound = true := by
    simp [Api.refusal, Error.isNotFound, hcode]
  rw [hempty]
  change (if (Api.refusal status).isNotFound then .ok [] else .error (Api.refusal status) :
    Except Error (List Object)) = .ok []
  rw [if_pos hmissing]

theorem valid_listNamespace (kind : Kind) {place : Option String}
    (h : ∀ ns ∈ place, ValidName ns) : ∀ ns ∈ Api.listNamespace kind place, ValidName ns := by
  cases kind with
  | snapshotContent => exact fun ns hns => by cases hns
  | _ => exact h

theorem callOf_list (kind : Kind) (place : Option String) :
    Api.callOf (.list kind place) = .list (.ofKind kind) (Api.listNamespace kind place) := rfl

theorem accepts_list (api : Api κ) {kind : Kind} {place : Option String}
    (h : ∀ ns ∈ place, ValidName ns) : api.client.accepts (.list kind place) = true := by
  have haccepts : ∀ request, api.client.accepts request = (Api.callOf request).canBuild :=
    fun _ => rfl
  rw [haccepts, callOf_list]
  exact canBuild_list (.ofKind kind) (valid_listNamespace kind h)

/-- A request that can be built is sent, and its answer is read. -/
theorem reply_of_accepts (api : Api κ) {request : Request} (h : api.client.accepts request = true)
    (clock : Nat) (cluster : κ) :
    (api.client.reply request clock cluster).result =
        Api.answerOf request
          ((api.serve (Api.callOf request) clock cluster).1.mapError Api.refusal) ∧
      (api.client.reply request clock cluster).cluster =
        (api.serve (Api.callOf request) clock cluster).2 := by
  change Api.answerOf request (api.request (Api.callOf request) clock cluster).1 = _ ∧
    (api.request (Api.callOf request) clock cluster).2 = _
  have hbuild : (Api.callOf request).canBuild = true := h
  rw [Api.request, if_pos hbuild]
  exact ⟨rfl, rfl⟩

/-- A list of a kind, at names that are valid, gives the stored objects and changes nothing. -/
theorem reply_list {api : Api κ} {standing : κ → Prop} {store : Store}
    (hserves : Serves api standing store) {kind : Kind} {place : Option String}
    (hplace : ∀ ns ∈ place, ValidName ns)
    (hread : ∀ o ∈ store, resourceOf o = (Served.ofKind kind).name →
      (Object.read kind o).isSome = true)
    (clock : Nat) {cluster : κ} (hs : standing cluster) :
    (api.client.reply (.list kind place) clock cluster).result = .ok (shown store kind place) ∧
      standing (api.client.reply (.list kind place) clock cluster).cluster := by
  have hroute := ofCall_list_of_valid (.ofKind kind) (valid_listNamespace kind hplace)
  rw [← callOf_list] at hroute
  have hverb : (Route.ofCall (Api.callOf (.list kind place))).verb = .list :=
    congrArg Route.verb hroute
  have hanswers := hserves.answers _ clock cluster hs hverb
  rw [hroute] at hanswers
  obtain ⟨hresult, hcluster⟩ := reply_of_accepts api (accepts_list api hplace) clock cluster
  refine ⟨hresult.trans ?_, ?_⟩
  · rcases hanswers with hlist | ⟨status, herror, hcode, hnone⟩
    · rw [hlist]
      exact answerOf_listing hread
    · rw [herror]
      exact answerOf_unserved hcode hnone
  · rw [hcluster]
    exact hserves.stands _ clock cluster hs hverb

/-- A client of the API gets the stored objects, for a backup whose namespaces have valid names. -/
theorem stands_client {api : Api κ} {standing : κ → Prop} {store : Store} {ctx : Context}
    (hserves : Serves api standing store) (hbackup : ValidName ctx.backupNamespace)
    (hincluded : ∀ ns ∈ ctx.included.names, ValidName ns)
    (hread : ∀ kind, ∀ o ∈ store, resourceOf o = (Served.ofKind kind).name →
      (Object.read kind o).isSome = true) :
    api.client.Stands ctx standing (shown store) := by
  have hplaces : ∀ kind, ∀ place ∈ places ctx kind, ∀ ns ∈ place, ValidName ns := by
    intro kind place hplace ns hns
    unfold places at hplace
    cases hscope : kind.scope with
    | cluster =>
      rw [hscope] at hplace
      cases List.mem_singleton.mp hplace
      cases hns
    | backupNamespace =>
      rw [hscope] at hplace
      cases List.mem_singleton.mp hplace
      cases hns
      exact hbackup
    | includedNamespaces =>
      rw [hscope] at hplace
      obtain ⟨name, hname, rfl⟩ := List.mem_map.mp hplace
      cases hns
      exact hincluded ns hname
  refine ⟨fun kind place hplace => ?_, ?_, ?_⟩
  · exact accepts_list api (hplaces kind place hplace)
  · intro kind place hplace clock cluster hs
    exact (reply_list hserves (hplaces kind place hplace) (hread kind) clock hs).1
  · intro kind place hplace clock cluster hs
    exact (reply_list hserves (hplaces kind place hplace) (hread kind) clock hs).2

end BackupWatch.Server
