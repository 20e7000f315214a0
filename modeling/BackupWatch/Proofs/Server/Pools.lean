import BackupWatch.Proofs.Server.Shared
import Mathlib.Data.List.TakeWhile

/-!
Well-formed objects: their names lead a request to them, and their specifications can be read field
by field. The node pools that a client is told of are just those that name the hosted cluster as
their own, in its namespace.
-/

namespace BackupWatch.Server

open Cluster Json Resource

/-- A text that a path can hold without being cut short. -/
structure Whole (cs : List Char) : Prop where
  mark : '?' ∉ cs
  sign : '#' ∉ cs

/-- Names that a path can hold without being cut short or parted elsewhere. -/
structure Plain (ns name : String) : Prop where
  whole_ns : Whole ns.toList
  slash : '/' ∉ ns.toList
  whole_name : Whole name.toList
  named : name ≠ ""

/-- An object with plain names, and with a specification that has fields. -/
structure Proper (o : Json) : Prop where
  names : ∃ ns name, metadataText o "namespace" = some ns ∧ metadataText o "name" = some name ∧
    Plain ns name
  spec : ∃ spec, o.member? "spec" = some (.object spec)

theorem bne_of_not_mem {cs : List Char} (h : '/' ∉ cs) : ∀ c ∈ cs, (c != '/') = true := by
  intro c hc
  simpa using fun heq : c = '/' => h (heq ▸ hc)

theorem splitSlash_append {cs : List Char} (h : '/' ∉ cs) (rest : List Char) :
    Route.splitSlash (cs ++ '/' :: rest) = (cs, some rest) := by
  simp [Route.splitSlash, List.takeWhile_append_of_pos (bne_of_not_mem h),
    List.dropWhile_append_of_pos (bne_of_not_mem h)]

theorem splitSlash_of_not_mem {cs : List Char} (h : '/' ∉ cs) :
    Route.splitSlash cs = (cs, none) := by
  rw [Route.splitSlash, List.takeWhile_eq_self_iff.mpr (bne_of_not_mem h),
    List.dropWhile_eq_nil_iff.mpr (bne_of_not_mem h)]
  rfl

/-- The namespace of a path is found again in it. -/
theorem splitScope_scope {ns : String} (h : '/' ∉ ns.toList) (rest : List Char) :
    Route.splitScope (Call.scope (some ns) ++ rest) = (some ns.toList, rest) := by
  have hpath : Call.scope (some ns) ++ rest = Call.scopeWord ++ (ns.toList ++ '/' :: rest) := by
    simp [Call.scope, List.append_assoc]
  rw [hpath, Route.splitScope, isPrefixOf?_append_self]
  simp only [splitSlash_append h, Option.getD_some]

theorem Whole.append {cs rest : List Char} (h : Whole cs) (h' : Whole rest) :
    Whole (cs ++ rest) :=
  ⟨fun hmem => (List.mem_append.mp hmem).elim h.mark h'.mark,
    fun hmem => (List.mem_append.mp hmem).elim h.sign h'.sign⟩

/-- A path without a query is seen as it is. -/
theorem Whole.seen {path : List Char} (h : Whole path) : Route.seen path = path := by
  refine List.takeWhile_eq_self_iff.mpr fun c hc => ?_
  have hmark : c ≠ '?' := fun heq => h.mark (heq ▸ hc)
  have hsign : c ≠ '#' := fun heq => h.sign (heq ▸ hc)
  simp [hmark, hsign]

theorem whole_scope {ns : String} (h : Whole ns.toList) : Whole (Call.scope (some ns)) := by
  have hword : Whole Call.scopeWord := ⟨by decide, by decide⟩
  exact (hword.append h).append ⟨by decide, by decide⟩

theorem plain_name (r : Served) : '/' ∉ r.name.toList ∧ Whole r.name.toList := by
  cases r <;> exact ⟨by decide, by decide, by decide⟩

/-- A listing goes to the route of its resource, in its namespace. -/
theorem ofCall_list (r : Served) {ns : String} (h : Whole ns.toList) (hslash : '/' ∉ ns.toList) :
    Route.ofCall (.list r (some ns)) = ⟨.list, r.groupVersion, r.name, some ns, none⟩ := by
  obtain ⟨hone, hwhole⟩ := plain_name r
  simp only [Route.ofCall, Call.path, ((whole_scope h).append hwhole).seen,
    splitScope_scope hslash, splitSlash_of_not_mem hone, Route.verbOf, Call.resource]
  simp

/-- A request for an object with plain names leads to its place. -/
theorem keyAt_get (r : Served) {ns name : String} (h : Plain ns name) :
    keyAt (.ofCall (.get r (some ns) name)) = ⟨r.name, some ns, some name⟩ := by
  obtain ⟨hone, hwhole⟩ := plain_name r
  have hslash : Whole ['/'] := ⟨by decide, by decide⟩
  have hrest : Whole (r.name.toList ++ '/' :: name.toList) :=
    hwhole.append (hslash.append h.whole_name)
  simp only [keyAt, Route.ofCall, Call.path, List.append_assoc,
    ((whole_scope h.whole_ns).append hrest).seen, splitScope_scope h.slash, splitSlash_append hone]
  simp

theorem placeOf_of_plain {object : Managed} (h : Plain object.ns object.name) :
    placeOf object = ⟨(Served.ofManaged object.kind).name, some object.ns, some object.name⟩ :=
  keyAt_get _ h

/-- A raw node pool of a hosted cluster. -/
structure OwnedBy (cluster : Managed) (o : Json) : Prop where
  resource : resourceOf o = Served.nodePool.name
  ns : metadataText o "namespace" = some cluster.ns
  clusterName : clusterNameOf o = some cluster.name

/-- Whose pool an object is does not depend on its pause field. -/
theorem ownedBy_setPause {cluster : Managed} {o : Json} {value : String} :
    OwnedBy cluster (setPause (some value) o) ↔ OwnedBy cluster o := by
  have hkey := keyOf_setPause o value
  have hresource : resourceOf (setPause (some value) o) = resourceOf o :=
    congrArg Key.resource hkey
  have hns : metadataText (setPause (some value) o) "namespace" = metadataText o "namespace" :=
    congrArg Key.ns hkey
  have hname : clusterNameOf (setPause (some value) o) = clusterNameOf o :=
    congrArg (Option.bind · Json.text?) (spec_member_setPause o value (by decide))
  constructor
  · intro h
    exact ⟨hresource.symm.trans h.resource, hns.symm.trans h.ns, hname.symm.trans h.clusterName⟩
  · intro h
    exact ⟨hresource.trans h.resource, hns.trans h.ns, hname.trans h.clusterName⟩

/-- A patch to the pause field leaves an object proper. -/
theorem Proper.setPause {o : Json} (h : Proper o) (value : String) :
    Proper (setPause (some value) o) := by
  have hkey := keyOf_setPause o value
  obtain ⟨ns, name, hns, hname, hplain⟩ := h.names
  obtain ⟨spec, hspec⟩ := h.spec
  refine ⟨⟨ns, name, (congrArg Key.ns hkey).trans hns, (congrArg Key.name hkey).trans hname,
    hplain⟩, ?_⟩
  rw [spec_setPause, hspec]
  exact ⟨_, rfl⟩

/-- All items of a list are read, and nothing else is. -/
theorem mem_of_mapM {α β : Type} {f : α → Option β} {list : List α} {results : List β}
    (h : list.mapM f = some results) :
    (∀ a ∈ list, ∃ b ∈ results, f a = some b) ∧ ∀ b ∈ results, ∃ a ∈ list, f a = some b := by
  induction list generalizing results with
  | nil =>
    cases h
    simp
  | cons a rest ih =>
    rw [List.mapM_cons] at h
    obtain ⟨b, hb, h⟩ := Option.bind_eq_some_iff.mp h
    obtain ⟨later, hlater, h⟩ := Option.bind_eq_some_iff.mp h
    cases h
    obtain ⟨hread, hfrom⟩ := ih hlater
    constructor
    · intro a' ha'
      rcases List.mem_cons.mp ha' with rfl | hmem
      · exact ⟨b, List.mem_cons_self .., hb⟩
      · obtain ⟨b', hb', hf⟩ := hread a' hmem
        exact ⟨b', List.mem_cons_of_mem b hb', hf⟩
    · intro b' hb'
      rcases List.mem_cons.mp hb' with rfl | hmem
      · exact ⟨a, List.mem_cons_self .., hb⟩
      · obtain ⟨a', ha', hf⟩ := hfrom b' hmem
        exact ⟨a', List.mem_cons_of_mem a ha', hf⟩

/-- The answer to a list is made of all items, each of which could be read. -/
theorem exists_mapM_of_answer {cluster : Managed} {pools : List Managed} {d : Deal}
    {items : List Json} (h : answer (.nodePools cluster) d = .ok pools)
    (hresult : d.result = .ok (listing items)) :
    ∃ read, items.mapM NodePool.read = some read ∧ pools = Api.poolsOf cluster read := by
  have hlist : Api.readList NodePool.read (listing items) = items.mapM NodePool.read := rfl
  unfold answer at h
  rw [hresult] at h
  change (Api.decode (Api.readList NodePool.read) (listing items)).map (Api.poolsOf cluster) =
    .ok pools at h
  rw [Api.decode, hlist] at h
  cases hread : items.mapM NodePool.read with
  | none =>
    rw [hread] at h
    cases h
  | some read =>
    rw [hread] at h
    exact ⟨read, rfl, (Except.ok.inj h).symm⟩

/-- A refused list is an answer only as not found, and then one without pools. -/
theorem answer_of_refused {cluster : Managed} {pools : List Managed} {d : Deal}
    {status : ApiStatus} (hresult : d.result = .error status)
    (h : answer (.nodePools cluster) d = .ok pools) :
    pools = [] ∧ (Api.refusal status).isNotFound = true := by
  unfold answer at h
  rw [hresult] at h
  change (if (Api.refusal status).isNotFound = true then .ok []
    else .error (Api.refusal status) : Except Error (List NodePool)).map (Api.poolsOf cluster) =
      .ok pools at h
  split at h
  · next hmissing =>
    cases h
    exact ⟨rfl, hmissing⟩
  · cases h

/-- A listing holds the stored objects of its resource in its namespace. -/
theorem mem_list {store : Store} {resource ns : String} {o : Json} :
    o ∈ store.list resource (some ns) ↔
      o ∈ store ∧ resourceOf o = resource ∧ metadataText o "namespace" = some ns := by
  simp [Store.list, keyOf]

/-- A list of the node pools is refused, or it shows those in the namespace. -/
theorem Deal.Fair.lists {d : Deal} (h : d.Fair) {cluster : Managed}
    (hcluster : Plain cluster.ns cluster.name)
    (hroute : d.route = .ofCall (Api.callOf (.nodePools cluster))) :
    (∃ status, d.result = .error status) ∨
      d.result = .ok (listing (d.before.list Served.nodePool.name (some cluster.ns))) := by
  have hlist : Route.ofCall (Api.callOf (.nodePools cluster)) =
      ⟨.list, _, Served.nodePool.name, some cluster.ns, none⟩ :=
    ofCall_list .nodePool hcluster.whole_ns hcluster.slash
  cases h with
  | refused hresult _ => exact Or.inl ⟨_, hresult⟩
  | served hserved =>
    rw [hroute, hlist] at hserved
    generalize d.result = result at hserved ⊢
    generalize d.after = after at hserved
    cases hserved with
    | listed _ => exact Or.inr rfl
    | got hverb _ => cases hverb
    | missing hother _ => exact absurd rfl hother
    | conflicting hverb _ => cases hverb
    | patched hverb _ _ => cases hverb

/-- A well-formed pool that could be read has its own name, and leads back to its object. -/
theorem place_of_read {o : Json} {pool : NodePool} {ns : String} (ho : Proper o)
    (hresource : resourceOf o = Served.nodePool.name) (hns : metadataText o "namespace" = some ns)
    (hpool : NodePool.read o = some pool) :
    Plain ns pool.metadata.shownName ∧ (clusterNameOf o).getD "" = pool.spec.clusterName ∧
      keyOf o = placeOf ⟨.nodePool, ns, pool.metadata.shownName⟩ := by
  obtain ⟨_, name, hns', hname, hplain⟩ := ho.names
  obtain ⟨spec, hspec⟩ := ho.spec
  obtain ⟨hshown, hclusterName⟩ := pool_of_read hpool hspec
  have heq : pool.metadata.shownName = name := by
    rw [Metadata.shownName, ← hshown, hname]
    rfl
  cases hns.symm.trans hns'
  refine ⟨heq ▸ hplain, hclusterName, ?_⟩
  rw [heq, placeOf_of_plain hplain, keyOf, hresource, hns, hname]
  rfl

/-- The pools in the answer are the stored ones of the cluster. -/
theorem pools_of_answer {cluster : Managed} {store : Store} {pools : List Managed} {d : Deal}
    (hcluster : Plain cluster.ns cluster.name)
    (hproper : ∀ o ∈ store, resourceOf o = Served.nodePool.name → Proper o)
    (hresult : d.result = .ok (listing (store.list Served.nodePool.name (some cluster.ns))))
    (h : answer (.nodePools cluster) d = .ok pools) :
    (∀ pool ∈ pools, ∃ o ∈ store, OwnedBy cluster o ∧ keyOf o = placeOf pool) ∧
      ∀ o ∈ store, OwnedBy cluster o → ∃ pool ∈ pools, keyOf o = placeOf pool := by
  obtain ⟨read, hread, rfl⟩ := exists_mapM_of_answer h hresult
  obtain ⟨hall, hfrom⟩ := mem_of_mapM hread
  constructor
  · intro pool hpool
    obtain ⟨found, hmem, rfl⟩ := List.mem_map.mp hpool
    obtain ⟨hmem, hown⟩ := List.mem_filter.mp hmem
    obtain ⟨o, ho, hread⟩ := hfrom found hmem
    obtain ⟨hstored, hresource, hns⟩ := mem_list.mp ho
    obtain ⟨_, hname, hkey⟩ := place_of_read (hproper o hstored hresource) hresource hns hread
    refine ⟨o, hstored, ⟨hresource, hns, ?_⟩, hkey⟩
    rw [eq_of_beq hown] at hname
    cases hraw : clusterNameOf o with
    | none =>
      rw [hraw] at hname
      exact absurd hname.symm hcluster.named
    | some raw =>
      rw [hraw] at hname
      exact congrArg some hname
  · intro o hstored hown
    obtain ⟨found, hmem, hread⟩ := hall o (mem_list.mpr ⟨hstored, hown.resource, hown.ns⟩)
    obtain ⟨_, hname, hkey⟩ :=
      place_of_read (hproper o hstored hown.resource) hown.resource hown.ns hread
    rw [hown.clusterName, Option.getD_some] at hname
    refine ⟨_, List.mem_map.mpr ⟨found, List.mem_filter.mpr ⟨hmem, ?_⟩, rfl⟩, hkey⟩
    simp [hname]

/-- The pools in the answer have names that lead to them. -/
theorem plain_of_answer {cluster : Managed} {store : Store} {pools : List Managed} {d : Deal}
    (hproper : ∀ o ∈ store, resourceOf o = Served.nodePool.name → Proper o)
    (hresult : d.result = .ok (listing (store.list Served.nodePool.name (some cluster.ns))))
    (h : answer (.nodePools cluster) d = .ok pools) :
    ∀ pool ∈ pools, Plain pool.ns pool.name := by
  obtain ⟨read, hread, rfl⟩ := exists_mapM_of_answer h hresult
  intro pool hpool
  obtain ⟨found, hmem, rfl⟩ := List.mem_map.mp hpool
  obtain ⟨o, ho, hread⟩ := (mem_of_mapM hread).2 found (List.mem_filter.mp hmem).1
  obtain ⟨hstored, hresource, hns⟩ := mem_list.mp ho
  exact (place_of_read (hproper o hstored hresource) hresource hns hread).1

end BackupWatch.Server
