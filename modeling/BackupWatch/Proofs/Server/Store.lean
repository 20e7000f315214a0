import BackupWatch.Server.Basic

/-!
What the server makes of its store. Setting a pause field changes that field and the version and
leaves the rest of the object, its key included; a refused request changes nothing at all.
-/

namespace BackupWatch

namespace Json

@[simp] theorem member?_setMember_self (value : Json) (key : String) (item : Json) :
    (value.setMember key item).member? key = some item := by
  cases value with
  | object members => exact Members.find?_insert_self members key item
  | _ => simp [setMember, member?, Members.find?]

theorem member?_setMember_of_ne (value : Json) {key other : String} (item : Json)
    (h : other ≠ key) : (value.setMember key item).member? other = value.member? other := by
  have hother : (other == key) = false := beq_false_of_ne h
  cases value with
  | object members => exact Members.find?_insert_of_ne members item h
  | _ => simp [setMember, member?, Members.find?, List.lookup_cons, hother]

end Json

namespace Server

open Cluster

section Object

variable (o : Json)

/-- A new version is made of the metadata only, and of nothing in them but the version. -/
theorem bumpVersion_eq_or : bumpVersion o = o ∨ ∃ metadata next,
    o.member? "metadata" = some metadata ∧ bumpVersion o =
      o.setMember "metadata" (metadata.setMember "resourceVersion" (.string next)) := by
  unfold bumpVersion
  split
  · exact Or.inl rfl
  · next version hversion =>
    split
    · exact Or.inl rfl
    · cases hmetadata : o.member? "metadata" with
      | none =>
        rw [versionOf, metadataText, hmetadata] at hversion
        cases hversion
      | some metadata => exact Or.inr ⟨metadata, _, rfl, rfl⟩

theorem member?_bumpVersion {field : String} (h : field ≠ "metadata") :
    (bumpVersion o).member? field = o.member? field := by
  rcases bumpVersion_eq_or o with hsame | ⟨metadata, next, _, hnext⟩
  · rw [hsame]
  · rw [hnext, Json.member?_setMember_of_ne o _ h]

theorem metadata_bumpVersion {field : String} (h : field ≠ "resourceVersion") :
    ((bumpVersion o).member? "metadata").bind (Json.member? · field) =
      (o.member? "metadata").bind (Json.member? · field) := by
  rcases bumpVersion_eq_or o with hsame | ⟨metadata, next, hmetadata, hnext⟩
  · rw [hsame]
  · rw [hnext, hmetadata, Json.member?_setMember_self, Option.bind_some, Option.bind_some,
      Json.member?_setMember_of_ne metadata _ h]

def withPause (value : String) : Json :=
  o.setMember "spec" (((o.member? "spec").getD .null).setMember "pausedUntil" (.string value))

theorem setPause_some (value : String) :
    setPause (some value) o = bumpVersion (withPause o value) := rfl

theorem member?_setPause (value : String) {field : String} (hspec : field ≠ "spec")
    (hmetadata : field ≠ "metadata") :
    (setPause (some value) o).member? field = o.member? field := by
  rw [setPause_some, member?_bumpVersion _ hmetadata, withPause,
    Json.member?_setMember_of_ne _ _ hspec]

/-- Of the metadata a patch changes the resource version only. -/
theorem metadata_setPause (value : String) {field : String} (h : field ≠ "resourceVersion") :
    ((setPause (some value) o).member? "metadata").bind (Json.member? · field) =
      (o.member? "metadata").bind (Json.member? · field) := by
  rw [setPause_some, metadata_bumpVersion _ h, withPause,
    Json.member?_setMember_of_ne _ _ (by decide)]

theorem spec_setPause (value : String) : (setPause (some value) o).member? "spec" =
    some (((o.member? "spec").getD .null).setMember "pausedUntil" (.string value)) := by
  rw [setPause_some, member?_bumpVersion _ (by decide), withPause, Json.member?_setMember_self]

/-- Of the specification a patch changes the pause field only. -/
theorem spec_member_setPause (value : String) {field : String} (h : field ≠ "pausedUntil") :
    ((setPause (some value) o).member? "spec").bind (Json.member? · field) =
      (o.member? "spec").bind (Json.member? · field) := by
  rw [spec_setPause, Option.bind_some, Json.member?_setMember_of_ne _ _ h]
  cases o.member? "spec" <;> rfl

@[simp] theorem pausedUntil_setPause (value : String) :
    pausedUntil (setPause (some value) o) = .string value := by
  rw [pausedUntil, spec_setPause, Option.bind_some, Json.member?_setMember_self, Option.getD_some]

/-- A patch leaves an object at its key. -/
@[simp] theorem keyOf_setPause (value : String) : keyOf (setPause (some value) o) = keyOf o := by
  have hresource : resourceOf (setPause (some value) o) = resourceOf o := by
    rw [resourceOf, member?_setPause o value (by decide) (by decide), resourceOf]
  have hmetadata : ∀ field, field ≠ "resourceVersion" →
      metadataText (setPause (some value) o) field = metadataText o field := by
    intro field hfield
    exact congrArg (Option.bind · Json.text?) (metadata_setPause o value hfield)
  rw [keyOf, hresource, hmetadata "namespace" (by decide), hmetadata "name" (by decide), keyOf]

end Object

namespace Store

/-- An update changes the object at its key. -/
theorem find?_update_self {store : Store} {key : Key} {o : Json} {change : Json → Json}
    (hkey : keyOf (change o) = keyOf o) (h : store.find? key = some o) :
    (store.update key change).find? key = some (change o) := by
  induction store with
  | nil => cases h
  | cons first rest ih =>
    unfold Store.find? at h ih ⊢
    by_cases hfirst : keyOf first = key
    · rw [List.find?_cons_of_pos (by simpa using hfirst)] at h
      cases h
      simp [Store.update, hfirst, hkey]
    · rw [List.find?_cons_of_neg (by simpa using hfirst)] at h
      have hrest := ih h
      unfold Store.update at hrest ⊢
      rw [List.map_cons, if_neg hfirst, List.find?_cons_of_neg (by simpa using hfirst), hrest]

theorem mem_erase {store : Store} {key : Key} {o : Json} :
    o ∈ store.erase key ↔ o ∈ store ∧ keyOf o ≠ key := by
  simp [Store.erase]

/-- A change that keeps the places of objects may as well come after an erasure. -/
theorem erase_update {store : Store} {key : Key} {change : Json → Json}
    (hkey : ∀ o, keyOf (change o) = keyOf o) (other : Key) :
    (store.update key change).erase other = (store.erase other).update key change := by
  unfold Store.update Store.erase
  rw [List.filter_map]
  refine congrArg (List.map _) (List.filter_congr fun o _ => ?_)
  simp only [Function.comp_apply]
  split
  · rw [hkey]
  · rfl

/-- A change at a place is not seen without it. -/
theorem erase_update_self {store : Store} {key : Key} {change : Json → Json}
    (hkey : ∀ o, keyOf (change o) = keyOf o) : (store.update key change).erase key =
      store.erase key := by
  rw [erase_update hkey]
  refine (List.map_congr_left fun o ho => ?_).trans (List.map_id _)
  rw [if_neg (mem_erase.mp ho).2]
  rfl

/-- An update changes nothing at other keys. -/
theorem find?_update_of_ne {store : Store} {key other : Key} {change : Json → Json}
    (hkey : ∀ o, keyOf (change o) = keyOf o) (h : other ≠ key) :
    (store.update key change).find? other = store.find? other := by
  induction store with
  | nil => rfl
  | cons first rest ih =>
    unfold Store.find? Store.update at ih ⊢
    rw [List.map_cons]
    by_cases hfirst : keyOf first = other
    · have hskip : keyOf first ≠ key := fun heq => h (hfirst.symm.trans heq)
      rw [if_neg hskip, List.find?_cons_of_pos (by simpa using hfirst),
        List.find?_cons_of_pos (by simpa using hfirst)]
    · have hkept : keyOf (if keyOf first = key then change first else first) ≠ other := by
        split
        · rwa [hkey]
        · exact hfirst
      rw [List.find?_cons_of_neg (by simpa using hkept),
        List.find?_cons_of_neg (by simpa using hfirst), ih]

/-- Objects at other places play no part when one is looked up. -/
theorem find?_filter {store : Store} {key : Key} {keep : Json → Bool}
    (hkeep : ∀ o, keyOf o = key → keep o = true) :
    Store.find? (store.filter keep) key = store.find? key := by
  unfold Store.find?
  rw [List.find?_filter]
  refine congrArg (fun p => List.find? p store) (funext fun o => ?_)
  by_cases ho : keyOf o = key
  · simp [ho, hkeep o ho]
  · simp [ho]

theorem keyOf_of_find? {store : Store} {key : Key} {o : Json} (h : store.find? key = some o) :
    keyOf o = key := by
  simpa using List.find?_some h

theorem mem_of_find? {store : Store} {key : Key} {o : Json} (h : store.find? key = some o) :
    o ∈ store := List.mem_of_find?_eq_some h

end Store

/-- The place in the store that a route leads to. -/
def keyAt (route : Route) : Key := ⟨route.resource, route.ns, route.name⟩

/-- All that the store can make of a request. -/
inductive Performed (objects : Store) (route : Route) : Except ApiStatus Json × Store → Prop
  | listed (verb : route.verb = .list) :
      Performed objects route (.ok (listing (objects.list route.resource route.ns)), objects)
  | got {o : Json} (verb : route.verb = .get)
      (found : objects.find? (keyAt route) = some o) :
      Performed objects route (.ok o, objects)
  | missing (verb : route.verb ≠ .list) (found : objects.find? (keyAt route) = none) :
      Performed objects route (.error notFound, objects)
  | conflicting {o : Json} {change : PausePatch} (verb : route.verb = .patch change)
      (found : objects.find? (keyAt route) = some o) :
      Performed objects route (.error conflict, objects)
  | patched {o : Json} {change : PausePatch} (verb : route.verb = .patch change)
      (found : objects.find? (keyAt route) = some o)
      (version : ∀ v, change.version = some v → versionOf o = some v) :
      Performed objects route (.ok (setPause (some change.value) o),
        objects.update (keyAt route) (setPause (some change.value)))

/-- What the server performs on a route is what the route's verb is for. -/
theorem performed (objects : Store) (route : Route) :
    Performed objects route (perform objects route) := by
  unfold perform
  dsimp only
  split
  · next hverb => exact .listed hverb
  · next hverb =>
    split
    · next o hfound => exact .got hverb hfound
    · next hfound => exact .missing (by rw [hverb]; simp) hfound
  · next change hverb =>
    split
    · next hfound => exact .missing (by rw [hverb]; simp) hfound
    · next o hfound =>
      split
      · exact .conflicting hverb hfound
      · next hmatch =>
        refine .patched hverb hfound fun v hv => ?_
        simpa [hv] using hmatch

end Server
end BackupWatch
