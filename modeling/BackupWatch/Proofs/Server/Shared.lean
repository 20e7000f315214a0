import BackupWatch.Proofs.Ends
import BackupWatch.Proofs.Server.Fields

/-!
A store that is shared with other writers. Before each request they may have changed the store in
any way, and any request may be refused before it comes to the store. All dealings are written
down, with the store as it was met and as it was left.
-/

namespace BackupWatch.Server

open Act Cluster

variable {σ : Type}

/-- What happens before a request: a change by others, and maybe a refusal. -/
structure Interference where
  change : Store → Store
  refusal : Option ApiStatus

/-- A request as it was dealt with. -/
structure Deal where
  route : Route
  before : Store
  result : Except ApiStatus Json
  after : Store

structure Shared where
  objects : Store
  /-- What happens before the requests to come, the next one first. -/
  others : Nat → Interference
  deals : List Deal

namespace Deal

def accepted (d : Deal) : Bool :=
  match d.route.verb, d.result with
  | .patch _, .ok _ => true
  | _, _ => false

def patches (d : Deal) : Bool :=
  match d.route.verb with
  | .patch _ => true
  | _ => false

theorem not_accepted_of_not_patches {d : Deal} (h : d.patches = false) : d.accepted = false := by
  unfold patches at h
  unfold accepted
  split
  · next heq _ =>
    rw [heq] at h
    cases h
  · rfl

/-- A request is refused, or the store makes of it what it makes of every request. -/
inductive Fair (d : Deal) : Prop
  | refused {status : ApiStatus} (result : d.result = .error status) (same : d.after = d.before)
  | served (h : Performed d.before d.route (d.result, d.after))

/-- A request that the server refuses leaves the store as it was. -/
theorem Fair.unchanged {d : Deal} (h : d.Fair) {status : ApiStatus}
    (hresult : d.result = .error status) : d.after = d.before := by
  cases h with
  | refused _ hsame => exact hsame
  | served hserved =>
    rw [hresult] at hserved
    generalize d.after = after at hserved
    cases hserved with
    | missing _ _ => rfl
    | conflicting _ _ => rfl

/-- Only a patch changes the store. -/
theorem Fair.unchanged_of_read {d : Deal} (h : d.Fair) (hread : d.patches = false) :
    d.after = d.before := by
  unfold patches at hread
  cases h with
  | refused _ hsame => exact hsame
  | served hserved =>
    generalize d.result = result at hserved
    generalize d.after = after at hserved
    cases hserved with
    | listed _ => rfl
    | got _ _ => rfl
    | missing _ _ => rfl
    | conflicting _ _ => rfl
    | patched hverb _ _ =>
      rw [hverb] at hread
      cases hread

theorem not_accepted_of_error {d : Deal} {status : ApiStatus} (h : d.result = .error status) :
    d.accepted = false := by
  unfold accepted
  rw [h]
  split
  · next heq => cases heq
  · rfl

end Deal

namespace Shared

def next (s : Shared) (route : Route) : Deal :=
  let met := (s.others 0).change s.objects
  match (s.others 0).refusal with
  | some status => ⟨route, met, .error status, met⟩
  | none => ⟨route, met, (perform met route).1, (perform met route).2⟩

def take (s : Shared) (d : Deal) : Shared :=
  ⟨d.after, fun n => s.others (n + 1), s.deals ++ [d]⟩

@[simp] theorem route_next (s : Shared) (route : Route) : (s.next route).route = route := by
  unfold next
  cases (s.others 0).refusal <;> rfl

@[simp] theorem before_next (s : Shared) (route : Route) :
    (s.next route).before = (s.others 0).change s.objects := by
  unfold next
  cases (s.others 0).refusal <;> rfl

/-- The server deals fairly: it refuses without a trace, or does what the route says. -/
theorem fair_next (s : Shared) (route : Route) : (s.next route).Fair := by
  unfold next
  cases (s.others 0).refusal with
  | some status => exact .refused rfl rfl
  | none => exact .served (performed _ route)

end Shared

def shared : Api Shared where
  serve call _ s :=
    let d := s.next (.ofCall call)
    (d.result, s.take d)

abbrev deals (s : Session Shared σ) : List Deal := s.cluster.deals

def dealt (s : Session Shared σ) (d : Deal) : Session Shared σ :=
  { s with cluster := s.cluster.take d }

theorem deals_dealt (s : Session Shared σ) (d : Deal) : deals (dealt s d) = deals s ++ [d] := rfl

def answer (request : Request) (d : Deal) : Except Error request.Answer :=
  Api.answerOf request (d.result.mapError Api.refusal)

section Patches

variable {object : Managed} {field : PauseField} {value : String} {d : Deal}

/-- A refused patch is answered with its refusal. -/
theorem answer_of_refused_patch {status : ApiStatus} (h : d.result = .error status) :
    answer (.writePause object field value) d = .error (Api.refusal status) := by
  rw [answer, h]
  rfl

theorem answer_of_patch {o : Json} (h : d.result = .ok o) :
    answer (.writePause object field value) d =
      (Api.pauseField object.kind o).map fun _ => () := by
  rw [answer, h]
  rfl

end Patches

/-- A request that cannot be made fails without a deal; any other is dealt with and answered. -/
theorem run_ask_shared (request : Request) (s : Session Shared σ) :
    (shared.client.ask request : Act Shared σ request.Answer) s =
        (.error (.error .invalidRequest), s) ∨
      (shared.client.ask request : Act Shared σ request.Answer) s =
        ((answer request (s.cluster.next (.ofCall (Api.callOf request)))).mapError .error,
          dealt s (s.cluster.next (.ofCall (Api.callOf request)))) := by
  rw [Client.run_ask]
  unfold Client.after Api.client Api.request
  by_cases hbuild : (Api.callOf request).canBuild = true
  · simp only [hbuild, if_true]
    exact Or.inr rfl
  · simp only [hbuild, Bool.false_eq_true, if_false]
    refine Or.inl ?_
    cases request <;> rfl

/-- How a request was dealt with that met the store of a session. -/
structure DealtNext (s : Session Shared σ) (request : Request) (d : Deal) : Prop where
  fair : d.Fair
  route : d.route = .ofCall (Api.callOf request)
  before : d.before = (s.cluster.others 0).change s.cluster.objects

/-- A request that is not sent fails as invalid; one that is sent is dealt with next. -/
theorem ends_ask_shared (request : Request) {pre : Session Shared σ → Prop}
    {post : request.Answer → Session Shared σ → Prop} {ex : Failure → Session Shared σ → Prop}
    (hunsent : ∀ s, pre s → ex (.error .invalidRequest) s)
    (hsent : ∀ s d, pre s → DealtNext s request d →
      Ending post ex ((answer request d).mapError .error, dealt s d)) :
    Ends pre (shared.client.ask request) post ex := by
  intro s hs
  rcases run_ask_shared request s with h | h
  · rw [h]
    exact .error (hunsent s hs)
  · rw [h]
    exact hsent s _ hs ⟨Shared.fair_next _ _, Shared.route_next _ _, Shared.before_next _ _⟩

/-- The place in the store of a managed object. -/
def placeOf (object : Managed) : Key := keyAt (.ofCall (Api.callOf (.readPause object)))

theorem keyAt_writePause (object : Managed) (observed : PauseField) (value : String) :
    keyAt (.ofCall (Api.callOf (.writePause object observed value))) = placeOf object := rfl

theorem isPrefixOf?_append_self (word rest : List Char) :
    word.isPrefixOf? (word ++ rest) = some rest := by
  induction word with
  | nil => rfl
  | cons c word ih =>
    change (if c == c then word.isPrefixOf? (word ++ rest) else none) = some rest
    rw [if_pos (beq_self_eq_true c)]
    exact ih

/-- Routes of managed objects have a namespace, whatever the names look like. -/
theorem exists_ns_placeOf (object : Managed) : ∃ ns, (placeOf object).ns = some ns := by
  have hseen : ∃ rest, Route.seen (Api.callOf (.readPause object)).path =
      Call.scopeWord ++ rest := by
    have hword : ∀ c ∈ Call.scopeWord, (c != '?' && c != '#') = true :=
      List.all_eq_true.mp (by decide)
    simp only [Api.callOf, Call.path, Call.scope, Route.seen, List.append_assoc]
    rw [List.takeWhile_append_of_pos hword]
    exact ⟨_, rfl⟩
  obtain ⟨rest, hrest⟩ := hseen
  refine ⟨String.ofList (Route.splitSlash rest).1, ?_⟩
  unfold placeOf keyAt Route.ofCall
  rw [hrest]
  unfold Route.splitScope
  rw [isPrefixOf?_append_self]
  rfl

/-- A call that is no patch is made a get or a list of. -/
theorem verb_of_read {call : Call} (h : ∀ r ns name change, call ≠ .patch r ns name change) :
    (Route.ofCall call).verb = .get ∨ (Route.ofCall call).verb = .list := by
  have hverb : ∀ name, Route.verbOf call name = .get ∨ Route.verbOf call name = .list := by
    intro name
    cases call with
    | patch => exact absurd rfl (h _ _ _ _)
    | _ => cases name with
      | none => exact Or.inr rfl
      | some _ => exact Or.inl rfl
  exact hverb _

theorem verb_readPause (object : Managed) :
    (Route.ofCall (Api.callOf (.readPause object))).verb = .get ∨
      (Route.ofCall (Api.callOf (.readPause object))).verb = .list :=
  verb_of_read fun _ _ _ _ h => by cases h

def Reads : Request → Prop
  | .writePause _ _ _ => False
  | _ => True

/-- A request that reads does not patch. -/
theorem Deal.not_patches_of_reads {d : Deal} {request : Request}
    (h : d.route = .ofCall (Api.callOf request)) (hreads : Reads request) :
    d.patches = false := by
  have hcall : ∀ r ns name change, Api.callOf request ≠ .patch r ns name change := by
    rintro r ns name change heq
    cases request with
    | writePause => exact hreads
    | _ => cases heq
  unfold Deal.patches
  rw [h]
  rcases verb_of_read hcall with hverb | hverb <;> rw [hverb]

/-- A deal that has shown the pause field of a stored object. -/
structure Deal.Shows (d : Deal) (object : Managed) (field : PauseField) : Prop where
  route : d.route = .ofCall (Api.callOf (.readPause object))
  found : ∃ o, d.before.find? (placeOf object) = some o ∧ d.result = .ok o ∧
    Api.pauseField object.kind o = .ok field ∧ field.version = versionOf o

/-- A patch that was carried out at the version that had been read, if one had. -/
structure Deal.Sets (d : Deal) (object : Managed) (field : PauseField) (value : String) :
    Prop where
  route : d.route = .ofCall (Api.callOf (.writePause object field value))
  found : ∃ o, d.before.find? (placeOf object) = some o ∧
    (∀ v, field.version = some v → versionOf o = some v) ∧
    d.result = .ok (setPause (some value) o) ∧
    d.after = d.before.update (placeOf object) (setPause (some value))

/-- A patch that set a value was accepted. -/
theorem Deal.Sets.accepted {d : Deal} {object : Managed} {field : PauseField} {value : String}
    (h : d.Sets object field value) : d.accepted = true := by
  obtain ⟨o, _, _, hresult, _⟩ := h.found
  unfold Deal.accepted
  rw [h.route, hresult]
  rfl

/-- Right after the patch the stored object holds the value. -/
theorem Deal.Sets.holds {d : Deal} {object : Managed} {field : PauseField} {value : String}
    (h : d.Sets object field value) :
    ∃ o, d.after.find? (placeOf object) = some o ∧ pausedUntil o = .string value := by
  obtain ⟨o, hfound, _, _, hafter⟩ := h.found
  refine ⟨setPause (some value) o, ?_, pausedUntil_setPause o value⟩
  rw [hafter]
  exact Store.find?_update_self (keyOf_setPause o value) hfound

/-- What the answer to a read tells is so in the store. -/
theorem Deal.Fair.shows {d : Deal} (h : d.Fair) {object : Managed} {field : PauseField}
    (hroute : d.route = .ofCall (Api.callOf (.readPause object)))
    (hanswer : answer (.readPause object) d = .ok field) : d.Shows object field := by
  refine ⟨hroute, ?_⟩
  unfold answer at hanswer
  cases h with
  | @refused status hresult _ =>
    rw [hresult] at hanswer
    cases hanswer
  | served hserved =>
    generalize hresult : d.result = result at hserved hanswer
    generalize d.after = after at hserved
    rw [hroute] at hserved
    cases hserved with
    | listed _ =>
      cases hkind : object.kind <;> rw [Api.answerOf, hkind] at hanswer <;> cases hanswer
    | @got o _ hfound =>
      change Api.pauseField object.kind o = .ok field at hanswer
      refine ⟨o, hfound, rfl, hanswer, ?_⟩
      obtain ⟨ns, hns⟩ := exists_ns_placeOf object
      have hkey : (keyOf o).ns = some ns := by
        rw [Store.keyOf_of_find? hfound]
        exact hns
      cases o with
      | object members => exact version_of_pauseField hanswer
      | _ => cases hkey
    | missing _ _ => cases hanswer
    | conflicting hverb _ =>
      rcases verb_readPause object with hread | hread <;> cases hread.symm.trans hverb
    | patched hverb _ _ =>
      rcases verb_readPause object with hread | hread <;> cases hread.symm.trans hverb

/-- A patch that is not refused sets the pause field. -/
theorem Deal.Fair.sets {d : Deal} (h : d.Fair) {object : Managed} {field : PauseField}
    {value : String} (hroute : d.route = .ofCall (Api.callOf (.writePause object field value)))
    {o : Json} (hresult : d.result = .ok o) : d.Sets object field value := by
  refine ⟨hroute, ?_⟩
  cases h with
  | refused hrefused _ => cases hresult.symm.trans hrefused
  | served hserved =>
    rw [hresult] at hserved
    generalize d.after = after at hserved
    rw [hroute] at hserved
    have hverb : (Route.ofCall (Api.callOf (.writePause object field value))).verb =
        .patch ⟨field.version, value⟩ := rfl
    cases hserved with
    | listed hother => cases hother.symm.trans hverb
    | got hother _ => cases hother.symm.trans hverb
    | @patched found change hpatch hfound hversion =>
      cases hpatch.symm.trans hverb
      exact ⟨found, hfound, hversion, hresult, rfl⟩

end BackupWatch.Server
