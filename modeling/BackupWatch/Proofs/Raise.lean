import BackupWatch.Cluster.Api
import BackupWatch.Proofs.Act

/-!
Where the failure of an act comes from. An act raises what its parts raise, and a failure ends
it at once, so what holds of a failure where it is raised holds at the end. A failed job is
raised by no client: requests are refused for reasons of their own.
-/

namespace BackupWatch

open Cluster

variable {κ σ τ α β : Type}

/-- A watched job of a kind ended in a failure. -/
def Failure.Blames (f : Failure) (kind : Watch.Kind) : Prop :=
  ∃ name phase message, f = .error (.jobFailed kind name phase message)

def Failure.IsJob (f : Failure) : Prop := ∃ kind, f.Blames kind

namespace Act

/-- What holds of every failure of an act and of the session that it leaves. -/
def Raises (act : Act κ σ α) (ex : Failure → Session κ σ → Prop) : Prop :=
  ∀ s f, (act s).1 = .error f → ex f (act s).2

/-- An act that never fails for the failure of a job. -/
abbrev Spares (act : Act κ σ α) : Prop := Raises act fun f _ => ¬ f.IsJob

variable {ex : Failure → Session κ σ → Prop}

theorem Raises.imp {weak : Failure → Session κ σ → Prop} {act : Act κ σ α} (h : Raises act ex)
    (hweak : ∀ f s, ex f s → weak f s) : Raises act weak :=
  fun s f hf => hweak f _ (h s f hf)

/-- An act that always gives a result throws nothing. -/
theorem raises_of_ok {act : Act κ σ α} (h : ∀ s, ∃ a, (act s).1 = .ok a) : Raises act ex := by
  intro s f hf
  obtain ⟨a, ha⟩ := h s
  rw [ha] at hf
  cases hf

theorem raises_pure (a : α) : Raises (pure a) ex := raises_of_ok fun _ => ⟨a, rfl⟩

theorem raises_own : Raises own ex := raises_of_ok fun s => ⟨s.own, rfl⟩

theorem raises_setOwn (value : σ) : Raises (setOwn value) ex := raises_of_ok fun _ => ⟨(), rfl⟩

theorem raises_clock : Raises clock ex := raises_of_ok fun s => ⟨s.clock, rfl⟩

theorem raises_sleep (d : Time.Duration) : Raises (sleep d) ex := raises_of_ok fun _ => ⟨(), rfl⟩

theorem raises_roll : Raises roll ex := raises_of_ok fun s => ⟨s.dice 0, rfl⟩

theorem raises_throw {f : Failure} (h : ∀ s, ex f s) : Raises (throw f : Act κ σ α) ex := by
  intro s other hother
  cases hother
  exact h s

/-- What is known of the result of the first act may be used of the second. -/
theorem raises_bind_of {x : Act κ σ α} {f : α → Act κ σ β} (mid : α → Prop) (hx : Raises x ex)
    (hmid : ∀ s a, (x s).1 = .ok a → mid a) (hf : ∀ a, mid a → Raises (f a) ex) :
    Raises (x >>= f) ex := by
  intro s failure hfailure
  have hfirst := hx s
  have hresult := hmid s
  rw [run_bind] at hfailure ⊢
  rcases hrun : x s with ⟨e | a, later⟩
  · rw [hrun] at hfailure hfirst
    cases hfailure
    exact hfirst failure rfl
  · rw [hrun] at hfailure hresult
    exact hf a (hresult a rfl) later failure hfailure

/-- Two acts in a row throw what either throws. -/
theorem raises_bind {x : Act κ σ α} {f : α → Act κ σ β} (hx : Raises x ex)
    (hf : ∀ a, Raises (f a) ex) : Raises (x >>= f) ex :=
  raises_bind_of (fun _ => True) hx (fun _ _ _ => trivial) fun a _ => hf a

theorem raises_ite {c : Prop} [Decidable c] {x y : Act κ σ α} (hx : Raises x ex)
    (hy : Raises y ex) : Raises (if c then x else y) ex := by
  split
  · exact hx
  · exact hy

theorem raises_ofExcept {result : Except Error α} (h : ∀ e s, result = .error e → ex (.error e) s) :
    Raises (ofExcept result) ex := by
  cases result with
  | ok a => exact raises_pure a
  | error e => exact raises_throw fun s => h e s rfl

theorem spares_ofFault (result : Except Fault α) : Spares (ofFault result : Act κ σ α) := by
  cases result with
  | ok a => exact raises_pure a
  | error fault => exact raises_throw fun _ ⟨_, _, _, _, h⟩ => by cases h

theorem raises_forM {f : α → Act κ σ Unit} (list : List α) (h : ∀ a, Raises (f a) ex) :
    Raises (list.forM f) ex := by
  induction list with
  | nil => exact raises_pure ()
  | cons a rest ih => exact raises_bind (h a) fun _ => ih

theorem raises_mapM {f : α → Act κ σ β} (list : List α) (h : ∀ a, Raises (f a) ex) :
    Raises (list.mapM f) ex := by
  induction list with
  | nil => exact raises_pure []
  | cons a rest ih =>
    rw [List.mapM_cons]
    exact raises_bind (h a) fun _ => raises_bind ih fun _ => raises_pure _

/-- An act on a part of the own state throws the same failure, seen from the whole. -/
theorem raises_within {part : σ → τ} {update : τ → σ → σ} {act : Act κ τ α}
    {inner : Failure → Session κ τ → Prop} (hact : Raises act inner)
    (h : ∀ f (s : Session κ σ) later, inner f later → ex f (s.unfocus update later)) :
    Raises (within part update act) ex :=
  fun s f hf => h f s _ (hact (s.focus part) f hf)

/-- A caught error is no failure. -/
theorem raises_attempt {act : Act κ σ α} (h : Raises act ex) : Raises (attempt act) ex := by
  intro s f hf
  unfold attempt at hf ⊢
  have hact := h s
  rcases hrun : act s with ⟨(e | fault) | a, later⟩
  · rw [hrun] at hf
    cases hf
  · rw [hrun] at hf hact
    cases hf
    exact hact _ rfl
  · rw [hrun] at hf
    cases hf

end Act

open Act

namespace Poll

/-- A poll fails as a look does, or for reasons of its own. -/
theorem raises_run (settings : Settings) (operation : String) {look : Act κ σ Status}
    {ex : Failure → Session κ σ → Prop} (hlook : Raises look ex)
    (hown : ∀ f s, ¬ f.IsJob → ex f s) : Raises (run settings operation look) ex := by
  have hthrow : ∀ f : Failure, ¬ f.IsJob → ∀ {α : Type}, Raises (throw f : Act κ σ α) ex :=
    fun f h _ => raises_throw fun s => hown f s h
  have hloop : ∀ started left attempts,
      Raises (loop settings operation look started left attempts) ex := by
    intro started left
    induction left with
    | zero => exact fun _ => hthrow _ (by simp [Failure.IsJob, Failure.Blames])
    | succ left ih =>
      intro attempts
      unfold loop
      refine raises_bind hlook fun status => raises_bind raises_clock fun now => ?_
      refine raises_ite (raises_pure _) (raises_ite ?_ ?_)
      · exact hthrow _ (by simp [Failure.IsJob, Failure.Blames])
      · exact raises_bind (raises_sleep _) fun _ => ih (attempts + 1)
  unfold run
  refine raises_bind raises_clock fun started => raises_ite ?_ (hloop started attemptLimit 0)
  exact raises_bind (hthrow _ (by simp [Failure.IsJob, Failure.Blames])) fun _ =>
    hloop started attemptLimit 0

end Poll

namespace Retry

theorem spares_delay (p : Policy) (attempt : Nat) : Spares (p.delay attempt : Act κ σ _) := by
  have hdraw : Spares (draw p.jitter : Act κ σ Float) :=
    raises_ite (raises_bind raises_roll fun _ => raises_pure _) (spares_ofFault _)
  unfold Policy.delay
  refine raises_bind (spares_ofFault _) fun base => raises_ite (spares_ofFault _) ?_
  exact raises_bind hdraw fun _ => spares_ofFault _

/-- Retries throw what the act throws, or say that they are used up. -/
theorem spares_loop (p : Policy) (operation : String) {act : Act κ σ α} (hact : Spares act)
    (left tries : Nat) : Spares (loop p operation act left tries) := by
  have hcaught : ∀ s result, (Act.attempt act s).1 = .ok result →
      ∀ e, result = .error e → ¬ (Failure.error e).IsJob := by
    intro s result hresult e he
    subst he
    unfold Act.attempt at hresult
    have hspares := hact s
    rcases hrun : act s with ⟨(e' | fault) | a, later⟩
    · rw [hrun] at hresult hspares
      cases hresult
      exact hspares _ rfl
    · rw [hrun] at hresult
      cases hresult
    · rw [hrun] at hresult
      cases hresult
  have hfail : ∀ {e : Error}, ¬ (Failure.error e).IsJob → Spares (Act.fail e : Act κ σ α) :=
    fun h => raises_throw fun _ => h
  induction left generalizing tries with
  | zero =>
    unfold loop
    refine raises_bind_of _ (raises_attempt hact) hcaught fun result hresult => ?_
    cases result with
    | ok a => exact raises_pure a
    | error e =>
      exact raises_ite (hfail (by simp [Failure.IsJob, Failure.Blames])) (hfail (hresult e rfl))
  | succ left ih =>
    unfold loop
    refine raises_bind_of _ (raises_attempt hact) hcaught fun result hresult => ?_
    cases result with
    | ok a => exact raises_pure a
    | error e =>
      refine raises_ite ?_ (hfail (hresult e rfl))
      exact raises_bind (spares_delay p tries) fun d => raises_bind (raises_sleep d) fun _ =>
        ih (tries + 1)

theorem spares_run (p : Policy) (operation : String) {act : Act κ σ α} (hact : Spares act) :
    Spares (run p operation act) := spares_loop p operation hact _ _

end Retry

namespace Cluster

/-- An answer that is no failure of a job. -/
def Plain (result : Except Error α) : Prop :=
  ∀ e, result = .error e → ¬ (Failure.error e).IsJob

/-- A client that never answers with the failure of a job, which only a count finds. -/
def Client.FailsNoJob (client : Client κ) : Prop :=
  ∀ request clock cluster, Plain (client.reply request clock cluster).result

/-- A request throws the error that the client answers, which is no job failure. -/
theorem Client.FailsNoJob.spares_ask {client : Client κ} (h : client.FailsNoJob)
    (request : Request) : Spares (client.ask request : Act κ σ request.Answer) := by
  intro s f hf
  unfold Client.ask at hf
  rcases hreply : client.reply request s.clock s.cluster with ⟨e | a, took, later⟩
  · rw [hreply] at hf
    cases hf
    exact h request s.clock s.cluster e (by rw [hreply])
  · rw [hreply] at hf
    cases hf

namespace Api

open Resource

theorem plain_ok (a : α) : Plain (.ok a) := by
  intro e h
  cases h

theorem plain_error {e : Error} (h : ¬ (Failure.error e).IsJob) :
    Plain (.error e : Except Error α) := by
  intro other hother
  cases hother
  exact h

/-- Two readings in a row are plain if each is. -/
theorem plain_bind {x : Except Error α} {f : α → Except Error β} (hx : Plain x)
    (hf : ∀ a, Plain (f a)) : Plain (x.bind f) := by
  cases x with
  | ok a => exact hf a
  | error e => exact plain_error (hx e rfl)

theorem plain_map {x : Except Error α} (f : α → β) (hx : Plain x) : Plain (x.map f) := by
  cases x with
  | ok a => exact plain_ok (f a)
  | error e => exact plain_error (hx e rfl)

/-- An answer that cannot be read is a malformed answer, not a job failure. -/
theorem plain_decode (read : Json.Reader α) (value : Json) : Plain (decode read value) := by
  unfold decode
  split
  · exact plain_ok _
  · exact plain_error (by simp [Failure.IsJob, Failure.Blames])

theorem plain_decodeList (read : Json.Reader α) {result : Except Error Json} (h : Plain result) :
    Plain (decodeList read result) := by
  cases result with
  | ok value => exact plain_decode _ value
  | error e =>
    simp only [decodeList]
    split
    · exact plain_ok _
    · exact plain_error (h e rfl)

theorem plain_decodeOptional (read : Json.Reader α) {result : Except Error Json}
    (h : Plain result) : Plain (decodeOptional read result) := by
  unfold decodeOptional
  split
  · exact plain_map _ (plain_decode read _)
  · split
    · exact plain_ok _
    · exact plain_error (by simp [Failure.IsJob, Failure.Blames])
  · exact plain_error (h _ rfl)

theorem plain_pauseField (kind : ManagedKind) (value : Json) : Plain (pauseField kind value) := by
  cases kind with
  | hostedCluster => exact plain_bind (plain_decode _ value) fun _ => plain_ok _
  | nodePool => exact plain_bind (plain_decode _ value) fun _ => plain_ok _

/-- No answer of the API is turned into a job failure. -/
theorem plain_request (api : Api κ) (call : Call) (clock : Nat) (cluster : κ) :
    Plain (api.request call clock cluster).1 := by
  unfold request
  split
  · rcases api.serve call clock cluster with ⟨status | value, later⟩
    · refine plain_error ?_
      unfold refusal
      split <;> simp [Failure.IsJob, Failure.Blames]
    · exact plain_ok value
  · exact plain_error (by simp [Failure.IsJob, Failure.Blames])

/-- Whatever an API server answers, its client reads no failure of a job from it. -/
theorem failsNoJob (api : Api κ) : api.client.FailsNoJob := by
  intro request clock cluster
  have hrequest := plain_request api (callOf request) clock cluster
  change Plain (answerOf request (api.request (callOf request) clock cluster).1)
  cases request with
  | list kind ns => exact plain_decodeList _ hrequest
  | readPause object => exact plain_bind hrequest fun _ => plain_pauseField _ _
  | writePause object observed value =>
    exact plain_map _ (plain_bind hrequest fun _ => plain_pauseField _ _)
  | nodePools cluster => exact plain_map _ (plain_decodeList _ hrequest)
  | controlPlane id => exact plain_decodeOptional _ hrequest
  | controlPlanesIn ns => exact plain_decodeList _ hrequest

end Api
end Cluster
end BackupWatch
