import BackupWatch.Pause.Apply
import BackupWatch.Proofs.Server.Shared

/-!
Setting a pause field of an object that others write to at the same time. An attempt reads and
then patches at the version that it has read, so a patch that is carried out meets the object as
it was read. It ends the attempts; and attempts that are given up have patched nothing.
-/

namespace BackupWatch.Pause

open Act Cluster Server

variable {σ : Type}

/-- Dealings that were fair and did not come to a patch. -/
def Fruitless (done : List Deal) : Prop := ∀ d ∈ done, d.Fair ∧ d.accepted = false

/-- Since some point all dealings have been fruitless. -/
def Waiting (base : List Deal) (s : Session Shared σ) : Prop :=
  ∃ done, deals s = base ++ done ∧ Fruitless done

/-- And the last of them has shown the pause field. -/
def Looked (base : List Deal) (object : Managed) (field : PauseField) (s : Session Shared σ) :
    Prop :=
  ∃ done read, deals s = base ++ (done ++ [read]) ∧ Fruitless (done ++ [read]) ∧
    read.Shows object field

/-- After a look at another value the value has been set. -/
def Wrote (base : List Deal) (object : Managed) (value : String) (s : Session Shared σ) : Prop :=
  ∃ done read field patch, deals s = base ++ (done ++ [read] ++ [patch]) ∧
    Fruitless (done ++ [read]) ∧ read.Shows object field ∧ field.value ≠ some value ∧
    patch.Fair ∧ patch.Sets object field value

/-- A deal that patches nothing adds nothing to a fruitless run of deals. -/
theorem Fruitless.concat {done : List Deal} (h : Fruitless done) {d : Deal} (hfair : d.Fair)
    (hd : d.accepted = false) : Fruitless (done ++ [d]) := by
  intro e he
  rcases List.mem_append.mp he with hmem | hmem
  · exact h e hmem
  · rw [List.mem_singleton.mp hmem]
    exact ⟨hfair, hd⟩

theorem Waiting.dealt {base : List Deal} {s : Session Shared σ} (h : Waiting base s) {d : Deal}
    (hfair : d.Fair) (hd : d.accepted = false) : Waiting base (dealt s d) := by
  obtain ⟨done, hdone, hfruitless⟩ := h
  exact ⟨done ++ [d], by rw [deals_dealt, hdone, List.append_assoc], hfruitless.concat hfair hd⟩

theorem Looked.waiting {base : List Deal} {object : Managed} {field : PauseField}
    {s : Session Shared σ} (h : Looked base object field s) : Waiting base s := by
  obtain ⟨done, read, hdone, hfruitless, _⟩ := h
  exact ⟨done ++ [read], hdone, hfruitless⟩

theorem ends_readPause (base : List Deal) (object : Managed) :
    Ends (Waiting base) (shared.client.ask (.readPause object) : Act Shared σ PauseField)
      (fun field => Looked base object field) fun _ => Waiting base := by
  refine ends_ask_shared (.readPause object) (fun _ hs => hs) ?_
  rintro s d hs ⟨hfair, hroute, _⟩
  have hnot := Deal.not_accepted_of_not_patches (Deal.not_patches_of_reads hroute trivial)
  cases hanswer : answer (.readPause object) d with
  | error e => exact .error (hs.dealt hfair hnot)
  | ok field =>
    obtain ⟨done, hdone, hfruitless⟩ := hs
    refine .ok ⟨done, d, ?_, hfruitless.concat hfair hnot, hfair.shows hroute hanswer⟩
    rw [deals_dealt, hdone, List.append_assoc]

/-- A patch is refused, and then nothing was patched, or it sets the value. Only its answer may
still be unreadable, which is no conflict. -/
theorem ends_writePause (base : List Deal) (object : Managed) (field : PauseField)
    (value : String) :
    Ends (fun s => Looked base object field s ∧ field.value ≠ some value)
      (shared.client.ask (.writePause object field value) : Act Shared σ Unit)
      (fun _ => Wrote base object value)
      fun f s => Waiting base s ∨
        Wrote base object value s ∧ ∀ e, f = .error e → e.isConflict = false := by
  refine ends_ask_shared (.writePause object field value) (fun s hs => Or.inl hs.1.waiting) ?_
  rintro s d ⟨hlooked, hother⟩ ⟨hfair, hroute, _⟩
  cases hresult : d.result with
  | error status =>
    rw [answer_of_refused_patch hresult]
    exact .error (Or.inl (hlooked.waiting.dealt hfair (Deal.not_accepted_of_error hresult)))
  | ok o =>
    obtain ⟨done, read, hdone, hfruitless, hshows⟩ := hlooked
    have hwrote : Wrote base object value (dealt s d) := by
      refine ⟨done, read, field, d, ?_, hfruitless, hshows, hother, hfair,
        hfair.sets hroute hresult⟩
      rw [deals_dealt, hdone, List.append_assoc]
    rw [answer_of_patch hresult]
    cases hread : Api.pauseField object.kind o with
    | ok _ => exact .ok hwrote
    | error e =>
      refine .error (Or.inr ⟨hwrote, ?_⟩)
      intro e' he'
      cases he'
      rw [eq_malformedAnswer_of_pauseField hread]
      rfl

/-- An attempt ends with a write that was accepted, or without one if the value is there already. -/
theorem ends_attempt_shared (base : List Deal) (object : Managed) (value : String) :
    Ends (Waiting base) (attempt shared.client object value : Act Shared σ Bool)
      (fun wrote s => if wrote then Wrote base object value s
        else ∃ field, field.value = some value ∧ Looked base object field s)
      fun f s => Waiting base s ∨
        Wrote base object value s ∧ ∀ e, f = .error e → e.isConflict = false := by
  unfold attempt
  refine ends_bind _ ((ends_readPause base object).imp (fun _ h => h) (fun _ _ h => h)
    fun _ _ h => Or.inl h) fun field => ?_
  refine ends_ite (fun hsame => ends_pure _ fun s hs => ?_) fun hother => ?_
  · rw [if_neg (by decide)]
    exact ⟨field, hsame, hs⟩
  · refine ends_bind _ ((ends_writePause base object field value).imp
      (fun _ hs => ⟨hs, hother⟩) (fun _ _ h => h) fun _ _ h => h) fun _ => ?_
    exact ends_pure _ fun s hs => by rwa [if_pos rfl]

/-- The attempts end with the first that does not end in a conflict. -/
theorem ends_apply (base : List Deal) (policy : Retry.Policy) (object : Managed)
    (value : String) :
    Ends (Waiting base) (apply shared.client policy object value : Act Shared σ Bool)
      (fun wrote s => if wrote then Wrote base object value s
        else ∃ field, field.value = some value ∧ Looked base object field s)
      fun _ s => Waiting base s ∨ Wrote base object value s := by
  refine Retry.ends_run policy _ (fun _ _ hs => hs) (fun _ hs => hs) (fun _ _ => Or.inl)
    (fun _ hs => hs) (ends_attempt_shared base object value) ?_ ?_
  · rintro e s (hwaiting | ⟨_, hnone⟩) hconflict
    · exact hwaiting
    · rw [hnone e rfl] at hconflict
      cases hconflict
  · exact fun _ s hs => hs.imp_right fun h => h.1

/-- The dealings of one call patch once at most, with the last request, right after a read of
another value and at the version of that read. What is refused changes nothing. -/
structure Guarded (object : Managed) (value : String) (new : List Deal) : Prop where
  once : new.countP Deal.accepted ≤ 1
  fresh : ∀ before patch after, new = before ++ patch :: after → patch.accepted = true →
    after = [] ∧ ∃ earlier read field, before = earlier ++ [read] ∧ read.Shows object field ∧
      field.value ≠ some value ∧ patch.Sets object field value
  refused : ∀ d ∈ new, ∀ status, d.result = .error status → d.after = d.before

/-- A fruitless run of deals holds no accepted patch. -/
theorem Fruitless.countP {done : List Deal} (h : Fruitless done) :
    done.countP Deal.accepted = 0 := by
  rw [List.countP_eq_zero]
  intro d hd
  rw [(h d hd).2]
  decide

theorem Fruitless.guarded {done : List Deal} (h : Fruitless done) (object : Managed)
    (value : String) : Guarded object value done := by
  refine ⟨by rw [h.countP]; exact Nat.zero_le 1, ?_, ?_⟩
  · rintro before patch after rfl haccepted
    have hnot := (h patch (by simp)).2
    rw [haccepted] at hnot
    cases hnot
  · exact fun d hd status hstatus => (h d hd).1.unchanged hstatus

theorem guarded_concat {done : List Deal} {read patch : Deal} {object : Managed}
    {field : PauseField} {value : String} (hfruitless : Fruitless (done ++ [read]))
    (hshows : read.Shows object field) (hother : field.value ≠ some value) (hfair : patch.Fair)
    (hsets : patch.Sets object field value) : Guarded object value (done ++ [read] ++ [patch]) := by
  refine ⟨?_, ?_, ?_⟩
  · rw [List.countP_append, hfruitless.countP, List.countP_singleton, hsets.accepted]
    exact Nat.le_refl 1
  · intro before other after hsplit haccepted
    rcases List.append_eq_append_iff.mp hsplit with ⟨middle, rfl, hlast⟩ | ⟨middle, hmiddle, hlast⟩
    · cases middle with
      | nil =>
        cases hlast
        exact ⟨rfl, done, read, field, List.append_nil _, hshows, hother, hsets⟩
      | cons e middle => simp at hlast
    · cases middle with
      | nil =>
        cases hlast
        rw [List.append_nil] at hmiddle
        exact ⟨rfl, done, read, field, hmiddle.symm, hshows, hother, hsets⟩
      | cons e middle =>
        cases hlast
        have hnot := (hfruitless other (by simp [hmiddle])).2
        rw [haccepted] at hnot
        cases hnot
  · intro d hd status hstatus
    rcases List.mem_append.mp hd with hmem | hmem
    · exact (hfruitless d hmem).1.unchanged hstatus
    · rw [List.mem_singleton.mp hmem] at hstatus ⊢
      exact hfair.unchanged hstatus

/-- No update of a pause field is lost, whatever others do between the requests of a call. A call
that says that it has written has patched once, and the field then holds the value; one that says
that it has not has patched nothing, and saw the value in its last request. -/
theorem apply_loses_no_update (policy : Retry.Policy) (object : Managed) (value : String)
    (s : Session Shared σ) :
    ∃ new, deals (apply shared.client policy object value s).2 = deals s ++ new ∧
      Guarded object value new ∧
      ((apply shared.client policy object value s).1 = .ok true →
        new.countP Deal.accepted = 1 ∧ ∃ before patch o, new = before ++ [patch] ∧
          patch.accepted = true ∧ patch.after.find? (placeOf object) = some o ∧
          pausedUntil o = .string value) ∧
      ((apply shared.client policy object value s).1 = .ok false →
        new.countP Deal.accepted = 0 ∧ ∃ before read field, new = before ++ [read] ∧
          read.Shows object field ∧ field.value = some value) := by
  have hend := ends_apply (deals s) policy object value s
    ⟨[], (List.append_nil _).symm, fun _ hd => by cases hd⟩
  generalize apply shared.client policy object value s = result at hend
  cases hend with
  | @ok wrote later hlater =>
    cases wrote with
    | true =>
      obtain ⟨done, read, field, patch, hnew, hfruitless, hshows, hother, hfair, hsets⟩ := hlater
      obtain ⟨o, hfound, hholds⟩ := hsets.holds
      refine ⟨_, hnew, guarded_concat hfruitless hshows hother hfair hsets, fun _ => ⟨?_, ?_⟩, ?_⟩
      · rw [List.countP_append, hfruitless.countP, List.countP_singleton, hsets.accepted]
        rfl
      · exact ⟨done ++ [read], patch, o, rfl, hsets.accepted, hfound, hholds⟩
      · rintro ⟨⟩
    | false =>
      obtain ⟨field, hsame, done, read, hnew, hfruitless, hshows⟩ := hlater
      refine ⟨_, hnew, hfruitless.guarded object value, ?_, fun _ => ?_⟩
      · rintro ⟨⟩
      · exact ⟨hfruitless.countP, done, read, field, rfl, hshows, hsame⟩
  | error hlater =>
    rcases hlater with ⟨done, hnew, hfruitless⟩ |
      ⟨done, read, field, patch, hnew, hfruitless, hshows, hother, hfair, hsets⟩
    · exact ⟨_, hnew, hfruitless.guarded object value, by rintro ⟨⟩, by rintro ⟨⟩⟩
    · exact ⟨_, hnew, guarded_concat hfruitless hshows hother hfair hsets, by rintro ⟨⟩,
        by rintro ⟨⟩⟩

end BackupWatch.Pause
