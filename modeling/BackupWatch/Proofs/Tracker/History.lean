import BackupWatch.Proofs.Pause.States
import BackupWatch.Proofs.Tracker.Run

/-!
What a tracker keeps and what it asks for along its runs. Its history only grows, each exchange
belongs to one step, and a write tells which: the value of a pause is written only in a pause,
the value of a resume only in a resume.
-/

namespace BackupWatch.Tracker

open Act Cluster Job Pause Watch

variable {κ : Type} (client : Client κ)

structure Advances (t later : Tracker) : Prop where
  ctx : later.ctx = t.ctx
  progress : t.progress.Advances later.progress
  sound : t.progress.Sound → later.progress.Sound
  paused : t.paused = true → later.paused = true
  resumed : t.resumed = true → later.resumed = true

instance : IsPreorder Tracker Advances where
  refl t := ⟨rfl, refl_of Progress.Advances t.progress, id, id, id⟩
  trans _ _ _ hab hbc :=
    ⟨hbc.ctx.trans hab.ctx, trans_of Progress.Advances hab.progress hbc.progress,
      hbc.sound ∘ hab.sound, hbc.paused ∘ hab.paused, hbc.resumed ∘ hab.resumed⟩

theorem isDone_fresh (chain : Chain) (kind : Kind) :
    (Progress.fresh chain).isDone kind = false := by
  simp [Progress.fresh, Progress.isDone, JobState.fresh]

theorem sound_fresh (chain : Chain) : (Progress.fresh chain).Sound := by
  intro h
  cases h

section Frame

variable {α : Type} (part : Tracker → α)
variable (horchestrator : ∀ t orchestrator, part { t with orchestrator } = part t)

include horchestrator

theorem pauseNow_keeps (hpaused : ∀ t paused, part { t with paused } = part t) (ctx : Context)
    (cluster : Managed) (s : Session κ Tracker) :
    part (pauseNow client ctx cluster s).2.own = part s.own :=
  marked_keeps part (fun t => hpaused t true) horchestrator s

theorem resumeNow_keeps (hresumed : ∀ t resumed, part { t with resumed } = part t)
    (cluster : Managed) (s : Session κ Tracker) :
    part (resumeNow client cluster s).2.own = part s.own :=
  marked_keeps part (fun t => hresumed t true) horchestrator s

end Frame

/-- One step never takes back what the tracker has reached. -/
theorem Step.advances {client : Client κ} {s later : Session (Chronicle κ) Tracker}
    (h : Step client s later) :
    s.own.Advances later.own := by
  cases h with
  | idle hown _ => exact hown ▸ refl_of Advances s.own
  | progress hstep => exact ⟨rfl, hstep.advances, hstep.sound, id, id⟩
  | @pause cluster hmay =>
    have hctx := pauseNow_keeps client.recorded Tracker.ctx (fun _ _ => rfl) (fun _ _ => rfl)
      s.own.ctx cluster s
    have hprogress := pauseNow_keeps client.recorded Tracker.progress (fun _ _ => rfl)
      (fun _ _ => rfl) s.own.ctx cluster s
    have hresumed := pauseNow_keeps client.recorded Tracker.resumed (fun _ _ => rfl)
      (fun _ _ => rfl) s.own.ctx cluster s
    refine ⟨hctx, hprogress ▸ refl_of Progress.Advances _, fun hs => hprogress ▸ hs, ?_,
      fun h => hresumed.trans h⟩
    intro hpaused
    rw [hmay.unpaused] at hpaused
    cases hpaused
  | @resume cluster hmay =>
    have hctx := resumeNow_keeps client.recorded Tracker.ctx (fun _ _ => rfl) (fun _ _ => rfl)
      cluster s
    have hprogress := resumeNow_keeps client.recorded Tracker.progress (fun _ _ => rfl)
      (fun _ _ => rfl) cluster s
    have hpaused := resumeNow_keeps client.recorded Tracker.paused (fun _ _ => rfl)
      (fun _ _ => rfl) cluster s
    refine ⟨hctx, hprogress ▸ refl_of Progress.Advances _, fun hs => hprogress ▸ hs,
      fun h => hpaused.trans h, ?_⟩
    intro hresumed
    rw [hmay.unresumed] at hresumed
    cases hresumed

/-- By induction no path takes back what the tracker has reached. -/
theorem Path.advances {client : Client κ} {s later : Session (Chronicle κ) Tracker}
    (h : Path client s later) :
    s.own.Advances later.own := by
  induction h with
  | refl => exact refl_of Advances s.own
  | tail _ hstep ih => exact trans_of Advances ih hstep.advances

theorem history_resumeNow (cluster : Managed) (s : Session (Chronicle κ) Tracker) :
    (resumeNow client.recorded cluster s).2.history =
      (Orchestrator.resume client.recorded cluster (s.focus Tracker.orchestrator)).2.history :=
  history_marked _ _ s

/-- A pause sends what asks for a pause, nothing else. -/
theorem sends_pauseNow (ctx : Context) (cluster : Managed) (s : Session (Chronicle κ) Tracker) :
    Session.Sends (fun e => Target.pause.asks e.request) s
      (pauseNow client.recorded ctx cluster s).2 := by
  have hpermits : client.recorded.Permits Target.pause.asks
      (Session.Sends fun e => Target.pause.asks e.request :
        Session (Chronicle κ) Orchestrator → _ → Prop) :=
    Session.permits_sends client fun _ _ h => h
  have hsends := (Orchestrator.moves_pause hpermits (fun _ _ => .of_history_eq rfl)
    (fun _ h => h) cluster ctx.controlPlane (s.focus Tracker.orchestrator) trivial).1
  obtain ⟨new, hnew, hasks⟩ := hsends
  exact ⟨new, (history_marked _ _ s).trans hnew, hasks⟩

/-- A resume sends what asks for a resume, nothing else. -/
theorem sends_resumeNow (cluster : Managed) (s : Session (Chronicle κ) Tracker) :
    Session.Sends (fun e => Target.resume.asks e.request) s
      (resumeNow client.recorded cluster s).2 := by
  have hpermits : client.recorded.Permits Target.resume.asks
      (Session.Sends fun e => Target.resume.asks e.request :
        Session (Chronicle κ) Orchestrator → _ → Prop) :=
    Session.permits_sends client fun _ _ h => h
  have hsends := (Orchestrator.moves_resume hpermits (fun _ _ => .of_history_eq rfl)
    (fun _ h => h) cluster (s.focus Tracker.orchestrator) trivial).1
  obtain ⟨new, hnew, hasks⟩ := hsends
  exact ⟨new, (history_marked _ _ s).trans hnew, hasks⟩

/-- The resume mark is made by a resume. -/
theorem Path.exists_resume {client : Client κ} {s later : Session (Chronicle κ) Tracker}
    (h : Path client s later) (hbefore : s.own.resumed = false)
    (hafter : later.own.resumed = true) :
    ∃ m cluster, Path client s m ∧ m.own.MayResume cluster ∧
      Path client (resumeNow client.recorded cluster m).2 later := by
  obtain ⟨a, b, ha, hstep, hb, hnot, hmark⟩ :=
    exists_crossing (fun m => m.own.resumed = true) h (by simp [hbefore]) hafter
  have hopen : a.own.resumed = false := by simpa using hnot
  cases hstep with
  | idle hown _ =>
    rw [hown, hopen] at hmark
    cases hmark
  | progress _ =>
    change a.own.resumed = true at hmark
    rw [hopen] at hmark
    cases hmark
  | pause _ =>
    rw [pauseNow_keeps client.recorded Tracker.resumed (fun _ _ => rfl) (fun _ _ => rfl),
      hopen] at hmark
    cases hmark
  | @resume cluster hmay => exact ⟨a, cluster, ha, hmay, hb⟩

/-- Wherever a path leads, the progress of a new tracker is sound. -/
theorem Path.sound {client : Client κ} {ctx : Context} {config : Config}
    {start s : Session (Chronicle κ) Tracker} (hstart : start.own = Tracker.new ctx config)
    (h : Path client start s) : s.own.progress.Sound :=
  h.advances.sound (hstart ▸ sound_fresh _)

/-- Between two moments a kind has become finished, in a check of its own. -/
def FinishedBetween (client : Client κ) (s later : Session (Chronicle κ) Tracker) (kind : Kind) :
    Prop :=
  ∃ a b listing, Path client s a ∧ Path client b later ∧
    Progress.Finishes client.recorded s.own.ctx kind listing (a.focus Tracker.progress)
      (b.focus Tracker.progress)

/-- A kind that becomes done along a path was finished by a check on the path. -/
theorem Path.finishedBetween {client : Client κ} {s later : Session (Chronicle κ) Tracker}
    (h : Path client s later) {kind : Kind} (hbefore : s.own.progress.isDone kind = false)
    (hafter : later.own.progress.isDone kind = true) : FinishedBetween client s later kind := by
  obtain ⟨a, b, ha, hstep, hb, hnot, hdone⟩ :=
    exists_crossing (fun m => m.own.progress.isDone kind = true) h (by simp [hbefore]) hafter
  have hopen : a.own.progress.isDone kind = false := by simpa using hnot
  have hctx : a.own.ctx = s.own.ctx := (Path.advances ha).ctx
  cases hstep with
  | idle hown _ =>
    rw [hown, hopen] at hdone
    cases hdone
  | progress hinner =>
    obtain ⟨listing, hfinishes⟩ := hinner.finishes hopen hdone
    exact ⟨a, _, listing, ha, hb, hctx ▸ hfinishes⟩
  | pause _ =>
    rw [pauseNow_keeps client.recorded Tracker.progress (fun _ _ => rfl) (fun _ _ => rfl),
      hopen] at hdone
    cases hdone
  | resume _ =>
    rw [resumeNow_keeps client.recorded Tracker.progress (fun _ _ => rfl) (fun _ _ => rfl),
      hopen] at hdone
    cases hdone

/-- The history only grows. -/
theorem Step.grows {client : Client κ} {s later : Session (Chronicle κ) Tracker}
    (h : Step client s later) :
    ∃ new, later.history = s.history ++ new := by
  cases h with
  | idle _ hhistory => exact ⟨[], by simp [hhistory]⟩
  | progress hstep =>
    obtain ⟨new, hnew, _⟩ := hstep.sends_lists
    exact ⟨new, hnew⟩
  | pause _ =>
    obtain ⟨new, hnew, _⟩ := sends_pauseNow client s.own.ctx _ s
    exact ⟨new, hnew⟩
  | @resume cluster _ =>
    obtain ⟨first, rest, hnew, _⟩ := Orchestrator.history_resume client cluster
      (s.focus Tracker.orchestrator)
    exact ⟨first ++ rest, (history_resumeNow client cluster s).trans hnew⟩

/-- A path only adds to the history. -/
theorem Path.grows {client : Client κ} {s later : Session (Chronicle κ) Tracker}
    (h : Path client s later) : ∃ new, later.history = s.history ++ new := by
  induction h with
  | refl => exact ⟨[], by simp⟩
  | tail _ hstep ih =>
    obtain ⟨first, hfirst⟩ := ih
    obtain ⟨second, hsecond⟩ := hstep.grows
    exact ⟨first ++ second, by rw [hsecond, hfirst, List.append_assoc]⟩

theorem not_isList_of_asks {target : Target} {request : Request} (h : target.asks request) :
    ¬ request.isList := by
  cases request with
  | list _ _ => exact h.elim
  | _ => exact id

/-- A step is one of the progress, or leaves it alone and lists nothing. -/
theorem Step.of_progress {client : Client κ} {s later : Session (Chronicle κ) Tracker}
    (h : Step client s later) :
    (∃ inner, Progress.Step client.recorded s.own.ctx (s.focus Tracker.progress) inner ∧
      later = withProgress s inner) ∨
    later.own.progress = s.own.progress ∧
      Session.Sends (fun e => ¬ e.request.isList) s later := by
  cases h with
  | idle hown hhistory => exact Or.inr ⟨congrArg Tracker.progress hown, .of_history_eq hhistory⟩
  | progress hstep => exact Or.inl ⟨_, hstep, rfl⟩
  | @pause cluster _ =>
    obtain ⟨new, hnew, hasks⟩ := sends_pauseNow client s.own.ctx cluster s
    exact Or.inr ⟨pauseNow_keeps client.recorded Tracker.progress (fun _ _ => rfl)
      (fun _ _ => rfl) s.own.ctx cluster s, new, hnew, fun e he => not_isList_of_asks (hasks e he)⟩
  | @resume cluster _ =>
    obtain ⟨new, hnew, hasks⟩ := sends_resumeNow client cluster s
    exact Or.inr ⟨resumeNow_keeps client.recorded Tracker.progress (fun _ _ => rfl)
      (fun _ _ => rfl) cluster s, new, hnew, fun e he => not_isList_of_asks (hasks e he)⟩

/-- What every step of the progress keeps of it, a tracker keeps. -/
theorem Path.keeps_progress {client : Client κ} (holds : Progress → Prop)
    (hstep : ∀ ctx s later, Progress.Step client.recorded ctx s later → holds s.own →
      holds later.own) {s later : Session (Chronicle κ) Tracker} (h : Path client s later)
    (hs : holds s.own.progress) : holds later.own.progress := by
  induction h with
  | refl => exact hs
  | tail _ hlast ih =>
    rcases hlast.of_progress with ⟨inner, hinner, rfl⟩ | ⟨hsame, _⟩
    · exact hstep _ _ _ hinner ih
    · exact hsame ▸ ih

/-- A step in which an exchange is had after others. -/
structure Step.Has (client : Client κ) (s later : Session (Chronicle κ) Tracker)
    (before : List Exchange) (e : Exchange) : Prop where
  step : Step client s later
  history : ∃ rest, later.history = s.history ++ (before ++ e :: rest)

/-- Every exchange of a path is had in one of its steps. -/
theorem Path.exists_step {client : Client κ} {start s : Session (Chronicle κ) Tracker}
    (h : Path client start s)
    {before after : List Exchange} {e : Exchange}
    (hhistory : s.history = start.history ++ before ++ e :: after) :
    ∃ m later during, Path client start m ∧ Step.Has client m later during e ∧
      Path client later s ∧ start.history ++ before = m.history ++ during := by
  induction h generalizing after with
  | refl =>
    have hlength := congrArg List.length hhistory
    simp at hlength
  | @tail c d hpath hstep ih =>
    obtain ⟨new, hnew⟩ := hstep.grows
    rw [hnew] at hhistory
    rcases List.append_eq_append_iff.mp hhistory with ⟨during, hduring, hrest⟩ | ⟨during, hc, hrest⟩
    · refine ⟨c, d, during, hpath, ⟨hstep, after, ?_⟩, .refl, hduring⟩
      rw [hnew, hrest]
    · cases during with
      | nil =>
        refine ⟨c, d, [], hpath, ⟨hstep, after, ?_⟩, .refl, by simpa using hc.symm⟩
        rw [hnew]
        exact congrArg (c.history ++ ·) (by simpa using hrest.symm)
      | cons first during =>
        cases hrest
        obtain ⟨m, later, had, hm, hhas, hlater, hsame⟩ := ih hc
        exact ⟨m, later, had, hm, hhas, hlater.tail hstep, hsame⟩

/-- A step with a write, by what it writes. -/
inductive Writing (client : Client κ) (s later : Session (Chronicle κ) Tracker)
    (during : List Exchange) (object : Managed) : Target → Prop
  | pause {cluster : Managed} (may : s.own.MayPause cluster)
      (later_eq : later = (pauseNow client.recorded s.own.ctx cluster s).2) :
      Writing client s later during object .pause
  | resume {cluster : Managed} (may : s.own.MayResume cluster)
      (later_eq : later = (resumeNow client.recorded cluster s).2)
      (listed : object = cluster ∨
        ∃ pools, ⟨.nodePools cluster, .ok pools⟩ ∈ during ∧ object ∈ pools) :
      Writing client s later during object .resume

/-- A write along a path is made by a pause or by a resume. -/
theorem Step.Has.exists_writing {s later : Session (Chronicle κ) Tracker} {during : List Exchange}
    {object : Managed} {observed : PauseField} {value : String} {result : Except Error Unit}
    (h : Step.Has client s later during ⟨.writePause object observed value, result⟩) :
    ∃ target : Target, value = target.value ∧ Writing client s later during object target := by
  obtain ⟨rest, hrest⟩ := h.history
  have hmem : ∀ new, later.history = s.history ++ new →
      (⟨.writePause object observed value, result⟩ : Exchange) ∈ new := by
    intro new hnew
    rw [List.append_cancel_left (hnew.symm.trans hrest)]
    simp
  cases h.step with
  | idle _ hhistory => exact absurd (hmem [] (by simp [hhistory])) (by simp)
  | progress hstep =>
    obtain ⟨new, hnew, hlists⟩ := hstep.sends_lists
    exact (hlists _ (hmem new hnew)).elim
  | @pause cluster hmay =>
    obtain ⟨new, hnew, hasks⟩ := sends_pauseNow client s.own.ctx cluster s
    exact ⟨.pause, hasks _ (hmem new hnew), .pause hmay rfl⟩
  | @resume cluster hmay =>
    rw [history_resumeNow] at hrest
    obtain ⟨hvalue, hobject⟩ := Orchestrator.written_resume hrest
    exact ⟨.resume, hvalue, .resume hmay rfl hobject⟩

theorem Step.Has.writing {s later : Session (Chronicle κ) Tracker} {during : List Exchange}
    {object : Managed} {observed : PauseField} {target : Target} {result : Except Error Unit}
    (h : Step.Has client s later during ⟨.writePause object observed target.value, result⟩) :
    Writing client s later during object target := by
  obtain ⟨other, hvalue, hwriting⟩ := h.exists_writing
  have hother : other = target := by
    cases other <;> cases target <;> simp_all [Target.value]
  exact hother ▸ hwriting

end BackupWatch.Tracker
