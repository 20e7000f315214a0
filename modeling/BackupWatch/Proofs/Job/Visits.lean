import BackupWatch.Proofs.Job.Listing
import BackupWatch.Proofs.Limits
import BackupWatch.Proofs.Raise

/-!
The visits of a wait. Progress visits a kind to record its leftovers or to check it, and a visit
lists each place of the kind once at most. A wait records the leftovers of each stage once and then
checks stage after stage, each no more often than a poll may look.
-/

namespace BackupWatch

open Act Cluster Watch

variable {κ σ : Type}

theorem raises_ask (client : Client κ) (request : Request) :
    Raises (client.ask request : Act κ σ request.Answer) fun f _ => f.IsError := by
  intro s f hf
  rw [Client.run_ask] at hf
  rcases hresult : (client.reply request s.clock s.cluster).result with e | a
  · rw [hresult] at hf
    exact ⟨e, (Except.error.inj hf).symm⟩
  · rw [hresult] at hf
    cases hf

namespace Job

variable {ctx : Context}

theorem isError_listInScope (client : Client κ) (ctx : Context) (kind : Kind) :
    Raises (listInScope client ctx kind : Act κ σ (List Object)) fun f _ => f.IsError := by
  have hask : ∀ ns, Raises (client.ask (.list kind ns) : Act κ σ (List Object))
      fun f _ => f.IsError := fun ns => raises_ask client (.list kind ns)
  unfold listInScope
  cases kind.scope with
  | cluster => exact hask none
  | backupNamespace => exact hask _
  | includedNamespaces =>
    have hflat : Raises (do
        let listings ← ctx.included.names.mapM fun ns => client.ask (.list kind (some ns))
        return listings.flatten : Act κ σ (List Object)) fun f _ => f.IsError :=
      raises_bind (raises_mapM _ fun ns => hask (some ns)) fun _ => raises_pure _
    exact raises_ite (raises_bind (raises_throw fun _ => ⟨_, rfl⟩) fun _ => hflat) hflat

/-- Seeding fails with an error, never with a panic. -/
theorem isError_seed (client : Client κ) (ctx : Context) (kind : Kind) :
    Raises (seed client ctx kind) fun f _ => f.IsError := by
  intro s f hf
  have hseed := seeding client ctx kind s
  generalize seed client ctx kind s = result at hseed hf
  cases hseed with
  | built _ => cases hf
  | refused _ hlist _ =>
    cases hf
    exact isError_listInScope client ctx kind s f (by rw [hlist])
  | listed _ _ _ => cases hf

/-- A check fails with an error, never with a panic. -/
theorem isError_check (client : Client κ) (ctx : Context) (checker : Checker) :
    Raises (check client ctx checker) fun f _ => f.IsError := by
  intro s f hf
  have hcheck := checking client ctx checker s
  generalize check client ctx checker s = result at hcheck hf
  cases hcheck with
  | cached _ => cases hf
  | refused _ hlist _ =>
    cases hf
    exact isError_listInScope client ctx checker.kind s f (by rw [hlist])
  | failed _ _ _ _ =>
    cases hf
    exact ⟨_, rfl⟩
  | counted _ _ _ _ _ => cases hf

/-- Between two sessions a kind is listed in some places, in none of them twice. -/
def Surveys (kind : Kind) (s later : Session (Chronicle κ) σ) : Prop :=
  ∃ (new : List Exchange) (asked : List (Option String)), later.history = s.history ++ new ∧
    new.map Exchange.request = asked.map (Request.list kind) ∧ asked.Nodup

/-- A survey asks its places in order, up to the one that fails. -/
theorem Survey.requests {kind : Kind} {places : List (Option String)} {new : List Exchange}
    {result : Except Failure (List (List Object))} (h : Survey kind places new result) :
    ∃ asked behind, asked ++ behind = places ∧
      new.map Exchange.request = asked.map (Request.list kind) := by
  cases h with
  | @complete answers hall =>
    refine ⟨places, [], List.append_nil places, ?_⟩
    rw [← hall, List.map_map, List.map_map]
    rfl
  | @broken answers ns behind hall e =>
    refine ⟨answers.map Prod.fst ++ [ns], behind, ?_, ?_⟩
    · rw [← hall, List.append_assoc]
      rfl
    · rw [List.map_append, List.map_append, List.map_map, List.map_map]
      rfl

theorem surveys_listInScope (client : Client κ) (ctx : Context) (kind : Kind)
    (s : Session (Chronicle κ) σ) : Surveys kind s (listInScope client.recorded ctx kind s).2 := by
  obtain ⟨new, hnew, hlisting⟩ := listing_listInScope client ctx kind s
  generalize (listInScope client.recorded ctx kind s).1 = result at hlisting
  cases hlisting with
  | refused f => exact ⟨[], [], hnew, rfl, List.nodup_nil⟩
  | sent hsurvey =>
    obtain ⟨asked, behind, hplaces, hrequests⟩ := hsurvey.requests
    have hnodup := nodup_places ctx kind
    rw [← hplaces] at hnodup
    exact ⟨new, asked, hnew, hrequests, (List.nodup_append.mp hnodup).1⟩

theorem Surveys.none {kind : Kind} {s later : Session (Chronicle κ) σ}
    (h : later.history = s.history) : Surveys kind s later :=
  ⟨[], [], by rw [h, List.append_nil], rfl, List.nodup_nil⟩

theorem surveys_seed (client : Client κ) (ctx : Context) (kind : Kind)
    (s : Session (Chronicle κ) JobState) : Surveys kind s (seed client.recorded ctx kind s).2 := by
  have hsurveys := surveys_listInScope client ctx kind s
  have hseed := seeding client.recorded ctx kind s
  generalize seed client.recorded ctx kind s = result at hseed
  cases hseed with
  | built _ => exact .none rfl
  | refused _ hlist _ =>
    rw [hlist] at hsurveys
    exact hsurveys
  | listed _ hlist _ =>
    rw [hlist] at hsurveys
    exact hsurveys

/-- One check surveys its own kind once at most. -/
theorem surveys_check (client : Client κ) (ctx : Context) (checker : Checker)
    (s : Session (Chronicle κ) JobState) :
    Surveys checker.kind s (check client.recorded ctx checker s).2 := by
  have hsurveys := surveys_listInScope client ctx checker.kind s
  have hcheck := checking client.recorded ctx checker s
  generalize check client.recorded ctx checker s = result at hcheck
  cases hcheck with
  | cached _ => exact .none rfl
  | refused _ hlist _ =>
    rw [hlist] at hsurveys
    exact hsurveys
  | failed _ hlist _ _ =>
    rw [hlist] at hsurveys
    exact hsurveys
  | counted _ hlist _ _ _ =>
    rw [hlist] at hsurveys
    exact hsurveys

inductive Visit
  | seed (kind : Kind)
  | check (kind : Kind)
  deriving DecidableEq

def Visit.kind : Visit → Kind
  | seed kind => kind
  | check kind => kind

namespace Progress

/-- From one session to another some visits are made, in this order; between them time may pass,
and the chain may be marked as finished. -/
inductive Visits (client : Client κ) (ctx : Context) (s : Session κ Progress) :
    List Visit → Session κ Progress → Prop
  | start : Visits client ctx s [] s
  | pass {visits : List Visit} {middle : Session κ Progress}
      (h : Visits client ctx s visits middle) (millis : Nat) :
      Visits client ctx s visits (middle.pass millis)
  | seed {visits : List Visit} {middle : Session κ Progress}
      (h : Visits client ctx s visits middle) (kind : Kind) :
      Visits client ctx s (visits ++ [.seed kind]) (onJob (Job.seed client ctx kind) middle).2
  | check {visits : List Visit} {middle : Session κ Progress}
      (h : Visits client ctx s visits middle) (checker : Checker) :
      Visits client ctx s (visits ++ [.check checker.kind])
        (onJob (Job.check client ctx checker) middle).2
  | finish {visits : List Visit} {middle : Session κ Progress}
      (h : Visits client ctx s visits middle) :
      Visits client ctx s visits (markFinished middle).2

/-- Between two sessions only lists are asked for, and each place of a kind no more often than the
kind is visited. -/
def Accounted (visits : List Visit) (s later : Session (Chronicle κ) σ) : Prop :=
  ∃ new, later.history = s.history ++ new ∧ (∀ e ∈ new, e.request.isList) ∧
    ∀ kind ns, (new.map Exchange.request).count (.list kind ns) ≤
      (visits.map Visit.kind).count kind

/-- One visit more accounts for the listings it adds. -/
theorem Accounted.visit {visits : List Visit} {s middle later : Session (Chronicle κ) σ}
    (h : Accounted visits s middle) {visit : Visit} (hvisit : Surveys visit.kind middle later) :
    Accounted (visits ++ [visit]) s later := by
  obtain ⟨first, hfirst, hlists, hcount⟩ := h
  obtain ⟨second, asked, hsecond, hrequests, hnodup⟩ := hvisit
  refine ⟨first ++ second, by rw [hsecond, hfirst, List.append_assoc], ?_, fun kind ns => ?_⟩
  · intro e he
    rcases List.mem_append.mp he with hmem | hmem
    · exact hlists e hmem
    · have hrequest : e.request ∈ asked.map (Request.list visit.kind) :=
        hrequests ▸ List.mem_map.mpr ⟨e, hmem, rfl⟩
      obtain ⟨ns, _, hlist⟩ := List.mem_map.mp hrequest
      exact hlist ▸ trivial
  · rw [List.map_append, List.count_append, List.map_append, List.count_append, hrequests]
    refine Nat.add_le_add (hcount kind ns) ?_
    by_cases hkind : kind = visit.kind
    · subst hkind
      have hinjective : Function.Injective (Request.list visit.kind) :=
        fun _ _ hsame => (Request.list.inj hsame).2
      rw [List.count_map_of_injective _ _ hinjective]
      simpa using List.nodup_iff_count_le_one.mp hnodup ns
    · have hother : Request.list kind ns ∉ asked.map (Request.list visit.kind) := by
        intro hmem
        obtain ⟨_, _, hsame⟩ := List.mem_map.mp hmem
        exact hkind (Request.list.inj hsame).1.symm
      rw [List.count_eq_zero_of_not_mem hother]
      exact Nat.zero_le _

theorem Visits.accounted {client : Client κ} {s later : Session (Chronicle κ) Progress}
    {visits : List Visit} (h : Visits client.recorded ctx s visits later) :
    Accounted visits s later := by
  induction h with
  | start => exact ⟨[], (List.append_nil _).symm, by simp, by simp⟩
  | pass _ millis ih => exact ih
  | @seed visits middle _ kind ih =>
    exact ih.visit (surveys_seed client ctx kind (middle.focus Progress.job))
  | @check visits middle _ checker ih =>
    exact ih.visit (surveys_check client ctx checker (middle.focus Progress.job))
  | finish _ ih => exact ih

/-- The visits since some session are among the allowed ones, in their order. -/
def Within (client : Client κ) (ctx : Context) (start : Session κ Progress)
    (allowed : List Visit) (s : Session κ Progress) : Prop :=
  ∃ visits, Visits client ctx start visits s ∧ visits.Sublist allowed

def checksOf (settings : Poll.Settings) (stages : List Kind) : List Visit :=
  stages.flatMap fun kind => List.replicate (Poll.mostLooks settings) (.check kind)

section Wait

variable {client : Client κ} {start : Session κ Progress} {allowed : List Visit}

/-- A session within some visits is within any longer sequence of them. -/
theorem Within.mono {more : List Visit} {s : Session κ Progress}
    (h : Within client ctx start allowed s) (hmore : allowed.Sublist more) :
    Within client ctx start more s := by
  obtain ⟨visits, hvisits, hsublist⟩ := h
  exact ⟨visits, hvisits, hsublist.trans hmore⟩

/-- An act on the job that is a visit, and fails in errors only. -/
theorem ends_onJob_visit {α : Type} {act : Act κ JobState α} {visit : Visit}
    (hvisit : ∀ visits s, Visits client ctx start visits s →
      Visits client ctx start (visits ++ [visit]) (onJob act s).2)
    (herror : Raises act fun f _ => f.IsError) :
    Ends (Within client ctx start allowed) (onJob act)
      (fun _ => Within client ctx start (allowed ++ [visit]))
      fun f s => Within client ctx start (allowed ++ [visit]) s ∧ f.IsError := by
  rintro s ⟨visits, hvisits, hsublist⟩
  have hlater := hvisit visits s hvisits
  have hfailure : ∀ f, (onJob act s).1 = .error f → f.IsError := herror (s.focus Progress.job)
  generalize onJob act s = result at hlater hfailure
  rcases result with ⟨f | _, later⟩
  · exact .error ⟨⟨_, hlater, hsublist.append_right _⟩, hfailure f rfl⟩
  · exact .ok ⟨_, hlater, hsublist.append_right _⟩

/-- Seeding visits each stage of the chain once at most, in the chain's order. -/
theorem ends_seedAll_visits :
    Ends (fun s => s = start) (seedAll client ctx)
      (fun _ => Within client ctx start (start.own.chain.stages.map .seed))
      fun f s => Within client ctx start (start.own.chain.stages.map .seed) s ∧ f.IsError := by
  have hstages : ∀ (stages : List Kind) (allowed : List Visit),
      Ends (Within client ctx start allowed)
      (stages.forM fun kind => onJob (Job.seed client ctx kind))
      (fun _ => Within client ctx start (allowed ++ stages.map .seed))
      fun f s => Within client ctx start (allowed ++ stages.map .seed) s ∧ f.IsError := by
    intro stages
    induction stages with
    | nil =>
      intro allowed
      exact ends_pure () fun s hs => by rwa [List.map_nil, List.append_nil]
    | cons kind rest ih =>
      intro allowed
      have hsplit : allowed ++ (kind :: rest).map Visit.seed =
          allowed ++ [.seed kind] ++ rest.map .seed := by simp
      rw [hsplit]
      refine ends_bind _ ((ends_onJob_visit (fun _ _ h => h.seed kind)
        (isError_seed client ctx kind)).imp (fun _ h => h) (fun _ _ h => h) fun f s h => ?_)
        fun _ => ih _
      exact ⟨h.1.mono (List.sublist_append_left ..), h.2⟩
  rintro s rfl
  unfold seedAll
  rw [run_bind, run_own]
  have hall := hstages s.own.chain.stages [] s ⟨[], .start, List.Sublist.refl _⟩
  exact hall

theorem notBefore_look (client : Client κ) (ctx : Context) (checker : Checker) :
    Moves Session.NotBefore (look client ctx checker) := by
  have hcheck : Moves Session.NotBefore (onJob (Job.check client ctx checker)) := by
    intro s _
    exact ⟨(moves_check (Session.permits_notBefore client fun _ => True)
      (fun s _ => Nat.le_refl s.clock) ctx checker (fun _ => trivial)
      (s.focus Progress.job) trivial).1, fun _ _ => trivial⟩
  unfold look
  exact leads_bind _ hcheck fun _ => leads_pure _ fun _ _ => trivial

theorem ends_waitFrom_visits {settings : Poll.Settings} (hsettings : settings.Bounded)
    (previous : Option Kind) (stages : List Kind) (allowed : List Visit) :
    Ends (Within client ctx start allowed) (waitFrom client ctx settings previous stages)
      (fun _ => Within client ctx start (allowed ++ checksOf settings stages))
      fun f s => Within client ctx start (allowed ++ checksOf settings stages) s ∧
        Poll.Stops settings f s := by
  induction stages generalizing previous allowed with
  | nil =>
    rintro s ⟨visits, hvisits, hsublist⟩
    exact .ok ⟨visits, hvisits.finish, by simpa [checksOf] using hsublist⟩
  | cons kind later ih =>
    have hsplit : allowed ++ checksOf settings (kind :: later) = allowed ++
        List.replicate (Poll.mostLooks settings) (.check kind) ++ checksOf settings later := by
      simp [checksOf]
    rw [hsplit]
    unfold waitFrom
    refine ends_bind (fun _ => Within client ctx start allowed) (ends_own fun _ h => h) fun p => ?_
    let spent : Nat → Session κ Progress → Prop := fun n =>
      Within client ctx start (allowed ++ List.replicate n (.check kind))
    have hmore : ∀ {n m} (s : Session κ Progress), n ≤ m → spent n s → spent m s := by
      intro n m s hle hs
      exact hs.mono ((List.replicate_sublist_replicate _).mpr hle |>.append_left _)
    have hpass : ∀ n (s : Session κ Progress) millis, spent n s → spent n (s.pass millis) := by
      rintro n s millis ⟨visits, hvisits, hsublist⟩
      exact ⟨visits, hvisits.pass millis, hsublist⟩
    have hlook : ∀ n clock, Ends (fun s => spent n s ∧ s.clock = clock)
        (look client ctx (stageChecker p.job previous kind))
        (fun _ s => spent (n + 1) s ∧ clock ≤ s.clock)
        fun f s => spent (n + 1) s ∧ f.IsError := by
      intro n
      have hone : spent (n + 1) = Within client ctx start
          (allowed ++ List.replicate n (.check kind) ++ [.check kind]) := by
        simp only [spent, List.replicate_succ', List.append_assoc]
      rw [hone]
      refine Ends.notBefore ?_ (notBefore_look client ctx _)
      unfold look
      refine ends_bind _ (ends_onJob_visit (fun _ _ h => h.check (stageChecker p.job previous kind))
        (isError_check client ctx _)) fun _ => ends_pure _ fun _ h => h
    have hpoll : Ends (Within client ctx start allowed)
        (Poll.run settings (operation ctx kind)
          (look client ctx (stageChecker p.job previous kind)))
        (fun _ => spent (Poll.mostLooks settings))
        fun f s => spent (Poll.mostLooks settings) s ∧ Poll.Stops settings f s := by
      intro s hs
      exact Poll.ends_run_within hsettings hmore (fun n s millis h _ => hpass n s millis h) hlook s
        ⟨by simpa only [spent, List.replicate_zero, List.append_nil] using hs, rfl⟩
    refine ends_bind _ (hpoll.imp (fun _ h => h) (fun _ _ h => h) fun f s h => ?_) fun _ =>
      ih (some kind) _
    exact ⟨h.1.mono (List.sublist_append_left ..), h.2⟩

/-- The visits that a wait may make: one of each stage for its leftovers, then the checks. -/
def visitsOf (settings : Poll.Settings) (chain : Chain) : List Visit :=
  chain.stages.map .seed ++ checksOf settings chain.stages

theorem count_check_visitsOf (settings : Poll.Settings) (chain : Chain) (kind : Kind) :
    (visitsOf settings chain).count (.check kind) ≤ Poll.mostLooks settings := by
  cases chain <;> cases kind <;>
    simp [visitsOf, checksOf, Chain.stages, List.count_replicate]

theorem count_kind_visitsOf (settings : Poll.Settings) (chain : Chain) (kind : Kind) :
    ((visitsOf settings chain).map Visit.kind).count kind ≤ Poll.mostLooks settings + 1 := by
  cases chain <;> cases kind <;>
    simp [visitsOf, checksOf, Chain.stages, Visit.kind, List.count_replicate, Nat.add_comm]

/-- A wait visits no stage more often than the poll allows looks. -/
theorem ends_wait_visits {settings : Poll.Settings} (hsettings : settings.Bounded) :
    Ends (fun s => s = start) (wait client ctx settings)
      (fun _ => Within client ctx start (visitsOf settings start.own.chain))
      fun f s => Within client ctx start (visitsOf settings start.own.chain) s ∧
        Poll.Stops settings f s := by
  rintro s rfl
  unfold wait
  rw [run_bind, run_own]
  simp only
  split
  · exact .ok ⟨[], .start, List.nil_sublist _⟩
  · refine ends_bind _ (ends_seedAll_visits.imp (fun _ h => h) (fun _ _ h => h) fun f later h => ?_)
      (fun _ => ends_waitFrom_visits hsettings none s.own.chain.stages _) s rfl
    exact ⟨h.1.mono (List.sublist_append_left ..), Or.inl h.2⟩

theorem within_wait {settings : Poll.Settings} (hsettings : settings.Bounded)
    (s : Session κ Progress) :
    Within client ctx s (visitsOf settings s.own.chain) (wait client ctx settings s).2 := by
  have hend : Ending _ _ (wait client ctx settings s) := ends_wait_visits hsettings s rfl
  generalize wait client ctx settings s = result at hend
  cases hend with
  | ok hlater => exact hlater
  | error hlater => exact hlater.1

end Wait
end Progress
end Job

/-- A client whose requests take no time. -/
def Cluster.Client.Prompt (client : Client κ) : Prop :=
  ∀ request clock cluster, (client.reply request clock cluster).took = 0

def Session.SameTime (s later : Session κ σ) : Prop := later.clock = s.clock

instance : IsPreorder (Session κ σ) Session.SameTime where
  refl _ := rfl
  trans _ _ _ hab hbc := Eq.trans hbc hab

namespace Job

section Prompt

variable {client : Client κ} (hclient : client.Prompt)

include hclient

theorem sameTime_listInScope (ctx : Context) (kind : Kind) :
    Moves Session.SameTime (listInScope client ctx kind : Act κ σ (List Object)) := by
  have hask : ∀ ns, Moves Session.SameTime
      (client.ask (.list kind ns) : Act κ σ (List Object)) := by
    intro ns s _
    rw [Client.run_ask]
    refine ⟨?_, fun _ _ => trivial⟩
    change s.clock + (client.reply (.list kind ns) s.clock s.cluster).took = s.clock
    rw [hclient, Nat.add_zero]
  unfold listInScope
  cases kind.scope with
  | cluster => exact hask none
  | backupNamespace => exact hask _
  | includedNamespaces =>
    have hflat : Moves Session.SameTime (do
        let listings ← ctx.included.names.mapM fun ns => client.ask (.list kind (some ns))
        return listings.flatten : Act κ σ (List Object)) :=
      leads_bind _ (leads_mapM fun ns _ => hask (some ns)) fun _ => leads_pure _ fun _ _ => trivial
    exact leads_ite (fun _ => leads_bind (fun _ _ => True) (leads_throw _) fun _ => hflat)
      fun _ => hflat

theorem clock_seed (ctx : Context) (kind : Kind) (s : Session κ JobState) :
    (seed client ctx kind s).2.clock = s.clock := by
  have htime := (sameTime_listInScope hclient ctx kind s trivial).1
  have hseed := seeding client ctx kind s
  generalize seed client ctx kind s = result at hseed
  cases hseed with
  | built _ => rfl
  | refused _ hlist _ =>
    rw [hlist] at htime
    exact htime
  | listed _ hlist _ =>
    rw [hlist] at htime
    exact htime

/-- A check takes no time of its own. -/
theorem clock_check (ctx : Context) (checker : Checker) (s : Session κ JobState) :
    (check client ctx checker s).2.clock = s.clock := by
  have htime := (sameTime_listInScope hclient ctx checker.kind s trivial).1
  have hcheck := checking client ctx checker s
  generalize check client ctx checker s = result at hcheck
  cases hcheck with
  | cached _ => rfl
  | refused _ hlist _ =>
    rw [hlist] at htime
    exact htime
  | failed _ hlist _ _ =>
    rw [hlist] at htime
    exact htime
  | counted _ hlist _ _ _ =>
    rw [hlist] at htime
    exact htime

end Prompt

namespace Progress

section Prompt

variable {client : Client κ} (hclient : client.Prompt)

include hclient

theorem ends_onJob_check_by (ctx : Context) (checker : Checker) (latest : Nat) :
    Ends (fun s => s.clock ≤ latest) (onJob (Job.check client ctx checker))
      (fun _ s => s.clock ≤ latest) fun f s => s.clock ≤ latest ∧ f.IsError := by
  intro s hs
  have htime : (onJob (Job.check client ctx checker) s).2.clock = s.clock :=
    clock_check hclient ctx checker (s.focus Progress.job)
  have herror : ∀ f, (onJob (Job.check client ctx checker) s).1 = .error f → f.IsError :=
    isError_check client ctx checker (s.focus Progress.job)
  generalize onJob (Job.check client ctx checker) s = result at htime herror
  rcases result with ⟨f | _, later⟩
  · exact .error ⟨Nat.le_trans (Nat.le_of_eq htime) hs, herror f rfl⟩
  · exact .ok (Nat.le_trans (Nat.le_of_eq htime) hs)

/-- Each stage is waited for no longer than the time-out. -/
theorem ends_waitFrom_by (ctx : Context) {settings : Poll.Settings} (hsettings : settings.Bounded)
    (previous : Option Kind) (stages : List Kind) (latest : Nat) :
    Ends (fun s => s.clock ≤ latest) (waitFrom client ctx settings previous stages)
      (fun _ s => s.clock ≤ latest + stages.length * settings.timeout.ceilMillis)
      fun _ s => s.clock ≤ latest + stages.length * settings.timeout.ceilMillis := by
  induction stages generalizing previous latest with
  | nil => exact fun s hs => .ok (Nat.le_trans hs (Nat.le_add_right latest _))
  | cons kind later ih =>
    have hsplit : latest + (kind :: later).length * settings.timeout.ceilMillis =
        latest + settings.timeout.ceilMillis + later.length * settings.timeout.ceilMillis := by
      rw [List.length_cons, Nat.add_mul]
      omega
    rw [hsplit]
    unfold waitFrom
    refine ends_bind (fun _ s => s.clock ≤ latest) (ends_own fun _ h => h) fun p => ?_
    have hpoll : Ends (fun s => s.clock ≤ latest)
        (Poll.run settings (operation ctx kind)
          (look client ctx (stageChecker p.job previous kind)))
        (fun _ s => s.clock ≤ latest + settings.timeout.ceilMillis)
        fun _ s => s.clock ≤ latest + settings.timeout.ceilMillis := by
      intro s hs
      -- The poll bounds the clock by itself, so nothing is counted here.
      let spent : Nat → Session κ Progress → Prop :=
        fun _ t => t.clock ≤ s.clock + settings.timeout.ceilMillis
      have hlook : ∀ n clock, Ends (fun t => spent n t ∧ t.clock = clock)
          (look client ctx (stageChecker p.job previous kind))
          (fun _ t => spent (n + 1) t ∧ clock ≤ t.clock)
          fun f t => spent (n + 1) t ∧ f.IsError := by
        intro n
        refine Ends.notBefore ?_ (notBefore_look client ctx _)
        unfold look
        exact ends_bind _ (ends_onJob_check_by hclient ctx _ _) fun _ => ends_pure _ fun _ h => h
      have hlatest : s.clock + settings.timeout.ceilMillis ≤
          latest + settings.timeout.ceilMillis := Nat.add_le_add_right hs _
      exact (Poll.ends_run_within hsettings (fun _ _ h => h) (fun _ _ _ _ h => h) hlook).imp
        (fun _ h => h) (fun _ _ h => Nat.le_trans h hlatest)
        (fun _ _ h => Nat.le_trans h.1 hlatest) s ⟨Nat.le_add_right s.clock _, rfl⟩
    refine ends_bind _ (hpoll.imp (fun _ h => h) (fun _ _ h => h) fun _ s h => ?_) fun _ =>
      ih (some kind) _
    exact Nat.le_trans h (Nat.le_add_right _ _)

theorem clock_seedAll (ctx : Context) (s : Session κ Progress) :
    (seedAll client ctx s).2.clock = s.clock := by
  have hkeeps : Keeps (fun later => later.clock = s.clock) (seedAll client ctx) := by
    refine ends_bind (fun _ later => later.clock = s.clock) (ends_own fun _ h => h) fun p => ?_
    exact ends_forM _ fun kind => keeps_of_run fun later h =>
      (clock_seed hclient ctx kind (later.focus Progress.job)).trans h
  exact hkeeps.run rfl

/-- With prompt answers a wait lasts no longer than the time-outs of all stages together. -/
theorem clock_wait_le {settings : Poll.Settings} (hsettings : settings.Bounded) (ctx : Context)
    (s : Session κ Progress) :
    (wait client ctx settings s).2.clock ≤
      s.clock + s.own.chain.stages.length * settings.timeout.ceilMillis := by
  unfold wait
  rw [run_bind, run_own]
  simp only
  split
  · exact Nat.le_add_right s.clock _
  · have hseeded := clock_seedAll hclient ctx s
    rw [run_bind]
    generalize seedAll client ctx s = result at hseeded
    rcases result with ⟨f | _, later⟩
    · exact Nat.le_trans (Nat.le_of_eq hseeded) (Nat.le_add_right s.clock _)
    · have hwait := ends_waitFrom_by hclient ctx hsettings none s.own.chain.stages s.clock later
        (Nat.le_of_eq hseeded)
      dsimp only
      generalize waitFrom client ctx settings none s.own.chain.stages later = result at hwait
      cases hwait with
      | ok hlater => exact hlater
      | error hlater => exact hlater

end Prompt
end Progress
end Job
end BackupWatch
