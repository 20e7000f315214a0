import BackupWatch.Proofs.Job.Order
import Mathlib.Data.List.Nodup
import Mathlib.Tactic.ByContra

/-!
Listings in a history. A kind is listed by one request for each of its places, and the listing has
succeeded with the last of the answers. As no place comes twice, a listing that breaks off leaves
nothing that a later one could complete: the first successful listing of a kind stands in the
history in one piece, and stays the first whatever follows.
-/

namespace BackupWatch.Job

open Act Cluster Watch

variable {κ σ : Type}

/-- Where a kind is listed, request by request. -/
def places (ctx : Context) (kind : Kind) : List (Option String) :=
  match kind.scope with
  | .cluster => [none]
  | .backupNamespace => [some ctx.backupNamespace]
  | .includedNamespaces => ctx.included.names.map some

/-- No place is listed twice for one listing. -/
theorem nodup_places (ctx : Context) (kind : Kind) : (places ctx kind).Nodup := by
  have hnames : ctx.included.names.Nodup := by
    apply ctx.included.sorted.imp
    rintro name _ hlt rfl
    exact String.lt_irrefl name hlt
  unfold places
  cases kind.scope with
  | cluster => exact List.nodup_singleton none
  | backupNamespace => exact List.nodup_singleton _
  | includedNamespaces => exact List.Nodup.map (fun _ _ h => Option.some.inj h) hnames

def answered (kind : Kind) (answer : Option String × List Object) : Exchange :=
  ⟨.list kind answer.1, .ok answer.2⟩

/-- Exchanges that are a successful listing of a kind. -/
def Lists (ctx : Context) (kind : Kind) (sent : List Exchange) (listing : List Object) : Prop :=
  ∃ answers : List (Option String × List Object), answers.map Prod.fst = places ctx kind ∧
    sent = answers.map (answered kind) ∧ listing = answers.flatMap Prod.snd

def FirstListed (ctx : Context) (kind : Kind) (history : List Exchange) (listing : List Object) :
    Prop :=
  ∃ before sent after, history = before ++ sent ++ after ∧ Lists ctx kind sent listing ∧
    ∀ before' sent' after' listing', history = before' ++ sent' ++ after' →
      Lists ctx kind sent' listing' → before.length ≤ before'.length

/-- A history without a successful listing of a kind that has places. -/
def Unlisted (ctx : Context) (kind : Kind) (history : List Exchange) : Prop :=
  places ctx kind ≠ [] → ∀ before sent after listing, history = before ++ sent ++ after →
    ¬ Lists ctx kind sent listing

section History

variable {ctx : Context} {kind : Kind} {history new before sent after : List Exchange}
variable {listing : List Object}

theorem Lists.length_eq (h : Lists ctx kind sent listing) :
    sent.length = (places ctx kind).length := by
  obtain ⟨answers, hplaces, rfl, _⟩ := h
  rw [← hplaces, List.length_map, List.length_map]

theorem exists_split_of_append_eq (h : history ++ new = before ++ sent ++ after)
    (hle : before.length + sent.length ≤ history.length) :
    ∃ rest, history = before ++ sent ++ rest := by
  obtain ⟨rest, hrest⟩ := List.prefix_of_prefix_length_le ⟨after, h.symm⟩ ⟨new, rfl⟩
    (by rwa [List.length_append])
  exact ⟨rest, hrest.symm⟩

/-- What comes later does not change which listing was the first. -/
theorem FirstListed.append (h : FirstListed ctx kind history listing) (new : List Exchange) :
    FirstListed ctx kind (history ++ new) listing := by
  obtain ⟨before, sent, after, rfl, hlists, hfirst⟩ := h
  refine ⟨before, sent, after ++ new, List.append_assoc .., hlists, ?_⟩
  intro before' sent' after' listing' hsplit hlists'
  by_cases hle : before.length ≤ before'.length
  · exact hle
  · have hfits : before'.length + sent'.length ≤ (before ++ sent ++ after).length := by
      rw [hlists'.length_eq, ← hlists.length_eq, List.length_append, List.length_append]
      omega
    obtain ⟨rest, hrest⟩ := exists_split_of_append_eq hsplit hfits
    exact hfirst before' sent' rest listing' hrest hlists'

/-- Exchanges that list a kind at its first place first, if at all, do not complete a listing that
was begun before them. -/
theorem Unlisted.exists_gap (h : Unlisted ctx kind history) (hplaces : places ctx kind ≠ [])
    (hhead : ∀ e ∈ new.head?, ∀ ns, e.request = .list kind ns →
      (places ctx kind).head? = some ns)
    (hsplit : history ++ new = before ++ sent ++ after) (hlists : Lists ctx kind sent listing) :
    ∃ gap, before = history ++ gap ∧ new = gap ++ sent ++ after := by
  rw [List.append_assoc] at hsplit
  rcases List.append_eq_append_iff.mp hsplit with ⟨gap, rfl, hgap⟩ | ⟨begun, rfl, hrest⟩
  · exact ⟨gap, rfl, by rw [hgap, List.append_assoc]⟩
  rcases List.append_eq_append_iff.mp hrest with ⟨gap, hend, _⟩ | ⟨ended, rfl, rfl⟩
  · obtain ⟨behind, rfl⟩ : ∃ behind, begun = sent ++ behind := ⟨gap, hend⟩
    exact absurd hlists (h hplaces before sent behind listing (List.append_assoc ..).symm)
  obtain ⟨answers, hall, hsent, _⟩ := hlists
  obtain ⟨first, second, rfl, hfirst, hsecond⟩ := List.map_eq_append_iff.mp hsent.symm
  subst hfirst hsecond
  cases second with
  | nil =>
    refine absurd ⟨first, by simpa using hall, rfl, rfl⟩
      (h hplaces before (first.map (answered kind)) [] _ (by simp))
  | cons middle second =>
    cases first with
    | nil => exact ⟨[], by simp, rfl⟩
    | cons start first =>
      have hnodup := nodup_places ctx kind
      have hsame := hhead (answered kind middle) rfl middle.1 rfl
      rw [← hall] at hnodup hsame
      simp at hnodup hsame
      exact absurd hsame hnodup.1.2.1

end History

/-- The exchanges of a listing that was begun, one for each place up to an error if any. -/
inductive Survey (kind : Kind) (places : List (Option String)) :
    List Exchange → Except Failure (List (List Object)) → Prop
  | complete {answers : List (Option String × List Object)}
      (h : answers.map Prod.fst = places) :
      Survey kind places (answers.map (answered kind)) (.ok (answers.map Prod.snd))
  | broken {answers : List (Option String × List Object)} {ns : Option String}
      {behind : List (Option String)} (h : answers.map Prod.fst ++ ns :: behind = places)
      (e : Error) :
      Survey kind places (answers.map (answered kind) ++ [⟨.list kind ns, .error e⟩])
        (.error (.error e))

/-- A survey goes on behind a place that has answered. -/
theorem Survey.cons {kind : Kind} {places : List (Option String)} {new : List Exchange}
    {result : Except Failure (List (List Object))} (h : Survey kind places new result)
    (answer : Option String × List Object) :
    Survey kind (answer.1 :: places) (answered kind answer :: new)
      (result.map (answer.2 :: ·)) := by
  cases h with
  | @complete answers hall =>
    have hall' : (answer :: answers).map Prod.fst = answer.1 :: places := by
      rw [List.map_cons, hall]
    exact .complete hall'
  | @broken answers ns behind hall e =>
    have hall' : (answer :: answers).map Prod.fst ++ ns :: behind = answer.1 :: places := by
      rw [List.map_cons, List.cons_append, hall]
    exact .broken hall' e

theorem survey_nil (kind : Kind) : Survey kind [] [] (.ok []) := by
  have hnone : ([] : List (Option String × List Object)).map Prod.fst = [] := rfl
  exact .complete hnone

theorem survey_error (kind : Kind) (ns : Option String) (behind : List (Option String))
    (e : Error) : Survey kind (ns :: behind) [⟨.list kind ns, .error e⟩] (.error (.error e)) := by
  have hfirst : ([] : List (Option String × List Object)).map Prod.fst ++ ns :: behind =
      ns :: behind := rfl
  exact .broken hfirst e

/-- Asking for a kind in places one after the other is a survey of them. -/
theorem survey_mapM (client : Client κ) (kind : Kind) (names : List String)
    (s : Session (Chronicle κ) σ) :
    ∃ new, (names.mapM (fun ns => client.recorded.ask (.list kind (some ns))) s).2.history =
        s.history ++ new ∧
      Survey kind (names.map some) new
        (names.mapM (fun ns => client.recorded.ask (.list kind (some ns))) s).1 := by
  induction names generalizing s with
  | nil => exact ⟨[], (List.append_nil _).symm, survey_nil kind⟩
  | cons name rest ih =>
    have hasked := Session.history_after client (.list kind (some name)) s
    rw [List.mapM_cons, run_bind]
    rcases hreply : (client.recorded.reply (.list kind (some name)) s.clock s.cluster).result
      with e | objects
    · rw [hreply] at hasked
      rw [Client.run_ask, hreply]
      exact ⟨_, hasked, survey_error kind (some name) (rest.map some) e⟩
    · rw [hreply] at hasked
      obtain ⟨new, hnew, hsurvey⟩ := ih (client.recorded.after (.list kind (some name)) s)
      rw [Client.run_ask_of_ok hreply]
      simp only
      rw [run_bind_pure]
      refine ⟨answered kind (some name, objects) :: new, ?_, hsurvey.cons (some name, objects)⟩
      rw [hnew, hasked, List.append_assoc]
      rfl

/-- Everything that a listing of a kind may send and give. -/
inductive Listing (ctx : Context) (kind : Kind) :
    List Exchange → Except Failure (List Object) → Prop
  | refused (f : Failure) : Listing ctx kind [] (.error f)
  | sent {new : List Exchange} {result : Except Failure (List (List Object))}
      (h : Survey kind (places ctx kind) new result) :
      Listing ctx kind new (result.map List.flatten)

/-- Listing a kind does nothing but what `Listing` says. -/
theorem listing_listInScope (client : Client κ) (ctx : Context) (kind : Kind)
    (s : Session (Chronicle κ) σ) :
    ∃ new, (listInScope client.recorded ctx kind s).2.history = s.history ++ new ∧
      Listing ctx kind new (listInScope client.recorded ctx kind s).1 := by
  have hask : ∀ ns, places ctx kind = [ns] →
      ∃ new, (client.recorded.ask (.list kind ns) s).2.history = s.history ++ new ∧
        Listing ctx kind new (client.recorded.ask (.list kind ns) s).1 := by
    intro ns hplaces
    have hasked := Session.history_after client (.list kind ns) s
    rw [Client.run_ask]
    rcases hreply : (client.recorded.reply (.list kind ns) s.clock s.cluster).result
      with e | objects
    · rw [hreply] at hasked
      exact ⟨_, hasked, .sent (hplaces ▸ survey_error kind ns [] e)⟩
    · rw [hreply] at hasked
      have hsurvey := Listing.sent (hplaces ▸ (survey_nil kind).cons (ns, objects))
      simp only [Except.map, List.flatten_cons, List.flatten_nil, List.append_nil] at hsurvey
      exact ⟨_, hasked, hsurvey⟩
  have heach : kind.scope = .includedNamespaces →
      ∃ new, (listEach client.recorded kind ctx.included.names s).2.history = s.history ++ new ∧
        Listing ctx kind new (listEach client.recorded kind ctx.included.names s).1 := by
    intro hscope
    unfold listEach
    dsimp only
    split
    · exact ⟨[], (List.append_nil _).symm, .refused _⟩
    · obtain ⟨new, hnew, hsurvey⟩ := survey_mapM client kind ctx.included.names s
      have hplaces : places ctx kind = ctx.included.names.map some := by rw [places, hscope]
      rw [run_bind_pure]
      exact ⟨new, hnew, .sent (hplaces ▸ hsurvey)⟩
  unfold listInScope
  cases hscope : kind.scope with
  | cluster => exact hask none (by rw [places, hscope])
  | backupNamespace => exact hask _ (by rw [places, hscope])
  | includedNamespaces => exact heach hscope

/-- What is known of the leftovers of a kind after some history. -/
inductive Recorded (ctx : Context) (kind : Kind) (history : List Exchange) :
    Option (List Identity) → Prop
  | unbuilt (h : Unlisted ctx kind history) : Recorded ctx kind history none
  | built {first : List Object} (h : FirstListed ctx kind history first) :
      Recorded ctx kind history (some (Leftovers.completedIn kind first))

section Recorded

variable {ctx : Context} {kind : Kind} {history new : List Exchange}
variable {ids : Option (List Identity)}

theorem exists_mem_of_lists {sent : List Exchange} {listing : List Object}
    (hplaces : places ctx kind ≠ []) (h : Lists ctx kind sent listing) :
    ∃ ns, ∃ e ∈ sent, e.request = .list kind ns := by
  obtain ⟨answers, hall, rfl, _⟩ := h
  cases answers with
  | nil => exact absurd hall.symm hplaces
  | cons answer rest =>
    exact ⟨answer.1, answered kind answer, List.mem_cons_self .., rfl⟩

/-- Exchanges about something else do not matter. -/
theorem Recorded.append (h : Recorded ctx kind history ids)
    (hnew : ∀ e ∈ new, ∀ ns, e.request ≠ .list kind ns) :
    Recorded ctx kind (history ++ new) ids := by
  cases h with
  | built hfirst => exact .built (hfirst.append new)
  | unbuilt hnone =>
    refine .unbuilt fun hplaces before sent after listing hsplit hlists => ?_
    obtain ⟨gap, _, rfl⟩ := hnone.exists_gap hplaces
      (fun e he ns hrequest => absurd hrequest (hnew e (List.mem_of_head? he) ns)) hsplit hlists
    obtain ⟨ns, e, he, hrequest⟩ := exists_mem_of_lists hplaces hlists
    exact hnew e (by simp [he]) ns hrequest

/-- A survey begins with the first of its places. -/
theorem head_of_survey {result : Except Failure (List (List Object))}
    (h : Survey kind (places ctx kind) new result) :
    ∀ e ∈ new.head?, ∀ ns, e.request = .list kind ns → (places ctx kind).head? = some ns := by
  rintro e he ns hrequest
  cases h with
  | @complete answers hall =>
    cases answers with
    | nil => cases he
    | cons answer rest =>
      cases he
      cases hrequest
      exact hall ▸ rfl
  | @broken answers place behind hall cause =>
    cases answers with
    | nil =>
      cases he
      cases hrequest
      exact hall ▸ rfl
    | cons answer rest =>
      cases he
      cases hrequest
      exact hall ▸ rfl

/-- A listing that breaks off is none, and completes none. -/
theorem Unlisted.broken (h : Unlisted ctx kind history) {e : Failure}
    (hsurvey : Survey kind (places ctx kind) new (.error e)) :
    Unlisted ctx kind (history ++ new) := by
  intro hplaces before sent after listing hsplit hlists
  obtain ⟨gap, _, hnew⟩ := h.exists_gap hplaces (head_of_survey hsurvey) hsplit hlists
  have hlength := hlists.length_eq
  cases hsurvey with
  | @broken answers ns behind hall cause =>
    have hshort := congrArg List.length hnew
    have hwhole := congrArg List.length hall
    simp only [List.length_append, List.length_map, List.length_cons, List.length_nil]
      at hshort hwhole
    obtain rfl := List.length_eq_zero_iff.mp (show gap.length = 0 by omega)
    obtain rfl := List.length_eq_zero_iff.mp (show after.length = 0 by omega)
    obtain ⟨others, _, rfl, _⟩ := hlists
    have hmem : (⟨.list kind ns, .error cause⟩ : Exchange) ∈ others.map (answered kind) := by
      simp only [List.nil_append, List.append_nil] at hnew
      rw [← hnew]
      simp
    obtain ⟨other, _, hother⟩ := List.mem_map.mp hmem
    cases hother

/-- The first listing that succeeds is the first listing. -/
theorem Unlisted.complete (h : Unlisted ctx kind history) {listings : List (List Object)}
    (hsurvey : Survey kind (places ctx kind) new (.ok listings)) :
    FirstListed ctx kind (history ++ new) listings.flatten := by
  have hhead := head_of_survey hsurvey
  cases hsurvey with
  | @complete answers hall =>
    by_cases hplaces : places ctx kind = []
    · obtain rfl : answers = [] := List.map_eq_nil_iff.mp (hall.trans hplaces)
      exact ⟨[], [], history ++ [], rfl, ⟨[], hall, rfl, rfl⟩, fun _ _ _ _ _ _ => Nat.zero_le _⟩
    · refine ⟨history, answers.map (answered kind), [], (List.append_nil _).symm,
        ⟨answers, hall, rfl, (List.flatMap_def ..).symm⟩, ?_⟩
      intro before sent after listing hsplit hlists
      obtain ⟨gap, rfl, _⟩ := h.exists_gap hplaces hhead hsplit hlists
      simp

def noted (kind : Kind) (ids : Option (List Identity)) :
    Except Failure (List Object) → Option (List Identity)
  | .ok listing => some (ids.getD (Leftovers.completedIn kind listing))
  | .error _ => ids

/-- What is known of the leftovers after one more listing of the kind. -/
theorem Recorded.listing (h : Recorded ctx kind history ids)
    {result : Except Failure (List Object)} (hlisting : Listing ctx kind new result) :
    Recorded ctx kind (history ++ new) (noted kind ids result) := by
  cases h with
  | built hfirst =>
    cases result with
    | ok listing => exact .built (hfirst.append new)
    | error f => exact .built (hfirst.append new)
  | unbuilt hnone =>
    cases hlisting with
    | refused f =>
      rw [List.append_nil]
      exact .unbuilt hnone
    | @sent _ result hsurvey =>
      cases result with
      | ok listings => exact .built (hnone.complete hsurvey)
      | error f => exact .unbuilt (hnone.broken hsurvey)

end Recorded

end BackupWatch.Job
