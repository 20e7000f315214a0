import BackupWatch.Proofs.Job.Order
import BackupWatch.Proofs.Job.Waiting

/-!
Stages downstream of real data. Progress is seeded, passed and waited for in any order, each time
for a context of its own, and any of these may fail. A stage behind one that has started never
finishes empty; so of a chain that has finished the first stages never started, and all others
did.
-/

namespace BackupWatch.Job.Progress

open Act Cluster Watch

variable {κ : Type} {client : Client κ}

inductive Turn (client : Client κ) : Session κ Progress → Session κ Progress → Prop
  | seed (ctx : Context) (s : Session κ Progress) : Turn client s (seedAll client ctx s).2
  | pass (ctx : Context) (s : Session κ Progress) : Turn client s (pass client ctx s).2
  | wait (ctx : Context) (settings : Poll.Settings) (s : Session κ Progress) :
      Turn client s (wait client ctx settings s).2
  | idle {s later : Session κ Progress} (own : later.own = s.own) : Turn client s later

abbrev Run (client : Client κ) : Session κ Progress → Session κ Progress → Prop :=
  Relation.ReflTransGen (Turn client)

/-- A turn is a path of steps for one context, or leaves the progress alone. -/
theorem Turn.path {s later : Session κ Progress} (h : Turn client s later) :
    (∃ ctx, Path client ctx s later) ∨ later.own = s.own := by
  cases h with
  | seed ctx =>
    have hlead : Leads (Path client ctx) _ (seedAll client ctx) _ := leads_seedAll s.own.chain
    exact Or.inl ⟨ctx, (hlead s rfl).1⟩
  | pass ctx => exact Or.inl ⟨ctx, (leads_pass s trivial).1⟩
  | wait ctx settings => exact Or.inl ⟨ctx, (leads_wait settings s trivial).1⟩
  | idle hown => exact Or.inr hown

/-- What each step keeps is kept by passes, waits and seedings in any order. -/
theorem Run.keeps (holds : Progress → Prop)
    (hstep : ∀ ctx s later, Step client ctx s later → holds s.own → holds later.own)
    {s later : Session κ Progress} (h : Run client s later) (hs : holds s.own) :
    holds later.own := by
  induction h with
  | refl => exact hs
  | @tail middle later _ hturn ih =>
    rcases hturn.path with ⟨ctx, hpath⟩ | hown
    · clear hturn
      induction hpath with
      | refl => exact ih
      | tail _ hstep' ih' => exact hstep ctx _ _ hstep' ih'
    · exact hown ▸ ih

/-- Flags that never fall once they have risen are a run of the one value and then of the other. -/
theorem exists_replicate_append {flags : List Bool}
    (h : flags.Pairwise fun first second => first = true → second = true) :
    ∃ m n, flags = List.replicate m false ++ List.replicate n true := by
  induction flags with
  | nil => exact ⟨0, 0, rfl⟩
  | cons flag rest ih =>
    obtain ⟨hflag, hrest⟩ := List.pairwise_cons.mp h
    cases flag with
    | false =>
      obtain ⟨m, n, hsplit⟩ := ih hrest
      exact ⟨m + 1, n, by rw [hsplit]; rfl⟩
    | true =>
      have hall : rest = List.replicate rest.length true :=
        List.eq_replicate_iff.mpr ⟨rfl, fun other hother => hflag other hother rfl⟩
      refine ⟨0, rest.length + 1, ?_⟩
      rw [List.replicate_succ, ← hall]
      rfl

/-- Behind a stage that has started, stages finish only after they have started themselves. Once
all have finished, those that never started come before those that did. -/
theorem hasStarted_of_upstream {chain : Chain} {start s : Session κ Progress}
    (hstart : start.own = fresh chain) (hrun : Run client start s) :
    (chain.stages.Pairwise fun upstream stage => s.own.hasStarted upstream = true →
      s.own.isDone stage = true → s.own.hasStarted stage = true) ∧
    ((∀ kind ∈ chain.stages, s.own.isDone kind = true) →
      ∃ m n, chain.stages.map s.own.hasStarted =
        List.replicate m false ++ List.replicate n true) := by
  have hkeeps : s.own.chain = chain ∧ s.own.InOrder ∧ s.own.Fed := by
    refine hrun.keeps (fun p => p.chain = chain ∧ p.InOrder ∧ p.Fed) ?_ ?_
    · rintro ctx s later hstep ⟨hchain, horder, hfed⟩
      exact ⟨hstep.advances.chain.trans hchain, hstep.inOrder horder, hstep.fed horder hfed⟩
    · rw [hstart]
      exact ⟨rfl, inOrder_fresh chain, fed_fresh chain⟩
  obtain ⟨hchain, _, hfed⟩ := hkeeps
  rw [Fed, hchain] at hfed
  refine ⟨hfed, fun hall => exists_replicate_append ?_⟩
  rw [List.pairwise_map]
  exact hfed.imp_of_mem fun _ hsecond hpair hstarted => hpair hstarted (hall _ hsecond)

/-- No content is ever listed; a snapshot and an upload are, complete from the sixth listing on. -/
def withoutContents (asked : List Request) (request : Request) : Except Error request.Answer :=
  match request with
  | .list .snapshotContent _ => .ok []
  | .list kind ns => .ok [⟨kind, ⟨"nightly-0", ns⟩, [], none,
      if asked.length < 5 then .inProgress else .completed, none⟩]
  | _ => .error .invalidRequest

/-- Two passes: the first finishes the contents empty and sees the snapshot, the second finishes
both stages behind. -/
theorem hasStarted_of_upstream_withoutContents :
    let client := lister (fun _ => true) withoutContents fun _ _ _ => 0
    let ctx := Context.new "nightly" "openshift-adp" ["clusters-prod"]
    let start : Session (List Request) Progress := ⟨0, fun _ => 0, [], .fresh .standard⟩
    let s := (pass client ctx (pass client ctx start).2).2
    start.own = fresh .standard ∧ Run client start s ∧
    Chain.standard.stages.map s.own.hasStarted = [false, true, true] ∧
    (∀ kind ∈ Chain.standard.stages, s.own.isDone kind = true) ∧
    ∃ m n, Chain.standard.stages.map s.own.hasStarted =
      List.replicate m false ++ List.replicate n true := by
  intro client ctx start s
  have hrun : Run client start s := .tail (.single (.pass ctx start)) (.pass ctx _)
  have hall : ∀ kind ∈ Chain.standard.stages, s.own.isDone kind = true := by decide +kernel
  exact ⟨rfl, hrun, by decide +kernel, hall, (hasStarted_of_upstream rfl hrun).2 hall⟩

end BackupWatch.Job.Progress
