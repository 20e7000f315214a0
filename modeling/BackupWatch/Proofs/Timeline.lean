import BackupWatch.Proofs.Grants
import Mathlib.Data.List.Nodup

/-!
A cluster over time. Its watched objects come and go as a history has it, which no request can
change; a list is answered from what is there at that time, and every other request as the cluster
likes. No request fails or takes time. The client keeps a journal of when it was asked for what.
-/

namespace BackupWatch.Cluster

open Act Watch

variable {σ τ α : Type}

/-- Watched objects, no two of which are of one kind and have one identity. -/
structure Population where
  objects : List Object
  distinct : (objects.map fun o => (o.kind, o.identity)).Nodup

/-- Requests and the times at which they were made, the oldest first. -/
abbrev Journal := List (Nat × Request)

structure Timeline where
  population : Nat → Population
  answer : Nat → Journal → (request : Request) → request.Answer

namespace Timeline

def listed (t : Timeline) (clock : Nat) (kind : Kind) (ns : Option String) : List Object :=
  (t.population clock).objects.filter fun o => o.kind = kind ∧ (ns = none ∨ o.identity.ns = ns)

def answerAt (t : Timeline) (clock : Nat) (journal : Journal) :
    (request : Request) → request.Answer
  | .list kind ns => t.listed clock kind ns
  | request => t.answer clock journal request

def client (t : Timeline) : Client Journal where
  accepts _ := true
  reply request clock journal :=
    ⟨.ok (t.answerAt clock journal request), 0, journal ++ [(clock, request)]⟩

theorem run_ask (t : Timeline) (request : Request) (s : Session Journal σ) :
    (t.client.ask request : Act Journal σ request.Answer) s =
      (.ok (t.answerAt s.clock s.cluster request),
        { s with cluster := s.cluster ++ [(s.clock, request)] }) := rfl

theorem nodup_identities_listed (t : Timeline) (clock : Nat) (kind : Kind) (ns : Option String) :
    ((t.listed clock kind ns).map Object.identity).Nodup := by
  have hdistinct : (t.listed clock kind ns).Pairwise fun a b =>
      (a.kind, a.identity) ≠ (b.kind, b.identity) :=
    (List.pairwise_map.mp (t.population clock).distinct).filter _
  refine List.pairwise_map.mpr (hdistinct.imp_of_mem fun {a b} ha hb hne hsame => ?_)
  simp only [listed, List.mem_filter, decide_eq_true_eq] at ha hb
  exact hne (by rw [ha.2.1, hb.2.1, hsame])

/-- The client of a timeline refuses no request and no patch. -/
theorem grants_client (t : Timeline) : t.client.Grants := ⟨fun _ => rfl, fun _ _ _ => ⟨_, rfl⟩⟩

end Timeline
end BackupWatch.Cluster

namespace BackupWatch.Session

open Act Cluster

variable {σ : Type}

/-- From one session to another time goes on, and only requests of some set are made. -/
structure Asks (asked : Request → Prop) (s later : Session Journal σ) : Prop where
  clock : s.clock ≤ later.clock
  journal : ∃ new, later.cluster = s.cluster ++ new ∧ ∀ e ∈ new, s.clock ≤ e.1 ∧ asked e.2

instance (asked : Request → Prop) : IsPreorder (Session Journal σ) (Asks asked) where
  refl s := ⟨Nat.le_refl _, [], by simp, by simp⟩
  trans a b c hab hbc := by
    obtain ⟨first, hfirst, hasked₁⟩ := hab.journal
    obtain ⟨second, hsecond, hasked₂⟩ := hbc.journal
    refine ⟨Nat.le_trans hab.clock hbc.clock, first ++ second, ?_, ?_⟩
    · rw [hsecond, hfirst, List.append_assoc]
    · intro e he
      rcases List.mem_append.mp he with h | h
      · exact hasked₁ e h
      · exact ⟨Nat.le_trans hab.clock (hasked₂ e h).1, (hasked₂ e h).2⟩

theorem asks_pass {asked : Request → Prop} (s : Session Journal σ) (n : Nat) :
    Asks asked s (s.pass n) :=
  ⟨Nat.le_add_right _ n, [], (List.append_nil _).symm, by simp⟩

theorem asks_own {asked : Request → Prop} (s : Session Journal σ) (value : σ) :
    Asks asked s { s with own := value } :=
  ⟨Nat.le_refl _, [], (List.append_nil _).symm, by simp⟩

theorem permits_asks (t : Timeline) (asked : Request → Prop) :
    t.client.Permits asked (Asks asked : Session Journal σ → _ → Prop) where
  pass := asks_pass
  roll _ := ⟨Nat.le_refl _, [], (List.append_nil _).symm, by simp⟩
  after request s hasked :=
    ⟨Nat.le_refl _, [(s.clock, request)], rfl, by simpa using hasked⟩

end BackupWatch.Session
