import BackupWatch.Cluster.Client
import BackupWatch.Proofs.Act

/-!
Chronicles: a client that writes down every request and its result, beside the cluster of
another client, and otherwise answers like it. What a tracker asks for can so be read off the
session, whatever the client does.
-/

namespace BackupWatch.Cluster

variable {κ σ : Type}

def Request.isList : Request → Prop
  | list _ _ => True
  | _ => False

structure Exchange where
  request : Request
  result : Except Error request.Answer

/-- A cluster, and the exchanges with it, the oldest first. -/
structure Chronicle (κ : Type) where
  cluster : κ
  history : List Exchange

namespace Client

def recorded (client : Client κ) : Client (Chronicle κ) where
  accepts := client.accepts
  reply request clock chronicle :=
    let reply := client.reply request clock chronicle.cluster
    ⟨reply.result, reply.took,
      ⟨reply.cluster, chronicle.history ++ [⟨request, reply.result⟩]⟩⟩

def after (client : Client κ) (request : Request) (s : Session κ σ) : Session κ σ :=
  let reply := client.reply request s.clock s.cluster
  { s with clock := s.clock + reply.took, cluster := reply.cluster }

theorem run_ask (client : Client κ) (request : Request) (s : Session κ σ) :
    (client.ask request : Act κ σ request.Answer) s =
      ((client.reply request s.clock s.cluster).result.mapError .error,
        client.after request s) := by
  unfold ask after
  rcases client.reply request s.clock s.cluster with ⟨_ | _, _, _⟩ <;> rfl

theorem run_ask_of_ok {client : Client κ} {request : Request} {s : Session κ σ}
    {a : request.Answer} (h : (client.reply request s.clock s.cluster).result = .ok a) :
    (client.ask request : Act κ σ request.Answer) s = (.ok a, client.after request s) := by
  rw [run_ask, h]
  rfl

@[simp] theorem own_after (client : Client κ) (request : Request) (s : Session κ σ) :
    (client.after request s).own = s.own := rfl

/-- A relation of sessions that contains the passing of time, the drawing of random numbers and
the requests of a set. -/
structure Permits (client : Client κ) (asked : Request → Prop)
    (R : Session κ σ → Session κ σ → Prop) : Prop where
  pass : ∀ s n, R s (s.pass n)
  roll : ∀ s, R s s.rolled
  after : ∀ request s, asked request → R s (client.after request s)

end Client
end BackupWatch.Cluster

namespace BackupWatch

open Cluster

variable {κ σ α : Type}

namespace Session

def history (s : Session (Chronicle κ) σ) : List Exchange := s.cluster.history

@[simp] theorem history_after (client : Client κ) (request : Request)
    (s : Session (Chronicle κ) σ) : (client.recorded.after request s).history =
      s.history ++ [⟨request, (client.recorded.reply request s.clock s.cluster).result⟩] := rfl

theorem exists_split_history {s : Session (Chronicle κ) σ} {request : Request}
    (h : request ∈ s.history.map Exchange.request) :
    ∃ before result after, s.history = before ++ ⟨request, result⟩ :: after := by
  obtain ⟨⟨_, result⟩, hmem, rfl⟩ := List.mem_map.mp h
  obtain ⟨before, after, hsplit⟩ := List.append_of_mem hmem
  exact ⟨before, result, after, hsplit⟩

def SameOwn (s later : Session κ σ) : Prop := later.own = s.own

instance : IsPreorder (Session κ σ) SameOwn where
  refl _ := rfl
  trans _ _ _ h₁ h₂ := Eq.trans h₂ h₁

/-- Between two sessions only exchanges of a certain sort are had. -/
def Sends (sort : Exchange → Prop) (s later : Session (Chronicle κ) σ) : Prop :=
  ∃ new, later.history = s.history ++ new ∧ ∀ e ∈ new, sort e

instance (sort : Exchange → Prop) : IsPreorder (Session (Chronicle κ) σ) (Sends sort) where
  refl s := ⟨[], by simp, by simp⟩
  trans a b c hab hbc := by
    obtain ⟨first, hfirst, hsort₁⟩ := hab
    obtain ⟨second, hsecond, hsort₂⟩ := hbc
    refine ⟨first ++ second, by rw [hsecond, hfirst, List.append_assoc], ?_⟩
    intro e he
    rcases List.mem_append.mp he with h | h
    · exact hsort₁ e h
    · exact hsort₂ e h

theorem Sends.of_history_eq {sort : Exchange → Prop} {s later : Session (Chronicle κ) σ}
    (h : later.history = s.history) : Sends sort s later := ⟨[], by simp [h], by simp⟩

theorem permits_sameOwn (client : Client κ) (asked : Request → Prop) :
    client.Permits asked (SameOwn : Session κ σ → Session κ σ → Prop) where
  pass _ _ := rfl
  roll _ := rfl
  after _ _ _ := rfl

def Keeping (holds : Session κ σ → Prop) (s later : Session κ σ) : Prop := holds s → holds later

instance (holds : Session κ σ → Prop) : IsPreorder (Session κ σ) (Keeping holds) where
  refl _ h := h
  trans _ _ _ hab hbc h := hbc (hab h)

theorem permits_diceInRange (client : Client κ) (asked : Request → Prop) :
    client.Permits asked (Keeping DiceInRange : Session κ σ → Session κ σ → Prop) where
  pass _ _ h := h
  roll _ h := h.rolled
  after _ _ _ h := h

theorem permits_sends (client : Client κ) {asked : Request → Prop} {sort : Exchange → Prop}
    (h : ∀ request result, asked request → sort ⟨request, result⟩) :
    client.recorded.Permits asked (Sends sort : Session (Chronicle κ) σ → _ → Prop) where
  pass _ _ := .of_history_eq rfl
  roll _ := .of_history_eq rfl
  after request s hasked := ⟨_, history_after client request s, by simpa using h request _ hasked⟩

end Session

namespace Act

abbrev Moves (R : Session κ σ → Session κ σ → Prop) (act : Act κ σ α) : Prop :=
  Leads R (fun _ => True) act fun _ _ => True

theorem moves_ask {client : Client κ} {asked : Request → Prop}
    {R : Session κ σ → Session κ σ → Prop} (hR : client.Permits asked R) {request : Request}
    (h : asked request) : Moves R (client.ask request) := by
  intro s _
  rw [Client.run_ask]
  exact ⟨hR.after request s h, fun _ _ => trivial⟩

end Act
end BackupWatch
