import BackupWatch.Proofs.Chronicle
import Mathlib.Data.List.Forall2

/-!
Two acts side by side, each with a client of its own, which writes down every reply. They are
paired if from sessions that are linked they end alike in sessions that are linked again, provided
that by then the replies to the same requests were alike. Since a transcript only grows, what the
provision says of the end of an act it says of every point before.
-/

namespace BackupWatch

open Cluster Time

variable {κ κ' σ τ α β ε : Type}

/-- Both have a result, and these are alike, or both have failed in the same way. -/
inductive Agree (alike : α → α → Prop) : Except ε α → Except ε α → Prop
  | ok {a b : α} (h : alike a b) : Agree alike (.ok a) (.ok b)
  | error (e : ε) : Agree alike (.error e) (.error e)

theorem Agree.eq {x y : Except ε α} (h : Agree Eq x y) : x = y := by
  cases h with
  | ok h => rw [h]
  | error e => rfl

/-- Results that agree in one way agree in every weaker way. -/
theorem Agree.imp {alike weak : α → α → Prop} {x y : Except ε α} (h : Agree alike x y)
    (hweak : ∀ a b, alike a b → weak a b) : Agree weak x y := by
  cases h with
  | ok h => exact .ok (hweak _ _ h)
  | error e => exact .error e

namespace Cluster

/-- What came of a request, and the milliseconds that it took. -/
structure Replied where
  request : Request
  result : Except Error request.Answer
  took : Nat

/-- A cluster, and the replies that it gave, the oldest first. -/
structure Transcript (κ : Type) where
  cluster : κ
  replies : List Replied

def Client.transcribed (client : Client κ) : Client (Transcript κ) where
  accepts := client.accepts
  reply request clock transcript :=
    let reply := client.reply request clock transcript.cluster
    ⟨reply.result, reply.took,
      ⟨reply.cluster, transcript.replies ++ [⟨request, reply.result, reply.took⟩]⟩⟩

/-- Replies to one request after the same time, both with the same error or with answers that
`same` holds of. -/
inductive Replied.Alike (same : (request : Request) → request.Answer → request.Answer → Prop) :
    Replied → Replied → Prop
  | ok {request : Request} {a b : request.Answer} {took : Nat} (h : same request a b) :
    Replied.Alike same ⟨request, .ok a, took⟩ ⟨request, .ok b, took⟩
  | error (request : Request) (e : Error) (took : Nat) :
    Replied.Alike same ⟨request, .error e, took⟩ ⟨request, .error e, took⟩

/-- Wherever two transcripts have replies to one request, these are alike. -/
def Concur (alike : Replied → Replied → Prop) (left right : List Replied) : Prop :=
  ∀ (n : Nat) (one two : Replied), left[n]? = some one → right[n]? = some two →
    one.request = two.request → alike one two

/-- Histories that concur have concurred at every earlier point. -/
theorem Concur.before {alike : Replied → Replied → Prop} {left right later later' : List Replied}
    (h : Concur alike later later') (hleft : left <+: later) (hright : right <+: later') :
    Concur alike left right := by
  obtain ⟨new, rfl⟩ := hleft
  obtain ⟨new', rfl⟩ := hright
  intro n one two hone htwo hsame
  refine h n one two ?_ ?_ hsame
  · rw [List.getElem?_append_left (List.getElem?_eq_some_iff.mp hone).1, hone]
  · rw [List.getElem?_append_left (List.getElem?_eq_some_iff.mp htwo).1, htwo]

theorem Concur.of_forall {alike : Replied → Replied → Prop} {left right : List Replied}
    (h : List.Forall₂ alike left right) : Concur alike left right := by
  intro n one two hone htwo _
  obtain ⟨_, hall⟩ := List.forall₂_iff_get.mp h
  obtain ⟨hn, rfl⟩ := List.getElem?_eq_some_iff.mp hone
  obtain ⟨hn', rfl⟩ := List.getElem?_eq_some_iff.mp htwo
  exact hall n hn hn'

/-- The latest replies of transcripts of one length. -/
theorem Concur.last {alike : Replied → Replied → Prop} {left right : List Replied}
    {one two : Replied} (h : Concur alike (left ++ [one]) (right ++ [two]))
    (hlength : left.length = right.length) (hsame : one.request = two.request) :
    alike one two :=
  h left.length one two (by simp) (by simp [hlength]) hsame

end Cluster

namespace Session

def replies (s : Session (Transcript κ) σ) : List Replied := s.cluster.replies

theorem replies_after (client : Client κ) (request : Request) (s : Session (Transcript κ) σ) :
    (client.transcribed.after request s).replies =
      s.replies ++ [⟨request, (client.reply request s.clock s.cluster.cluster).result,
        (client.reply request s.clock s.cluster.cluster).took⟩] := rfl

def Extends (s later : Session (Transcript κ) σ) : Prop := s.replies <+: later.replies

instance : IsPreorder (Session (Transcript κ) σ) Extends where
  refl s := List.prefix_refl s.replies
  trans _ _ _ h₁ h₂ := List.IsPrefix.trans h₁ h₂

theorem permits_extends (client : Client κ) :
    client.transcribed.Permits (fun _ => True)
      (Extends : Session (Transcript κ) σ → Session (Transcript κ) σ → Prop) where
  pass s _ := List.prefix_refl s.replies
  roll s := List.prefix_refl s.replies
  after request s _ := by
    rw [Extends, replies_after]
    exact List.prefix_append ..

/-- Two sessions at one time, with chance the same to come, that have made the same requests. -/
structure Linked (own : σ → σ → Prop) (s : Session (Transcript κ) σ)
    (t : Session (Transcript κ') σ) : Prop where
  clock : s.clock = t.clock
  dice : s.dice = t.dice
  requests : s.replies.map Replied.request = t.replies.map Replied.request
  own : own s.own t.own

/-- Sessions that are linked stay so while the same time passes in both. -/
theorem Linked.pass {own : σ → σ → Prop} {s : Session (Transcript κ) σ}
    {t : Session (Transcript κ') σ} (h : Linked own s t) (millis : Nat) :
    Linked own (s.pass millis) (t.pass millis) :=
  ⟨congrArg (· + millis) h.clock, h.dice, h.requests, h.own⟩

end Session

namespace Act

class Grows (act : Act (Transcript κ) σ α) : Prop where
  moves : Moves Session.Extends act

section Grows

instance (a : α) : Grows (pure a : Act (Transcript κ) σ α) := ⟨leads_pure a fun _ _ => trivial⟩

instance (f : Failure) : Grows (throw f : Act (Transcript κ) σ α) := ⟨leads_throw f⟩

instance (e : Error) : Grows (fail e : Act (Transcript κ) σ α) := ⟨leads_throw _⟩

instance : Grows (own : Act (Transcript κ) σ σ) := ⟨leads_own fun _ _ => trivial⟩

instance (value : σ) : Grows (setOwn value : Act (Transcript κ) σ Unit) :=
  ⟨fun s _ => ⟨List.prefix_refl s.replies, fun _ _ => trivial⟩⟩

instance : Grows (clock : Act (Transcript κ) σ Nat) := ⟨leads_clock fun _ _ => trivial⟩

instance (d : Duration) : Grows (sleep d : Act (Transcript κ) σ Unit) :=
  ⟨leads_sleep d (fun s _ => List.prefix_refl s.replies) fun _ _ _ => trivial⟩

theorem grows_ask (client : Client κ) (request : Request) :
    Grows (client.transcribed.ask request : Act (Transcript κ) σ request.Answer) :=
  ⟨moves_ask (Session.permits_extends client) trivial⟩

instance (client : Client κ) (kind : Watch.Kind) (ns : Option String) :
    Grows (client.transcribed.ask (.list kind ns) : Act (Transcript κ) σ (List Watch.Object)) :=
  grows_ask client _

instance (client : Client κ) (object : Managed) :
    Grows (client.transcribed.ask (.readPause object) : Act (Transcript κ) σ PauseField) :=
  grows_ask client _

instance (client : Client κ) (object : Managed) (observed : PauseField) (value : String) :
    Grows (client.transcribed.ask (.writePause object observed value) :
      Act (Transcript κ) σ Unit) :=
  grows_ask client _

instance (client : Client κ) (cluster : Managed) :
    Grows (client.transcribed.ask (.nodePools cluster) : Act (Transcript κ) σ (List Managed)) :=
  grows_ask client _

instance (client : Client κ) (id : Watch.Identity) :
    Grows (client.transcribed.ask (.controlPlane id) :
      Act (Transcript κ) σ (Option Resource.ControlPlane)) :=
  grows_ask client _

instance {x : Act (Transcript κ) σ α} {f : α → Act (Transcript κ) σ β} [hx : Grows x]
    [hf : ∀ a, Grows (f a)] : Grows (x >>= f) :=
  ⟨leads_bind _ hx.moves fun a => (hf a).moves⟩

instance {c : Prop} [Decidable c] {x y : Act (Transcript κ) σ α} [hx : Grows x] [hy : Grows y] :
    Grows (if c then x else y) :=
  ⟨leads_ite (fun _ => hx.moves) fun _ => hy.moves⟩

instance (result : Except Error α) : Grows (ofExcept result : Act (Transcript κ) σ α) :=
  ⟨leads_ofExcept fun _ _ _ _ => trivial⟩

instance (result : Except Fault α) : Grows (ofFault result : Act (Transcript κ) σ α) :=
  ⟨leads_ofFault fun _ _ _ => trivial⟩

instance {f : α → Act (Transcript κ) σ β} (list : List α) [h : ∀ a, Grows (f a)] :
    Grows (list.mapM f) :=
  ⟨leads_mapM fun a _ => (h a).moves⟩

instance {f : α → Act (Transcript κ) σ Unit} (list : List α) [h : ∀ a, Grows (f a)] :
    Grows (list.forM f) := by
  induction list with
  | nil => exact inferInstanceAs (Grows (pure ()))
  | cons a rest ih => exact inferInstanceAs (Grows (f a >>= fun _ => rest.forM f))

instance {part : σ → τ} {update : τ → σ → σ} {act : Act (Transcript κ) τ α} [h : Grows act] :
    Grows (within part update act) :=
  ⟨fun s _ => ⟨(h.moves (s.focus part) trivial).1, fun _ _ => trivial⟩⟩

instance (settings : Poll.Settings) (operation : String)
    {look : Act (Transcript κ) σ Poll.Status} (started left attempts : Nat) [h : Grows look] :
    Grows (Poll.loop settings operation look started left attempts) :=
  ⟨Poll.leads_loop settings operation started (fun s _ => List.prefix_refl s.replies)
    (fun _ _ h => h) (h.moves.imp (fun _ h => h) fun _ _ _ => by split <;> trivial) left attempts⟩

instance (settings : Poll.Settings) (operation : String)
    {look : Act (Transcript κ) σ Poll.Status} [h : Grows look] :
    Grows (Poll.run settings operation look) :=
  ⟨Poll.leads_run settings operation (fun s _ => List.prefix_refl s.replies) (fun _ _ h => h)
    (h.moves.imp (fun _ h => h) fun _ _ _ => by split <;> trivial)⟩

instance (p : Retry.Policy) (operation : String) {act : Act (Transcript κ) σ α}
    (left tries : Nat) [h : Grows act] : Grows (Retry.loop p operation act left tries) :=
  ⟨Retry.leads_loop p operation (fun s _ => List.prefix_refl s.replies)
    (fun s => List.prefix_refl s.replies) (fun _ _ _ h => h) h.moves left tries⟩

instance (width : Float) : Grows (Retry.draw width : Act (Transcript κ) σ Float) :=
  ⟨Retry.leads_draw width fun s => List.prefix_refl s.replies⟩

instance (p : Retry.Policy) (attempt : Nat) :
    Grows (p.delay attempt : Act (Transcript κ) σ Duration) :=
  ⟨Retry.leads_delay p attempt fun s => List.prefix_refl s.replies⟩

end Grows

/-- From linked sessions both acts end alike in linked sessions, if the replies were alike. -/
def Paired (alike : Replied → Replied → Prop) (own : σ → σ → Prop)
    (x : Act (Transcript κ) σ α) (y : Act (Transcript κ') σ α) (both : α → α → Prop) : Prop :=
  ∀ s t, Session.Linked own s t → Concur alike (x s).2.replies (y t).2.replies →
    Agree both (x s).1 (y t).1 ∧ Session.Linked own (x s).2 (y t).2

section Rules

variable {alike : Replied → Replied → Prop} {own : σ → σ → Prop} {both : α → α → Prop}

theorem Paired.imp {weak : α → α → Prop} {x : Act (Transcript κ) σ α}
    {y : Act (Transcript κ') σ α} (h : Paired alike own x y both)
    (hweak : ∀ a b, both a b → weak a b) : Paired alike own x y weak := by
  intro s t hlinked hconcur
  obtain ⟨hagree, hlater⟩ := h s t hlinked hconcur
  exact ⟨hagree.imp hweak, hlater⟩

theorem paired_pure {a b : α} (h : both a b) :
    Paired alike own (pure a : Act (Transcript κ) σ α) (pure b : Act (Transcript κ') σ α) both :=
  fun _ _ hlinked _ => ⟨.ok h, hlinked⟩

theorem paired_throw (f : Failure) :
    Paired alike own (throw f : Act (Transcript κ) σ α) (throw f : Act (Transcript κ') σ α) both :=
  fun _ _ hlinked _ => ⟨.error f, hlinked⟩

theorem paired_own : Paired alike own (Act.own : Act (Transcript κ) σ σ)
    (Act.own : Act (Transcript κ') σ σ) own :=
  fun _ _ hlinked _ => ⟨.ok hlinked.own, hlinked⟩

theorem paired_setOwn {a b : σ} (h : own a b) :
    Paired alike own (setOwn a : Act (Transcript κ) σ Unit) (setOwn b : Act (Transcript κ') σ Unit)
      Eq :=
  fun _ _ hlinked _ => ⟨.ok rfl, hlinked.clock, hlinked.dice, hlinked.requests, h⟩

theorem paired_clock :
    Paired alike own (clock : Act (Transcript κ) σ Nat) (clock : Act (Transcript κ') σ Nat) Eq :=
  fun _ _ hlinked _ => ⟨.ok hlinked.clock, hlinked⟩

theorem paired_sleep (d : Duration) :
    Paired alike own (sleep d : Act (Transcript κ) σ Unit) (sleep d : Act (Transcript κ') σ Unit)
      Eq :=
  fun _ _ hlinked _ => ⟨.ok rfl, hlinked.pass _⟩

theorem paired_roll :
    Paired alike own (roll : Act (Transcript κ) σ Float) (roll : Act (Transcript κ') σ Float) Eq :=
  fun _ _ hlinked _ => ⟨.ok (congrFun hlinked.dice 0), hlinked.clock,
    funext fun n => congrFun hlinked.dice (n + 1), hlinked.requests, hlinked.own⟩

/-- After the same requests, replies to the next one stand in one place of both transcripts. -/
theorem paired_ask {same : (request : Request) → request.Answer → request.Answer → Prop}
    (one : Client κ) (two : Client κ') (request : Request) :
    Paired (Replied.Alike same) own (one.transcribed.ask request : Act _ σ request.Answer)
      (two.transcribed.ask request : Act _ σ request.Answer) (same request) := by
  intro s t hlinked hconcur
  rw [Client.run_ask] at hconcur ⊢
  rw [Client.run_ask] at hconcur ⊢
  simp only [Session.replies_after] at hconcur
  have hlength : s.replies.length = t.replies.length := by
    simpa using congrArg List.length hlinked.requests
  have halike := hconcur.last hlength rfl
  have hrequests : (one.transcribed.after request s).replies.map Replied.request =
      (two.transcribed.after request t).replies.map Replied.request := by
    simp only [Session.replies_after, List.map_append, hlinked.requests, List.map_cons,
      List.map_nil]
  change Agree _ ((one.reply request s.clock s.cluster.cluster).result.mapError _)
    ((two.reply request t.clock t.cluster.cluster).result.mapError _) ∧ _
  have hclock : (one.transcribed.after request s).clock =
      s.clock + (one.reply request s.clock s.cluster.cluster).took := rfl
  have hclock' : (two.transcribed.after request t).clock =
      t.clock + (two.reply request t.clock t.cluster.cluster).took := rfl
  generalize (one.reply request s.clock s.cluster.cluster).result = left at halike
  generalize (two.reply request t.clock t.cluster.cluster).result = right at halike
  generalize (one.reply request s.clock s.cluster.cluster).took = first at halike hclock
  generalize (two.reply request t.clock t.cluster.cluster).took = second at halike hclock'
  have hlater : first = second → Session.Linked own (one.transcribed.after request s)
      (two.transcribed.after request t) :=
    fun htook => ⟨by rw [hclock, hclock', hlinked.clock, htook], hlinked.dice, hrequests,
      hlinked.own⟩
  cases halike with
  | ok h => exact ⟨.ok h, hlater rfl⟩
  | error _ e _ => exact ⟨Agree.error (Failure.error e), hlater rfl⟩

theorem paired_bind {mid : α → α → Prop} {both : β → β → Prop} {x : Act (Transcript κ) σ α}
    {y : Act (Transcript κ') σ α} {f : α → Act (Transcript κ) σ β}
    {g : α → Act (Transcript κ') σ β} (hx : Paired alike own x y mid)
    (hf : ∀ a b, mid a b → Paired alike own (f a) (g b) both)
    [hleft : ∀ a, Grows (f a)] [hright : ∀ a, Grows (g a)] :
    Paired alike own (x >>= f) (y >>= g) both := by
  intro s t hlinked hconcur
  have hpair := hx s t hlinked
  rw [run_bind] at hconcur ⊢
  rw [run_bind] at hconcur ⊢
  rcases hleftRun : x s with ⟨e | a, later⟩
  · rw [hleftRun] at hconcur hpair
    rcases hrightRun : y t with ⟨e' | b, later'⟩
    · rw [hrightRun] at hconcur hpair
      obtain ⟨hagree, hlater⟩ := hpair hconcur
      cases hagree with
      | error _ => exact ⟨.error e, hlater⟩
    · rw [hrightRun] at hconcur hpair
      obtain ⟨hagree, _⟩ := hpair
        (hconcur.before (List.prefix_refl _) ((hright b).moves later' trivial).1)
      cases hagree
  · rw [hleftRun] at hconcur hpair
    rcases hrightRun : y t with ⟨e' | b, later'⟩
    · rw [hrightRun] at hconcur hpair
      obtain ⟨hagree, _⟩ := hpair
        (hconcur.before ((hleft a).moves later trivial).1 (List.prefix_refl _))
      cases hagree
    · rw [hrightRun] at hconcur hpair
      obtain ⟨hagree, hlater⟩ := hpair
        (hconcur.before ((hleft a).moves later trivial).1 ((hright b).moves later' trivial).1)
      cases hagree with
      | ok hmid => exact hf a b hmid later later' hlater hconcur

/-- The same for later acts that branch on what came before. -/
theorem paired_bind_of_grows {mid : α → α → Prop} {both : β → β → Prop}
    {x : Act (Transcript κ) σ α} {y : Act (Transcript κ') σ α} {f : α → Act (Transcript κ) σ β}
    {g : α → Act (Transcript κ') σ β} (hleft : ∀ a, Grows (f a)) (hright : ∀ a, Grows (g a))
    (hx : Paired alike own x y mid) (hf : ∀ a b, mid a b → Paired alike own (f a) (g b) both) :
    Paired alike own (x >>= f) (y >>= g) both :=
  paired_bind hx hf

/-- Two choices by one condition are paired if the chosen acts are. -/
theorem paired_ite {c : Prop} [Decidable c] {x x' : Act (Transcript κ) σ α}
    {y y' : Act (Transcript κ') σ α} (hx : c → Paired alike own x y both)
    (hy : ¬ c → Paired alike own x' y' both) :
    Paired alike own (if c then x else x') (if c then y else y') both := by
  split
  · next h => exact hx h
  · next h => exact hy h

theorem paired_ofExcept (result : Except Error α) :
    Paired alike own (ofExcept result : Act (Transcript κ) σ α)
      (ofExcept result : Act (Transcript κ') σ α) Eq := by
  cases result with
  | ok a => exact paired_pure rfl
  | error e => exact paired_throw _

theorem paired_ofFault (result : Except Fault α) :
    Paired alike own (ofFault result : Act (Transcript κ) σ α)
      (ofFault result : Act (Transcript κ') σ α) Eq := by
  cases result with
  | ok a => exact paired_pure rfl
  | error e => exact paired_throw _

/-- Acts in a row are paired if they are paired one by one. -/
theorem paired_mapM {both : β → β → Prop} {f : α → Act (Transcript κ) σ β}
    {g : α → Act (Transcript κ') σ β} (list : List α)
    (h : ∀ a, Paired alike own (f a) (g a) both)
    [hleft : ∀ a, Grows (f a)] [hright : ∀ a, Grows (g a)] :
    Paired alike own (list.mapM f) (list.mapM g) (List.Forall₂ both) := by
  induction list with
  | nil => exact paired_pure .nil
  | cons a rest ih =>
    rw [List.mapM_cons, List.mapM_cons]
    refine paired_bind (h a) fun b b' hb => ?_
    refine paired_bind ih fun bs bs' hbs => ?_
    exact paired_pure (.cons hb hbs)

theorem paired_forM {f : α → Act (Transcript κ) σ Unit} {g : α → Act (Transcript κ') σ Unit}
    (list : List α) (h : ∀ a, Paired alike own (f a) (g a) Eq)
    [hleft : ∀ a, Grows (f a)] [hright : ∀ a, Grows (g a)] :
    Paired alike own (list.forM f) (list.forM g) Eq := by
  induction list with
  | nil => exact paired_pure rfl
  | cons a rest ih =>
    exact paired_bind (h a) fun _ _ _ => ih

/-- Acts on a part of the own state are paired as acts on the whole. -/
theorem paired_within {part : σ → τ} {update : τ → σ → σ} {inner : τ → τ → Prop}
    {x : Act (Transcript κ) τ α} {y : Act (Transcript κ') τ α}
    (h : Paired alike inner x y both) (hpart : ∀ a b, own a b → inner (part a) (part b))
    (hupdate : ∀ a b c d, own a b → inner c d → own (update c a) (update d b)) :
    Paired alike own (within part update x) (within part update y) both := by
  intro s t hlinked hconcur
  obtain ⟨hagree, hlater⟩ := h (s.focus part) (t.focus part) ⟨hlinked.clock, hlinked.dice,
    hlinked.requests, hpart _ _ hlinked.own⟩ hconcur
  exact ⟨hagree, hlater.clock, hlater.dice, hlater.requests,
    hupdate _ _ _ _ hlinked.own hlater.own⟩

theorem paired_attempt {x : Act (Transcript κ) σ α} {y : Act (Transcript κ') σ α}
    (h : Paired alike own x y Eq) : Paired alike own (attempt x) (attempt y) Eq := by
  intro s t hlinked hconcur
  have hpair := h s t hlinked
  unfold attempt at hconcur ⊢
  rcases hleft : x s with ⟨(e | f) | a, later⟩ <;>
    rcases hright : y t with ⟨(e' | f') | a', later'⟩ <;>
      rw [hleft, hright] at hconcur hpair <;>
        obtain ⟨hagree, hlater⟩ := hpair hconcur <;> cases hagree.eq
  · exact ⟨.ok rfl, hlater⟩
  · exact ⟨.error _, hlater⟩
  · exact ⟨.ok rfl, hlater⟩

end Rules
end Act

section Loops

open Act

variable {alike : Replied → Replied → Prop} {own : σ → σ → Prop}

namespace Poll

theorem paired_loop (settings : Settings) (operation : String) {x : Act (Transcript κ) σ Status}
    {y : Act (Transcript κ') σ Status} [Grows x] [Grows y] (h : Paired alike own x y Eq)
    (started left attempts : Nat) :
    Paired alike own (loop settings operation x started left attempts)
      (loop settings operation y started left attempts) Eq := by
  induction left generalizing attempts with
  | zero => exact paired_throw _
  | succ left ih =>
    unfold loop
    refine paired_bind h fun status _ hstatus => ?_
    subst hstatus
    refine paired_bind paired_clock fun now _ hnow => ?_
    subst hnow
    refine paired_ite (fun _ => paired_pure rfl) fun _ => ?_
    refine paired_ite (fun _ => paired_throw _) fun _ => ?_
    exact paired_bind (paired_sleep _) fun _ _ _ => ih (attempts + 1)

theorem paired_run (settings : Settings) (operation : String) {x : Act (Transcript κ) σ Status}
    {y : Act (Transcript κ') σ Status} [Grows x] [Grows y] (h : Paired alike own x y Eq) :
    Paired alike own (run settings operation x) (run settings operation y) Eq := by
  have hloop : ∀ started, Paired alike own
      (loop settings operation x started attemptLimit 0)
      (loop settings operation y started attemptLimit 0) Eq :=
    fun started => paired_loop settings operation h started attemptLimit 0
  unfold run
  refine paired_bind paired_clock fun started _ hstarted => ?_
  subst hstarted
  refine paired_ite (fun _ => ?_) fun _ => hloop started
  exact paired_bind (paired_throw _) fun _ _ (_ : True) => hloop started

end Poll

namespace Retry

theorem paired_draw (width : Float) :
    Paired alike own (draw width : Act (Transcript κ) σ Float)
      (draw width : Act (Transcript κ') σ Float) Eq := by
  unfold draw
  refine paired_ite (fun _ => ?_) fun _ => paired_ofFault _
  exact paired_bind paired_roll fun _ _ h => paired_pure (h ▸ rfl)

theorem paired_delay (p : Policy) (tries : Nat) :
    Paired alike own (p.delay tries : Act (Transcript κ) σ Duration)
      (p.delay tries : Act (Transcript κ') σ Duration) Eq := by
  unfold Policy.delay
  refine paired_bind (paired_ofFault _) fun base _ hbase => ?_
  subst hbase
  refine paired_ite (fun _ => paired_ofFault _) fun _ => ?_
  refine paired_bind (paired_draw _) fun spread _ hspread => ?_
  subst hspread
  exact paired_ofFault _

theorem paired_loop (p : Policy) (operation : String) {x : Act (Transcript κ) σ α}
    {y : Act (Transcript κ') σ α} [Grows x] [Grows y] (h : Paired alike own x y Eq)
    (left tries : Nat) :
    Paired alike own (loop p operation x left tries) (loop p operation y left tries) Eq := by
  induction left generalizing tries with
  | zero =>
    unfold loop
    refine paired_bind_of_grows (fun result => by cases result <;> infer_instance)
      (fun result => by cases result <;> infer_instance) (paired_attempt h)
      fun result _ hresult => ?_
    subst hresult
    cases result with
    | ok a => exact paired_pure rfl
    | error e => exact paired_ite (fun _ => paired_throw _) fun _ => paired_throw _
  | succ left ih =>
    unfold loop
    refine paired_bind_of_grows (fun result => by cases result <;> infer_instance)
      (fun result => by cases result <;> infer_instance) (paired_attempt h)
      fun result _ hresult => ?_
    subst hresult
    cases result with
    | ok a => exact paired_pure rfl
    | error e =>
      refine paired_ite (fun _ => ?_) fun _ => paired_throw _
      refine paired_bind (paired_delay p tries) fun d _ hd => ?_
      subst hd
      exact paired_bind (paired_sleep d) fun _ _ _ => ih (tries + 1)

theorem paired_run (p : Policy) (operation : String) {x : Act (Transcript κ) σ α}
    {y : Act (Transcript κ') σ α} [Grows x] [Grows y] (h : Paired alike own x y Eq) :
    Paired alike own (run p operation x) (run p operation y) Eq :=
  paired_loop p operation h _ _

end Retry
end Loops
end BackupWatch
