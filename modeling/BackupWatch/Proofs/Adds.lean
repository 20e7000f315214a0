import BackupWatch.Proofs.Chronicle
import BackupWatch.Proofs.Ends

/-!
What acts add to a chronicle. An act adds exchanges of which one thing holds if it ends in a
result, and another if it ends in a failure. What a sequence of acts adds is put together from
what its parts add, also where a poll or a retry repeats a part.
-/

namespace BackupWatch

open Cluster Time

variable {κ σ τ α β : Type}

/-- The exchanges after some point of a chronicle are as said. -/
def Session.Since (base : List Exchange) (holds : List Exchange → Prop)
    (s : Session (Chronicle κ) σ) : Prop :=
  ∃ new, s.history = base ++ new ∧ holds new

namespace Act

def Adds (act : Act (Chronicle κ) σ α) (post : α → List Exchange → Prop)
    (ex : Failure → List Exchange → Prop) : Prop :=
  ∀ base, Ends (fun s => s.history = base) act (fun a => Session.Since base (post a))
    fun f => Session.Since base (ex f)

section Rules

variable {post : α → List Exchange → Prop} {ex : Failure → List Exchange → Prop}

/-- What is added comes behind what has been added before. -/
theorem Adds.after {act : Act (Chronicle κ) σ α} (h : Adds act post ex) (base : List Exchange)
    (before : List Exchange → Prop) :
    Ends (Session.Since base before) act
      (fun a => Session.Since base fun new =>
        ∃ first second, before first ∧ post a second ∧ new = first ++ second)
      fun f => Session.Since base fun new =>
        ∃ first second, before first ∧ ex f second ∧ new = first ++ second := by
  rintro s ⟨first, hfirst, hbefore⟩
  have hend := h _ s hfirst
  generalize act s = result at hend
  cases hend with
  | ok hlater =>
    obtain ⟨second, hsecond, hpost⟩ := hlater
    exact .ok ⟨first ++ second, by rw [hsecond, List.append_assoc], first, second, hbefore, hpost,
      rfl⟩
  | error hlater =>
    obtain ⟨second, hsecond, hex⟩ := hlater
    exact .error ⟨first ++ second, by rw [hsecond, List.append_assoc], first, second, hbefore, hex,
      rfl⟩

theorem Adds.imp {weak : α → List Exchange → Prop} {lax : Failure → List Exchange → Prop}
    {act : Act (Chronicle κ) σ α} (h : Adds act post ex) (hpost : ∀ a new, post a new → weak a new)
    (hex : ∀ f new, ex f new → lax f new) : Adds act weak lax :=
  fun base => (h base).imp (fun _ hs => hs)
    (fun a _ hs => hs.imp fun new hnew => ⟨hnew.1, hpost a new hnew.2⟩)
    fun f _ hs => hs.imp fun new hnew => ⟨hnew.1, hex f new hnew.2⟩

/-- What a run adds, by how it ends. -/
theorem Adds.exists_new (holds : Except Failure α → List Exchange → Prop)
    {act : Act (Chronicle κ) σ α}
    (h : Adds act (fun a => holds (.ok a)) fun f => holds (.error f))
    (s : Session (Chronicle κ) σ) :
    ∃ new, (act s).2.history = s.history ++ new ∧ holds (act s).1 new := by
  have hend := h s.history s rfl
  generalize act s = result at hend
  cases hend with
  | ok hlater => exact hlater
  | error hlater => exact hlater

theorem adds_pure (a : α) (h : post a []) : Adds (pure a : Act (Chronicle κ) σ α) post ex :=
  fun base => ends_pure a fun _ hs => ⟨[], by rw [hs, List.append_nil], h⟩

theorem adds_throw (f : Failure) (h : ex f []) : Adds (throw f : Act (Chronicle κ) σ α) post ex :=
  fun base => ends_throw f fun _ hs => ⟨[], by rw [hs, List.append_nil], h⟩

theorem adds_own {post : σ → List Exchange → Prop} (h : ∀ a, post a []) :
    Adds (own : Act (Chronicle κ) σ σ) post ex :=
  fun base => ends_own fun s hs => ⟨[], by rw [hs, List.append_nil], h s.own⟩

theorem adds_setOwn (value : σ) {post : Unit → List Exchange → Prop} (h : post () []) :
    Adds (setOwn value : Act (Chronicle κ) σ Unit) post ex :=
  fun _ _ hs => .ok ⟨[], by rw [← hs]; exact (List.append_nil _).symm, h⟩

theorem adds_ask (client : Client κ) (request : Request)
    {post : request.Answer → List Exchange → Prop}
    (hok : ∀ a, post a [⟨request, .ok a⟩])
    (herror : ∀ e, ex (.error e) [⟨request, .error e⟩]) :
    Adds (client.recorded.ask request : Act (Chronicle κ) σ request.Answer) post ex := by
  rintro base s rfl
  rw [Client.run_ask]
  have hhistory := Session.history_after client request s
  cases hresult : (client.recorded.reply request s.clock s.cluster).result with
  | ok a => exact .ok ⟨_, hhistory, by rw [hresult]; exact hok a⟩
  | error e => exact .error ⟨_, hhistory, by rw [hresult]; exact herror e⟩

/-- What the second act adds comes behind all that the first one may have added. -/
theorem adds_bind {x : Act (Chronicle κ) σ α} {f : α → Act (Chronicle κ) σ β}
    {post : β → List Exchange → Prop} (mid : α → List Exchange → Prop) (hx : Adds x mid ex)
    (hf : ∀ a, Adds (f a) (fun b second => ∀ first, mid a first → post b (first ++ second))
      fun e second => ∀ first, mid a first → ex e (first ++ second)) :
    Adds (x >>= f) post ex := by
  intro base
  refine ends_bind _ (hx base) fun a => ((hf a).after base (mid a)).imp (fun _ hs => hs) ?_ ?_
  · rintro b s ⟨_, hnew, first, second, hfirst, hsecond, rfl⟩
    exact ⟨_, hnew, hsecond first hfirst⟩
  · rintro e s ⟨_, hnew, first, second, hfirst, hsecond, rfl⟩
    exact ⟨_, hnew, hsecond first hfirst⟩

/-- Behind an act that adds nothing. -/
theorem adds_bind_quiet {x : Act (Chronicle κ) σ α} {f : α → Act (Chronicle κ) σ β}
    {post : β → List Exchange → Prop} (hx : Adds x (fun _ new => new = []) ex)
    (hf : ∀ a, Adds (f a) post ex) : Adds (x >>= f) post ex := by
  refine adds_bind _ hx fun a => (hf a).imp ?_ ?_
  · rintro b second h first rfl
    exact h
  · rintro e second h first rfl
    exact h

theorem adds_ite {c : Prop} [Decidable c] {x y : Act (Chronicle κ) σ α}
    (hx : c → Adds x post ex) (hy : ¬ c → Adds y post ex) :
    Adds (if c then x else y) post ex := by
  split
  · next h => exact hx h
  · next h => exact hy h

theorem adds_ofExcept {result : Except Error α} (hok : ∀ a, result = .ok a → post a [])
    (herror : ∀ e, result = .error e → ex (.error e) []) :
    Adds (ofExcept result : Act (Chronicle κ) σ α) post ex := by
  cases result with
  | ok a => exact adds_pure a (hok a rfl)
  | error e => exact adds_throw _ (herror e rfl)

/-- What an act adds does not hang on the own state around it. -/
theorem adds_within {part : σ → τ} {update : τ → σ → σ} {act : Act (Chronicle κ) τ α}
    (h : Adds act post ex) : Adds (within part update act) post ex := by
  rintro base s hs
  have hend := h base (s.focus part) hs
  rw [run_within]
  generalize act (s.focus part) = result at hend
  cases hend with
  | ok hlater => exact .ok hlater
  | error hlater => exact .error hlater

/-- An act that moves along the exchanges of a sort adds such exchanges. -/
theorem adds_of_moves {sort : Exchange → Prop} {act : Act (Chronicle κ) σ α}
    (h : Moves (Session.Sends sort) act) :
    Adds act (fun _ new => ∀ e ∈ new, sort e) fun _ new => ∀ e ∈ new, sort e := by
  rintro base s rfl
  have hmove := (h s trivial).1
  rcases hrun : act s with ⟨f | a, later⟩ <;> rw [hrun] at hmove
  · exact .error hmove
  · exact .ok hmove

end Rules
end Act

/-- A place in two lists that is not in the first one has all of that before it. -/
theorem exists_append_of_not_mem {first second before after : List α} {a : α}
    (h : first ++ second = before ++ a :: after) (hnot : a ∉ first) :
    ∃ more, before = first ++ more := by
  rcases List.append_eq_append_iff.mp h with ⟨more, hbefore, _⟩ | ⟨more, hfirst, hrest⟩
  · exact ⟨more, hbefore⟩
  · cases more with
    | nil => exact ⟨[], by simpa using hfirst.symm⟩
    | cons b more =>
      obtain ⟨rfl, _⟩ := List.cons.inj hrest
      exact absurd (hfirst ▸ List.mem_append_right before (List.mem_cons_self ..)) hnot

open Act

/-- Pending looks add up, and the done one comes behind them. -/
theorem Poll.adds_run (settings : Settings) (operation : String)
    {look : Act (Chronicle κ) σ Status} {pending done : List Exchange → Prop}
    {ex : Failure → List Exchange → Prop} (hnil : pending [])
    (hlook : Adds look (fun status second => ∀ first, pending first →
      if status.done then done (first ++ second) else pending (first ++ second))
      fun f second => ∀ first, pending first → ex f (first ++ second))
    (hown : ∀ f new, pending new → ex f new) :
    Adds (run settings operation look) (fun _ => done) ex := by
  intro base
  have hlooks : Ends (Session.Since base pending) look
      (fun status s => if status.done then Session.Since base done s
        else Session.Since base pending s) fun f => Session.Since base (ex f) := by
    refine (hlook.after base pending).imp (fun _ hs => hs) ?_ ?_
    · rintro status s ⟨_, hnew, first, second, hfirst, hsecond, rfl⟩
      have hlast := hsecond first hfirst
      split at hlast
      · next hdone =>
        rw [if_pos hdone]
        exact ⟨_, hnew, hlast⟩
      · next hdone =>
        rw [if_neg hdone]
        exact ⟨_, hnew, hlast⟩
    · rintro f s ⟨_, hnew, first, second, hfirst, hsecond, rfl⟩
      exact ⟨_, hnew, hsecond first hfirst⟩
  refine (Poll.ends_run settings operation (fun _ _ hs => hs) ?_ hlooks).imp ?_
    (fun _ _ hs => hs) fun _ _ hs => hs
  · rintro f s ⟨new, hnew, hpending⟩
    exact ⟨new, hnew, hown f new hpending⟩
  · exact fun s hs => ⟨[], by rw [hs, List.append_nil], hnil⟩

/-- Attempts add up; there is always one, and those that end in a conflict come first. -/
theorem Retry.adds_run (p : Policy) (operation : String) {act : Act (Chronicle κ) σ α}
    {post : α → List Exchange → Prop} {ex : Failure → List Exchange → Prop}
    (hact : Adds act post ex)
    (hok : ∀ e a first second, ex (.error e) first → post a second → post a (first ++ second))
    (hfail : ∀ e f first second, ex (.error e) first → ex f second → ex f (first ++ second))
    (hown : ∀ e f new, ex (.error e) new → ex f new) :
    Adds (run p operation act) post ex := by
  intro base
  -- Between two attempts, what has been added is what failed attempts add.
  have hattempt : Ends (Session.Since base fun new => new = [] ∨ ∃ e, ex (.error e) new) act
      (fun a => Session.Since base (post a)) fun f => Session.Since base (ex f) := by
    refine (hact.after base _).imp (fun _ hs => hs) ?_ ?_
    · rintro a s ⟨_, hnew, first, second, hfirst, hsecond, rfl⟩
      rcases hfirst with rfl | ⟨e, hfirst⟩
      · exact ⟨_, hnew, hsecond⟩
      · exact ⟨_, hnew, hok e a first second hfirst hsecond⟩
    · rintro f s ⟨_, hnew, first, second, hfirst, hsecond, rfl⟩
      rcases hfirst with rfl | ⟨e, hfirst⟩
      · exact ⟨_, hnew, hsecond⟩
      · exact ⟨_, hnew, hfail e f first second hfirst hsecond⟩
  have hconflict : ∀ (e : Error) (s : Session (Chronicle κ) σ),
      Session.Since base (ex (.error e)) s → e.isConflict = true →
        Session.Since base (fun new => ∃ e, ex (.error e) new) s := by
    rintro e s ⟨new, hnew, hex⟩ _
    exact ⟨new, hnew, e, hex⟩
  refine (Retry.ends_run p operation (fun _ _ hs => hs) (fun _ hs => hs) ?_ ?_ hattempt
    hconflict fun _ _ hs => hs).imp ?_ (fun _ _ hs => hs) fun _ _ hs => hs
  · rintro f s ⟨new, hnew, e, hex⟩
    exact ⟨new, hnew, hown e f new hex⟩
  · rintro s ⟨new, hnew, hex⟩
    exact ⟨new, hnew, Or.inr hex⟩
  · exact fun s hs => ⟨[], by rw [hs, List.append_nil], Or.inl rfl⟩

end BackupWatch
