import BackupWatch.Cluster.Api
import BackupWatch.Cluster.Route
import BackupWatch.Server.Store

/-!
An API server in memory, with what can happen to one: rules that make requests fail or that
change objects behind a request, events at set times, and pause values that reach a control
plane some time after its hosted cluster was patched.
-/

namespace BackupWatch.Server

open Cluster

/-- The requests that a rule concerns; what is not given matches everything. -/
structure Pattern where
  verb : Option String
  resource : Option String
  ns : Option String
  name : Option String
  deriving DecidableEq, Repr, Inhabited

inductive Effect (μ : Type)
  | fail (status : ApiStatus)
  | alter (mutations : List μ)

/-- A rule lets the first `skip` matching requests pass and then acts on the next `times`. -/
structure RuleOf (μ : Type) where
  pattern : Pattern
  skip : Nat
  times : Option Nat
  effect : Effect μ

inductive Mutation
  | put (object : Json)
  | delete (key : Key)
  | pause (key : Key) (value : Option String)
  | status (key : Key) (status : Json)
  | addRule (rule : RuleOf Mutation)
  | clearRules

abbrev Rule := RuleOf Mutation

structure Event where
  time : Nat
  mutations : List Mutation

/-- The control plane that follows a hosted cluster, both as `namespace/name`. -/
structure Propagation where
  hostedCluster : String
  controlPlane : Key
  delay : Nat

/-- A request as it was answered. -/
structure Entry where
  route : Route
  code : Nat
  deriving Repr

structure State where
  objects : Store
  rules : List Rule
  events : List Event
  propagations : List Propagation
  /-- The answered requests, the newest first. -/
  log : List Entry

namespace State

def empty : State := ⟨[], [], [], [], []⟩

instance : Inhabited State := ⟨empty⟩

def mutate (s : State) : Mutation → State
  | .put object => { s with objects := s.objects.put object }
  | .delete key => { s with objects := s.objects.erase key }
  | .pause key value => { s with objects := s.objects.update key (setPause value) }
  | .status key status =>
    { s with objects := s.objects.update key fun o => o.setMember "status" status }
  | .addRule rule => { s with rules := s.rules ++ [rule] }
  | .clearRules => { s with rules := [] }

def mutateAll (s : State) (mutations : List Mutation) : State := mutations.foldl mutate s

/-- Applies the events that are due, the earliest first. -/
def settle (s : State) (clock : Nat) : State :=
  let due := s.events.filter fun e => e.time ≤ clock
  let rest := s.events.filter fun e => !(e.time ≤ clock)
  let ordered := due.mergeSort fun a b => a.time ≤ b.time
  ordered.foldl (fun s e => s.mutateAll e.mutations) { s with events := rest }

end State

def Pattern.concerns (p : Pattern) (route : Route) : Bool :=
  p.verb.all (· == route.verb.text) && p.resource.all (· == route.resource)
    && p.ns.all (fun n => route.ns == some n) && p.name.all (fun n => route.name == some n)

/-- Counts a matching request: whether the rule acts on it, and the rule afterwards. -/
def RuleOf.count (r : RuleOf μ) : Bool × RuleOf μ :=
  match r.times with
  | some 0 => (false, r)
  | some (n + 1) =>
    if r.skip = 0 then (true, { r with times := some n })
    else (false, { r with skip := r.skip - 1 })
  | none => if r.skip = 0 then (true, r) else (false, { r with skip := r.skip - 1 })

/-- Tries the failing rules in order; those after the first that acts are not counted. -/
def firstFailure (route : Route) : List Rule → Option ApiStatus × List Rule
  | [] => (none, [])
  | rule :: rest =>
    match rule.effect with
    | .alter _ => ((firstFailure route rest).1, rule :: (firstFailure route rest).2)
    | .fail status =>
      if rule.pattern.concerns route then
        match rule.count with
        | (true, counted) => (some status, counted :: rest)
        | (false, counted) => ((firstFailure route rest).1, counted :: (firstFailure route rest).2)
      else ((firstFailure route rest).1, rule :: (firstFailure route rest).2)

/-- The mutations of all altering rules that act on a request. -/
def alterations (route : Route) : List Rule → List Mutation × List Rule
  | [] => ([], [])
  | rule :: rest =>
    let (later, others) := alterations route rest
    match rule.effect with
    | .fail _ => (later, rule :: others)
    | .alter mutations =>
      if rule.pattern.concerns route then
        match rule.count with
        | (true, counted) => (mutations ++ later, counted :: others)
        | (false, counted) => (later, counted :: others)
      else (later, rule :: others)

def notFound : ApiStatus := ⟨404, "NotFound", "simulated NotFound"⟩

def conflict : ApiStatus := ⟨409, "Conflict", "simulated Conflict"⟩

/-- The answer to a list. -/
def listing (objects : List Json) : Json :=
  .object [("kind", .string "List"), ("items", .array objects)]

/-- What the store makes of a request that no rule fails. A patch with a version is refused
unless the object is at that version. -/
def perform (objects : Store) (route : Route) : Except ApiStatus Json × Store :=
  let key : Key := ⟨route.resource, route.ns, route.name⟩
  match route.verb with
  | .list => (.ok (listing (objects.list route.resource route.ns)), objects)
  | .get =>
    match objects.find? key with
    | some object => (.ok object, objects)
    | none => (.error notFound, objects)
  | .patch change =>
    match objects.find? key with
    | none => (.error notFound, objects)
    | some object =>
      if change.version.any fun v => versionOf object != some v then (.error conflict, objects)
      else
        let patched := setPause (some change.value) object
        (.ok patched, objects.update key (setPause (some change.value)))

/-- The events that a patched hosted cluster brings about. -/
def echoes (propagations : List Propagation) (clock : Nat) (route : Route) : List Event :=
  match route.verb with
  | .patch change =>
    if route.resource = Served.hostedCluster.name then
      let place := route.ns.getD "" ++ "/" ++ route.name.getD ""
      (propagations.filter fun p => p.hostedCluster == place).map fun p =>
        ⟨clock + p.delay, [.pause p.controlPlane (some change.value)]⟩
    else []
  | _ => []

def codeOf (result : Except ApiStatus α) : Nat :=
  match result with
  | .ok _ => 200
  | .error status => status.code

namespace State

/-- A rule that fails the request comes before the request itself. -/
def attempt (s : State) (route : Route) : Except ApiStatus Json × State :=
  let (failure, rules) := firstFailure route s.rules
  match failure with
  | some status => (.error status, { s with rules })
  | none =>
    let (result, objects) := perform s.objects route
    (result, { s with rules, objects })

/-- Lets the altering rules act after a request. -/
def alter (s : State) (route : Route) : State :=
  let (mutations, rules) := alterations route s.rules
  mutateAll { s with rules } mutations

def serve (s : State) (route : Route) (clock : Nat) : Except ApiStatus Json × State :=
  let (result, s) := (s.settle clock).attempt route
  let s := { s with log := ⟨route, codeOf result⟩ :: s.log }
  let s := s.alter route
  match result with
  | .ok _ => (result, { s with events := s.events ++ echoes s.propagations clock route })
  | .error _ => (result, s)

end State

/-- The server as an API. -/
def api : Api State where
  serve call clock s := s.serve (.ofCall call) clock

def client : Client State := api.client

/-- Every stored hosted cluster and node pool with its pause field. -/
def managed (objects : Store) : List (Managed × Json) :=
  objects.filterMap fun o =>
    let key := keyOf o
    let entry (kind : ManagedKind) : Managed × Json :=
      (⟨kind, key.ns.getD "", key.name.getD ""⟩, pausedUntil o)
    if key.resource = Served.hostedCluster.name then some (entry .hostedCluster)
    else if key.resource = Served.nodePool.name then some (entry .nodePool)
    else none

end BackupWatch.Server
