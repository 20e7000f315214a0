import BackupWatch.Cluster.Call

/-!
Routes: what the API server makes of the target of a call. Only the path counts, which ends at a
question mark or a number sign. Its slashes part the namespace from the resource and the
resource from the name, which may hold more of them. A read without a name is a list.
-/

namespace BackupWatch.Cluster

inductive Verb
  | list
  | get
  | patch (change : PausePatch)
  deriving DecidableEq, Repr, Inhabited

def Verb.text : Verb → String
  | list => "list"
  | get => "get"
  | patch _ => "patch"

structure Route where
  verb : Verb
  groupVersion : String
  resource : String
  ns : Option String
  name : Option String
  deriving DecidableEq, Repr, Inhabited

namespace Route

/-- What stands before the first slash, and what stands behind it if there is one. -/
def splitSlash (cs : List Char) : List Char × Option (List Char) :=
  (cs.takeWhile (· != '/'), (cs.dropWhile (· != '/')).tail?)

/-- The part of a path that the server sees. -/
def seen (path : List Char) : List Char := path.takeWhile fun c => c != '?' && c != '#'

/-- Takes the namespace off a path, if it is given. -/
def splitScope (path : List Char) : Option (List Char) × List Char :=
  match Call.scopeWord.isPrefixOf? path with
  | some rest => (some (splitSlash rest).1, (splitSlash rest).2.getD [])
  | none => (none, path)

def verbOf (call : Call) (name : Option (List Char)) : Verb :=
  match call with
  | .patch _ _ _ change => .patch change
  | _ => if name.isSome then .get else .list

def ofCall (call : Call) : Route :=
  let (ns, rest) := splitScope (seen call.path)
  let (resource, name) := splitSlash rest
  { verb := verbOf call name
    groupVersion := call.resource.groupVersion
    resource := String.ofList resource
    ns := ns.map String.ofList
    name := name.map String.ofList }

end Route
end BackupWatch.Cluster
