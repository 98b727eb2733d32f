/-
Heuristics: named rules for making paths

* `Answer`: what a hook answers;
* `Heuristic`: a name and hooks, each of which may be missing;
* `byId`, `byAttribute`, `atRoot`, `keepSteps`: the built-in heuristics;
* `Registry`: heuristics in the order in which they are asked. A new one goes
  in front, unless its name is taken.
-/
import Locator.Options
import Locator.Uniqueness
import Locator.XPath.Literal
import Locator.XPath.Normal

namespace Locator

/-- What a hook answers: nothing, a text, or another value that counts as
given or does not. -/
inductive Answer
  | none
  | text (s : Text)
  | other (isTruthy : Bool)
  deriving Repr, DecidableEq

namespace Answer

/-- Does the answer count as given? -/
def isTruthy : Answer → Bool
  | .none => false
  | .text s => !s.isEmpty
  | .other b => b

/-- The text of an answer that is one and not empty. -/
def text? : Answer → Option Text
  | .text (c :: r) => some (c :: r)
  | _ => Option.none

/-- The normal form of an answer; only a text has one. -/
def normal : Answer → Text
  | .text s => XPath.normalize s
  | _ => []

end Answer

/-- What is known while the path of a node is made. -/
structure Making where
  /-- The element at hand. -/
  node : Node
  root : Node
  settings : Settings
  /-- The elements from the wanted one up to the root. -/
  ancestors : List Node

/-- What is known when a step has been made. -/
structure StepMade where
  node : Node
  segment : Text
  strategy : IndexStrategy

/-- A named rule for making paths. -/
structure Heuristic where
  name : Text
  /-- Answers a whole path for the wanted element. -/
  provide : Option (Making → Outcome Answer) := none
  /-- Is told of an element before its step is made. -/
  before : Option (Making → Outcome Unit) := none
  /-- Answers another text for a step. -/
  decorate : Option (StepMade → Outcome Answer) := none
  /-- Answers another text for the whole path. -/
  after : Option (Making → Text → Outcome Answer) := none
  /-- Is reserved; nothing asks it. -/
  veto : Option (Making → Text → Text → Outcome Answer) := none

namespace Heuristic

/-- The element inside which a value must be unique. -/
def uniquenessScope (m : Making) : Option Node :=
  match m.settings.root.context? with
  | some (.document d) => d.root?
  | some (.node n) => if n.isElement then some n else m.node.document.root?
  | none => m.node.document.root?

/-- Is the chosen root an element other than the root of the document? -/
def isCustomRoot (m : Making) : Bool :=
  match m.settings.root.element? with
  | none => false
  | some r =>
    match m.node.document.root? with
    | some root => !r.same root
    | none => true

/-- The path by the identifier of an element that no other one has. Such a
path leads out of a chosen root, and is not given there. -/
def provideById (m : Making) : Outcome Answer := do
  match ← m.node.lookUp "id".toList with
  | none => return .none
  | some value =>
    if !m.settings.preferId || value.isEmpty || isCustomRoot m then return .none
    if ← isAttributeUnique m.node "id".toList (uniquenessScope m) then
      return .text ("//*[@id=".toList ++ XPath.literal value ++ [']'])
    return .none

/-- The path by the first of the attributes whose value no other element
has. -/
def provideByFirst (m : Making) : List Text → Outcome Answer
  | [] => .ok .none
  | a :: as => do
    match ← m.node.lookUp a with
    | some (c :: r) =>
      if ← isAttributeUnique m.node a (uniquenessScope m) then
        return .text (XPath.attributePath a (c :: r))
      else provideByFirst m as
    | _ => provideByFirst m as

/-- The path by a preferred attribute. -/
def provideByAttribute (m : Making) : Outcome Answer :=
  if isCustomRoot m then .ok .none else provideByFirst m m.settings.attributes

/-- The name of an element as a path writes it. -/
def stepName (n : Node) : Outcome Text :=
  match n.pathName? with
  | some s => .ok s
  | none => .error .unnameable

/-- The path of the root. -/
def provideRoot (m : Making) : Outcome Answer := do
  if m.node.same m.root then return .text ('/' :: (← stepName m.node))
  return .none

/-- The path by identifier. -/
def byId : Heuristic := { name := "default:id".toList, provide := some provideById }

/-- The path by a preferred attribute. -/
def byAttribute : Heuristic :=
  { name := "default:unique-attribute".toList, provide := some provideByAttribute }

/-- The path of the root. -/
def atRoot : Heuristic :=
  { name := "default:root-element".toList, provide := some provideRoot }

/-- Leaves every step as it is. -/
def keepSteps : Heuristic :=
  { name := "default:segment-normalization".toList
    decorate := some fun s => .ok (.text s.segment) }

/-- The built-in heuristics. -/
def builtIn : List Heuristic := [byId, byAttribute, atRoot, keepSteps]

end Heuristic

/-- Heuristics in the order in which they are asked. -/
structure Registry where
  heuristics : List Heuristic

namespace Registry

/-- The registry of given heuristics, or of the built-in ones. -/
def new (initial : Option (List Heuristic)) : Registry :=
  ⟨initial.getD Heuristic.builtIn⟩

/-- The names in order. -/
def names (r : Registry) : List Text := r.heuristics.map Heuristic.name

/-- The number of heuristics. -/
def size (r : Registry) : Nat := r.heuristics.length

/-- A heuristic goes in front, unless its name is taken. -/
def insert (r : Registry) (h : Heuristic) : Registry :=
  if r.names.contains h.name then r else ⟨h :: r.heuristics⟩

/-- Heuristics one after the other. -/
def register (r : Registry) (entries : List Heuristic) : Registry :=
  entries.foldl insert r

end Registry

end Locator
