/-
Making paths

* `Call`, `Traced`: the calls of hooks, and results that record them;
* `Generator`: a registry, default options and a document;
* `Generator.make`: the path of an element with its steps. First every
  heuristic may answer a whole path; if none does, a step is made for every
  element from the wanted one up to the root, and the whole is adjusted;
* `Generator.pathOf`, `Generator.commonPath`: the path of an element, and of
  the nearest element around several.
-/
import Locator.Generator.Heuristic

namespace Locator

/-- A call of a hook of the named heuristic. -/
inductive Call
  | provide (heuristic : Text) (making : Making)
  | before (heuristic : Text) (making : Making)
  | decorate (heuristic : Text) (step : StepMade)
  | after (heuristic : Text) (making : Making) (path : Text)
  | veto (heuristic : Text)

/-- A result with the calls of hooks that were made for it, the last one
included if it failed. -/
structure Traced (α : Type) where
  calls : List Call
  outcome : Outcome α

namespace Traced

/-- A value without calls. -/
def pure {α : Type} (a : α) : Traced α := ⟨[], .ok a⟩

/-- An outcome without calls. -/
def lift {α : Type} (o : Outcome α) : Traced α := ⟨[], o⟩

/-- An outcome behind a call. -/
def call {α : Type} (c : Call) (o : Outcome α) : Traced α := ⟨[c], o⟩

/-- One result after the other; a failure ends it. -/
def bind {α β : Type} (x : Traced α) (f : α → Traced β) : Traced β :=
  match x.outcome with
  | .ok a => ⟨x.calls ++ (f a).calls, (f a).outcome⟩
  | .error e => ⟨x.calls, .error e⟩

instance : Monad Traced where
  pure := pure
  bind := bind

end Traced

/-- A path with the settings and the root it was made for; the steps are
known if no heuristic has answered another path. -/
structure Made where
  path : Text
  settings : Settings
  root : Node
  steps : Option (List Text)

/-- A registry of heuristics, default options and a document. -/
structure Generator where
  registry : Registry := .new none
  defaults : Option Options := none
  document : Thing := .nothing

/-- What a generator is made from. -/
structure GeneratorConfig where
  defaults : Option Options := none
  plugins : List Heuristic := []
  document : Thing := .nothing

namespace Generator

/-- Does a step get a position? -/
def needsIndex (n : Node) : IndexStrategy → Bool
  | .always => true
  | .never => false
  | .auto => n.hasTwin

/-- The step of an element: its name, perhaps with a position. -/
def step (n : Node) (strategy : IndexStrategy) : Outcome Text := do
  let name ← Heuristic.stepName n
  if needsIndex n strategy then
    return name ++ '[' :: Text.decimal n.index ++ [']']
  else return name

/-- The generator of a configuration, where single parts stand above. -/
def create (config : GeneratorConfig) (defaults : Option Options)
    (plugins : List Heuristic) (document : Thing) : Generator where
  registry := (Registry.new none).register
    (if plugins.isEmpty then config.plugins else plugins)
  defaults := defaults.or config.defaults
  document := if document.isNothing then config.document else document

/-- The generator for a document, with the built-in heuristics alone. -/
def forDocument (document : Thing) : Generator := { document := document }

/-- The generator with more heuristics. -/
def register (g : Generator) (entries : List Heuristic) : Generator :=
  { g with registry := g.registry.register entries }

/-- The settings for options above the defaults. -/
def settings (g : Generator) (o : Option Options) : Settings :=
  .of (Options.merge g.defaults o)

/-- The root for the elements of a document: the chosen one, or the root
element. -/
def rootElement? (s : Settings) (d : Option Document) (n : Node) : Option Node :=
  match s.root with
  | .node r =>
    if r.isElement then some r else (d.bind Document.root?).or n.document.root?
  | .document e => e.root?
  | _ => (d.bind Document.root?).or n.document.root?

/-- The elements from a node up to the root; `none` if the root is not
among them. -/
def chainTo (n root : Node) : Option (List Node) :=
  match n.ancestors.span (fun m => !m.same root) with
  | (inner, top :: _) => some (inner ++ [top])
  | (_, []) => none

/-- The first answer that counts as given. -/
def provided (m : Making) : List Heuristic → Traced (Option Answer)
  | [] => .pure none
  | h :: hs =>
    match h.provide with
    | none => provided m hs
    | some hook => do
      let answer ← Traced.call (.provide h.name m) (hook m)
      if answer.isTruthy then return some answer else provided m hs

/-- Tells every heuristic of an element. -/
def announce (m : Making) : List Heuristic → Traced Unit
  | [] => .pure ()
  | h :: hs =>
    match h.before with
    | none => announce m hs
    | some hook => do
      Traced.call (.before h.name m) (hook m)
      announce m hs

/-- The text of a step after every heuristic. -/
def decorated (n : Node) (strategy : IndexStrategy) (segment : Text) :
    List Heuristic → Traced Text
  | [] => .pure segment
  | h :: hs =>
    match h.decorate with
    | none => decorated n strategy segment hs
    | some hook => do
      let s : StepMade := ⟨n, segment, strategy⟩
      let answer ← Traced.call (.decorate h.name s) (hook s)
      decorated n strategy (answer.text?.getD segment) hs

/-- The steps of the elements, the last element first. -/
def stepsOf (m : Making) (hs : List Heuristic) : List Node → Traced (List Text)
  | [] => .pure []
  | n :: ns => do
    announce { m with node := n } hs
    let segment ← Traced.lift (step n m.settings.strategy)
    let segment ← decorated n m.settings.strategy segment hs
    let others ← stepsOf m hs ns
    return others ++ [segment]

/-- The path after every heuristic, and whether it has stayed the same. -/
def adjusted (m : Making) (path : Text) (kept : Bool) :
    List Heuristic → Traced (Text × Bool)
  | [] => .pure (path, kept)
  | h :: hs =>
    match h.after with
    | none => adjusted m path kept hs
    | some hook => do
      let answer ← Traced.call (.after h.name m path) (hook m path)
      match answer.text? with
      | none => adjusted m path kept hs
      | some s =>
        let new := XPath.normalize s
        adjusted m new (kept && new == path) hs

/-- The path of an element inside its root. -/
def makeInside (hs : List Heuristic) (m : Making) : Traced Made := do
  match ← provided m hs with
  | some answer => return ⟨answer.normal, m.settings, m.root, none⟩
  | none =>
    let steps ← stepsOf m hs m.ancestors
    let path := XPath.normalize (XPath.path ['/'] steps)
    let (path, kept) ← adjusted m path true hs
    return ⟨path, m.settings, m.root, if kept then some steps else none⟩

/-- The path of an element. -/
def make (g : Generator) (thing : Thing) (o : Option Options) : Traced Made :=
  match thing.element? with
  | none => .lift (.error .notElement)
  | some n =>
    let s := g.settings o
    match rootElement? s (some n.document) n with
    | none => .lift (.error .noRoot)
    | some root =>
      match chainTo n root with
      | none => .lift (.error .outsideRoot)
      | some ancestors => makeInside g.registry.heuristics ⟨n, root, s, ancestors⟩

/-- The text of the path of an element. -/
def pathOf (g : Generator) (thing : Thing) (o : Option Options) : Traced Text := do
  return (← g.make thing o).path

/-- The path of the nearest element around several; what is no element does
not count. -/
def commonPath (g : Generator) (things : List Thing) (o : Option Options) :
    Traced (Option Text) :=
  match Node.commonAncestor (things.filterMap Thing.element?) with
  | none => .pure none
  | some n => do return some (← g.pathOf (.node n) o)

end Generator

end Locator
