/-
Arguments of a command line

* `Switch`, `Level`: the options, and those that one level knows;
* `Argument`: what an argument is on a level; a start of an option that fits
  one option alone stands for it;
* `readLevel`: the options, the operand and the other arguments of a level,
  or why the arguments are refused.
-/
import Locator.Options
import Locator.Text.Quoted

namespace Locator.CommandLine

/-- The options of all levels. -/
inductive Switch
  | help | file | url | allowHttp | json | verbose | noPreferId | preferAttr
  | minIndex | root | version | start | stop
  deriving Repr, DecidableEq

namespace Switch

/-- How an option is written. -/
def spellings : Switch → List Text
  | .help => ["-h".toList, "--help".toList]
  | .file => ["--file".toList]
  | .url => ["--url".toList]
  | .allowHttp => ["--allow-http".toList]
  | .json => ["--json".toList]
  | .verbose => ["--verbose".toList]
  | .noPreferId => ["--no-prefer-id".toList]
  | .preferAttr => ["--prefer-attr".toList]
  | .minIndex => ["--min-index".toList]
  | .root => ["--root".toList]
  | .version => ["--version".toList]
  | .start => ["--start".toList]
  | .stop => ["--end".toList]

/-- Does an option take a value? -/
def takesValue : Switch → Bool
  | .file | .url | .preferAttr | .minIndex | .root | .start | .stop => true
  | _ => false

/-- The values that an option may take, if not all are allowed. -/
def choices : Switch → List Text
  | .minIndex => [IndexStrategy.auto.name, IndexStrategy.always.name, IndexStrategy.never.name]
  | _ => []

/-- The name of an option in messages. -/
def label (s : Switch) : Text := Text.join ['/'] s.spellings

end Switch

/-- What the arguments of a level are that are no options. -/
inductive Operand
  | nothing
  | one (label : Text)
  /-- The name of a command with all arguments behind it. -/
  | command
  deriving Repr, DecidableEq

/-- A level of the command line: the program or one of its commands. -/
structure Level where
  program : Text
  switches : List Switch
  operand : Operand
  required : List Switch := []

/-- Why nothing is done. -/
inductive Stop
  /-- The arguments are refused. -/
  | usage (program message : Text)
  | help (program : Text)
  | version
  deriving Repr, DecidableEq

/-- What an argument is on a level. -/
inductive Argument
  | plain
  /-- Two hyphens: everything behind them is plain. -/
  | dashes
  /-- It looks like an option, but is none. -/
  | unknown
  | switch (s : Switch) (value : Option Text)
  /-- The letter of an option with more letters behind it. -/
  | letters (s : Switch) (more : Text)
  deriving Repr, DecidableEq

namespace Level

/-- The spellings of the options of a level. -/
def spellings (l : Level) : List (Text × Switch) :=
  l.switches.flatMap fun s => s.spellings.map fun t => (t, s)

/-- The refusal of arguments. -/
def refuse {α : Type} (l : Level) (message : Text) : Except Stop α :=
  .error (.usage l.program message)

/-- The refusal of the value of an option. -/
def refuseValue {α : Type} (l : Level) (s : Switch) (message : Text) : Except Stop α :=
  l.refuse ("argument ".toList ++ s.label ++ ": ".toList ++ message)

end Level

/-- A number with a minus sign, perhaps with a point, and perhaps with a line
feed behind it. -/
def isNegativeNumber (a : Text) : Bool :=
  let body := match a.reverse with
    | '\n' :: r => r.reverse
    | _ => a
  match body with
  | '-' :: r =>
    let rest := r.dropWhile Text.isDigit
    (rest.isEmpty && !r.isEmpty) ||
      match rest with
      | '.' :: fraction => !fraction.isEmpty && fraction.all Text.isDigit
      | _ => false
  | _ => false

/-- An argument that no option can be meant by. -/
def otherArgument (a : Text) : Argument :=
  if isNegativeNumber a || a.contains ' ' then .plain else .unknown

/-- An argument behind a single hyphen: the letter of an option, perhaps with
more behind it. -/
def shortArgument (l : Level) (a : Text) : Argument :=
  match l.spellings.lookup (a.take 2) with
  | none => otherArgument a
  | some s => .letters s (a.drop 2)

/-- An argument behind two hyphens: the start of an option, perhaps with a
value behind an equals sign. -/
def longArgument (l : Level) (a : Text) : Except Stop Argument :=
  let (start, value) := match Text.cutAt? '=' a with
    | some (start, value) => (start, some value)
    | none => (a, none)
  match l.spellings.filter fun p => start.isPrefixOf p.1 with
  | [] => .ok (otherArgument a)
  | [(_, s)] => .ok (.switch s value)
  | fitting => l.refuse ("ambiguous option: ".toList ++ a ++ " could match ".toList ++
      Text.join ", ".toList (fitting.map Prod.fst))

/-- What an argument is that has no two hyphens in front of it. -/
def classify (l : Level) (a : Text) : Except Stop Argument :=
  if a.head? != some '-' then .ok .plain
  else
    match l.spellings.lookup a with
    | some s => .ok (.switch s none)
    | none =>
      if a.length == 1 then .ok .plain
      else
        let (start, value) := match Text.cutAt? '=' a with
          | some (start, value) => (start, some value)
          | none => (a, none)
        let isLong := "--".toList.isPrefixOf a
        match value, l.spellings.lookup start with
        | some v, some s => .ok (if isLong then .switch s (some v) else .letters s v)
        | _, _ => if isLong then longArgument l a else .ok (shortArgument l a)

/-- Every argument with what it is. -/
def classifyAll (l : Level) : List Text → Except Stop (List (Text × Argument))
  | [] => .ok []
  | a :: rest =>
    if a == "--".toList then .ok ((a, .dashes) :: rest.map fun b => (b, .plain))
    else do
      let what ← classify l a
      return (a, what) :: (← classifyAll l rest)

/-- What has been read on a level. -/
structure Found where
  /-- The options in the order of the arguments, with their values. -/
  switches : List (Switch × Text) := []
  operand : Option Text := none
  /-- The name of a command with its arguments. -/
  command : List Text := []
  /-- Arguments that mean nothing. -/
  extras : List Text := []

namespace Found

/-- One more option. -/
def adding (f : Found) (s : Switch) (value : Text) : Found :=
  { f with switches := f.switches ++ [(s, value)] }

/-- One more argument that means nothing. -/
def extra (f : Found) (a : Text) : Found := { f with extras := f.extras ++ [a] }

/-- Has an option been given? -/
def has (f : Found) (s : Switch) : Bool := f.switches.any fun p => p.1 == s

/-- The values of an option, in order. -/
def values (f : Found) (s : Switch) : List Text :=
  (f.switches.filter fun p => p.1 == s).map Prod.snd

/-- The last value of an option. -/
def value? (f : Found) (s : Switch) : Option Text := (f.values s).getLast?

end Found

/-- The effect of an option without a value. -/
def useFlag (l : Level) (s : Switch) (f : Found) : Except Stop Found :=
  match s with
  | .help => .error (.help l.program)
  | .version => .error .version
  | s => .ok (f.adding s [])

/-- The effect of an option with a value. -/
def useValue (l : Level) (s : Switch) (value : Text) (f : Found) : Except Stop Found :=
  if s.choices.isEmpty || s.choices.contains value then .ok (f.adding s value)
  else l.refuseValue s ("invalid choice: ".toList ++ Text.quoted value ++
    " (choose from ".toList ++ Text.join ", ".toList (s.choices.map Text.quoted) ++ [')'])

/-- The effect of an option with a value behind an equals sign; two hyphens
stand for an empty value. -/
def useAttached (l : Level) (s : Switch) (value : Text) (f : Found) : Except Stop Found :=
  if value == "--".toList then .ok (f.adding s []) else useValue l s value f

/-- The refusal of what is attached to an option without a value. -/
def refuseAttached {α : Type} (l : Level) (s : Switch) (value : Text) : Except Stop α :=
  l.refuseValue s ("ignored explicit argument ".toList ++ Text.quoted value)

/-- The last of the options whose letters stand behind that of `s`. -/
def lastLetter (l : Level) (s : Switch) : Text → Except Stop Switch
  | [] => refuseAttached l s []
  | c :: r =>
    match l.spellings.lookup ['-', c] with
    | none => refuseAttached l s (c :: r)
    | some t => if r.isEmpty then .ok t else lastLetter l t r

/-- Does an argument that is no option still have a place? -/
def isOpen (l : Level) (f : Found) : Bool :=
  match l.operand with
  | .one _ => f.operand.isNone
  | _ => false

/-- Reads the arguments of a level from the left. -/
def readFrom (l : Level) (f : Found) : List (Text × Argument) → Except Stop Found
  | [] => .ok f
  | (a, .plain) :: rest =>
    if l.operand == .command then .ok { f with command := a :: rest.map Prod.fst }
    else if isOpen l f then
      match rest with
      | (_, .dashes) :: more => readFrom l { f with operand := some a } more
      | more => readFrom l { f with operand := some a } more
    else readFrom l (f.extra a) rest
  | (a, .dashes) :: rest =>
    match rest with
    | [] => .ok (f.extra a)
    | (b, what) :: more =>
      if l.operand == .command then
        .ok { f with command := a :: b :: more.map Prod.fst }
      else if isOpen l f then readFrom l { f with operand := some b } more
      else readFrom l (f.extra a) ((b, what) :: more)
  | (a, .unknown) :: rest => readFrom l (f.extra a) rest
  | (_, .switch s (some v)) :: rest =>
    if s.takesValue then do readFrom l (← useAttached l s v f) rest
    else refuseAttached l s v
  | (_, .letters s more) :: rest => do
    readFrom l (← useFlag l (← lastLetter l s more) f) rest
  | (_, .switch s none) :: rest =>
    if s.takesValue then
      match rest with
      | (v, .plain) :: more => do readFrom l (← useValue l s v f) more
      | _ => l.refuseValue s "expected one argument".toList
    else do readFrom l (← useFlag l s f) rest
termination_by args => args.length

/-- The names of what a level still needs. -/
def missing (l : Level) (f : Found) : List Text :=
  let operand := match l.operand with
    | .nothing => []
    | .one label => if f.operand.isNone then [label] else []
    | .command => if f.command.isEmpty then ["command".toList] else []
  operand ++ (l.required.filter fun s => !f.has s).map Switch.label

/-- What the arguments of a level are, if nothing is missing. -/
def readLevel (l : Level) (args : List Text) : Except Stop Found := do
  let f ← readFrom l {} (← classifyAll l args)
  match missing l f with
  | [] => return f
  | names => l.refuse ("the following arguments are required: ".toList ++
      Text.join ", ".toList names)

end Locator.CommandLine
