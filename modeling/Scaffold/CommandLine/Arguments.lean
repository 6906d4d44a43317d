import Scaffold.Path
import Scaffold.Text.Blank

/-!
# Arguments

  What a command line asks for. Options stand before the task, in a short form
  with one dash or a long one with two; a value stands behind an equals sign,
  right behind a short form, or in the next argument. A value in the next
  argument is looked at only when a further option comes or when everything
  else has been read, so help on a task is given whatever the values are.
-/

namespace Scaffold.CommandLine

/-! ## Invocations -/

/-- What is to be done. -/
inductive Task where
  | generate
  | inspect
  /-- Show the entity of one definition file. -/
  | options (file : Path)
  deriving DecidableEq

/-- What is asked for with options. -/
structure Options where
  config : Option Path := none
  models : Option Path := none
  output : Option Path := none
  dryRun : Bool := false
  deriving DecidableEq

/-- What a command line asks for. -/
inductive Invocation where
  | run (options : Options) (task : Task)
  | help
  | version
  /-- The command line goes against the rules. -/
  | misuse
  deriving DecidableEq

/-! ## Single arguments -/

/-- An option that has a value. -/
inductive Slot where
  | config
  | models
  | output
  deriving DecidableEq

namespace Slot

/-- Every option that has a value. -/
def all : List Slot := [config, models, output]

/-- The long form. -/
def name : Slot → String
  | config => "config"
  | models => "models"
  | output => "output"

/-- The short form. -/
def letter : Slot → Char
  | config => 'c'
  | models => 'm'
  | output => 'o'

end Slot

/-- An argument by its form. -/
inductive Argument where
  /-- Neither an option nor the mark that ends them. -/
  | plain (s : String)
  /-- The mark behind which there are no options. -/
  | endMark
  | help
  | version
  | dryRun
  | option (slot : Slot) (value : Option String)
  | unknown
  deriving DecidableEq

namespace Argument

/-- The argument of a long form and of what stands behind an equals sign. -/
def ofLong (name : String) (value : Option String) : Argument :=
  match Slot.all.find? (·.name == name), value with
  | some slot, value => .option slot value
  | none, some _ => .unknown
  | none, none => match name with
    | "help" => .help
    | "version" => .version
    | "dry-run" => .dryRun
    | _ => .unknown

/-- The value right behind a short form; an equals sign before it does not count. -/
def attached : List Char → Option String
  | [] => none
  | '=' :: cs => some (String.ofList cs)
  | cs => some (String.ofList cs)

/-- The argument of a short form and of what follows its letter. -/
def ofShort (letter : Char) (rest : List Char) : Argument :=
  match Slot.all.find? (·.letter == letter) with
  | some slot => .option slot (attached rest)
  | none =>
    if letter = 'h' then .help else if letter = 'V' then .version else .unknown

/-- The form of an argument. -/
def ofText (s : String) : Argument :=
  match s.toList with
  | ['-', '-'] => .endMark
  | '-' :: '-' :: cs =>
    let (name, value) := Text.cut (· = '=') cs
    .ofLong (String.ofList name) (value.map String.ofList)
  | '-' :: letter :: rest => .ofShort letter rest
  | _ => .plain s

end Argument

/-! ## Tasks -/

/-- What is asked for behind the name of a task. -/
inductive TaskArguments where
  | task (t : Task)
  | help
  | misuse
  deriving DecidableEq

namespace TaskArguments

/-- The arguments of a task that has none of its own. -/
def bare (t : Task) : List String → TaskArguments
  | [] => .task t
  | a :: as => match Argument.ofText a with
    | .help => .help
    | .endMark => if as.isEmpty then .task t else .misuse
    | _ => .misuse

/-- The arguments of a task with one file; `ended` behind the mark that ends options. -/
def withFile (ended : Bool) (file : Option String) : List String → TaskArguments
  | [] => match file with
    | some f => .task (.options ⟨f⟩)
    | none => .misuse
  | a :: as => match ended, Argument.ofText a with
    | false, .help => .help
    | false, .endMark => withFile true file as
    | false, .plain _ | true, _ =>
      if file.isSome || a.isEmpty then .misuse else withFile ended (some a) as
    | false, _ => .misuse

/-- The names of tasks. -/
def names : List String := ["generate", "inspect", "options"]

/-- The arguments of the task of a name. -/
def ofName (name : String) (arguments : List String) : TaskArguments :=
  match name with
  | "generate" => bare .generate arguments
  | "inspect" => bare .inspect arguments
  | "options" => withFile false none arguments
  | _ => .misuse

end TaskArguments

/-! ## Whole command lines -/

namespace Options

/-- The value of an option. -/
def get? (o : Options) : Slot → Option Path
  | .config => o.config
  | .models => o.models
  | .output => o.output

/-- The options with one more value. It must not be empty, and no option has two. -/
def give (o : Options) (slot : Slot) (value : String) : Option Options :=
  if value.isEmpty || (o.get? slot).isSome then none
  else some <| match slot with
    | .config => { o with config := some ⟨value⟩ }
    | .models => { o with models := some ⟨value⟩ }
    | .output => { o with output := some ⟨value⟩ }

/-- The options with the one that has been read last. -/
def settle (o : Options) : Option (Slot × Option String) → Option Options
  | none => some o
  | some (slot, value) => value.bind (o.give slot)

end Options

namespace Invocation

/-- Help on a task, or on help itself. -/
def helpOn : List String → Invocation
  | [] => .help
  | [name] => if name = "help" || TaskArguments.names.contains name then .help else .misuse
  | _ => .misuse

/-- A task, when nothing follows it. -/
def complete (o : Options) (last : Option (Slot × Option String)) : TaskArguments → Invocation
  | .help => .help
  | .misuse => .misuse
  | .task t => match o.settle last with
    | some o => .run o t
    | none => .misuse

/-- The rest of a command line behind some options; `last` is an option that still is to be
    settled, and lacks its value if that is to come. -/
def read (o : Options) (last : Option (Slot × Option String)) : List String → Invocation
  | [] => complete o last (.task .generate)
  | a :: as => match Argument.ofText a, last with
    | .plain s, some (slot, none) => read o (some (slot, some s)) as
    | .plain s, _ => if s = "help" then helpOn as else complete o last (.ofName s as)
    | .endMark, _ => if as.isEmpty then complete o last (.task .generate) else .misuse
    | argument, _ => match o.settle last, argument with
      | some _, .help => .help
      | some _, .version => .version
      | some o, .dryRun => if o.dryRun then .misuse else read { o with dryRun := true } none as
      | some o, .option slot none => read o (some (slot, none)) as
      | some o, .option slot (some value) => match o.give slot value with
        | some o => read o none as
        | none => .misuse
      | _, _ => .misuse

/-- What a command line asks for. -/
def ofArguments (arguments : List String) : Invocation := read {} none arguments

end Invocation

end Scaffold.CommandLine
