/-!
# Arguments of the command line

An argument is an option, the value of an option, the name of a subcommand or an operand. Options come
in a long and mostly in a short form; a value may follow its option or be attached to it.

* `Choice`, `Grammar`: the options and operands of a command;
* `Grammar.scan`: the arguments, sorted by options and operands;
* `Invocation.parse`: what the arguments ask for.
-/

namespace ContentVisibility.Command

/-! ## Grammars -/

/-- What an option does. -/
inductive Kind where
  /-- It takes no value and is given at most once. -/
  | switch
  /-- It takes a value and is given at most once. -/
  | text
  /-- It takes a value that is not empty and is given at most once. -/
  | path
  /-- It takes a value each time it is given. -/
  | texts
  | version
  | help
  deriving DecidableEq, Repr

/-- An option. -/
structure Choice where
  long : String
  short : Option Char
  kind : Kind
  deriving DecidableEq, Repr

/-- What a command takes. -/
structure Grammar where
  choices : List Choice
  /-- How many operands there may be. -/
  operands : Nat
  /-- The names that end the options of the command. -/
  subcommands : List String

/-- Why the arguments ask for nothing that can be run. -/
inductive Stop where
  | misuse
  | version
  | help
  deriving DecidableEq, Repr

/-! ## Sorting arguments -/

/-- The arguments read so far. -/
structure Given where
  /-- The long names of the options given, with their values. -/
  options : List (String × String)
  operands : List String
  deriving DecidableEq, Repr

namespace Given

def none : Given := ⟨[], []⟩

def values (given : Given) (long : String) : List String :=
  (given.options.filter fun option => option.1 == long).map Prod.snd

/-- The value given for an option that is given at most once. -/
def value? (given : Given) (long : String) : Option String := (given.values long).head?

def has (given : Given) (long : String) : Bool := (given.value? long).isSome

def take (given : Given) (choice : Choice) (value : String) : Except Stop Given :=
  if choice.kind != .texts && given.has choice.long then .error .misuse
  else if choice.kind = .path && value.isEmpty then .error .misuse
  else .ok { given with options := given.options ++ [(choice.long, value)] }

end Given

/-- What a command was given, and its subcommand with the arguments behind it. -/
structure Scanned where
  given : Given
  subcommand : Option (String × List String)

/-- The parts of an argument in front of and behind its first equals sign. -/
def splitValue (cs : List Char) : String × Option String :=
  let name := String.ofList (cs.takeWhile (· != '='))
  match cs.dropWhile (· != '=') with
  | [] => (name, none)
  | _ :: value => (name, some (String.ofList value))

/-- What an argument is by its looks. -/
inductive Shape where
  /-- Two hyphens: what follows are operands. -/
  | divider
  /-- A long option, with a value attached to it perhaps. -/
  | long (name : String) (value : Option String)
  /-- A short option, with all that is attached to it. -/
  | short (name : Char) (attached : List Char)
  | operand
  deriving DecidableEq, Repr

/-- What an argument is by its looks. A lone hyphen is an operand. -/
def Shape.of (arg : String) : Shape :=
  match arg.toList with
  | ['-', '-'] => divider
  | '-' :: '-' :: cs =>
    let (name, value) := splitValue cs
    long name value
  | '-' :: c :: cs => short c cs
  | _ => operand

namespace Grammar

def long? (g : Grammar) (name : String) : Option Choice := g.choices.find? (·.long == name)

def short? (g : Grammar) (name : Char) : Option Choice := g.choices.find? (·.short == some name)

/-- Take an option; without a value, one that needs a value waits for the next argument. -/
def takeOption (given : Given) (choice : Choice) (value : Option String) :
    Except Stop (Given × Option Choice) :=
  match choice.kind, value with
  | .version, none => .error .version
  | .help, none => .error .help
  | .version, some _ | .help, some _ | .switch, some _ => .error .misuse
  | .switch, none => (given.take choice "").map (·, none)
  | _, some value => (given.take choice value).map (·, none)
  | _, none => .ok (given, some choice)

/-- Take an argument that looks like an option. -/
def takeShape (g : Grammar) (given : Given) : Shape → Except Stop (Given × Option Choice)
  | .long name value =>
    match g.long? name with
    | some choice => takeOption given choice value
    | none => .error .misuse
  | .short name attached =>
    match g.short? name with
    | none => .error .misuse
    | some choice =>
      match choice.kind, attached with
      | .version, _ | .help, _ | _, [] => takeOption given choice none
      | _, '=' :: value | _, value => takeOption given choice (some (String.ofList value))
  | .divider | .operand => .error .misuse

def takeOperand (g : Grammar) (given : Given) (arg : String) : Except Stop Given :=
  if given.operands.length < g.operands then
    .ok { given with operands := given.operands ++ [arg] }
  else .error .misuse

/-- Sort the arguments from left to right. An option that waits for its value takes the next argument
unless that looks like an option; behind a divider all are operands. -/
def scanFrom (g : Grammar) (given : Given) (waiting : Option Choice) (divided : Bool) :
    List String → Except Stop Scanned
  | [] => if waiting.isSome then .error .misuse else .ok ⟨given, none⟩
  | arg :: args =>
    match waiting with
    | some choice => do
      if Shape.of arg != .operand then throw .misuse
      g.scanFrom (← given.take choice arg) none divided args
    | none =>
      if divided then do g.scanFrom (← g.takeOperand given arg) none true args
      else if arg ∈ g.subcommands then .ok ⟨given, some (arg, args)⟩
      else
        match Shape.of arg with
        | .divider => g.scanFrom given none true args
        | .operand => do g.scanFrom (← g.takeOperand given arg) none false args
        | shape => do
          let (given, waiting) ← g.takeShape given shape
          g.scanFrom given waiting false args

def scan (g : Grammar) (args : List String) : Except Stop Scanned :=
  g.scanFrom .none none false args

end Grammar

/-! ## The commands -/

/-- Read settings from this file instead of the usual places. -/
def configChoice : Choice := ⟨"config", none, .path⟩

def failClosedChoice : Choice := ⟨"fail-closed", none, .switch⟩

def commonChoices : List Choice :=
  [configChoice, failClosedChoice, ⟨"help", some 'h', .help⟩, ⟨"version", some 'V', .version⟩]

def directoryChoice : Choice := ⟨"directory", some 'd', .path⟩

def userChoice : Choice := ⟨"user", some 'u', .text⟩

def ruleChoice : Choice := ⟨"rule", some 'r', .text⟩

def contentChoice : Choice := ⟨"content", some 'c', .path⟩

def candidateChoice : Choice := ⟨"candidate", none, .texts⟩

/-- The commands. -/
inductive Verb where
  /-- Report what is wrong with a rule. -/
  | validate
  /-- Decide whether a user may see what a rule guards. -/
  | check
  /-- Remove what a user may not see from a page. -/
  | filterWidgets
  /-- List the users whom a rule admits. -/
  | audience
  deriving DecidableEq, Repr

namespace Verb

def all : List Verb := [validate, check, filterWidgets, audience]

def name : Verb → String
  | validate => "validate"
  | check => "check"
  | filterWidgets => "filter-widgets"
  | audience => "audience"

def grammar : Verb → Grammar
  | validate => ⟨commonChoices, 1, []⟩
  | check => ⟨commonChoices ++ [directoryChoice, userChoice, ruleChoice], 0, []⟩
  | filterWidgets => ⟨commonChoices ++ [directoryChoice, userChoice, contentChoice], 0, []⟩
  | audience => ⟨commonChoices ++ [directoryChoice, ruleChoice, candidateChoice], 0, []⟩

end Verb

def programName : String := "audience"

def programVersion : String := "0.3.0"

def usage : String :=
  "Usage: audience [--config <CONFIG>] [--fail-closed] <COMMAND>\n\n" ++
  "Commands:\n" ++
  "  validate        Report authoring problems in a rule\n" ++
  "  check           Decide whether one user may see content guarded by a rule\n" ++
  "  filter-widgets  Remove widgets a user may not see from page content\n" ++
  "  audience        List the users a rule reaches\n"

def helpName : String := "help"

def topGrammar : Grammar := ⟨commonChoices, 0, helpName :: Verb.all.map Verb.name⟩

/-! ## Invocations -/

/-- What is to be done. -/
inductive Task where
  | validate (rule : String)
  | check (directory user : String) (rule : Option String)
  | filterWidgets (directory user content : String)
  | audience (directory : String) (rule : Option String) (candidates : List String)
  deriving DecidableEq, Repr

/-- What is to be done, and under which settings. -/
structure Invocation where
  /-- The file of settings to use instead of the usual places. -/
  config : Option String
  /-- Whether content is hidden whose rule cannot be read. -/
  failClosed : Bool
  task : Task
  deriving DecidableEq, Repr

/-- What the arguments ask for. -/
inductive Asked where
  | run (invocation : Invocation)
  /-- The version, under the name of the program or of a command. -/
  | version (name : String)
  | help
  | misuse
  deriving DecidableEq, Repr

/-- The task of a command, unless something is missing that it needs. -/
def Verb.task? (verb : Verb) (given : Given) : Option Task := do
  let directory := given.value? directoryChoice.long
  let user := given.value? userChoice.long
  let rule := given.value? ruleChoice.long
  match verb with
  | validate => some (.validate (← given.operands.head?))
  | check => some (.check (← directory) (← user) rule)
  | filterWidgets => some (.filterWidgets (← directory) (← user) (← given.value? contentChoice.long))
  | audience => some (.audience (← directory) rule (given.values candidateChoice.long))

def Stop.asked (name : String) : Stop → Asked
  | misuse => .misuse
  | version => .version name
  | help => .help

namespace Invocation

/-- What the arguments of a command ask for; `above` was given in front of its name. -/
def ofVerb (above : Given) (verb : Verb) (args : List String) : Asked :=
  match verb.grammar.scan args with
  | .error stop => stop.asked s!"{programName}-{verb.name}"
  | .ok scanned =>
    match verb.task? scanned.given with
    | none => .misuse
    | some task =>
      let config := configChoice.long
      let failClosed := failClosedChoice.long
      .run
        ⟨(scanned.given.value? config).or (above.value? config),
          scanned.given.has failClosed || above.has failClosed, task⟩

/-- What the arguments behind the name of the explaining command ask for. -/
def ofHelp : List String → Asked
  | [] => .help
  | [name] => if name ∈ topGrammar.subcommands then .help else .misuse
  | _ => .misuse

def parse (args : List String) : Asked :=
  match topGrammar.scan args with
  | .error stop => stop.asked programName
  | .ok ⟨_, none⟩ => .misuse
  | .ok ⟨above, some (name, args)⟩ =>
    match Verb.all.find? fun verb => verb.name == name with
    | some verb => ofVerb above verb args
    | none => ofHelp args

end Invocation

end ContentVisibility.Command
