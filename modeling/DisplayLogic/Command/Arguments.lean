/-!
# Command line arguments

How the arguments of a command line are understood. An argument that begins with a hyphen is an
option, spelled out after two hyphens or by letters after one; all others are operands, and so is
everything behind an argument of two hyphens alone. The value of an option follows it, either in the
same argument or as the next one, which then must not look like an option. No option may be given
twice.

`collect` reads the arguments of one command and `Invocation.ofArguments` those of the whole line,
on which some options may precede the name of the command. Asking for the version ends the reading
at once; every misuse is the same to the caller.
-/

namespace DisplayLogic.Command

/-- The options of all commands. -/
inductive CommandOption where
  | verbose
  | version
  | vars
  | line
  | strict
deriving DecidableEq, Inhabited

namespace CommandOption

def word : CommandOption → String
  | verbose => "verbose"
  | version => "version"
  | vars => "vars"
  | line => "line"
  | strict => "strict"

def letter? : CommandOption → Option Char
  | verbose => some 'v'
  | version => some 'V'
  | line => some 'l'
  | vars => none
  | strict => none

def takesValue : CommandOption → Bool
  | vars => true
  | line => true
  | _ => false

end CommandOption

/-- Why the reading of arguments ends before their end. -/
inductive Stop where
  | misuse
  | version
deriving DecidableEq, Inhabited

/-- An option that was met, with its value if the same argument has it. -/
structure Occurrence where
  option : CommandOption
  attached : Option String
deriving DecidableEq, Inhabited

/-- What an argument is by its form. -/
inductive Argument where
  | separator
  /-- A spelled out option, with what follows the first equals sign. -/
  | word (name : String) (attached : Option String)
  | letters (letters : List Char)
  | operand (text : String)
deriving DecidableEq, Inhabited

namespace Argument

/-- The text before the first equals sign and, if there is one, the text behind it. -/
def splitAtEquals (cs : List Char) : String × Option String :=
  let before := cs.takeWhile (· != '=')
  (.ofList before,
    if before.length < cs.length then some (.ofList (cs.drop (before.length + 1))) else none)

def ofString (argument : String) : Argument :=
  match argument.toList with
  | ['-', '-'] => .separator
  | '-' :: '-' :: rest =>
    let (name, attached) := splitAtEquals rest
    .word name attached
  | '-' :: letter :: rest => .letters (letter :: rest)
  | _ => .operand argument

/-- The value that follows the letter of an option in the same argument. -/
def attachedTo : List Char → Option String
  | [] => none
  | '=' :: rest => some (.ofList rest)
  | rest => some (.ofList rest)

def occurrenceOfWord (options : List CommandOption) (name : String) (attached : Option String) :
    Except Stop Occurrence :=
  match options.find? fun o => o.word == name with
  | none => .error .misuse
  | some o =>
    if attached.isSome && !o.takesValue then .error .misuse
    else if o = .version then .error .version
    else .ok ⟨o, attached⟩

end Argument

/-- What was collected from the arguments of a level. -/
structure Collected where
  /-- The options met so far, each with its value; an option without value has the empty text. -/
  given : List (CommandOption × String)
  pending : Option CommandOption
  /-- The operands, the latest first. -/
  operands : List String
deriving Inhabited

namespace Collected

def nothing : Collected := ⟨[], none, []⟩

def has (c : Collected) (option : CommandOption) : Bool := (c.given.lookup option).isSome

def value? (c : Collected) (option : CommandOption) : Option String := c.given.lookup option

/-- Takes an option, which must be new and must not come where a value is awaited. -/
def takeOption (c : Collected) (o : Occurrence) : Except Stop Collected :=
  if c.pending.isSome || c.has o.option then .error .misuse
  else match o.attached with
    | some value => .ok { c with given := (o.option, value) :: c.given }
    | none =>
      if o.option.takesValue then .ok { c with pending := some o.option }
      else .ok { c with given := (o.option, "") :: c.given }

/-- Takes an argument that is no option: the value that is awaited, or else an operand. -/
def takeOperand (c : Collected) (text : String) : Collected :=
  match c.pending with
  | some option => { c with given := (option, text) :: c.given, pending := none }
  | none => { c with operands := text :: c.operands }

end Collected

/-- Takes the options that letters stand for, in turn; the first one with a value takes all letters
behind it as that value. -/
def Collected.takeLetters (options : List CommandOption) (c : Collected) :
    List Char → Except Stop Collected
  | [] => .ok c
  | letter :: rest =>
    match options.find? fun o => o.letter? == some letter with
    | none => .error .misuse
    | some .version => .error .version
    | some o =>
      if o.takesValue then c.takeOption ⟨o, Argument.attachedTo rest⟩
      else do Collected.takeLetters options (← c.takeOption ⟨o, none⟩) rest

/-- Takes all arguments of a command that accepts some options. -/
def Collected.takeAll (options : List CommandOption) (c : Collected) :
    List String → Except Stop Collected
  | [] => .ok c
  | argument :: rest =>
    match Argument.ofString argument with
    | .separator =>
      if c.pending.isSome then .error .misuse
      else .ok { c with operands := rest.reverse ++ c.operands }
    | .word name attached => do
      let occurrence ← Argument.occurrenceOfWord options name attached
      Collected.takeAll options (← c.takeOption occurrence) rest
    | .letters letters => do Collected.takeAll options (← c.takeLetters options letters) rest
    | .operand text => Collected.takeAll options (c.takeOperand text) rest

/-- The options and operands of a command; no value may be awaited at the end. -/
def collect (options : List CommandOption) (arguments : List String) : Except Stop Collected := do
  let c ← Collected.nothing.takeAll options arguments
  if c.pending.isSome then .error .misuse else .ok c

/-- What a command line asks for. -/
inductive Invocation where
  | check (expression : String) (line : Nat) (strict : Bool) (vars : Option String)
  | tree (expression : String) (vars : Option String)
  | docs
  | doc (category : String)
deriving DecidableEq, Inhabited

namespace Invocation

/-- The first number that is no line, for lines have 64 bits. -/
def lineLimit : Nat := UInt64.size

/-- The digits of a line, which a plus sign may precede. -/
def lineDigits : List Char → List Char
  | '+' :: rest => rest
  | cs => cs

def lineOf? (value : String) : Option Nat :=
  let digits := lineDigits value.toList
  if digits.isEmpty || !digits.all Char.isDigit then none
  else
    let line := Nat.ofDigitChars 10 digits 0
    if line < lineLimit then some line else none

/-- The line that was given, which is the first one if none was. -/
def lineIn (c : Collected) : Except Stop Nat :=
  match c.value? .line with
  | none => .ok 1
  | some value =>
    match lineOf? value with
    | none => .error .misuse
    | some line => .ok line

def operandIn (c : Collected) : Except Stop String :=
  match c.operands with
  | [operand] => .ok operand
  | _ => .error .misuse

/-- What the arguments behind the name of a command ask for. -/
def ofCommand (command : String) (arguments : List String) : Except Stop Invocation :=
  match command with
  | "check" => do
    let c ← collect [.verbose, .vars, .line, .strict] arguments
    return check (← operandIn c) (← lineIn c) (c.has .strict) (c.value? .vars)
  | "tree" => do
    let c ← collect [.verbose, .vars] arguments
    return tree (← operandIn c) (c.value? .vars)
  | "docs" => do
    let c ← collect [.verbose] arguments
    if c.operands.isEmpty then return docs else .error .misuse
  | "doc" => do
    let c ← collect [.verbose] arguments
    return doc (← operandIn c)
  | _ => .error .misuse

/-- The options that may precede the name of a command. -/
def leadingOptions : List CommandOption := [.verbose, .version]

/-- What a command line asks for behind some options; its first operand names the command. -/
def ofArgumentsFrom (c : Collected) : List String → Except Stop Invocation
  | [] => .error .misuse
  | argument :: rest =>
    match Argument.ofString argument with
    | .separator => .error .misuse
    | .word name attached => do
      let occurrence ← Argument.occurrenceOfWord leadingOptions name attached
      ofArgumentsFrom (← c.takeOption occurrence) rest
    | .letters letters => do ofArgumentsFrom (← c.takeLetters leadingOptions letters) rest
    | .operand command => ofCommand command rest

def ofArguments (arguments : List String) : Except Stop Invocation :=
  ofArgumentsFrom .nothing arguments

end Invocation

end DisplayLogic.Command
