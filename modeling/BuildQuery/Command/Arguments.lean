/-!
# BuildQuery — arguments of a command line

A command line is read level by level: the program, then a command, then a command of that command. A
level has switches, options with a value, and plain words; a level with commands ends at the name of
one. Names are `--long` or `-s`. Short names may stand together, and a value may be attached, with or
without `=`. After `--` all arguments are plain words. A value that is not attached may not begin with
`-`, a lone `-` apart, and nothing may be given twice.
-/

namespace BuildQuery.Command

/-- A name of a switch or an option. -/
structure Name where
  short : Char
  long : String
deriving DecidableEq

/-- An option with a value. -/
structure Choice where
  name : Name
  accepts : String → Bool

/-- A switch ends the run when it asks for a text about the program. -/
structure Switch where
  name : Name
  informs : Bool

/-- What may be given on a level. -/
structure Level where
  switches : List Switch
  choices : List Choice
  /-- How many plain words there may be. -/
  words : Nat
  commands : List String

/-- Why a command line is not carried out. -/
inductive Halt where
  /-- A text about the program is asked for. -/
  | inform
  /-- The command line is not understood. -/
  | misuse
deriving DecidableEq

/-- What has been given on a level. -/
structure Given where
  switches : List String
  choices : List (String × String)
  words : List String
deriving DecidableEq

/-- Nothing has been given. -/
def Given.nothing : Given := ⟨[], [], []⟩

/-- A switch has been given. -/
def Given.has (g : Given) (long : String) : Bool :=
  long ∈ g.switches

/-- The value of an option. -/
def Given.value? (g : Given) (long : String) : Option String :=
  g.choices.lookup long

/-- What has been given, and the option that waits for its value. -/
structure Progress where
  given : Given
  waiting : Option Choice

namespace Level

/-- Puts a switch to what has been given. -/
def putSwitch (g : Given) (s : Switch) : Except Halt Given :=
  if s.informs then .error .inform
  else if g.has s.name.long then .error .misuse
  else .ok { g with switches := g.switches ++ [s.name.long] }

/-- Puts an option with its value to what has been given. -/
def putChoice (g : Given) (c : Choice) (value : String) : Except Halt Given :=
  if (g.value? c.name.long).isSome ∨ !c.accepts value then .error .misuse
  else .ok { g with choices := g.choices ++ [(c.name.long, value)] }

/-- Puts a plain word to what has been given. -/
def putWord (level : Level) (g : Given) (word : String) : Except Halt Given :=
  if g.words.length < level.words then .ok { g with words := g.words ++ [word] }
  else .error .misuse

/-- The value that is attached to a short name. -/
def attached : List Char → String
  | '=' :: cs => String.ofList cs
  | cs => String.ofList cs

/-- Reads short names that stand together. -/
def shortNames (level : Level) (g : Given) : List Char → Except Halt Progress
  | [] => .ok ⟨g, none⟩
  | c :: cs =>
    match level.switches.find? fun s => s.name.short == c with
    | some s => do shortNames level (← putSwitch g s) cs
    | none =>
      match level.choices.find? fun o => o.name.short == c with
      | some o =>
        if cs.isEmpty then
          if (g.value? o.name.long).isSome then .error .misuse else .ok ⟨g, some o⟩
        else do return ⟨← putChoice g o (attached cs), none⟩
      | none => .error .misuse

/-- A long name and the value that is attached to it. -/
def splitLong (cs : List Char) : String × Option String :=
  match cs.dropWhile (· != '=') with
  | [] => (String.ofList cs, none)
  | _ :: value => (String.ofList (cs.takeWhile (· != '=')), some (String.ofList value))

/-- Reads a long name. -/
def longName (level : Level) (g : Given) (cs : List Char) : Except Halt Progress :=
  let (name, value) := splitLong cs
  match level.switches.find? fun s => s.name.long == name with
  | some s =>
    if value.isSome then .error .misuse else do return ⟨← putSwitch g s, none⟩
  | none =>
    match level.choices.find? fun o => o.name.long == name with
    | some o =>
      match value with
      | some value => do return ⟨← putChoice g o value, none⟩
      | none => if (g.value? o.name.long).isSome then .error .misuse else .ok ⟨g, some o⟩
    | none => .error .misuse

/-- What a level ends with: the name of a command and the arguments after it, if there is one. -/
abbrev Rest := Option (String × List String)

/-- Reads arguments after `--`. -/
def plainWords (level : Level) (g : Given) : List String → Except Halt (Given × Rest)
  | [] => .ok (g, none)
  | arg :: args => do plainWords level (← level.putWord g arg) args

/-- Reads the arguments of a level. -/
def read (level : Level) (p : Progress) : List String → Except Halt (Given × Rest)
  | [] => if p.waiting.isSome then .error .misuse else .ok (p.given, none)
  | arg :: args =>
    match arg.toList with
    | ['-', '-'] => if p.waiting.isSome then .error .misuse else level.plainWords p.given args
    | '-' :: '-' :: cs =>
      if p.waiting.isSome then .error .misuse
      else do read level (← level.longName p.given cs) args
    | '-' :: c :: cs =>
      if p.waiting.isSome then .error .misuse
      else do read level (← level.shortNames p.given (c :: cs)) args
    | _ =>
      match p.waiting with
      | some o => do read level ⟨← putChoice p.given o arg, none⟩ args
      | none =>
        if arg ∈ level.commands then .ok (p.given, some (arg, args))
        else do read level ⟨← level.putWord p.given arg, none⟩ args

end Level

end BuildQuery.Command
