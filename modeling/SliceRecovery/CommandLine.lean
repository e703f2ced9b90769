import SliceRecovery.Project.Command
import SliceRecovery.Text.Numeral

/-!
# SliceRecovery.CommandLine -- commands written as arguments

The first argument names the command, the others are its options: `--name value` or `--name=value`
for those that take a value, `--name` alone for the others. Every option may be given once, and no
argument may be left over. Arguments that make no command are refused as a whole.
-/

namespace SliceRecovery.CommandLine

def version : String := "0.1.0"

/-- What arguments ask for. -/
inductive Invocation
  | run (c : Command)
  | version
  | help
  deriving DecidableEq, Repr

/-- The options that a command takes. -/
structure Options where
  /-- Options with a value. -/
  valued : List String
  flags : List String
  /-- Whether an option can have a value. -/
  accepts : String → String → Bool := fun _ _ => true

/-- The options that were given, with their values. Flags have an empty one. -/
abbrev Given := List (String × String)

/-- What the arguments after the name of a command come to. -/
inductive Answer
  | given (g : Given)
  | help

namespace Options

/-- Add an option that was not given before and can have the value. -/
def add (o : Options) (given : Given) (name value : String) : Option Given :=
  if (given.lookup name).isSome || !o.accepts name value then none
  else some ((name, value) :: given)

/-- An argument that starts like an option is no value; a single dash is one. -/
def isValue (arg : String) : Bool := arg = "-" || arg.toList.head? ≠ some '-'

/-- A text cut at its first equals sign, if there is one. -/
def splitValue? (arg : List Char) : Option (List Char × List Char) :=
  if arg.contains '=' then
    some (arg.takeWhile (· ≠ '='), (arg.dropWhile (· ≠ '=')).drop 1)
  else none

/-- Read the arguments that are left. Help is given as soon as it is asked for. -/
def read (o : Options) : Given → List String → Option Answer
  | given, [] => some (.given given)
  | given, arg :: args =>
    match arg.toList with
    | ['-', '-'] => if args = [] then some (.given given) else none
    | '-' :: 'h' :: _ => some .help
    | ['-', '-', 'h', 'e', 'l', 'p'] => some .help
    | '-' :: '-' :: cs =>
      match splitValue? cs with
      | some (name, value) =>
        if o.valued.contains (String.ofList name) then
          match o.add given (String.ofList name) (String.ofList value) with
          | some given => read o given args
          | none => none
        else none
      | none =>
        let name := String.ofList cs
        if o.flags.contains name then
          match o.add given name "" with
          | some given => read o given args
          | none => none
        else if o.valued.contains name then
          match args with
          | value :: args =>
            if isValue value then
              match o.add given name value with
              | some given => read o given args
              | none => none
            else none
          | [] => none
        else none
    | _ => none

end Options

/-- A limit, decimal or hexadecimal. -/
def limit? (s : String) : Option UInt64 := (Text.Numeral.read s).toOption

def flag (g : Given) (name : String) : Bool := (g.lookup name).isSome

def root (g : Given) : Path := .ofString ((g.lookup "root").getD ".")

/-- The options of each command, and the command that given ones make. -/
def commands : List (String × Options × (Given → Option Command)) :=
  [("init-project", { valued := ["root", "name"], flags := ["force"] }, fun g =>
      some (.initProject (root g) (g.lookup "name") (flag g "force"))),
    ("project-info", { valued := ["root"], flags := ["json"] }, fun g =>
      some (.projectInfo (root g) (flag g "json"))),
    ("regions", { valued := ["binary"], flags := ["json"] }, fun g => do
      return .regions (.ofString (← g.lookup "binary")) (flag g "json")),
    ("recover", {
        valued := ["root", "snapshot", "binary", "name", "profile", "max-length", "output"]
        flags := ["json"]
        accepts := fun name value => name ≠ "max-length" || (limit? value).isSome },
      fun g => do
        return .recover {
          root := root g
          snapshot := ← g.lookup "snapshot"
          binary := g.lookup "binary"
          name := g.lookup "name"
          profile := g.lookup "profile"
          maxLength := (g.lookup "max-length").bind limit?
          output := g.lookup "output"
          json := flag g "json" }),
    ("list-runs", { valued := ["root", "binary"], flags := ["json"] }, fun g =>
      some (.listRuns (root g) (g.lookup "binary") (flag g "json"))),
    ("show-run", {
        valued := ["root", "id"]
        flags := ["json"]
        accepts := fun name value => name ≠ "id" || (Text.Numeral.readInteger? value).isSome },
      fun g => do
      let id ← Text.Numeral.readInteger? (← g.lookup "id")
      return .showRun (root g) id (flag g "json"))]

/-- Help, in general or on one command. -/
def helpOn? : List String → Option Invocation
  | [] => some .help
  | name :: args =>
    if args = [] && (name = "help" || (commands.lookup name).isSome) then some .help else none

/-- What arguments ask for, if they make sense. Of letters behind a single dash the first counts. -/
def read? : List String → Option Invocation
  | [] => none
  | name :: args =>
    match name.toList with
    | '-' :: 'V' :: _ => some .version
    | '-' :: 'h' :: _ => some .help
    | _ =>
      if name = "--version" then some .version
      else if name = "--help" then some .help
      else if name = "help" then helpOn? args
      else
        match commands.lookup name with
        | none => none
        | some (options, make) =>
          match options.read [] args with
          | none => none
          | some .help => some .help
          | some (.given g) => (make g).map .run

/-! ## Running -/

/-- What a program leaves behind. -/
structure Outcome where
  exitCode : Nat
  output : String := ""
  errors : String := ""
  deriving DecidableEq, Repr

/-- How the program is used. -/
def usage : String :=
  let line (c : String × Options × (Given → Option Command)) : String :=
    "  " ++ c.1 ++ String.join (c.2.1.valued.map fun n => " --" ++ n ++ " <value>")
      ++ String.join (c.2.1.flags.map fun n => " --" ++ n)
  Report.lines ("Usage: string-slicer <command> [options]" :: "" :: "Commands:" :: commands.map line)

/-- Do what arguments ask for. -/
def run {m : Type → Type} [Monad m] [Storage m] (args : List String) : m Outcome := do
  match read? args with
  | none => return { exitCode := 2, errors := usage }
  | some .help => return { exitCode := 0, output := usage }
  | some .version =>
    return { exitCode := 0, output := Report.lines ["string-slicer " ++ version] }
  | some (.run c) =>
    match ← (c.run : Task m String).run with
    | .ok text => return { exitCode := 0, output := text }
    | .error f =>
      if f.cause = some .overflow then
        return { exitCode := 101, errors := Report.lines ["attempt to multiply with overflow"] }
      else return { exitCode := 1, errors := f.report }

end SliceRecovery.CommandLine
