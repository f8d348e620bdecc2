/-!
The arguments of the command line: an operation, a patch file, and options in any order around
them. Options may come as `--name value`, `--name=value`, `-n value` or `-nvalue`, flags without
a value may be joined, and after `--` everything is a file.
-/

namespace Patchbay.CommandLine

inductive Operation where
  /-- Route all cables, and write the patch where there is an output. -/
  | route
  /-- Count what the patch shows. -/
  | inspect
  deriving DecidableEq, Repr

structure Request where
  operation : Operation
  patch : String
  settings : Option String := none
  output : Option String := none
  deriving DecidableEq, Repr

inductive Stop where
  | wrongUsage
  /-- Only a help or version text was asked for. -/
  | helpWanted
  deriving DecidableEq, Repr

inductive Slot where
  | settings
  | output
  deriving DecidableEq, Repr

structure Given where
  patch : Option String := none
  settings : Option String := none
  output : Option String := none

namespace Given

def set (g : Given) (slot : Slot) (value : String) : Except Stop Given :=
  match slot with
  | .settings =>
    if g.settings.isSome then .error .wrongUsage else .ok { g with settings := some value }
  | .output =>
    if g.output.isSome then .error .wrongUsage else .ok { g with output := some value }

def file (g : Given) (value : String) : Except Stop Given :=
  if g.patch.isSome then .error .wrongUsage else .ok { g with patch := some value }

end Given

inductive Meaning where
  /-- Flags that only change how much is told along the way. -/
  | flags
  | option (slot : Slot) (value : Option String)
  | stop (reason : Stop)
  deriving DecidableEq, Repr

def longMeaning (operation : Option Operation) (name : List Char) (value : Option String) :
    Meaning :=
  match String.ofList name, value with
  | "verbose", none => .flags
  | "help", none => .stop .helpWanted
  | "version", none => if operation.isNone then .stop .helpWanted else .stop .wrongUsage
  | "settings", value =>
    if operation = some .route then .option .settings value else .stop .wrongUsage
  | "output", value =>
    if operation = some .route then .option .output value else .stop .wrongUsage
  | _, _ => .stop .wrongUsage

/-- Joined short options, the dash taken off. The rest of the text after one that takes a value
is the value. -/
def shortMeaning (operation : Option Operation) : List Char → Meaning
  | [] => .flags
  | 'v' :: rest => shortMeaning operation rest
  | 'h' :: _ => .stop .helpWanted
  | 'V' :: _ => if operation.isNone then .stop .helpWanted else .stop .wrongUsage
  | 'o' :: rest =>
    if operation = some .route then
      match rest with
      | [] => .option .output none
      | '=' :: value => .option .output (some (String.ofList value))
      | value => .option .output (some (String.ofList value))
    else .stop .wrongUsage
  | _ => .stop .wrongUsage

/-- The meaning of an argument; none for one that is a value of its own. -/
def meaning? (operation : Option Operation) (arg : List Char) : Option Meaning :=
  match arg with
  | '-' :: '-' :: text =>
    let value := match text.dropWhile (· != '=') with
      | '=' :: value => some (String.ofList value)
      | _ => none
    some (longMeaning operation (text.takeWhile (· != '=')) value)
  | '-' :: c :: cs => some (shortMeaning operation (c :: cs))
  | _ => none

def readFiles : List String → Given → Except Stop Given
  | [], g => .ok g
  | file :: rest, g => do readFiles rest (← g.file file)

def readArguments (operation : Operation) : List String → Given → Except Stop Given
  | [], g => .ok g
  | arg :: rest, g =>
    if arg = "--" then readFiles rest g
    else
      match meaning? (some operation) arg.toList with
      | none => do readArguments operation rest (← g.file arg)
      | some .flags => readArguments operation rest g
      | some (.stop reason) => .error reason
      | some (.option slot (some value)) => do
        readArguments operation rest (← g.set slot value)
      | some (.option slot none) =>
        match rest with
        | value :: rest =>
          if (meaning? none value.toList).isSome then .error .wrongUsage
          else do readArguments operation rest (← g.set slot value)
        | [] => .error .wrongUsage

def Request.ofGiven? (operation : Operation) (g : Given) : Except Stop Request :=
  match g.patch with
  | some patch => .ok ⟨operation, patch, g.settings, g.output⟩
  | none => .error .wrongUsage

def helpMeaning : List String → Stop
  | [] => .helpWanted
  | [name] => if ["route", "inspect", "help"].contains name then .helpWanted else .wrongUsage
  | _ => .wrongUsage

def Request.ofArguments : List String → Except Stop Request
  | [] => .error .wrongUsage
  | "route" :: rest => do ofGiven? .route (← readArguments .route rest {})
  | "inspect" :: rest => do ofGiven? .inspect (← readArguments .inspect rest {})
  | "help" :: names => .error (helpMeaning names)
  | arg :: rest =>
    match meaning? none arg.toList with
    | some .flags => ofArguments rest
    | some (.stop reason) => .error reason
    | _ => .error .wrongUsage

end Patchbay.CommandLine
