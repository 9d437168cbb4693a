import DotMatrix.Text.Number

/-! The command line of the player without a window. It names one image; every option but
`--colorize` takes the next argument as its value, whatever that looks like. -/
namespace DotMatrix

structure Options where
  image : String
  frames : Nat
  /-- Where the last picture goes, as red, green and blue bytes. -/
  dump : Option String
  saveTo : Option String
  loadFrom : Option String
  /-- The battery memory, read before the run if the file is there, and written after. -/
  battery : Option String
  colorize : Bool
  deriving DecidableEq

inductive UsageError where
  | missingValue (option : String)
  | frameCount (given : String) (error : Number.NumberError)
  | unknownOption (given : String)
  | secondImage
  | noImage
  deriving DecidableEq

def UsageError.message : UsageError → String
  | .missingValue option => s!"{option} expects a value"
  | .frameCount given error => String.join ["invalid frame count '", given, "': ", error.message]
  | .unknownOption given => s!"unknown option '{given}'"
  | .secondImage => "more than one ROM path given"
  | .noImage => "no ROM path given"

def usage : String :=
  "Usage: dotmatrix <rom.gb> [--frames N] [--dump out.rgb] [--save-state out.state] " ++
    "[--load-state in.state] [--battery game.sav] [--colorize]"

namespace Options

structure Draft where
  image : Option String
  options : Options

def Draft.start : Draft :=
  { image := none
    options :=
      { image := "", frames := 60, dump := none, saveTo := none, loadFrom := none
        battery := none, colorize := false } }

inductive Valued where
  | frames | dump | saveTo | loadFrom | battery
  deriving DecidableEq

def Valued.ofArgument? : String → Option Valued
  | "--frames" => some .frames
  | "--dump" => some .dump
  | "--save-state" => some .saveTo
  | "--load-state" => some .loadFrom
  | "--battery" => some .battery
  | _ => none

def Draft.setValue (value : String) (d : Draft) : Valued → Except UsageError Draft
  | .frames =>
    match Number.read32 value with
    | .ok frames => .ok { d with options := { d.options with frames } }
    | .error error => .error (.frameCount value error)
  | .dump => .ok { d with options := { d.options with dump := some value } }
  | .saveTo => .ok { d with options := { d.options with saveTo := some value } }
  | .loadFrom => .ok { d with options := { d.options with loadFrom := some value } }
  | .battery => .ok { d with options := { d.options with battery := some value } }

/-- An argument that takes no value: the flag, or the path of the image. -/
def Draft.take (argument : String) (d : Draft) : Except UsageError Draft :=
  if argument = "--colorize" then .ok { d with options := { d.options with colorize := true } }
  else if argument.startsWith "--" then .error (.unknownOption argument)
  else if d.image.isSome then .error .secondImage
  else .ok { d with image := some argument }

def Draft.finish (d : Draft) : Except UsageError Options :=
  match d.image with
  | some image => .ok { d.options with image }
  | none => .error .noImage

def parseFrom (d : Draft) : List String → Except UsageError Options
  | [] => d.finish
  | argument :: rest =>
    match Valued.ofArgument? argument, rest with
    | some _, [] => .error (.missingValue argument)
    | some option, value :: rest =>
      match d.setValue value option with
      | .error error => .error error
      | .ok d => parseFrom d rest
    | none, rest =>
      match d.take argument with
      | .error error => .error error
      | .ok d => parseFrom d rest

def parse (arguments : List String) : Except UsageError Options := parseFrom .start arguments

end Options
end DotMatrix
