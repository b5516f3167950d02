import RobotMaze.Command.Duration
import RobotMaze.Text.Numeral
import RobotMaze.Text.Quoted

/-!
# Command line flags

Flags stand before the other arguments and start with one or two hyphens.  A flag has its value
behind an equals sign or in the next argument; a switch has a value only behind an equals sign.
-/

namespace RobotMaze.Command

/-- What can be chosen on the command line. -/
structure Options where
  /-- The file of the catalog, or nothing for the built-in one. -/
  presets : Text := []
  /-- The variant to load, or a negative number for a random one. -/
  variant : Int := -1
  /-- The seed for choosing variants, or zero for the clock. -/
  seed : Int := 0
  maxIterations : Int := 0
  trace : Bool := false
  /-- The pause after each traced step, in nanoseconds. -/
  delay : Int := 300000000
  verbose : Bool := false
  deriving DecidableEq, Repr

/-- The flags. -/
inductive Flag where
  | delay
  | maxIterations
  | presets
  | seed
  | trace
  | verbose
  | variant
  deriving DecidableEq, Repr

/-- What can be wrong with the arguments. -/
inductive FlagError where
  | undefined (name : Text)
  | badForm (argument : Text)
  | noValue (name : Text)
  | badValue (value name : Text) (problem : Numeral.Problem)
  | badSwitch (value name : Text)
  deriving DecidableEq, Repr

/-- What the arguments ask for. -/
inductive Request where
  | run (options : Options) (arguments : List Text)
  | help
  | refused (e : FlagError)
  deriving DecidableEq, Repr

namespace Flag

/-- The flags in the order of their names. -/
def all : List Flag := [delay, maxIterations, presets, seed, trace, verbose, variant]

/-- The name of a flag. -/
def name : Flag → String
  | delay => "delay"
  | maxIterations => "max-iterations"
  | presets => "presets"
  | seed => "seed"
  | trace => "trace"
  | verbose => "v"
  | variant => "variant"

/-- What the usage says about a flag: the kind of its value and its purpose. -/
def help : Flag → String
  | delay => " duration\n    \tpause between traced steps (default 300ms)\n"
  | maxIterations => " int\n    \tfail a WHILE loop after this many iterations, 0 for no cap\n"
  | presets => " string\n    \tYAML preset catalog to use instead of the built-in one\n"
  | seed => " int\n    \tseed for picking preset variants, 0 uses the clock\n"
  | trace => "\n    \tdraw the maze after every robot action\n"
  | verbose => "\tlog every executed line\n"
  | variant =>
    " int\n    \talways load this variant of a preset (0-based), "
      ++ "random when negative (default -1)\n"

/-- Whether a flag is a switch. -/
def isSwitch : Flag → Bool
  | trace => true
  | verbose => true
  | _ => false

/-- The flag with a name. -/
def ofName? (t : Text) : Option Flag := all.find? fun f => utf8 f.name == t

end Flag

/-- The entry of a flag in the usage. -/
def Flag.usage (f : Flag) : Text := "  -" ++ f.name ++ utf8 f.help

/-- The name of the program. -/
def programName : Text := "robotspeak"

/-- How the program is called. -/
def usage : Text :=
  "usage: " ++ programName ++ " [flags] <program file>\n"
    ++ Flag.all.flatMap Flag.usage

/-- The wording of a problem with a number. -/
def problemText : Numeral.Problem → Text
  | .malformed => "parse error"
  | .outOfRange => "value out of range"

/-- The wording of an error. -/
def FlagError.message : FlagError → Text
  | .undefined name => "flag provided but not defined: -" ++ name
  | .badForm argument => "bad flag syntax: " ++ argument
  | .noValue name => "flag needs an argument: -" ++ name
  | .badValue value name problem =>
    "invalid value " ++ Text.quoted value ++ " for flag -" ++ name ++ ": " ++ problemText problem
  | .badSwitch value name =>
    "invalid boolean value " ++ Text.quoted value ++ " for -" ++ name ++ ": "
      ++ problemText .malformed

/-- The truth value that a text spells. -/
def switchValue? (t : Text) : Option Bool :=
  if (["1", "t", "T", "true", "TRUE", "True"] : List Text).contains t then some true
  else if (["0", "f", "F", "false", "FALSE", "False"] : List Text).contains t then some false
  else none

/-- The options with a switch set. -/
def setSwitch (o : Options) (f : Flag) (value : Bool) : Options :=
  match f with
  | .trace => { o with trace := value }
  | .verbose => { o with verbose := value }
  | _ => o

/-- The options with a flag set to what a text spells. -/
def setValue (o : Options) (f : Flag) (t : Text) : Except Numeral.Problem Options :=
  match f with
  | .presets => .ok { o with presets := t }
  | .variant => (Numeral.signed t).map fun n => { o with variant := n }
  | .seed => (Numeral.signed t).map fun n => { o with seed := n }
  | .maxIterations => (Numeral.signed t).map fun n => { o with maxIterations := n }
  | .delay =>
    match Duration.ofText? t with
    | some n => .ok { o with delay := n }
    | none => .error .malformed
  | _ => .ok o

/-- The flag part of an argument that starts with one or two hyphens, or nothing if the argument is
no flag. -/
def flagPart? (argument : Text) : Option Text :=
  match argument with
  | 45 :: 45 :: rest => some rest
  | 45 :: b :: rest => some (b :: rest)
  | _ => none

/-- The name of a flag and its value behind an equals sign. -/
def splitValue (t : Text) : Text × Option Text :=
  match t.dropWhile (· != 61) with
  | _ :: value => (t.takeWhile (· != 61), some value)
  | [] => (t, none)

/-- Whether the part of an argument behind its hyphens can be no flag. -/
def isBadForm : Text → Bool
  | [] => true
  | b :: _ => b == 45 || b == 61

/-- What a list of arguments asks for, given the options set so far. -/
def requestFrom (o : Options) : List Text → Request
  | [] => .run o []
  | argument :: rest =>
    match flagPart? argument with
    | none => .run o (argument :: rest)
    | some [] => .run o rest
    | some part =>
      if isBadForm part then .refused (.badForm argument)
      else
        let (name, value) := splitValue part
        match Flag.ofName? name with
        | none =>
          if name = utf8 "help" ∨ name = utf8 "h" then .help else .refused (.undefined name)
        | some f =>
          if f.isSwitch then
            match value with
            | none => requestFrom (setSwitch o f true) rest
            | some t =>
              match switchValue? t with
              | some b => requestFrom (setSwitch o f b) rest
              | none => .refused (.badSwitch t name)
          else
            match value, rest with
            | some t, rest =>
              match setValue o f t with
              | .ok o => requestFrom o rest
              | .error problem => .refused (.badValue t name problem)
            | none, t :: rest =>
              match setValue o f t with
              | .ok o => requestFrom o rest
              | .error problem => .refused (.badValue t name problem)
            | none, [] => .refused (.noValue name)

/-- What a list of arguments asks for. -/
def request (arguments : List Text) : Request := requestFrom {} arguments

end RobotMaze.Command
