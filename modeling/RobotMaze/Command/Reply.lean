import RobotMaze.Catalog.BuiltIn
import RobotMaze.Catalog.Read
import RobotMaze.Command.Flags
import RobotMaze.Diagnostic.Snippet
import RobotMaze.Maze.Render
import RobotMaze.Run

/-!
# Answering a command

What the program writes, as a list of chunks, and the number it exits with.  Files are read
beforehand.
-/

namespace RobotMaze.Command

/-- Why a file cannot be read. -/
inductive FileError where
  | missing (path : Text)
  | directory (path : Text)
  | other (message : Text)
  deriving DecidableEq, Repr

/-- A piece of output. -/
inductive Chunk where
  | out (t : Text)
  | err (t : Text)
  /-- A drawing of the maze after an action. -/
  | frame (t : Text)
  deriving DecidableEq, Repr

/-- What the program does. -/
structure Reply where
  exit : Nat
  chunks : List Chunk
  deriving DecidableEq, Repr

/-- The files that a command needs. -/
structure Files where
  program : Except FileError Text
  presets : Except FileError Text

/-- The wording of an error. -/
def FileError.message : FileError → Text
  | .missing path => "open " ++ path ++ ": no such file or directory"
  | .directory path => "read " ++ path ++ ": is a directory"
  | .other message => message

/-- The reply that only complains. -/
def complaint (message : Text) : Reply := ⟨1, [.err (message ++ "\n")]⟩

/-- The catalog in a file, or the message about it. -/
def catalogOf (path : Text) (content : Except FileError Text) : Except Text Catalog :=
  match content with
  | .error (.directory p) =>
    .error ("presets: " ++ path ++ ": parse preset catalog: yaml: input error: "
      ++ (FileError.directory p).message)
  | .error e => .error ("presets: open " ++ path ++ ": " ++ e.message)
  | .ok t =>
    match Catalog.ofText t with
    | .ok c => .ok c
    | .error e => .error ("presets: " ++ path ++ ": " ++ e.message)

/-- The catalog that the options ask for. -/
def catalog (o : Options) (presets : Except FileError Text) : Except Text Catalog :=
  if o.presets.isEmpty then .ok Catalog.builtIn else catalogOf o.presets presets

/-- The drawing of an action. -/
def frame (e : Event) : Text :=
  "line " ++ Text.ofInt e.line ++ ": " ++ e.action.word ++ "\n"
    ++ (match e.rejected? with
      | some r => "  rejected: " ++ r.text ++ "\n"
      | none => utf8 "")
    ++ e.maze.render

/-- What is written about an entry of the journal. -/
def entryChunks (trace : Bool) (v : Verbosity) (e : Entry) : List Chunk :=
  (match trace, e.event? with
    | true, some event => [Chunk.frame (frame event)]
    | _, _ => [])
    ++ [.err (e.message.render v)]

/-- The report on a finished run. -/
def report (r : Run.Result) : Text :=
  match r.maze with
  | none => []
  | some m =>
    "maze: " ++ m.name ++ "\n"
      ++ "robot final position: " ++ m.robot.text ++ "\n"
      ++ "has key: " ++ Text.ofBool m.hasKey ++ ", door opened: " ++ Text.ofBool m.hasOpenedDoor
      ++ "\n"
      ++ (if r.solved then utf8 "robot escaped\n" else [])
      ++ (if r.warnings.isEmpty then []
          else Text.ofNat r.warnings.length ++ utf8 " action(s) rejected\n")

/-- The variables of a finished run, if the log is verbose. -/
def finalValues (v : Verbosity) (env : Env) : Text :=
  if v = .verbose then
    env.entries.flatMap fun (name, value) =>
      (Log.Message.mk .info (name ++ " = " ++ Text.ofBool value)).render v
  else []

/-- What is written at the end of a run, and the number to exit with. -/
def closing (v : Verbosity) (src : Text) (o : Run.Outcome) : Nat × List Chunk :=
  match o.result with
  | .ok r =>
    (0, [.out (report r), .err (finalValues v r.env),
      .out "--- Program finished successfully. ---\n"])
  | .error (.failed e) => (1, [.err (e.diagnostic.snippet src ++ "\n")])
  | .error _ => (1, [.err "the run did not finish\n"])

/-- Runs a program, granting each entry of a loop `limit` rounds. -/
def replyTo (o : Options) (path : Text) (files : Files) (clock : Int) (limit : Nat) : Reply :=
  match files.program with
  | .error e => complaint ("could not read program: " ++ e.message)
  | .ok src =>
    if o.delay < 0 then complaint "delay must be non-negative"
    else
      match catalog o files.presets with
      | .error message => complaint message
      | .ok c =>
        let seed := if o.seed = 0 then clock else o.seed
        let loader := ((c.withSeed seed).withPin o.variant).loader
        let outcome := Run.run { loader := loader, cap := o.maxIterations } limit src
        let v : Verbosity := if o.verbose then .verbose else .normal
        let (exit, last) := closing v src outcome
        ⟨exit, [.out ("--- Starting " ++ path ++ " ---\n")]
          ++ outcome.session.journal.toList.flatMap (entryChunks o.trace v) ++ last⟩

/-- What the arguments ask for before any file is read: a finished reply, or the run of a program.
-/
def prepare (arguments : List Text) : Except Reply (Options × Text) :=
  match request arguments with
  | .help => .error ⟨0, [.err usage]⟩
  | .refused e => .error ⟨2, [.err (e.message ++ "\n" ++ usage)]⟩
  | .run o [path] => .ok (o, path)
  | .run _ _ => .error ⟨1, [.err usage]⟩

namespace Reply

/-- Everything that is written to standard output. -/
def output (r : Reply) : Text :=
  r.chunks.flatMap fun
    | .out t => t
    | .frame t => t
    | .err _ => []

/-- Everything that is written to standard error. -/
def errors (r : Reply) : Text :=
  r.chunks.flatMap fun
    | .err t => t
    | _ => []

end Reply

end RobotMaze.Command
