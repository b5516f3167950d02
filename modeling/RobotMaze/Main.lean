import RobotMaze.Command.Reply

/-!
# The program

Reads the files that the command line names and carries out the reply.
-/

namespace RobotMaze

/-- More rounds than any run can take. -/
def endless : Nat := 0x4000000000000000

/-- The content of a file. -/
def readFile (path : Text) : IO (Except Command.FileError Text) := do
  let name := String.fromUTF8? ⟨path.toArray⟩ |>.getD ""
  try
    let bytes ← IO.FS.readBinFile name
    return .ok bytes.data.toList
  catch
    | .noFileOrDirectory .. => return .error (.missing path)
    | .inappropriateType .. => return .error (.directory path)
    | e => return .error (.other (toString e))

/-- Writes a piece of output; a frame clears a terminal before it and is followed by a pause. -/
def writeChunk (delay : Int) : Command.Chunk → IO Unit
  | .out t => do
    let out ← IO.getStdout
    out.write ⟨t.toArray⟩
    out.flush
  | .err t => do (← IO.getStderr).write ⟨t.toArray⟩
  | .frame t => do
    let out ← IO.getStdout
    if ← out.isTty then out.putStr "\x1b[2J\x1b[H"
    out.write ⟨t.toArray⟩
    out.flush
    IO.sleep (delay / 1000000).toNat.toUInt32

end RobotMaze

open RobotMaze in
def main (args : List String) : IO UInt32 := do
  match Command.prepare (args.map utf8) with
  | .error reply =>
    reply.chunks.forM (writeChunk 0)
    return reply.exit.toUInt32
  | .ok (options, path) =>
    let program ← readFile path
    let presets ← readFile options.presets
    let clock ← IO.monoNanosNow
    let reply := Command.replyTo options path ⟨program, presets⟩ clock endless
    reply.chunks.forM (writeChunk options.delay)
    return reply.exit.toUInt32
