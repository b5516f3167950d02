import RobotMaze.Main
import RobotMaze.Proofs.Env
import RobotMaze.Proofs.Text.Lines
import RobotMaze.Proofs.Catalog.Requests
import RobotMaze.Proofs.Diagnostic.Caret
import RobotMaze.Proofs.Diagnostic.Numbering
import RobotMaze.Proofs.Maze.Drawing
import RobotMaze.Proofs.Maze.WellFormed
import RobotMaze.Proofs.Maze.Attempt
import RobotMaze.Proofs.Maze.Bounds
import RobotMaze.Proofs.Maze.Reach
import RobotMaze.Proofs.Maze.Motion
import RobotMaze.Proofs.Maze.Walk
import RobotMaze.Proofs.Maze.Turns
import RobotMaze.Proofs.Maze.Valid
import RobotMaze.Proofs.Maze.DrawnRoom
import RobotMaze.Proofs.Maze.Posture
import RobotMaze.Proofs.Maze.History
import RobotMaze.Proofs.Maze.Rendering
import RobotMaze.Proofs.Maze.ReadBack
import RobotMaze.Proofs.Maze.Straight
import RobotMaze.Proofs.Program.Words
import RobotMaze.Proofs.Program.Nesting
import RobotMaze.Proofs.Program.Lookup
import RobotMaze.Proofs.Program.Columns
import RobotMaze.Proofs.Program.Runs
import RobotMaze.Proofs.Program.Rows
import RobotMaze.Proofs.Program.Renaming
import RobotMaze.Proofs.Program.Matching
import RobotMaze.Proofs.Program.Inner
import RobotMaze.Proofs.Program.BehindEnd
import RobotMaze.Proofs.Expr.Terms
import RobotMaze.Proofs.Expr.Scan
import RobotMaze.Proofs.Expr.Grammar
import RobotMaze.Proofs.Expr.Lexing
import RobotMaze.Proofs.Expr.Precedence
import RobotMaze.Proofs.Run.Related
import RobotMaze.Proofs.Run.Parallel
import RobotMaze.Proofs.Run.Abreast
import RobotMaze.Proofs.Run.Memo
import RobotMaze.Proofs.Run.Cap
import RobotMaze.Proofs.Run.Order
import RobotMaze.Proofs.Run.Termination
import RobotMaze.Proofs.Run.Opening
import RobotMaze.Proofs.Run.Journey
import RobotMaze.Proofs.Run.Replay
import RobotMaze.Proofs.Run.Result
import RobotMaze.Proofs.Run.Errors
import RobotMaze.Proofs.Run.WayOut
import RobotMaze.Proofs.Run.Inspection
import RobotMaze.Proofs.Run.Supervision
import RobotMaze.Proofs.Run.Relaid
import RobotMaze.Proofs.Run.Layout
import RobotMaze.Proofs.Run.Renaming
import RobotMaze.Proofs.Run.Iterate
import RobotMaze.Proofs.Run.Divergence
import RobotMaze.Proofs.Run.Straight
import RobotMaze.Proofs.Run.BehindEnd
import RobotMaze.Proofs.Structured.Code
import RobotMaze.Proofs.Structured.Layout
import RobotMaze.Proofs.Structured.Realizes
import RobotMaze.Proofs.Structured.Simulation
import RobotMaze.Proofs.Structured.Agreement
import RobotMaze.Proofs.Structured.Solvable
