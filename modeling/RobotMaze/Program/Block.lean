import RobotMaze.Program

/-!
# Blocks

An `IF` or `WHILE` opens a block that the matching `END` closes.  `Program.block` finds it by
walking down from the opener and counting the blocks opened on the way.  The last line of a program
closes the program and no block.
-/

namespace RobotMaze

/-- A block by the numbers of its lines. -/
structure Block where
  header : Int
  otherwise : Option Int
  close : Int
  deriving DecidableEq, Repr

/-- The lines `[start, stop)` to execute when the condition of a branch has the given value. -/
def Block.chosen (b : Block) (condition : Bool) : Int × Int :=
  match condition, b.otherwise with
  | true, some o => (b.header + 1, o)
  | true, none => (b.header + 1, b.close)
  | false, some o => (o + 1, b.close)
  | false, none => (b.close, b.close)

/-- What is wrong with an `OTHERWISE` line of the block opened by `opener`, if anything is. -/
def Program.otherwiseFault (opener : List Token) (header : Int) (seen : Option Int)
    (line : List Token) : Except Stop (Option Fault) :=
  if line.length ≠ 1 then .ok (some .otherwiseArguments)
  else
    match opener with
    | [] => .error .outOfRange
    | head :: _ =>
      if head.kind ≠ .branch then .ok (some .otherwiseOutsideBranch)
      else if seen.isSome then .ok (some (.duplicateOtherwise header))
      else .ok none

namespace Scan

variable {m : Type → Type} [Monad m] [MonadExceptOf Stop m]

/-- Looks for the end of a block in the next `count` lines from line `n` on, `depth` blocks deeper
than the block itself; `tokens` looks lines up. -/
def closeFrom (tokens : Int → m (List Token)) (opener : List Token) (header : Int) :
    (count : Nat) → (n : Int) → (depth : Nat) → (seen : Option Int) → m Block
  | 0, _, _, _ =>
    match opener with
    | [] => throw .outOfRange
    | head :: _ => throw (.failed { fault := .missingEnd head.kind, line := header })
  | count + 1, n, depth, seen => do
    match ← tokens n with
    | [] => closeFrom tokens opener header count (n + 1) depth seen
    | head :: args =>
      match head.kind, depth with
      | .branch, _ => closeFrom tokens opener header count (n + 1) (depth + 1) seen
      | .loop, _ => closeFrom tokens opener header count (n + 1) (depth + 1) seen
      | .close, 0 => return { header := header, otherwise := seen, close := n }
      | .close, deeper + 1 => closeFrom tokens opener header count (n + 1) deeper seen
      | .otherwise, 0 =>
        match ← MonadExcept.ofExcept (Program.otherwiseFault opener header seen (head :: args)) with
        | some fault => throw (.failed { fault := fault, line := n })
        | none => closeFrom tokens opener header count (n + 1) depth (some n)
      | _, _ => closeFrom tokens opener header count (n + 1) depth seen

/-- The block that the line `header` opens; `last` looks for the last line. -/
def block (tokens : Int → m (List Token)) (last : m Int) (header : Int) : m Block := do
  let last ← last
  let opener ← tokens header
  closeFrom tokens opener header (last - header - 1).toNat (header + 1) 0 none

end Scan

namespace Program

/-- Looks for the end of a block. -/
def closeFrom (p : Program) (opener : List Token) (header : Int) (count : Nat) (n : Int)
    (depth : Nat) (seen : Option Int) : Except Stop Block :=
  Scan.closeFrom p.tokens opener header count n depth seen

/-- The block that the line `header` opens. -/
def block (p : Program) (header : Int) : Except Stop Block := Scan.block p.tokens p.last header

section

variable (p : Program) (opener : List Token) (header n : Int) (depth : Nat) (seen : Option Int)

theorem closeFrom_zero :
    p.closeFrom opener header 0 n depth seen = match opener with
      | [] => .error .outOfRange
      | head :: _ => .error (.failed { fault := .missingEnd head.kind, line := header }) := rfl

theorem closeFrom_succ (count : Nat) :
    p.closeFrom opener header (count + 1) n depth seen = (do
      match ← p.tokens n with
      | [] => p.closeFrom opener header count (n + 1) depth seen
      | head :: args =>
        match head.kind, depth with
        | .branch, _ => p.closeFrom opener header count (n + 1) (depth + 1) seen
        | .loop, _ => p.closeFrom opener header count (n + 1) (depth + 1) seen
        | .close, 0 => return { header := header, otherwise := seen, close := n }
        | .close, deeper + 1 => p.closeFrom opener header count (n + 1) deeper seen
        | .otherwise, 0 =>
          match ← otherwiseFault opener header seen (head :: args) with
          | some fault => throw (.failed { fault := fault, line := n })
          | none => p.closeFrom opener header count (n + 1) depth (some n)
        | _, _ => p.closeFrom opener header count (n + 1) depth seen) := by
  have hself : ∀ {α : Type} (x : Except Stop α), MonadExcept.ofExcept x = x := by
    intro α x
    cases x with
    | ok a => rfl
    | error e => rfl
  rw [closeFrom, Scan.closeFrom]
  simp only [hself]
  rfl

theorem block_eq :
    p.block header = (do
      let last ← p.last
      let opener ← p.tokens header
      p.closeFrom opener header (last - header - 1).toNat (header + 1) 0 none) := rfl

end

end Program

end RobotMaze
