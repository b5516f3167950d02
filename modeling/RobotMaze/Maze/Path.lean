import RobotMaze.Maze.Basic

/-!
# Shortest paths

Breadth-first search through the free cells.  The queue holds trails, and a trail is extended only
the first time that its end is reached, so no cell is expanded twice and `1 + 4 * width * length`
trails are all that can ever be taken from the queue.
-/

namespace RobotMaze

namespace Path

/-- The steps to the neighbours of a cell, in the order in which they are tried. -/
def steps : List Point := [⟨1, 0⟩, ⟨-1, 0⟩, ⟨0, 1⟩, ⟨0, -1⟩]

/-- A walk that has come to `here`, with the cells before it in reverse order. -/
structure Trail where
  here : Point
  back : List Point
  deriving DecidableEq, Repr

/-- The cells of a trail from its start to its end. -/
def Trail.points (t : Trail) : List Point := (t.here :: t.back).reverse

/-- The trail extended by a step. -/
def Trail.extend (t : Trail) (next : Point) : Trail := ⟨next, t.here :: t.back⟩

/-- How a search ends. -/
inductive Search where
  | found (points : List Point)
  | exhausted
  | unfinished
  deriving DecidableEq, Repr

/-- The trails that a trail leads to, given the cells that were expanded before. -/
def onward (free : Point → Bool) (visited : List Point) (t : Trail) : List Trail :=
  ((steps.map (t.here + ·)).filter fun p => free p && !visited.contains p).map t.extend

/-- Searches from the trails of the queue for `goal`, taking at most the given number of trails from
the queue. -/
def search (free : Point → Bool) (goal : Point) : Nat → List Trail → List Point → Search
  | _, [], _ => .exhausted
  | 0, _ :: _, _ => .unfinished
  | fuel + 1, t :: queue, visited =>
    if t.here = goal then .found t.points
    else if visited.contains t.here then search free goal fuel queue visited
    else
      let visited := t.here :: visited
      search free goal fuel (queue ++ onward free visited t) visited

end Path

namespace Maze

/-- How many trails a search in the maze can take from its queue. -/
def searchBound (m : Maze) : Nat := 1 + 4 * m.width * m.length

/-- A shortest walk through free cells with both ends included, if there is a walk at all. -/
def findPath (m : Maze) (start goal : Point) : Option (List Point) :=
  if m.isFree start && m.isFree goal then
    match Path.search m.isFree goal m.searchBound [⟨start, []⟩] [] with
    | .found points => some points
    | .exhausted => none
    | .unfinished => none
  else
    none

end Maze

end RobotMaze
