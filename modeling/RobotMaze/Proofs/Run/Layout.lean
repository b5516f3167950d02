import RobotMaze.Proofs.Run.Relaid

/-!
# Layout does not matter

Two sources may have the same rows and differ in all that stands around the words: lines without
words, comments, indentation, blanks between words, carriage returns.  Their runs do the same on
other lines.

* `Run.Returns.relaid` — runs of sources with the same rows return the same;
* `Run.returns_of_wording_eq` — a run does not depend on layout.
-/

namespace RobotMaze

namespace Run

variable {lines : Int → Int → Prop} {c : Config} {src src' : Text}

/-- What is returned for a source corresponds to what is returned for another layout of it. -/
theorem Returns.relaid (h : (Program.ofSource src).Relaid id lines (Program.ofSource src'))
    {o o' : Outcome} (ho : Returns c src o) (ho' : Returns c src' o') :
    Program.Answers (fun n n' => (Program.ofSource src).rows ≠ [] → lines n n') Eq o.result
        o'.result ∧
      List.Forall₂ (Event.Alike lines) o.events o'.events := by
  refine (ho.reworded .refl h ho').imp_left fun hresult => ?_
  refine hresult.mono (fun _ _ hn => hn.row) ?_
  rintro r _ ⟨hordered, rfl⟩
  rw [Result.renamed, hordered.renamed_id]

/-- **A run does not depend on layout.**  Of two sources in which every line can be read and which
have the same wording, the run of one ends if the run of the other does.  Both give the same
result, or they fail for reasons of the same origin on corresponding lines, and the robot does the
same in both, on corresponding lines. -/
theorem returns_of_wording_eq (c : Config) (src src' : Text) (h : (Program.ofSource src).Legible)
    (h' : (Program.ofSource src').Legible)
    (hwording : (Program.ofSource src').wording = (Program.ofSource src).wording) :
    ((∃ o, Returns c src o) ↔ ∃ o', Returns c src' o') ∧
      ∀ o o', Returns c src o → Returns c src' o' →
        Program.Answers (fun n n' => (Program.ofSource src).rows ≠ [] →
            (Program.ofSource src).Corresponds (Program.ofSource src') n n') Eq o.result o'.result ∧
          List.Forall₂
            (Event.Alike ((Program.ofSource src).Corresponds (Program.ofSource src')))
            o.events o'.events := by
  have hrelaid := Program.relaid_corresponds h h' hwording
  exact ⟨returns_iff_of_relaid c .refl hrelaid, fun o o' ho ho' => ho.relaid hrelaid ho'⟩

/-- The program of `Structured.collector` with comments, indentation and lines without words, also
next to the ends of its blocks and at the end of the source. -/
def airy : Text :=
  utf8 ("@ collects keys\r\n\r\n  LOAD\t1   @ the corridor\r\n\nWHILE  FRONT_IS_CLEAR\n"
    ++ "\t\tMOVE_FORWARD\r\n\n    IF AT_EXIT @ the way out\n\n      OPEN_DOOR\n\n    OTHERWISE\r\n"
    ++ "\n      PICK_KEY\r\n    END\n  END\n\n@ that is all\nEND\n\n  @ nothing follows\r\n")

/-- In the corridor both layouts lead out, with the same result. -/
theorem airy_returns_of_wording_eq :
    (Program.ofSource (Structured.collector.source .one)).Legible ∧
      (Program.ofSource airy).Legible ∧
      (Program.ofSource airy).wording
        = (Program.ofSource (Structured.collector.source .one)).wording ∧
      ∃ o o', Returns Structured.corridor (Structured.collector.source .one) o ∧
        Returns Structured.corridor airy o' ∧ o.ending = .ok .halt ∧ o'.result = o.result ∧
        List.Forall₂ (Event.Alike ((Program.ofSource (Structured.collector.source .one)).Corresponds
          (Program.ofSource airy))) o.events o'.events := by
  have hlegible : (Program.ofSource (Structured.collector.source .one)).Legible := by
    decide +kernel
  have hlegible' : (Program.ofSource airy).Legible := by decide +kernel
  have hwording : (Program.ofSource airy).wording
      = (Program.ofSource (Structured.collector.source .one)).wording := by
    decide +kernel
  obtain ⟨o, hhalt, hreturns⟩ := exists_returns_collector
  obtain ⟨hends, halike⟩ := returns_of_wording_eq Structured.corridor
    (Structured.collector.source .one) airy hlegible hlegible' hwording
  obtain ⟨o', hreturns'⟩ := hends.1 ⟨o, hreturns⟩
  obtain ⟨hresult, hevents⟩ := halike o o' hreturns hreturns'
  refine ⟨hlegible, hlegible', hwording, o, o', hreturns, hreturns', hhalt, ?_, hevents⟩
  have hok : o.result = .ok (summary true o.session) := by
    rw [Outcome.result, hhalt]
    rfl
  rw [hok] at hresult ⊢
  cases hresult' : o'.result with
  | ok r =>
    rw [hresult'] at hresult
    rw [← hresult]
  | error e =>
    rw [hresult'] at hresult
    exact hresult.elim

end Run

end RobotMaze
