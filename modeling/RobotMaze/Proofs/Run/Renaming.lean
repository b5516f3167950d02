import RobotMaze.Proofs.Program.Renaming
import RobotMaze.Proofs.Run.Relaid

/-!
# Names carry no meaning

Whatever the variables of a program are called, its runs do the same, as long as different variables
have different names.  A name may start with a keyword, end with one or be one in small letters.

* `Run.names_carry_no_meaning` — a run with other names.
-/

namespace RobotMaze

open Structured (Name)

theorem Event.Alike.eq {p : Program} {e e' : Event} (h : e.Alike p.SameRow e') : e = e' := by
  obtain ⟨⟨hline, -⟩, haction, hrejection, hmaze⟩ := h
  cases e
  cases e'
  cases hline
  cases haction
  cases hrejection
  cases hmaze
  rfl

namespace Run

/-- What is wrong with a source with other words is reported on the same line. -/
theorem Reported.eq {p : Program} {n n' : Int} (h : Reported p p.SameRow n n') : n' = n := by
  by_cases hrows : p.rows = []
  · exact h.line hrows
  · exact (h.row hrows).1

/-- **Names carry no meaning.**  Let other names stand for the names of a source in which every line
can be read, different ones for different ones.  Then each line is read as its words with the names
replaced, and the run of one source ends if the run of the other does.  Both give the same result,
in which the variables have their other names, or they fail for reasons of the same origin on the
same line, and the robot does the same in both. -/
theorem names_carry_no_meaning (c : Config) {f : Name → Name} (hf : f.Injective) {src : Text}
    (h : (Program.ofSource src).Legible) :
    (∀ n words, (Program.ofSource src).Reads n words →
      (Program.ofSource (Program.rewordSource (Line.rename f) src)).Reads n
        (words.map (Line.rename f))) ∧
    ((∃ o, Returns c src o) ↔
      ∃ o', Returns c (Program.rewordSource (Line.rename f) src) o') ∧
    ∀ o o', Returns c src o → Returns c (Program.rewordSource (Line.rename f) src) o' →
      Program.Answers (fun n n' => n' = n) (fun r r' => r' = r.renamed (Line.rename f)) o.result
          o'.result ∧
        o'.events = o.events := by
  have hρ := Line.rewording_rename hf
  have hrelaid := Program.relaid_reword hρ h
  refine ⟨?_, returns_iff_of_relaid c hρ hrelaid, ?_⟩
  · rintro n words ⟨ts, hts, rfl, -⟩
    obtain ⟨ts', hts', halike⟩ := Program.tokens_reword hρ hts
    rw [← Token.literals_alike halike]
    exact Program.reads_of_tokens hts'
  · intro o o' ho ho'
    obtain ⟨hresult, hevents⟩ := ho.reworded hρ hrelaid ho'
    refine ⟨hresult.mono (fun _ _ => Reported.eq) fun _ _ hr => hr.2, ?_⟩
    have heq := hevents.imp fun _ _ => Event.Alike.eq
    rw [List.forall₂_eq_eq_eq] at heq
    exact heq.symm

/-- The name with `OR` in front of it. -/
def behindOr (x : Name) : Name where
  word := Kind.or.text ++ x.word
  nonempty := List.append_ne_nil_of_right_ne_nil _ x.nonempty
  isIdent := by
    obtain ⟨word, hne, hident⟩ := x
    obtain ⟨b, rest, rfl⟩ := List.exists_cons_of_ne_nil hne
    have hword : Kind.ofWord? (Kind.or.text ++ b :: rest) = none := rfl
    have hletters : (Kind.or.text ++ b :: rest).all Text.isAsciiLetter = true := by
      rw [List.all_append, List.all_eq_true.2 (Line.name_of_kindOf hident).2]
      decide
    simp only [Line.kindOf, hword, hletters, if_true]

/-- Walks to the exit and opens it, with names that resemble keywords. -/
def orchard : Text :=
  utf8 ("LOAD\t1\r\nENDING := TRUE\nLoad := FALSE\nWHILE FRONT_IS_CLEAR AND  ENDING\n"
    ++ "\tMOVE_FORWARD\n\tANGE := AT_EXIT @ whether ENDING is near\n"
    ++ "\tIF ANGE AND OR Load\n\t\tOPEN_DOOR\n\tOTHERWISE\n\t\tPICK_KEY\n\tEND\nEND\nEND")

theorem exists_returns_orchard :
    ∃ o, Returns Structured.corridor orchard o ∧
      o.result.toOption.map (fun r => (r.solved, r.env.get? "ANGE")) = some (true, some true) := by
  have hrun : (run Structured.corridor 5 orchard).bare.result.toOption.map
      (fun r => (r.solved, r.env.get? "ANGE")) = some (true, some true) := by
    decide +kernel
  refine ⟨_, ⟨?_, 5, rfl⟩, hrun⟩
  intro hunfinished
  rw [Outcome.result, hunfinished] at hrun
  cases hrun

/-- In the corridor the robot leaves also if `ANGE` is called `ORANGE`. -/
theorem orchard_names_carry_no_meaning :
    behindOr.Injective ∧ (Program.ofSource orchard).Legible ∧
      Program.rewordSource (Line.rename behindOr) orchard
        = utf8 ("LOAD\t1\r\nORENDING := TRUE\nORLoad := FALSE\nWHILE FRONT_IS_CLEAR AND  ORENDING\n"
          ++ "\tMOVE_FORWARD\n\tORANGE := AT_EXIT @ whether ENDING is near\n"
          ++ "\tIF ORANGE AND OR ORLoad\n\t\tOPEN_DOOR\n\tOTHERWISE\n\t\tPICK_KEY\n"
          ++ "\tEND\nEND\nEND") ∧
      ∃ o o' r, Returns Structured.corridor orchard o ∧
        Returns Structured.corridor (Program.rewordSource (Line.rename behindOr) orchard) o' ∧
        o.result = .ok r ∧ o'.result = .ok (r.renamed (Line.rename behindOr)) ∧ r.solved = true ∧
        r.env.get? "ANGE" = some true ∧
        (r.env.renamed (Line.rename behindOr)).get? "ORANGE" = some true ∧
        o'.events = o.events := by
  have hinj : behindOr.Injective := by
    intro x y hxy
    exact Name.eq_of_word (List.append_cancel_left (congrArg Name.word hxy))
  have hlegible : (Program.ofSource orchard).Legible := by decide +kernel
  obtain ⟨o, ho, hshown⟩ := exists_returns_orchard
  obtain ⟨-, hends, hsame⟩ := names_carry_no_meaning Structured.corridor hinj hlegible
  obtain ⟨o', ho'⟩ := hends.1 ⟨o, ho⟩
  obtain ⟨hresult, hevents⟩ := hsame o o' ho ho'
  refine ⟨hinj, hlegible, by decide +kernel, o, o', ?_⟩
  cases hr : o.result with
  | error e =>
    rw [hr] at hshown
    cases hshown
  | ok r =>
    rw [hr] at hshown hresult
    obtain ⟨hsolved, hget⟩ := Prod.mk.inj (Option.some.inj hshown)
    cases hr' : o'.result with
    | error e' =>
      rw [hr'] at hresult
      exact hresult.elim
    | ok r' =>
      rw [hr'] at hresult
      refine ⟨r, ho, ho', rfl, congrArg Except.ok hresult, hsolved, hget, ?_, hevents⟩
      have horange : (utf8 "ORANGE") = Line.rename behindOr "ANGE" := by decide +kernel
      rw [horange, Env.get?_renamed (Line.rename_injective hinj)]
      exact hget

end Run

end RobotMaze
