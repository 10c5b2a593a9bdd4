import SolidScript.Proofs.Eval.Faults
import SolidScript.Repl

namespace SolidScript

namespace Repl

-- The machine that some lines leave behind.
def machineAfter (m : Machine) (lines : List String) : Machine := lines.foldl (fun m line => (answer m line).2) m

-- The answers to some lines, each with the prompt behind it.
def transcript (m : Machine) : List String → List Event
  | [] => []
  | line :: rest => (answer m line).1 ++ .output prompt :: transcript (answer m line).2 rest

-- The prompt and everything that is written up to the answer to the next line.
def opening (lines : List String) : List Event := .output prompt :: transcript .initial lines

theorem answers_append (m : Machine) (before : List String) (rest : List (Option String)) :
    (answers m (before.map some ++ rest)).1 = transcript m before ++ (answers (machineAfter m before) rest).1 := by
  induction before generalizing m with
  | nil => rfl
  | cons line before ih =>
    have htail := ih (answer m line).2
    simp only [List.map_cons, List.cons_append, answers, transcript, List.append_assoc]
    rw [htail]
    rfl

theorem getLast?_cons_transcript (m : Machine) (lines : List String) :
    (Event.output prompt :: transcript m lines).getLast? = some (.output prompt) := by
  induction lines generalizing m with
  | nil => rfl
  | cons line rest ih =>
    have htail := ih (answer m line).2
    rw [transcript, ← List.cons_append, List.getLast?_append, htail, Option.some_or]

-- The answer to a line stands between two prompts.
theorem session_line (before : List String) (line : String) (after : List (Option String)) :
    ∃ rest, (session (before.map some ++ some line :: after)).1 =
      opening before ++ ((answer (machineAfter .initial before) line).1 ++ .output prompt :: rest) := by
  refine ⟨(answers (answer (machineAfter .initial before) line).2 after).1, ?_⟩
  have hanswers := answers_append .initial before (some line :: after)
  simp only [session, opening, List.cons_append]
  rw [hanswers]
  rfl

def endsInBinding (program : Program) : Bool :=
  match program.getLast? with
  | some (.bind _ _) => true
  | _ => false

-- How a fault is reported.
def report (cause : Fault) : Event := .output ("ERROR: " ++ cause.message ++ "\n")

-- An empty line does not fail, so a failure is hidden by nothing but a binding.
theorem isShown_of_failure {m : Machine} {program : Program} {cause : Fault}
    (h : (m.runProgram 0 program).1 = some (.failure cause)) : isShown program = !endsInBinding program := by
  unfold isShown endsInBinding
  cases hlast : program.getLast? with
  | none =>
    rw [List.getLast?_eq_none_iff.1 hlast] at h
    cases h
  | some s => cases s <;> rfl

theorem answer_of_failure {m : Machine} {line : String} {cause : Fault} (hok : (parse line).isOk)
    (h : (m.runProgram 0 (parse line).program).1 = some (.failure cause)) : ∃ printed, (answer m line).1 =
      .printed printed :: if endsInBinding (parse line).program then [] else [report cause] := by
  refine ⟨((m.runProgram 0 (parse line).program).2.flush).1, ?_⟩
  have hshown := isShown_of_failure h
  unfold answer
  simp only [hok, if_true, h, hshown]
  cases endsInBinding (parse line).program <;> rfl

-- The fault of a line is reported, between the prompt before the line and the prompt behind it, if and only if the
-- line does not end in a binding.
theorem session_reports_iff (before : List String) (line : String) (after : List (Option String)) (cause : Fault)
    (hok : (parse line).isOk)
    (h : ((machineAfter .initial before).runProgram 0 (parse line).program).1 = some (.failure cause)) :
    ∃ events rest, (session (before.map some ++ some line :: after)).1 =
        opening before ++ (events ++ .output prompt :: rest) ∧
      (opening before).getLast? = some (.output prompt) ∧
      (report cause ∈ events ↔ endsInBinding (parse line).program = false) ∧
      (endsInBinding (parse line).program → ∃ printed, events = [.printed printed]) := by
  obtain ⟨rest, hsession⟩ := session_line before line after
  obtain ⟨printed, hanswer⟩ := answer_of_failure hok h
  refine ⟨_, rest, hsession, getLast?_cons_transcript _ before, ?_, ?_⟩
  · rw [hanswer]
    cases endsInBinding (parse line).program <;> simp [report]
  · intro hbinding
    exact ⟨printed, by rw [hanswer, if_pos hbinding]⟩

-- A session that fails twice for want of a name. The first fault stands in front of a binding, and only the second is
-- reported.
theorem session_reports_iff_binding :
    let before := ["let a = 1;"]
    (∃ printed rest, (session (before.map some ++ [some "foo; let y = a;", some "a; foo"])).1 =
        opening before ++ ([.printed printed] ++ .output prompt :: rest)) ∧
      ∃ events rest, (session ((before ++ ["foo; let y = a;"]).map some ++ [some "a; foo"])).1 =
          opening (before ++ ["foo; let y = a;"]) ++ (events ++ .output prompt :: rest) ∧
        .output "ERROR: identifier not found: foo\n" ∈ events := by
  intro before
  have hfault (lines : List String) (line : String)
      (h : ((machineAfter .initial lines).runProgram 0 (parse line).program).1.bind Value.fault? = some (.unbound "foo")) :
      ((machineAfter .initial lines).runProgram 0 (parse line).program).1 = some (.failure (.unbound "foo")) := by
    obtain ⟨v, hv, hcause⟩ := Option.bind_eq_some_iff.1 h
    rw [hv, Value.eq_failure hcause]
  have hhidden := session_reports_iff before "foo; let y = a;" [some "a; foo"] (.unbound "foo") (by decide +kernel)
    (hfault _ _ (by decide +kernel))
  have hshown := session_reports_iff (before ++ ["foo; let y = a;"]) "a; foo" [] (.unbound "foo") (by decide +kernel)
    (hfault _ _ (by decide +kernel))
  constructor
  · obtain ⟨events, rest, hsession, -, -, hbinding⟩ := hhidden
    obtain ⟨printed, rfl⟩ := hbinding (by decide +kernel)
    exact ⟨printed, rest, hsession⟩
  · obtain ⟨events, rest, hsession, -, hreport, -⟩ := hshown
    exact ⟨events, rest, hsession, hreport.2 (by decide +kernel)⟩

end Repl

end SolidScript
