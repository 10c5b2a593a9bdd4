import SolidScript.Proofs.Eval.Runs

namespace SolidScript

-- The fault that is stored as a value.
def Value.fault? : Value → Option Fault
  | failure cause => some cause
  | _ => none

theorem Value.eq_failure {v : Value} {cause : Fault} (h : v.fault? = some cause) : v = .failure cause := by
  cases v with
  | failure cause' =>
    cases h
    rfl
  | _ => cases h

-- Neither a failure nor a value with a failure inside.
def Value.isFaultless (v : Value) : Bool := v.everywhere fun u => !u.isFailure

-- No value that is bound in some scope is a failure, or has one inside.
def Machine.isFaultless (m : Machine) : Bool := m.holds fun u => !u.isFailure

theorem lasting_notFailure : Lasting fun _ v => !v.isFailure where
  grow := id
  ordinary := by
    intro n v h
    cases v with
    | failure cause => cases h
    | _ => rfl
  inner := rfl
  leaf := rfl
  block := fun _ => rfl

namespace Eval

theorem stmts_isFaultless (steps scope : Nat) (block : Block) {m : Machine} (hm : m.isFaultless) :
    (stmts (expr steps scope) scope block .null m).Ends (·.isFaultless) fun v _ => v.isFaultless := by
  have hrun := (tame lasting_notFailure steps).gives scope
  have hready : Ready (fun _ u => !u.isFailure) scope m := ⟨hm, fun _ _ _ => rfl⟩
  refine (gives_stmts lasting_notFailure hrun block hready rfl).imp ?_ fun _ _ _ hv => hv
  exact fun _ h => h.holds lasting_notFailure hm

theorem program_isFaultless (steps scope : Nat) (program : Program) {m : Machine} (hm : m.isFaultless) :
    (Eval.program steps scope program m).Ends (·.isFaultless) fun v _ => v.isFaultless :=
  ends_program lasting_notFailure hm steps scope program

theorem scene_isFaultless (steps scope : Nat) (program : Program) {m : Machine} (hm : m.isFaultless) :
    (scene steps scope program m).Ends (·.isFaultless) fun found _ => ∀ v ∈ found, v.isFaultless :=
  (ends_scene lasting_notFailure hm steps scope program).imp (fun _ h => h) fun _ _ _ hfound v hv => (hfound v hv).2

end Eval

namespace Machine

-- A failure is a value like others, which every part of a run could store. After a program, a scene or a source text
-- has run, there is none but the one that may be the result.
theorem failures_not_stored (m : Machine) (hm : m.isFaultless) (scope : Nat) :
    (∀ steps program v m', Run.program steps scope program m = some (v, m') →
      m'.isFaultless ∧ (v.isFaultless ∨ ∃ cause, v = .failure cause)) ∧
    (∀ steps program result m', Run.scene steps scope program m = some (result, m') →
      m'.isFaultless ∧ ∀ found, result = .ok found → ∀ v ∈ found, v.isFaultless) ∧
    (∀ program, (m.runProgram scope program).2.isFaultless ∧
      ∀ v, (m.runProgram scope program).1 = some v → v.isFaultless ∨ ∃ cause, v = .failure cause) ∧
    ∀ source, (m.evaluate scope source).2.isFaultless ∧
      ∀ found, (m.evaluate scope source).1 = .ok found → ∀ v ∈ found, v.isFaultless := by
  refine ⟨fun steps program v m' hrun => ?_, fun steps program result m' hrun => ?_, fun program => ?_, fun source => ?_⟩
  · rw [Eval.run_program_eq] at hrun
    obtain ⟨hleft, hvalue⟩ := (Eval.program_isFaultless steps scope program hm).handed hrun
    refine ⟨hleft, hvalue.imp_left ?_⟩
    rintro ⟨_, rfl, hv⟩
    exact hv
  · rw [Eval.run_scene_eq] at hrun
    obtain ⟨hleft, hvalue⟩ := (Eval.scene_isFaultless steps scope program hm).handed hrun
    refine ⟨hleft, ?_⟩
    rintro found rfl
    obtain ⟨_, ⟨⟩, hfound⟩ | ⟨_, ⟨⟩⟩ := hvalue
    exact hfound
  · exact ends_runProgram hm program (Eval.program_isFaultless _ scope program hm)
  · exact ends_evaluate hm source fun program => Eval.scene_isFaultless _ scope program hm

-- A function that is kept in a hash is called. It binds an array, and adds a number to it, which is a fault.
theorem failures_not_stored_mismatch :
    let body : Block := [.bind "y" (.array [.ident "x"]), .expr (.binary (.ident "y") .add (.int 1))]
    let m : Machine := ⟨⟨#[⟨[("f", .function 0 ["x"] body 0)], none⟩]⟩, 1, ""⟩
    let program : Program :=
      [.bind "a" (.hash [(.int 1, .ident "f")]), .bind "b" (.array [.call (.index (.ident "a") (.int 1)) [.int 2]])]
    m.isFaultless ∧ ∃ m', Run.program 9 0 program m = some (.failure (.typeMismatch .array .add .integer), m') ∧
      m'.scopes.size = 2 ∧ m'.isFaultless := by
  intro body m program
  have hm : m.isFaultless := by decide
  have hrun : (Run.program 9 0 program m).map (fun r => (r.1.fault?, r.2.scopes.size)) =
      some (some (.typeMismatch .array .add .integer), 2) := by decide +kernel
  obtain ⟨⟨v, m'⟩, hdone, hshown⟩ := Option.map_eq_some_iff.1 hrun
  obtain ⟨hfault, hsize⟩ := Prod.mk.inj hshown
  obtain rfl := Value.eq_failure hfault
  exact ⟨hm, m', hdone, hsize, ((failures_not_stored m hm 0).1 9 program _ m' hdone).1⟩

end Machine

end SolidScript
