import SolidScript.Proofs.Eval.Runs
import SolidScript.Proofs.Solid.Admission

namespace SolidScript

namespace Value

-- What stands in the block of a primitive are primitives.
def hasSolidBody : Value → Bool
  | primitive _ _ _ (some children) => children.all isPrimitive
  | _ => true

mutual

theorem all_nodes : (v : Value) → v.isPrimitive → v.everywhere hasSolidBody → v.nodes.all isPrimitive
  | .primitive ref kind args none, hv, _ => by simp [nodes, bodyNodes, isPrimitive]
  | .primitive ref kind args (some children), hv, h => by
    obtain ⟨hbody, hparts⟩ := everywhere_iff.1 h
    have hchildren := all_nodesEach children fun v hv => by
      simp only [hasSolidBody, List.all_eq_true] at hbody
      exact ⟨hbody v hv, hparts v (List.mem_append_right _ hv)⟩
    simpa [nodes, bodyNodes, isPrimitive] using hchildren
  | .int _, hv, _ | .float _, hv, _ | .string _, hv, _ | .bool _, hv, _ | .null, hv, _ | .array .., hv, _
  | .hash .., hv, _ | .function .., hv, _ | .builtin _, hv, _ | .failure _, hv, _ | .returned _, hv, _
  | .named .., hv, _ => nomatch hv

theorem all_nodesEach : (vs : List Value) → (∀ v ∈ vs, v.isPrimitive ∧ v.everywhere hasSolidBody) →
    (nodesEach vs).all isPrimitive
  | [], _ => rfl
  | v :: rest, h => by
    obtain ⟨hv, hgood⟩ := h v List.mem_cons_self
    rw [nodesEach, List.all_append, Bool.and_eq_true]
    exact ⟨all_nodes v hv hgood, all_nodesEach rest fun v hv => h v (List.mem_cons_of_mem _ hv)⟩

end

end Value

theorem lasting_hasSolidBody : Lasting fun _ v => v.hasSolidBody where
  grow := id
  ordinary := by
    intro n v h
    cases v with
    | primitive ref kind args body => cases h
    | _ => rfl
  inner := rfl
  leaf := rfl
  block := by
    intro n ref kind args children h
    simpa [Value.hasSolidBody] using h

namespace Machine

-- The machines that runs lead to. Scopes can be added, and nothing is bound but by runs.
inductive Reached : Machine → Prop where
  | initial : Reached initial
  | create {m : Machine} (h : Reached m) : Reached { m with scopes := m.scopes.create }
  | enclose {m : Machine} (h : Reached m) (outer : Nat) : Reached { m with scopes := m.scopes.enclose outer [] }
  | flush {m : Machine} (h : Reached m) : Reached m.flush.2
  | program {m : Machine} (h : Reached m) (scope : Nat) (program : Program) : Reached (m.runProgram scope program).2
  | scene {m : Machine} (h : Reached m) (scope : Nat) (program : Program) : Reached (m.runScene scope program).2
  | evaluate {m : Machine} (h : Reached m) (scope : Nat) (source : String) : Reached (m.evaluate scope source).2

variable {m : Machine}

theorem ends_scene_solid (hm : m.holds Value.hasSolidBody) (steps scope : Nat) (program : Program) :
    (Eval.scene steps scope program m).Ends (·.holds Value.hasSolidBody) fun found _ =>
      (Value.nodesEach found).all Value.isPrimitive :=
  (Eval.ends_scene lasting_hasSolidBody hm steps scope program).imp (fun _ h => h)
    fun found _ _ hfound => Value.all_nodesEach found hfound

theorem Reached.holds (h : Reached m) : m.holds Value.hasSolidBody := by
  induction h with
  | initial => decide
  | create h ih => exact holds_create ih
  | enclose h outer ih => exact holds_enclose ih outer (by simp)
  | flush h ih => exact ih
  | program h scope program ih =>
    exact (ends_runProgram ih program (Eval.ends_program lasting_hasSolidBody ih _ scope program)).1
  | scene h scope program ih => exact (ends_runScene ih program (ends_scene_solid ih _ scope program)).1
  | evaluate h scope source ih => exact (ends_evaluate ih source (ends_scene_solid ih _ scope)).1

-- A source text cannot bring a value into a scene that is no primitive, whatever ran before.
theorem evaluate_admitted (m : Machine) (hm : m.Reached) :
    (∀ scope source found, (m.evaluate scope source).1 = .ok found →
      (Value.nodesEach found).all Value.isPrimitive ∧ ∀ center, Admits (compile found center)) ∧
    ∀ source center, Admits (compileIn m source center).1 := by
  have hscene : ∀ scope source found, (m.evaluate scope source).1 = .ok found →
      (Value.nodesEach found).all Value.isPrimitive := by
    intro scope source
    exact (ends_evaluate hm.holds source (ends_scene_solid hm.holds _ scope)).2
  refine ⟨fun scope source found h => ⟨hscene scope source found h, admits_compile (hscene scope source found h)⟩, ?_⟩
  intro source center
  have h := hscene 0 source
  unfold compileIn
  generalize m.evaluate 0 source = evaluated at h
  obtain ⟨result, m'⟩ := evaluated
  cases result with
  | ok found => exact admits_compile (h found rfl) center
  | error e => exact .error nofun

-- A primitive that another source text has put into a hash becomes a child.
theorem evaluate_admitted_child :
    let m : Machine := (initial.evaluate 0 "let a = \x7b1: cube()\x7d").2
    let source := "group() \x7b if (a) \x7b [5, a[1]] \x7d sphere() \x7d"
    m.Reached ∧ ∃ found, (m.evaluate 0 source).1 = .ok found ∧ (Value.nodesEach found).length = 3 ∧
      (Value.nodesEach found).all Value.isPrimitive ∧ (∀ center, Admits (compile found center)) ∧
      Admits (compileIn m source true).1 := by
  intro m source
  have hm : m.Reached := .evaluate .initial 0 _
  have hall := evaluate_admitted m hm
  have hscene : (match (m.evaluate 0 source).1 with
      | .ok found => (Value.nodesEach found).length == 3
      | _ => false) = true := by decide +kernel
  refine ⟨hm, ?_⟩
  split at hscene
  · rename_i found hok
    exact ⟨found, hok, by simpa using hscene, (hall.1 0 source found hok).1, (hall.1 0 source found hok).2,
      hall.2 source true⟩
  · cases hscene

end Machine

end SolidScript
