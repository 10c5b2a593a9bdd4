import SolidScript.Proofs.Eval.Agreement
import SolidScript.Proofs.Parser.Composition

namespace SolidScript

namespace Eval

variable {scope : Nat} {m : Machine}

namespace Outcome

-- Puts primitives that were found before in front.
def behind (found : List Value) : Outcome (List Value × Bool) → Outcome (List Value × Bool)
  | done (more, ended) m => done (found ++ more, ended) m
  | faulted cause m => faulted cause m
  | exhausted => exhausted

-- Goes on with `next`, unless the run is over.
def andThen (next : Eval (List Value × Bool)) : Outcome (List Value × Bool) → Outcome (List Value × Bool)
  | done (found, false) m => (next m).behind found
  | done (found, true) m => done (found, true) m
  | faulted cause m => faulted cause m
  | exhausted => exhausted

@[simp] theorem behind_nil (o : Outcome (List Value × Bool)) : o.behind [] = o := by
  cases o <;> rfl

theorem behind_behind (first second : List Value) (o : Outcome (List Value × Bool)) :
    (o.behind second).behind first = o.behind (first ++ second) := by
  cases o with
  | done more m => simp [behind]
  | faulted cause m => rfl
  | exhausted => rfl

theorem andThen_behind (found : List Value) (o : Outcome (List Value × Bool)) (next : Eval (List Value × Bool)) :
    (o.behind found).andThen next = (o.andThen next).behind found := by
  cases o with
  | done more m =>
    obtain ⟨more, ended⟩ := more
    cases ended with
    | false => exact (behind_behind found more (next m)).symm
    | true => rfl
  | faulted cause m => rfl
  | exhausted => rfl

end Outcome

theorem bind_behind (x : Eval (List Value × Bool)) (found : List Value) (m : Machine) :
    (do let (more, ended) ← x; return (found ++ more, ended)) m = (x m).behind found := by
  change Eval.bind x _ m = _
  unfold Eval.bind
  cases x m <;> rfl

theorem collect_append {run : Expr → Eval Value} {branch : Expr → Block → Option Block → Eval (List Value × Bool)}
    (block more : Block) (m : Machine) :
    collect run branch scope (block ++ more) m =
      (collect run branch scope block m).andThen (collect run branch scope more) := by
  induction block generalizing m with
  | nil => exact (Outcome.behind_nil _).symm
  | cons s rest ih =>
    -- the statements behind `s`, with what was found in it
    have next (found : List Value) (m : Machine) :
        (do let (more, ended) ← collect run branch scope (rest ++ more); return (found ++ more, ended)) m =
          Outcome.andThen (collect run branch scope more)
            ((do let (more, ended) ← collect run branch scope rest; return (found ++ more, ended)) m) := by
      rw [bind_behind, bind_behind, ih, Outcome.andThen_behind]
    cases hs : isBranch s with
    | true =>
      obtain ⟨condition, consequence, alternative, rfl⟩ := eq_cond_of_isBranch hs
      change Eval.bind (branch condition consequence alternative) _ m =
        (Eval.bind (branch condition consequence alternative) _ m).andThen _
      unfold Eval.bind
      cases branch condition consequence alternative m with
      | done found m₁ =>
        obtain ⟨found, ended⟩ := found
        cases ended with
        | false => exact next found m₁
        | true => rfl
      | faulted cause m₁ => rfl
      | exhausted => rfl
    | false =>
      rw [List.cons_append, collect_cons hs, collect_cons hs]
      change Eval.bind (stmt run scope s) _ m = (Eval.bind (stmt run scope s) _ m).andThen _
      unfold Eval.bind
      cases stmt run scope s m with
      | done v m₁ =>
        cases v with
        | returned inner => rfl
        | _ => exact next _ m₁
      | faulted cause m₁ => rfl
      | exhausted => rfl

theorem gather_append (steps : Nat) (block more : Block) (m : Machine) :
    gather steps scope (block ++ more) m = (gather steps scope block m).andThen (gather steps scope more) := by
  cases steps with
  | zero => exact collect_append block more m
  | succ steps => exact collect_append block more m

end Eval

namespace Machine

variable {m : Machine} {scope : Nat}

-- Whether a return ends the run of a source text, as can be told from the value of its statements.
def returns (m : Machine) (scope : Nat) (source : String) : Bool :=
  match Run.stmts (Run.expr Run.stepLimit scope) scope (parse source).program .null m with
  | some (.returned _, _) => true
  | _ => false

-- What is told of a run that has collected a scene.
def ofCollected (m : Machine) : Eval.Outcome (List Value × Bool) → Except EvalError (List Value) × Machine
  | .done (found, _) m' => (.ok found, m')
  | .faulted cause m' => (.error (.fault cause), m')
  | .exhausted => (.error .exhausted, m)

theorem evaluate_of_isOk {source : String} (h : (parse source).isOk) :
    m.evaluate scope source = ofCollected m (Eval.gather Run.stepLimit scope (parse source).program m) := by
  have hscene : Eval.scene Run.stepLimit scope (parse source).program m =
    Eval.bind (Eval.gather Run.stepLimit scope (parse source).program) (fun found => Pure.pure found.1) m := rfl
  simp only [evaluate, h, if_true, runScene, Eval.run_scene_eq, hscene]
  unfold Eval.bind
  cases Eval.gather Run.stepLimit scope (parse source).program m <;> rfl

-- The flag of the collector and the mark on the value come from the same return.
theorem returns_iff {source : String} : m.returns scope source ↔
    ∃ found m₁, Eval.gather Run.stepLimit scope (parse source).program m = .done (found, true) m₁ := by
  have hmatches := Eval.matches_gather Run.stepLimit scope (parse source).program m
  rw [returns, Eval.run_stmts_eq]
  generalize Eval.gather Run.stepLimit scope (parse source).program m = collected at hmatches
  generalize Eval.stmts (Eval.expr Run.stepLimit scope) scope (parse source).program .null m = ran at hmatches
  cases hmatches with
  | ended m' hfound => exact ⟨fun _ => ⟨_, _, rfl⟩, fun _ => rfl⟩
  | @passed found v m' hv hfound =>
    refine ⟨fun h => ?_, nofun⟩
    cases v with
    | returned inner => exact absurd rfl (hv inner)
    | _ => cases h
  | faulted cause m' => exact ⟨nofun, nofun⟩
  | exhausted => exact ⟨nofun, nofun⟩

-- Two source texts that run one after the other give the scene that they give as one text, and leave the same machine.
-- A run that is nested too deeply is undone, and that of both texts as a whole. If the first text ends the run, it
-- alone counts.
theorem evaluate_below (m : Machine) (scope : Nat) (a b : String) (ha : (parse a).isOk) (hb : (parse b).isOk)
    (hend : endsStatement a) :
    (∀ found m₁, m.evaluate scope a = (.ok found, m₁) → m.returns scope a = false →
      (m.evaluate scope (a ++ "\n" ++ b)).1 = (m₁.evaluate scope b).1.map (found ++ ·) ∧
      ((m₁.evaluate scope b).1 ≠ .error .exhausted →
        (m.evaluate scope (a ++ "\n" ++ b)).2 = (m₁.evaluate scope b).2)) ∧
    ((∃ e, (m.evaluate scope a).1 = .error e) ∨ m.returns scope a →
      m.evaluate scope (a ++ "\n" ++ b) = m.evaluate scope a) := by
  have hparse := Parser.parse_seam b hend (.inl (List.isEmpty_iff.1 ha))
  have hboth : (parse (a ++ "\n" ++ b)).isOk := by
    have hae := List.isEmpty_iff.1 ha
    have hbe := List.isEmpty_iff.1 hb
    simp [hparse, Parsed.isOk, hae, hbe]
  rw [evaluate_of_isOk ha, evaluate_of_isOk hboth, hparse, Eval.gather_append]
  constructor
  · intro found m₁ hfirst hreturns
    cases hc : Eval.gather Run.stepLimit scope (parse a).program m with
    | done collected m' =>
      obtain ⟨found', ended⟩ := collected
      rw [hc] at hfirst
      cases hfirst
      obtain rfl : ended = false := by
        cases ended with
        | false => rfl
        | true => exact absurd (returns_iff.2 ⟨_, _, hc⟩) (by rw [hreturns]; exact Bool.false_ne_true)
      rw [evaluate_of_isOk hb, Eval.Outcome.andThen]
      cases Eval.gather Run.stepLimit scope (parse b).program m₁ with
      | done more m₂ => exact ⟨rfl, fun _ => rfl⟩
      | faulted cause m₂ => exact ⟨rfl, fun _ => rfl⟩
      | exhausted => exact ⟨rfl, fun h => absurd rfl h⟩
    | faulted cause m' =>
      rw [hc] at hfirst
      cases hfirst
    | exhausted =>
      rw [hc] at hfirst
      cases hfirst
  · rintro (⟨e, he⟩ | hreturns)
    · cases hc : Eval.gather Run.stepLimit scope (parse a).program m with
      | done collected m' =>
        rw [hc] at he
        cases he
      | faulted cause m' => rfl
      | exhausted => rfl
    · obtain ⟨found, m₁, hc⟩ := returns_iff.1 hreturns
      rw [hc]
      rfl

-- The first text binds names and prints, and the second one reads them and fails. With a return in a branch of the
-- first text the second one has no effect.
theorem evaluate_below_bound :
    let a := "let f = function(x) \x7b puts(x); cube(x) \x7d; if (true) \x7b f(2) \x7d; // one"
    let b := "let g = f(3); g[0];"
    let c := "if (true) \x7b return sphere(4) \x7d;"
    let m : Machine := .initial
    (parse a).isOk ∧ (parse b).isOk ∧ (parse c).isOk ∧ endsStatement a ∧ endsStatement c ∧
      (∃ found m₁, m.evaluate 0 a = (.ok found, m₁) ∧ m.returns 0 a = false ∧
        (m₁.evaluate 0 b).2.printed = "2\n3\n" ∧ (∃ cause, (m₁.evaluate 0 b).1 = .error (.fault cause)) ∧
        (m.evaluate 0 (a ++ "\n" ++ b)).1 = (m₁.evaluate 0 b).1.map (found ++ ·) ∧
        (m.evaluate 0 (a ++ "\n" ++ b)).2 = (m₁.evaluate 0 b).2) ∧
      m.returns 0 c ∧ m.evaluate 0 (c ++ "\n" ++ b) = m.evaluate 0 c := by
  intro a b c m
  have ha : (parse a).isOk := by decide +kernel
  have hb : (parse b).isOk := by decide +kernel
  have hc : (parse c).isOk := by decide +kernel
  have hea : endsStatement a := by decide +kernel
  have hec : endsStatement c := by decide +kernel
  have hra : m.returns 0 a = false := by decide +kernel
  have hrc : m.returns 0 c := by decide +kernel
  have hrun : (match m.evaluate 0 a with
      | (.ok _, m₁) => match m₁.evaluate 0 b with
        | (.error (.fault _), m₂) => m₂.printed == "2\n3\n"
        | _ => false
      | _ => false) = true := by decide +kernel
  refine ⟨ha, hb, hc, hea, hec, ?_, hrc, (evaluate_below m 0 c b hc hb hec).2 (.inr hrc)⟩
  split at hrun
  · rename_i found m₁ hfirst
    split at hrun
    · rename_i cause m₂ hsecond
      obtain ⟨hscene, hmachine⟩ := (evaluate_below m 0 a b ha hb hea).1 found m₁ hfirst hra
      refine ⟨found, m₁, hfirst, hra, ?_, ⟨cause, ?_⟩, hscene, hmachine ?_⟩
      · rw [hsecond]
        simpa using hrun
      · rw [hsecond]
      · rw [hsecond]
        nofun
    · cases hrun
  · cases hrun

end Machine

end SolidScript
