import SolidScript.Proofs.Eval.Faults

namespace SolidScript

namespace Eval

variable {scope : Nat} {m : Machine}

-- What collecting from statements comes to, and what running them for a value comes to. If none of them has run, the
-- value is still that of an earlier statement, which stands for the primitives `earlier`.
inductive Matches (earlier : List Value) : Outcome (List Value × Bool) → Outcome Value → Prop where
  | ended {found : List Value} {inner : Value} (m : Machine) (h : inner.solids <:+ found) :
    Matches earlier (.done (found, true) m) (.done (.returned inner) m)
  | passed {found : List Value} {v : Value} (m : Machine) (hv : ∀ inner, v ≠ .returned inner)
    (h : v.solids <:+ earlier ++ found) : Matches earlier (.done (found, false) m) (.done v m)
  | faulted (cause : Fault) (m : Machine) : Matches earlier (.faulted cause m) (.faulted cause m)
  | exhausted : Matches earlier .exhausted .exhausted

-- Primitives that were found before the rest ran.
theorem Matches.behind {earlier last found : List Value} (hfound : last <:+ found) {x : Eval (List Value × Bool)}
    {o : Outcome Value} (h : Matches last (x m) o) :
    Matches earlier ((do let (more, stop) ← x; return (found ++ more, stop)) m) o := by
  change Matches earlier (Eval.bind x _ m) o
  unfold Eval.bind
  generalize x m = collected at h
  cases h with
  | ended m' h => exact .ended m' (h.trans (List.suffix_append _ _))
  | @passed more v m' hv h =>
    refine .passed m' hv (h.trans ?_)
    obtain ⟨front, rfl⟩ := hfound
    exact ⟨earlier ++ front, by simp⟩
  | faulted cause m' => exact .faulted cause m'
  | exhausted => exact .exhausted

theorem matches_stmts {run : Expr → Eval Value} {branch : Expr → Block → Option Block → Eval (List Value × Bool)}
    (hbranch : ∀ condition consequence alternative m, Matches [] (branch condition consequence alternative m)
      (run (.cond condition consequence alternative) m))
    (block : Block) (value : Value) (hvalue : ∀ inner, value ≠ .returned inner) (m : Machine) :
    Matches value.solids (collect run branch scope block m) (stmts run scope block value m) := by
  induction block generalizing value m with
  | nil => exact .passed m hvalue (by simp)
  | cons s rest ih =>
    change Matches _ _ (Eval.bind (stmt run scope s) _ m)
    cases hs : isBranch s with
    | true =>
      obtain ⟨condition, consequence, alternative, rfl⟩ := eq_cond_of_isBranch hs
      have h := hbranch condition consequence alternative m
      change Matches _ (Eval.bind (branch condition consequence alternative) _ m)
        (Eval.bind (run (.cond condition consequence alternative)) _ m)
      unfold Eval.bind
      generalize branch condition consequence alternative m = collected at h
      generalize run (.cond condition consequence alternative) m = ran at h
      cases h with
      | ended m₁ h => exact .ended m₁ h
      | @passed found v m₁ hv h =>
        have hrest : Matches value.solids _ _ := (ih v hv m₁).behind h
        cases v with
        | returned inner => exact absurd rfl (hv inner)
        | _ => exact hrest
      | faulted cause m₁ => exact .faulted cause m₁
      | exhausted => exact .exhausted
    | false =>
      rw [collect_cons hs]
      change Matches _ (Eval.bind (stmt run scope s) _ m) _
      unfold Eval.bind
      cases stmt run scope s m with
      | done v m₁ =>
        cases v with
        | returned inner => exact .ended m₁ (List.suffix_refl _)
        | _ =>
          refine (ih _ ?_ m₁).behind (List.suffix_refl _)
          exact fun _ => nofun
      | faulted cause m₁ => exact .faulted cause m₁
      | exhausted => exact .exhausted

-- By induction on the steps: what a conditional runs are the statements of one of its branches, with fewer steps.
theorem matches_gather (steps scope : Nat) (block : Block) (m : Machine) :
    Matches [] (gather steps scope block m) (stmts (expr steps scope) scope block .null m) := by
  induction steps generalizing block m with
  | zero => exact matches_stmts (fun _ _ _ _ => .exhausted) block .null (fun _ => nofun) m
  | succ steps ih =>
    refine matches_stmts (fun condition consequence alternative m => ?_) block .null (fun _ => nofun) m
    change Matches [] (Eval.bind (expr steps scope condition) _ m) (Eval.bind (expr steps scope condition) _ m)
    unfold Eval.bind
    cases expr steps scope condition m with
    | done v m₁ => exact ih _ m₁
    | faulted cause m₁ => exact .faulted cause m₁
    | exhausted => exact .exhausted

end Eval

namespace Run

-- What collecting the scene of a program comes to, and what running the program for its value comes to.
structure Agrees (scene : Option (Except Fault (List Value) × Machine)) (program : Option (Value × Machine)) : Prop where
  fails : ∀ cause, scene.map (·.1) = some (.error cause) ↔ program.map (·.1) = some (.failure cause)
  machine : scene.map (·.2) = program.map (·.2)
  scene : ∀ found v m m', scene = some (.ok found, m) → program = some (v, m') → v.solids <:+ found

theorem Agrees.done {found : List Value} {v : Value} (hv : v.isFaultless) (h : v.solids <:+ found) (m : Machine) :
    Agrees (some (.ok found, m)) (some (v, m)) where
  fails := by
    intro cause
    refine ⟨nofun, fun hvalue => ?_⟩
    cases hvalue
    cases hv
  machine := rfl
  scene := by
    rintro _ _ _ _ ⟨⟩ ⟨⟩
    exact h

theorem Agrees.faulted (cause : Fault) (m : Machine) : Agrees (some (.error cause, m)) (some (.failure cause, m)) where
  fails := by simp
  machine := rfl
  scene := nofun

theorem Agrees.exhausted : Agrees none none where
  fails := by simp
  machine := rfl
  scene := nofun

-- The mark of a return is taken off, and what is left is no failure.
theorem Agrees.unreturned {found : List Value} {v : Value} (hv : v.unreturned.isFaultless)
    (h : v.unreturned.solids <:+ found) (m : Machine) :
    Agrees (some (.ok found, m)) ((Eval.raise v.unreturned m).handed id .failure) := by
  have hkept : Eval.raise v.unreturned m = .done v.unreturned m := by
    cases hu : v.unreturned with
    | failure cause =>
      rw [hu] at hv
      cases hv
    | _ => rfl
  rw [hkept]
  exact .done hv h m

-- The scene and the value of a program come from the same run: they fail alike and change the same, and the primitives
-- that the value stands for are the last ones of the scene.
theorem scene_agrees_program (steps scope : Nat) (program : Program) (m : Machine) (hm : m.isFaultless) :
    Agrees (scene steps scope program m) (Run.program steps scope program m) := by
  have hfaultless := Eval.stmts_isFaultless steps scope program hm
  have h := Eval.matches_gather steps scope program m
  have hscene : Eval.scene steps scope program m =
    Eval.bind (Eval.gather steps scope program) (fun found => Pure.pure found.1) m := rfl
  have hprogram : Eval.program steps scope program m =
    Eval.bind (Eval.stmts (Eval.expr steps scope) scope program .null) (fun v => Eval.raise v.unreturned) m := rfl
  rw [Eval.run_scene_eq, Eval.run_program_eq, hscene, hprogram]
  unfold Eval.bind
  generalize Eval.gather steps scope program m = collected at h
  generalize Eval.stmts (Eval.expr steps scope) scope program .null m = ran at h hfaultless
  cases h with
  | ended m' h => exact Agrees.unreturned (Eval.everywhere_unreturned hfaultless.2) h m'
  | @passed found v m' hv h =>
    have hkept : v.unreturned = v := by
      cases v with
      | returned inner => exact absurd rfl (hv inner)
      | _ => rfl
    exact Agrees.unreturned (Eval.everywhere_unreturned hfaultless.2) (hkept.symm ▸ h) m'
  | faulted cause m' => exact .faulted cause m'
  | exhausted => exact .exhausted

-- A return in a conditional that is used as a value is bound with its mark, and ends the program when the name is read
-- in a branch of a branch.
theorem scene_agrees_program_marked :
    let cube : Expr := .primitive .cube [] none
    let branch : Block := [.expr (.call (.ident "puts") [.string "a"]), .expr (.ident "x"), .expr cube]
    let program : Program :=
      [.bind "x" (.cond (.bool true) [.ret (.array [cube, .int 2])] none), .expr cube,
        .expr (.cond .undef [] (some [.expr cube, .expr (.cond (.bool true) branch none), .expr cube])), .expr cube]
    let m : Machine := .initial
    m.isFaultless ∧ (Run.program 9 0 program m).map (·.1.solids.length) = some 1 ∧
      (∃ found m', scene 9 0 program m = some (.ok found, m') ∧ found.length = 3 ∧ m'.printed = "a\n") ∧
      Agrees (scene 9 0 program m) (Run.program 9 0 program m) := by
  intro cube branch program m
  have hscene : (scene 9 0 program m).map (fun r => (r.1.toOption.map List.length, r.2.printed)) =
      some (some 3, "a\n") := by decide +kernel
  refine ⟨by decide, by decide +kernel, ?_, scene_agrees_program 9 0 program m (by decide)⟩
  obtain ⟨⟨result, m'⟩, hdone, hshown⟩ := Option.map_eq_some_iff.1 hscene
  obtain ⟨hlength, hprinted⟩ := Prod.mk.inj hshown
  cases result with
  | error cause => cases hlength
  | ok found => exact ⟨found, m', hdone, Option.some.inj hlength, hprinted⟩

end Run

end SolidScript
