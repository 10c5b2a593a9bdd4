import SolidScript.Proofs.Eval.Runs
import SolidScript.Proofs.Tree.Discipline

namespace SolidScript

-- Marks of return statements. A disciplined program never stores a mark: it is on its way to the function or the
-- program that takes it off, or it is nowhere. This is so at every moment of a run, and not only when it has ended. An
-- alarm is given as soon as some expression is evaluated on a machine that holds a mark, or comes to a value with a
-- mark where none belongs, and the alarm is never heard. What a program binds, puts into another value or gets from a
-- call is the value of one of its expressions, so that nothing escapes the alarm.
namespace Run

-- Looks on while an expression is evaluated. It lets the evaluation pass, or does something else.
abbrev Watch := Expr → Run Value → Run Value

mutual

-- As `expr`, where every expression is evaluated under the eyes of `w`.
def watchedExpr (w : Watch) : Nat → Nat → Expr → Run Value
  | 0, _, _ => outOfSteps
  | steps + 1, scope, e => w e (node (watchedExpr w steps) (watchedGather w steps) scope e)
termination_by structural steps => steps

-- As `gather`.
def watchedGather (w : Watch) : Nat → Nat → Block → Run (Except Fault (List Value × Bool))
  | 0, scope, block => collect (fun _ => outOfSteps) (fun _ _ _ => outOfSteps) scope block
  | steps + 1, scope, block =>
    collect (fun e => w e (node (watchedExpr w steps) (watchedGather w steps) scope e))
      (fun condition consequence alternative => do
        let condition ← watchedExpr w steps scope condition
        match condition with
        | .failure fault => return .error fault
        | condition => watchedGather w steps scope (if condition.isTruthy then consequence else alternative.getD []))
      scope block
termination_by structural steps => steps

end

def watchedProgram (w : Watch) (steps scope : Nat) (program : Program) : Run Value :=
  outermost (watchedExpr w steps scope) scope program .null

def watchedScene (w : Watch) (steps scope : Nat) (program : Program) : Run (Except Fault (List Value)) := do
  match ← watchedGather w steps scope program with
  | .error fault => return .error fault
  | .ok (found, _) => return .ok found

-- Nothing changes if all evaluations are let pass.
theorem watched_pass (steps : Nat) :
    watchedExpr (fun _ x => x) steps = expr steps ∧ watchedGather (fun _ x => x) steps = gather steps := by
  induction steps with
  | zero => exact ⟨rfl, rfl⟩
  | succ steps ih =>
    obtain ⟨hexpr, hgather⟩ := ih
    constructor
    · funext scope e
      rw [watchedExpr, expr, hexpr, hgather]
    · funext scope block
      rw [watchedGather, hexpr, hgather]
      rfl

end Run

namespace Value

def isMark : Value → Bool
  | returned _ => true
  | _ => false

-- Neither marked nor with a marked value inside.
def isUnmarked (v : Value) : Bool := v.everywhere fun u => !u.isMark

-- What an expression may come to. Only a conditional that reaches a return has a marked value.
def isDueTo (e : Expr) (v : Value) : Bool :=
  v.isUnmarked || match v with
    | returned inner => e.mayReturn && inner.isUnmarked
    | _ => false

end Value

-- No value that is bound in some scope is marked, or has a marked value inside.
def Machine.isUnmarked (m : Machine) : Bool := m.holds fun u => !u.isMark

-- Puts a failure of its own in the place of an evaluation that starts or ends with a mark that does not belong there.
def Run.alarm (cause : Fault) : Watch := fun e x m =>
  if m.isUnmarked then
    match x m with
    | some (v, m') => if m'.isUnmarked && v.isDueTo e then some (v, m') else some (.failure cause, m')
    | none => none
  else some (.failure cause, m)

namespace Value

-- Functions are called long after they were defined, so the invariant also says that all of them are disciplined.
def isTidyNode : Value → Bool
  | returned _ => false
  | function _ _ body _ => body.all Stmt.isDisciplined
  | _ => true

def isTidy (v : Value) : Bool := v.everywhere isTidyNode

theorem isTidy_iff {v : Value} : v.isTidy ↔ v.isTidyNode ∧ ∀ u ∈ v.parts, u.isTidy := everywhere_iff

theorem isUnmarked_of_isTidy {v : Value} (h : v.isTidy) : v.isUnmarked := by
  refine everywhere_mono (fun u hu => ?_) v h
  cases u with
  | returned inner => cases hu
  | _ => rfl

theorem isTidy_of_isPlain {v : Value} (h : v.isPlain) : v.isTidy := by
  simp only [isPlain, Bool.and_eq_true, List.isEmpty_iff] at h
  refine isTidy_iff.2 ⟨?_, by simp [h.2]⟩
  cases v with
  | returned inner => cases h.2
  | function ref params body scope => cases h.1
  | _ => rfl

theorem isTidy_ofExcept {x : Except Fault Value} (h : ∀ v, x = .ok v → v.isTidy) : (ofExcept x).isTidy := by
  cases x with
  | ok v => exact h v rfl
  | error cause => rfl

-- What may come of an expression or a statement, where `mayReturn` says whether it reaches a return.
def Due (mayReturn : Bool) (v : Value) : Prop := v.isTidy ∨ mayReturn ∧ ∃ inner, v = .returned inner ∧ inner.isTidy

theorem Due.isTidy {v : Value} (h : Due false v) : v.isTidy := h.resolve_right nofun

theorem Due.mono {a b : Bool} (hab : a → b) {v : Value} (h : Due a v) : Due b v := h.imp_right fun h => ⟨hab h.1, h.2⟩

-- An unmarked value was given by no return.
theorem Due.isTidy_of_ne {b : Bool} {v : Value} (h : Due b v) (hv : ∀ inner, v ≠ .returned inner) : v.isTidy :=
  h.resolve_right fun ⟨_, inner, he, _⟩ => hv inner he

theorem Due.unreturned {b : Bool} {v : Value} (h : Due b v) : v.unreturned.isTidy := by
  rcases h with h | ⟨-, inner, rfl, h⟩
  · cases v with
    | returned inner => cases (isTidy_iff.1 h).1
    | _ => exact h
  · exact h

end Value

def Machine.isTidy (m : Machine) : Bool := m.holds Value.isTidyNode

namespace Run

open Value Eval

variable {α β : Type} {m : Machine} {scope : Nat}

-- Two runs that come to the same. They leave a tidy machine, and `Q` holds of the value.
def Follows (m : Machine) (x y : Run α) (Q : α → Prop) : Prop :=
  x m = y m ∧ ∀ a m', y m = some (a, m') → m'.isTidy ∧ Q a

namespace Follows

variable {Q : α → Prop} {R : β → Prop}

theorem pure (hm : m.isTidy) {a : α} (h : Q a) : Follows m (Pure.pure a) (Pure.pure a) Q := by
  refine ⟨rfl, ?_⟩
  rintro _ _ ⟨⟩
  exact ⟨hm, h⟩

theorem outOfSteps : Follows m Run.outOfSteps Run.outOfSteps Q := ⟨rfl, nofun⟩

theorem bind {x y : Run α} {f g : α → Run β} (h : Follows m x y Q)
    (hf : ∀ a m', m'.isTidy → Q a → Follows m' (f a) (g a) R) : Follows m (x >>= f) (y >>= g) R := by
  obtain ⟨heq, hends⟩ := h
  change (x m).bind (fun r => f r.1 r.2) = (y m).bind (fun r => g r.1 r.2) ∧
    ∀ b m', (y m).bind (fun r => g r.1 r.2) = some (b, m') → _
  rw [heq]
  cases hy : y m with
  | none => exact ⟨rfl, nofun⟩
  | some r =>
    obtain ⟨htidy, hQ⟩ := hends r.1 r.2 hy
    exact hf r.1 r.2 htidy hQ

-- A value that is tested, and handed on if it is a failure.
theorem tested {x y : Run Value} {P : Value → Prop} {f g : Value → Run β} {handing : Value → β} (h : Follows m x y P)
    (hfailed : ∀ cause, R (handing (.failure cause))) (hf : ∀ v m', m'.isTidy → P v → Follows m' (f v) (g v) R) :
    Follows m (x >>= fun v => if v.isFailure then Pure.pure (handing v) else f v)
      (y >>= fun v => if v.isFailure then Pure.pure (handing v) else g v) R := by
  refine bind h fun v m' hm' hv => ?_
  cases v with
  | failure cause => exact pure hm' (hfailed cause)
  | _ => exact hf _ m' hm' hv

theorem imp {Q' : α → Prop} {x y : Run α} (h : Follows m x y Q) (hQ : ∀ a, Q a → Q' a) : Follows m x y Q' :=
  ⟨h.1, fun a m' ha => (h.2 a m' ha).imp_right (hQ a)⟩

-- A step that always has a result.
theorem step {x : Run α} {a : α} {m' : Machine} (hx : x m = some (a, m')) (hm' : m'.isTidy) (ha : Q a) :
    Follows m x x Q := by
  refine ⟨rfl, fun b m'' hb => ?_⟩
  rw [hx] at hb
  cases hb
  exact ⟨hm', ha⟩

theorem freshRef (hm : m.isTidy) : Follows m Run.freshRef Run.freshRef fun _ => True := step rfl hm trivial

theorem printLine (hm : m.isTidy) (line : String) : Follows m (Run.printLine line) (Run.printLine line) fun _ => True :=
  step rfl hm trivial

theorem bindName (hm : m.isTidy) (name : String) {value : Value} (hv : value.isTidy) :
    Follows m (Run.bindName scope name value) (Run.bindName scope name value) fun _ => True :=
  step rfl (Machine.holds_set hm scope name hv) trivial

theorem enterScope (hm : m.isTidy) (outer : Nat) {bindings : List (String × Value)}
    (hb : ∀ b ∈ bindings, b.2.isTidy) :
    Follows m (Run.enterScope outer bindings) (Run.enterScope outer bindings) fun _ => True :=
  step rfl (Machine.holds_enclose hm outer hb) trivial

theorem readName (hm : m.isTidy) (name : String) :
    Follows m (Run.readName scope name) (Run.readName scope name) (·.isTidy) := by
  refine ⟨rfl, ?_⟩
  unfold Run.readName
  cases hv : m.scopes.get? scope name with
  | some v =>
    rintro _ _ ⟨⟩
    exact ⟨hm, Machine.everywhere_get? hm hv⟩
  | none =>
    cases Builtin.ofName? name with
    | some b =>
      rintro _ _ ⟨⟩
      exact ⟨hm, rfl⟩
    | none =>
      rintro _ _ ⟨⟩
      exact ⟨hm, rfl⟩

end Follows

-- A new value that holds others, and is neither marked nor a function.
theorem follows_new (hm : m.isTidy) (make : Nat → Value) (hnode : ∀ ref, (make ref).isTidyNode)
    (hparts : ∀ ref, ∀ v ∈ (make ref).parts, v.isTidy) :
    Follows m (do return make (← freshRef)) (do return make (← freshRef)) (·.isTidy) := by
  apply Follows.bind (.freshRef hm)
  intro ref m₁ hm₁ _
  exact Follows.pure hm₁ (isTidy_iff.2 ⟨hnode ref, hparts ref⟩)

-- What comes of several values, or the first failure among them.
def Handed (good : α → Prop) : Except Value α → Prop
  | .ok a => good a
  | .error v => v.isTidy

section Parts

variable {run run' : Expr → Run Value}
variable (hrun : ∀ m e, m.isTidy → e.isDisciplined → Follows m (run e) (run' e) (Due e.mayReturn))

include hrun

theorem follows_operand (hm : m.isTidy) {e : Expr} (he : e.isOperand) : Follows m (run e) (run' e) (·.isTidy) := by
  obtain ⟨hd, hr⟩ := Expr.isOperand_iff.1 he
  refine (hrun m e hm hd).imp fun v hv => ?_
  rw [hr] at hv
  exact hv.isTidy

theorem follows_each (es : List Expr) (hes : ∀ e ∈ es, e.isOperand) (hm : m.isTidy) :
    Follows m (each run es) (each run' es) (Handed fun vs => ∀ v ∈ vs, v.isTidy) := by
  induction es generalizing m with
  | nil => exact .pure hm nofun
  | cons e rest ih =>
    refine .tested (follows_operand hrun hm (hes e List.mem_cons_self)) (fun _ => rfl) fun v m₁ hm₁ hv => ?_
    refine .bind (ih (fun e he => hes e (List.mem_cons_of_mem _ he)) hm₁) fun vs m₂ hm₂ hvs => ?_
    cases vs with
    | error failure => exact .pure hm₂ hvs
    | ok vs => exact .pure hm₂ (List.forall_mem_cons.2 ⟨hv, hvs⟩)

theorem follows_entries (pairs : List (Expr × Expr)) (hpairs : ∀ pair ∈ pairs, pair.1.isOperand ∧ pair.2.isOperand)
    (hm : m.isTidy) {found : List (Key × HashPair Value)} (hfound : ∀ v ∈ entryParts found, v.isTidy) :
    Follows m (entries run pairs found) (entries run' pairs found)
      (Handed fun entries => ∀ v ∈ entryParts entries, v.isTidy) := by
  induction pairs generalizing m found with
  | nil => exact .pure hm hfound
  | cons pair rest ih =>
    have hpair := hpairs pair List.mem_cons_self
    refine .tested (follows_operand hrun hm hpair.1) (fun _ => rfl) fun key m₁ hm₁ hkey => ?_
    cases key.key? with
    | none => exact .pure hm₁ rfl
    | some k =>
      refine .tested (follows_operand hrun hm₁ hpair.2) (fun _ => rfl) fun v m₂ hm₂ hv => ?_
      refine ih (fun pair hp => hpairs pair (List.mem_cons_of_mem _ hp)) hm₂ fun u hu => ?_
      rcases mem_entryParts_insertEntry hu with rfl | rfl | hu
      · exact hkey
      · exact hv
      · exact hfound u hu

theorem follows_stmt (s : Stmt) (hs : s.isDisciplined) (hm : m.isTidy) :
    Follows m (stmt run scope s) (stmt run' scope s) (Due (Expr.stmtMayReturn s)) := by
  simp only [Stmt.isDisciplined, Bool.and_eq_true] at hs
  cases s with
  | bind name value =>
    have hvalue : value.isOperand := Expr.isOperand_iff.2 ⟨hs.2, by simpa [Stmt.keepsReturns] using hs.1⟩
    refine .tested (follows_operand hrun hm hvalue) (fun _ => .inl rfl) fun v m₁ hm₁ hv => ?_
    apply Follows.bind (.bindName hm₁ name hv)
    intro _ m₂ hm₂ _
    exact Follows.pure hm₂ (.inl rfl)
  | ret value =>
    have hvalue : value.isOperand := Expr.isOperand_iff.2 ⟨hs.2, by simpa [Stmt.keepsReturns] using hs.1⟩
    refine .tested (follows_operand hrun hm hvalue) (fun _ => .inl rfl) fun v m₁ hm₁ hv => ?_
    exact .pure hm₁ (.inr ⟨rfl, v, rfl, hv⟩)
  | expr value => exact hrun m value hm hs.2

theorem follows_stmts (block : Block) (hblock : block.all Stmt.isDisciplined) (hm : m.isTidy) {value : Value}
    (hv : value.isTidy) :
    Follows m (stmts run scope block value) (stmts run' scope block value) (Due (Expr.blockMayReturn block)) := by
  induction block generalizing m value with
  | nil => exact .pure hm (.inl hv)
  | cons s rest ih =>
    simp only [List.all_cons, Bool.and_eq_true] at hblock
    refine .bind (follows_stmt hrun s hblock.1 hm) fun v m₁ hm₁ hv => ?_
    have hstop : Due (Expr.blockMayReturn (s :: rest)) v := hv.mono fun h => by simp [Expr.blockMayReturn, h]
    cases v with
    | returned inner => exact .pure hm₁ hstop
    | failure cause => exact .pure hm₁ hstop
    | _ =>
      refine (ih hblock.2 hm₁ (hv.isTidy_of_ne nofun)).imp fun u hu => hu.mono fun h => ?_
      simp [Expr.blockMayReturn, h]

-- As for `stmts`, but no mark is left.
theorem follows_outermost (block : Block) (hblock : block.all Stmt.isDisciplined) (hm : m.isTidy) {value : Value}
    (hv : value.isTidy) : Follows m (outermost run scope block value) (outermost run' scope block value) (·.isTidy) := by
  induction block generalizing m value with
  | nil => exact .pure hm hv
  | cons s rest ih =>
    simp only [List.all_cons, Bool.and_eq_true] at hblock
    refine .bind (follows_stmt hrun s hblock.1 hm) fun v m₁ hm₁ hv => ?_
    cases v with
    | returned inner => exact .pure hm₁ hv.unreturned
    | failure cause => exact .pure hm₁ rfl
    | _ => exact ih hblock.2 hm₁ (hv.isTidy_of_ne nofun)

end Parts

section Collecting

variable {run run' : Expr → Run Value}
variable {branch branch' : Expr → Block → Option Block → Run (Except Fault (List Value × Bool))}

-- What a run collects.
abbrev Collects (m : Machine) (x y : Run (Except Fault (List Value × Bool))) : Prop :=
  Follows m x y fun result => ∀ found, result = .ok found → ∀ v ∈ found.1, v.isTidy

theorem Collects.faulted (hm : m.isTidy) (cause : Fault) :
    Collects m (Pure.pure (.error cause)) (Pure.pure (.error cause)) := .pure hm nofun

theorem Collects.done (hm : m.isTidy) {found : List Value} (h : ∀ v ∈ found, v.isTidy) (ended : Bool) :
    Collects m (Pure.pure (.ok (found, ended))) (Pure.pure (.ok (found, ended))) := by
  refine .pure hm ?_
  rintro _ ⟨⟩
  exact h

theorem Collects.behind {found : List Value} (hfound : ∀ v ∈ found, v.isTidy)
    {x y : Run (Except Fault (List Value × Bool))} (h : Collects m x y) : Collects m (behind found x) (behind found y) := by
  refine Follows.bind h fun more m₁ hm₁ hmore => ?_
  cases more with
  | error cause => exact Collects.faulted hm₁ cause
  | ok more => exact Collects.done hm₁ (List.forall_mem_append.2 ⟨hfound, hmore more rfl⟩) more.2

theorem isTidy_solids {v : Value} (h : v.isTidy) : ∀ u ∈ v.solids, u.isTidy :=
  fun u hu => (mem_solids v u hu).2 h

theorem collects_collect (hrun : ∀ m e, m.isTidy → e.isDisciplined → Follows m (run e) (run' e) (Due e.mayReturn))
    (hbranch : ∀ m condition consequence alternative, m.isTidy →
      (Expr.cond condition consequence alternative).isDisciplined →
      Collects m (branch condition consequence alternative) (branch' condition consequence alternative))
    (block : Block) (hblock : block.all Stmt.isDisciplined) (hm : m.isTidy) :
    Collects m (collect run branch scope block) (collect run' branch' scope block) := by
  induction block generalizing m with
  | nil => exact Collects.done hm (List.forall_mem_nil _) false
  | cons s rest ih =>
    simp only [List.all_cons, Bool.and_eq_true] at hblock
    cases hs : isBranch s with
    | true =>
      obtain ⟨condition, consequence, alternative, rfl⟩ := eq_cond_of_isBranch hs
      have hcond := (Bool.and_eq_true_iff.1 hblock.1).2
      refine .bind (hbranch m condition consequence alternative hm hcond) fun found m₁ hm₁ hfound => ?_
      cases found with
      | error cause => exact Collects.faulted hm₁ cause
      | ok found =>
        obtain ⟨found, ended⟩ := found
        cases ended with
        | true => exact Collects.done hm₁ (hfound _ rfl) true
        | false => exact (ih hblock.2 hm₁).behind (hfound _ rfl)
    | false =>
      rw [run_collect_cons hs, run_collect_cons hs]
      refine .bind (follows_stmt hrun s hblock.1 hm) fun v m₁ hm₁ hv => ?_
      cases v with
      | failure cause => exact Collects.faulted hm₁ cause
      | returned inner => exact Collects.done hm₁ (isTidy_solids hv.unreturned) true
      | _ => exact (ih hblock.2 hm₁).behind (isTidy_solids (hv.isTidy_of_ne nofun))

end Collecting

section Calls

theorem follows_printEach (args : List Value) (hm : m.isTidy) :
    Follows m (Builtin.printEach args) (Builtin.printEach args) fun _ => True := by
  induction args generalizing m with
  | nil => exact .pure hm trivial
  | cons v rest ih =>
    apply Follows.bind (.printLine hm _)
    intro _ m₁ hm₁ _
    exact ih hm₁

theorem follows_builtin (b : Builtin) (hm : m.isTidy) {args : List Value} (hargs : ∀ v ∈ args, v.isTidy) :
    Follows m (b.apply args) (b.apply args) (·.isTidy) := by
  unfold Builtin.apply
  cases b with
  | len => exact .pure hm (isTidy_ofExcept fun v h => isTidy_of_isPlain (isPlain_length h))
  | first =>
    cases h : Builtin.first.onlyArray args with
    | ok elements => exact .pure hm (everywhere_headD rfl (everywhere_onlyArray h hargs))
    | error cause => exact .pure hm rfl
  | last =>
    cases h : Builtin.last.onlyArray args with
    | ok elements => exact .pure hm (everywhere_getLastD rfl (everywhere_onlyArray h hargs))
    | error cause => exact .pure hm rfl
  | rest =>
    cases h : Builtin.rest.onlyArray args with
    | error cause => exact .pure hm rfl
    | ok elements =>
      have htidy := everywhere_onlyArray h hargs
      cases elements with
      | nil => exact .pure hm rfl
      | cons v rest => exact follows_new hm (.array · rest) (fun _ => rfl) fun _ => (List.forall_mem_cons.1 htidy).2
  | push =>
    cases h : Builtin.arrayAndValue args with
    | error cause => exact .pure hm rfl
    | ok found =>
      exact follows_new hm (.array · (found.1 ++ [found.2])) (fun _ => rfl) fun _ => everywhere_arrayAndValue h hargs
  | puts =>
    apply Follows.bind (follows_printEach args hm)
    intro _ m₁ hm₁ _
    exact Follows.pure hm₁ rfl

theorem follows_call {run run' : Nat → Expr → Run Value}
    (hrun : ∀ scope m e, m.isTidy → e.isDisciplined → Follows m (run scope e) (run' scope e) (Due e.mayReturn))
    (hm : m.isTidy) {callee : Value} {args : List Value} (hcallee : callee.isTidy) (hargs : ∀ v ∈ args, v.isTidy) :
    Follows m (call run callee args) (call run' callee args) (·.isTidy) := by
  cases callee with
  | function ref params body outer =>
    unfold call
    dsimp only
    split
    · have hbody : body.all Stmt.isDisciplined := (isTidy_iff.1 hcallee).1
      have hbound : ∀ b ∈ params.zip args, b.2.isTidy := fun b hb => hargs b.2 (List.of_mem_zip hb).2
      apply Follows.bind (.enterScope hm outer hbound)
      intro inner m₁ hm₁ _
      apply Follows.bind (follows_stmts (hrun inner) body hbody hm₁ rfl)
      intro v m₂ hm₂ hv
      exact Follows.pure hm₂ hv.unreturned
    · exact .pure hm rfl
  | builtin b => exact follows_builtin b hm hargs
  | _ => exact .pure hm rfl

end Calls

-- Two ways of running expressions and of collecting from blocks, for any scope.
structure Side (run run' : Nat → Expr → Run Value)
    (gather gather' : Nat → Block → Run (Except Fault (List Value × Bool))) : Prop where
  follows : ∀ scope m e, m.isTidy → e.isDisciplined → Follows m (run scope e) (run' scope e) (Due e.mayReturn)
  collects : ∀ scope m block, m.isTidy → block.all Stmt.isDisciplined → Collects m (gather scope block) (gather' scope block)

-- What holds of the runs of all parts holds of the run of an expression.
theorem follows_node {run run' : Nat → Expr → Run Value}
    {gather gather' : Nat → Block → Run (Except Fault (List Value × Bool))} (h : Side run run' gather gather')
    (hm : m.isTidy) (e : Expr) (he : e.isDisciplined) :
    Follows m (node run gather scope e) (node run' gather' scope e) (Due e.mayReturn) := by
  have hrun := h.follows scope
  have htidy : ∀ {x y : Run Value} {m : Machine}, Follows m x y (·.isTidy) → Follows m x y (Due e.mayReturn) :=
    fun h => h.imp fun _ => .inl
  cases e with
  | ident name => exact htidy (.readName hm name)
  | int value => exact .pure hm (.inl rfl)
  | float value => exact .pure hm (.inl rfl)
  | string text => exact .pure hm (.inl rfl)
  | bool value => exact .pure hm (.inl rfl)
  | undef => exact .pure hm (.inl rfl)
  | unary op right =>
    refine .tested (follows_operand hrun hm (Expr.isDisciplined_unary.1 he)) (fun _ => .inl rfl) fun v m₁ hm₁ _ => ?_
    exact .pure hm₁ (.inl (isTidy_ofExcept fun u hu => isTidy_of_isPlain (UnaryOp.isPlain_apply hu)))
  | binary left op right =>
    obtain ⟨hleft, hright⟩ := Expr.isDisciplined_binary.1 he
    refine .tested (follows_operand hrun hm hleft) (fun _ => .inl rfl) fun l m₁ hm₁ _ => ?_
    refine .tested (follows_operand hrun hm₁ hright) (fun _ => .inl rfl) fun r m₂ hm₂ _ => ?_
    exact .pure hm₂ (.inl (isTidy_ofExcept fun u hu => isTidy_of_isPlain (BinaryOp.isPlain_apply hu)))
  | cond condition consequence alternative =>
    obtain ⟨hcondition, hconsequence, halternative⟩ := Expr.isDisciplined_cond.1 he
    refine .tested (follows_operand hrun hm hcondition) (fun _ => .inl rfl) fun c m₁ hm₁ _ => ?_
    rw [Expr.mayReturn, Expr.blockMayReturn?_eq]
    cases c.isTruthy with
    | true => exact (follows_stmts hrun consequence hconsequence hm₁ rfl).imp fun v hv => hv.mono (by simp_all)
    | false => exact (follows_stmts hrun _ halternative hm₁ rfl).imp fun v hv => hv.mono (by simp_all)
  | function params body =>
    refine htidy (follows_new hm (.function · params body scope) (fun _ => ?_) (by simp [parts]))
    exact Expr.isDisciplined_function.1 he
  | call callee args =>
    obtain ⟨hcallee, hargs⟩ := Expr.isDisciplined_call.1 he
    refine .tested (follows_operand hrun hm hcallee) (fun _ => .inl rfl) fun c m₁ hm₁ hc => ?_
    refine .bind (follows_each hrun args hargs hm₁) fun vs m₂ hm₂ hvs => ?_
    cases vs with
    | error failure => exact .pure hm₂ (.inl hvs)
    | ok vs => exact htidy (follows_call h.follows hm₂ hc hvs)
  | array elements =>
    refine .bind (follows_each hrun elements (Expr.isDisciplined_array.1 he) hm) fun vs m₁ hm₁ hvs => ?_
    cases vs with
    | error failure => exact .pure hm₁ (.inl hvs)
    | ok vs => exact htidy (follows_new hm₁ (.array · vs) (fun _ => rfl) fun _ => hvs)
  | hash pairs =>
    have hempty : ∀ v ∈ entryParts [], v.isTidy := List.forall_mem_nil _
    refine .bind (follows_entries hrun pairs (Expr.isDisciplined_hash.1 he) hm hempty) fun found m₁ hm₁ hfound => ?_
    cases found with
    | error failure => exact .pure hm₁ (.inl hfound)
    | ok found => exact htidy (follows_new hm₁ (.hash · found) (fun _ => rfl) fun _ => hfound)
  | index left key =>
    obtain ⟨hleft, hkey⟩ := Expr.isDisciplined_index.1 he
    refine .tested (follows_operand hrun hm hleft) (fun _ => .inl rfl) fun l m₁ hm₁ hl => ?_
    refine .tested (follows_operand hrun hm₁ hkey) (fun _ => .inl rfl) fun k m₂ hm₂ _ => ?_
    refine .pure hm₂ (.inl (isTidy_ofExcept fun v hv => ?_))
    rcases mem_parts_of_index hv with rfl | hv
    · rfl
    · exact (isTidy_iff.1 hl).2 v hv
  | named name value =>
    refine .tested (follows_operand hrun hm (Expr.isDisciplined_named.1 he)) (fun _ => .inl rfl) fun v m₁ hm₁ hv => ?_
    exact htidy (follows_new hm₁ (.named · name v) (fun _ => rfl) (by simpa [parts] using hv))
  | primitive kind args body =>
    obtain ⟨hargs, hbody⟩ := Expr.isDisciplined_primitive.1 he
    refine .bind (follows_each hrun args hargs hm) fun vs m₁ hm₁ hvs => ?_
    cases vs with
    | error failure => exact .pure hm₁ (.inl hvs)
    | ok vs =>
      cases body with
      | none =>
        refine htidy (follows_new hm₁ (.primitive · kind vs none) (fun _ => rfl) fun _ => ?_)
        exact List.forall_mem_append.2 ⟨hvs, List.forall_mem_nil _⟩
      | some block =>
        refine .bind (h.collects scope m₁ block hm₁ hbody) fun found m₂ hm₂ hfound => ?_
        cases found with
        | error cause => exact .pure hm₂ (.inl rfl)
        | ok found =>
          refine htidy (follows_new hm₂ (.primitive · kind vs (some found.1)) (fun _ => rfl) fun _ => ?_)
          exact List.forall_mem_append.2 ⟨hvs, hfound found rfl⟩

-- Lets every evaluation pass that has no mark in the wrong place.
def Watch.IsPatient (w : Watch) : Prop := ∀ (e : Expr) (x : Run Value) (m : Machine), m.isTidy →
  (∀ v m', x m = some (v, m') → m'.isTidy ∧ Due e.mayReturn v) → w e x m = x m

theorem follows_watched {w : Watch} (hw : w.IsPatient) {e : Expr} {x y : Run Value} (hm : m.isTidy)
    (h : Follows m x y (Due e.mayReturn)) : Follows m (w e x) y (Due e.mayReturn) := by
  obtain ⟨heq, hends⟩ := h
  exact ⟨(hw e x m hm (heq ▸ hends)).trans heq, hends⟩

-- All runs of expressions and blocks, by induction on the number of steps.
theorem side_watched {w : Watch} (hw : w.IsPatient) (steps : Nat) :
    Side (watchedExpr w steps) (expr steps) (watchedGather w steps) (gather steps) := by
  induction steps with
  | zero =>
    refine ⟨fun scope m e _ _ => .outOfSteps, fun scope m block hm hblock => ?_⟩
    exact collects_collect (fun _ _ _ _ => .outOfSteps) (fun _ _ _ _ _ _ => .outOfSteps) block hblock hm
  | succ steps ih =>
    have hrun : ∀ scope m e, m.isTidy → e.isDisciplined →
        Follows m (w e (node (watchedExpr w steps) (watchedGather w steps) scope e)) (node (expr steps) (gather steps) scope e)
          (Due e.mayReturn) :=
      fun scope m e hm he => follows_watched hw hm (follows_node ih hm e he)
    refine ⟨hrun, fun scope m block hm hblock => ?_⟩
    refine collects_collect (hrun scope) (fun m condition consequence alternative hm hcond => ?_) block hblock hm
    obtain ⟨hcondition, hconsequence, halternative⟩ := Expr.isDisciplined_cond.1 hcond
    have hbranch {m₁ : Machine} (hm₁ : m₁.isTidy) (truthy : Bool) :
        Collects m₁ (watchedGather w steps scope (if truthy then consequence else alternative.getD []))
          (gather steps scope (if truthy then consequence else alternative.getD [])) := by
      cases truthy with
      | true => exact ih.collects scope m₁ _ hm₁ hconsequence
      | false => exact ih.collects scope m₁ _ hm₁ halternative
    refine .bind (follows_operand (ih.follows scope) hm hcondition) fun c m₁ hm₁ _ => ?_
    cases c with
    | failure cause => exact Collects.faulted hm₁ cause
    | _ => exact hbranch hm₁ _

theorem follows_program {w : Watch} (hw : w.IsPatient) (steps : Nat) {program : Program} (h : program.isDisciplined)
    (hm : m.isTidy) : Follows m (watchedProgram w steps scope program) (Run.program steps scope program) (·.isTidy) :=
  follows_outermost ((side_watched hw steps).follows scope) program h hm rfl

theorem follows_scene {w : Watch} (hw : w.IsPatient) (steps : Nat) {program : Program} (h : program.isDisciplined)
    (hm : m.isTidy) : Follows m (watchedScene w steps scope program) (scene steps scope program) fun result =>
      ∀ found, result = .ok found → ∀ v ∈ found, v.isTidy := by
  refine .bind ((side_watched hw steps).collects scope m program hm h) fun result m₁ hm₁ hfound => ?_
  cases result with
  | error cause => exact .pure hm₁ nofun
  | ok found =>
    refine .pure hm₁ ?_
    rintro _ ⟨⟩
    exact hfound found rfl

theorem isUnmarked_of_isTidy (h : m.isTidy) : m.isUnmarked := by
  refine Machine.holds_mono (fun u hu => ?_) h
  cases u with
  | returned inner => cases hu
  | _ => rfl

theorem isDueTo_of_due {e : Expr} {v : Value} (h : Due e.mayReturn v) : v.isDueTo e := by
  rcases h with h | ⟨hr, inner, rfl, h⟩
  · simp [isDueTo, Value.isUnmarked_of_isTidy h]
  · simp [isDueTo, hr, Value.isUnmarked_of_isTidy h]

theorem isPatient_alarm (cause : Fault) : (alarm cause).IsPatient := by
  intro e x m hm hx
  unfold alarm
  rw [if_pos (isUnmarked_of_isTidy hm)]
  cases hxm : x m with
  | none => rfl
  | some result =>
    obtain ⟨hleft, hdue⟩ := hx result.1 result.2 hxm
    simp [isUnmarked_of_isTidy hleft, isDueTo_of_due hdue]

-- The alarm stays silent while a disciplined program runs, with any number of steps and whether it is run for its
-- value or for its scene. What is left behind is free of marks, too.
theorem marks_not_stored (program : Program) (h : program.isDisciplined) (steps : Nat) (cause : Fault) :
    watchedProgram (alarm cause) steps 0 program .initial = Run.program steps 0 program .initial ∧
    watchedScene (alarm cause) steps 0 program .initial = scene steps 0 program .initial ∧
    (∀ v m, Run.program steps 0 program .initial = some (v, m) → m.isUnmarked ∧ v.isUnmarked) ∧
    ∀ result m, scene steps 0 program .initial = some (result, m) →
      m.isUnmarked ∧ ∀ found, result = .ok found → ∀ v ∈ found, v.isUnmarked := by
  have hw := isPatient_alarm cause
  have hprogram : Follows .initial (watchedProgram (alarm cause) steps 0 program) _ _ := follows_program hw steps h rfl
  have hscene : Follows .initial (watchedScene (alarm cause) steps 0 program) _ _ := follows_scene hw steps h rfl
  refine ⟨hprogram.1, hscene.1, fun v m hrun => ?_, fun result m hrun => ?_⟩
  · obtain ⟨hm, hv⟩ := hprogram.2 v m hrun
    exact ⟨isUnmarked_of_isTidy hm, Value.isUnmarked_of_isTidy hv⟩
  · obtain ⟨hm, hfound⟩ := hscene.2 result m hrun
    exact ⟨isUnmarked_of_isTidy hm, fun found hresult v hv => Value.isUnmarked_of_isTidy (hfound found hresult v hv)⟩

-- A function that returns from a conditional in a conditional is called in the branch of a conditional that is a
-- value, and a primitive has a return of its own. Without discipline the alarm is given.
theorem marks_not_stored_nested :
    let body : Block := [.expr (.cond (.ident "x") [.expr (.cond (.ident "x") [.ret (.array [.ident "x"])] none)] none)]
    let program : Program :=
      [.bind "f" (.function ["x"] body),
        .bind "y" (.cond (.bool true) [.expr (.call (.ident "f") [.int 2])] none),
        .bind "z" (.primitive .group [] (some [.ret (.primitive .cube [] none)])),
        .expr (.cond (.ident "y") [.ret (.index (.ident "y") (.int 0))] none)]
    let leak : Program := [.bind "y" (.cond (.bool true) [.ret (.int 1)] none)]
    program.isDisciplined ∧
      (∀ cause, watchedProgram (alarm cause) 9 0 program .initial = Run.program 9 0 program .initial) ∧
      (∃ v m, Run.program 9 0 program .initial = some (v, m) ∧ v.isFailure = false ∧ v.isUnmarked ∧
        m.scopes.size = 2 ∧ m.isUnmarked) ∧
      leak.isDisciplined = false ∧ (Run.program 9 0 leak .initial).map (·.1.isFailure) = some false ∧
      (watchedProgram (alarm .divisionByZero) 9 0 (leak ++ [.expr (.int 1)]) .initial).map (·.1.isFailure) =
        some true := by
  intro body program leak
  have h : program.isDisciplined := by decide +kernel
  have hall := marks_not_stored program h 9
  have hrun : (Run.program 9 0 program .initial).map (fun r => (r.1.isFailure, r.2.scopes.size)) = some (false, 2) := by
    decide +kernel
  obtain ⟨⟨v, m⟩, hdone, hsize⟩ := Option.map_eq_some_iff.1 hrun
  obtain ⟨hgood, hsize⟩ := Prod.mk.inj hsize
  obtain ⟨hm, hv⟩ := (hall .divisionByZero).2.2.1 v m hdone
  refine ⟨h, fun cause => (hall cause).1, ?_, by decide +kernel, by decide +kernel, by decide +kernel⟩
  exact ⟨v, m, hdone, hgood, hv, hsize, hm⟩

end Run

end SolidScript
