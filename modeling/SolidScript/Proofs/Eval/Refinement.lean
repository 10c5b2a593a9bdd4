import SolidScript.Eval.Program
import SolidScript.Proofs.Eval.Outcome
import SolidScript.Proofs.Value.Parts

namespace SolidScript

-- What the rest of a block adds to the primitives that are there.
def Run.behind (found : List Value) (rest : Run (Except Fault (List Value × Bool))) :
    Run (Except Fault (List Value × Bool)) := do
  match ← rest with
  | .error fault => return .error fault
  | .ok (more, ended) => return .ok (found ++ more, ended)

namespace Eval

variable {α β γ δ : Type}

-- What a run gives that hands its failure on, as told by the outcome of the run that ends with it.
def Outcome.handed (ok : α → β) (failed : Fault → β) : Outcome α → Option (β × Machine)
  | done a m => some (ok a, m)
  | faulted cause m => some (failed cause, m)
  | exhausted => none

-- A run in both forms. What it goes on with is `good`.
def Hands (ok : α → β) (failed : Fault → β) (good : α → Prop) (x : Run β) (y : Eval α) : Prop :=
  ∀ m, x m = (y m).handed ok failed ∧ ∀ a m', y m = .done a m' → good a

namespace Hands

variable {ok : α → β} {failed : Fault → β} {good : α → Prop} {ok' : γ → δ} {failed' : Fault → δ} {good' : γ → Prop}

theorem pure {a : α} (h : good a) : Hands ok failed good (Pure.pure (ok a)) (Pure.pure a) := by
  refine fun m => ⟨rfl, ?_⟩
  rintro _ _ ⟨⟩
  exact h

theorem fault (cause : Fault) : Hands ok failed good (Pure.pure (failed cause)) (Eval.fault cause) :=
  fun _ => ⟨rfl, nofun⟩

theorem outOfSteps : Hands ok failed good Run.outOfSteps Eval.outOfSteps := fun _ => ⟨rfl, nofun⟩

-- A failure is what the rest of the run comes to, and the rest agrees on everything else.
theorem bind {x : Run β} {y : Eval α} {k : β → Run δ} {f : α → Eval γ} (h : Hands ok failed good x y)
    (hfailed : ∀ cause, k (failed cause) = Pure.pure (failed' cause))
    (hok : ∀ a, good a → Hands ok' failed' good' (k (ok a)) (f a)) :
    Hands ok' failed' good' (x >>= k) (y >>= f) := by
  intro m
  obtain ⟨hx, hgood⟩ := h m
  change (x m).bind (fun r => k r.1 r.2) = (Eval.bind y f m).handed ok' failed' ∧ ∀ a m', Eval.bind y f m = _ → _
  unfold Eval.bind
  rw [hx]
  cases hy : y m with
  | done a m' => exact hok a (hgood a m' hy) m'
  | faulted cause m' =>
    refine ⟨?_, nofun⟩
    change k (failed cause) m' = _
    rw [hfailed]
    rfl
  | exhausted => exact ⟨rfl, nofun⟩

-- A first step that never fails.
theorem after {x : Run α} {y : Eval α} {k : α → Run δ} {f : α → Eval γ}
    (h : ∀ m, ∃ a m', x m = some (a, m') ∧ y m = .done a m') (hok : ∀ a, Hands ok' failed' good' (k a) (f a)) :
    Hands ok' failed' good' (x >>= k) (y >>= f) := by
  intro m
  obtain ⟨a, m', hx, hy⟩ := h m
  change (x m).bind (fun r => k r.1 r.2) = (Eval.bind y f m).handed ok' failed' ∧ ∀ a m', Eval.bind y f m = _ → _
  unfold Eval.bind
  rw [hx, hy]
  exact hok a m'

end Hands

-- A run that gives a value. It goes on with nothing that is a failure.
abbrev HandsValue (x : Run Value) (y : Eval Value) : Prop := Hands id .failure (fun v => v.isFailure = false) x y

-- A run that gives several values, or the first failure among them.
abbrev HandsEach (x : Run (Except Value α)) (y : Eval α) : Prop := Hands .ok (.error ∘ .failure) (fun _ => True) x y

-- A run that collects primitives.
abbrev HandsFound (x : Run (Except Fault α)) (y : Eval α) : Prop := Hands .ok .error (fun _ => True) x y

namespace HandsValue

variable {ok : α → β} {failed : Fault → β} {good : α → Prop}

-- A value that is tested before the run goes on.
theorem tested {x : Run Value} {y : Eval Value} {k : Value → Run β} {f : Value → Eval α} {handing : Value → β}
    (h : HandsValue x y) (hfailed : ∀ cause, handing (.failure cause) = failed cause)
    (hok : ∀ v, v.isFailure = false → Hands ok failed good (k v) (f v)) :
    Hands ok failed good (x >>= fun v => if v.isFailure then Pure.pure (handing v) else k v) (y >>= f) := by
  refine Hands.bind h (fun cause => ?_) fun v hv => ?_
  · change Pure.pure (handing (.failure cause)) = _
    rw [hfailed]
  · rw [id, if_neg (by rw [hv]; exact Bool.false_ne_true)]
    exact hok v hv

theorem raise (v : Value) : HandsValue (Pure.pure v) (Eval.raise v) := by
  cases v with
  | failure cause => exact .fault cause
  | _ => exact .pure rfl

theorem ofExcept {x : Except Fault Value} (h : ∀ v, x = .ok v → v.isFailure = false) :
    HandsValue (Pure.pure (.ofExcept x)) (Eval.ofExcept x) := by
  cases x with
  | ok v => exact .pure (h v rfl)
  | error cause => exact .fault cause

end HandsValue

theorem isFailure_of_isPlain {v : Value} (h : v.isPlain) : v.isFailure = false := by
  cases v with
  | failure cause => cases h
  | _ => rfl

theorem freshRef_both (m : Machine) : ∃ ref m', Run.freshRef m = some (ref, m') ∧ freshRef m = .done ref m' :=
  ⟨_, _, rfl, rfl⟩

-- A new value that holds others.
theorem hands_new {make : Nat → Value} (h : ∀ ref, (make ref).isFailure = false) :
    HandsValue (do return make (← Run.freshRef)) (do return make (← freshRef)) :=
  .after freshRef_both fun ref => .pure (h ref)

theorem hands_readName (scope : Nat) (name : String) : HandsValue (Run.readName scope name) (readName scope name) := by
  intro m
  unfold Run.readName readName
  cases m.scopes.get? scope name with
  | some v => exact HandsValue.raise v m
  | none =>
    cases Builtin.ofName? name with
    | some b => exact ⟨rfl, by rintro _ _ ⟨⟩; rfl⟩
    | none => exact ⟨rfl, nofun⟩

theorem hands_printEach (args : List Value) :
    ∀ m, ∃ m', Builtin.printEach args m = some ((), m') ∧ printEach args m = .done () m' := by
  induction args with
  | nil => exact fun m => ⟨m, rfl, rfl⟩
  | cons v others ih => exact fun m => ih _

-- The builtins test their arguments themselves.
theorem hands_builtin (b : Builtin) (args : List Value) : HandsValue (b.apply args) (builtin b args) := by
  cases b with
  | len =>
    refine .ofExcept fun v hv => ?_
    unfold Builtin.length at hv
    split at hv <;> cases hv <;> rfl
  | first =>
    unfold Builtin.apply builtin
    cases Builtin.first.onlyArray args with
    | ok elements => exact .raise (elements.headD .null)
    | error cause => exact .fault cause
  | last =>
    unfold Builtin.apply builtin
    cases Builtin.last.onlyArray args with
    | ok elements => exact .raise (elements.getLastD .null)
    | error cause => exact .fault cause
  | rest =>
    unfold Builtin.apply builtin
    cases Builtin.rest.onlyArray args with
    | error cause => exact .fault cause
    | ok elements =>
      cases elements with
      | nil => exact .pure rfl
      | cons v elements => exact hands_new fun _ => rfl
  | push =>
    unfold Builtin.apply builtin
    cases Builtin.arrayAndValue args with
    | error cause => exact .fault cause
    | ok parts => exact hands_new fun _ => rfl
  | puts =>
    exact .after (fun m => ⟨(), hands_printEach args m⟩) fun _ => .pure rfl

section

variable {run : Expr → Run Value} {run' : Expr → Eval Value}

theorem hands_each (h : ∀ e, HandsValue (run e) (run' e)) (es : List Expr) :
    HandsEach (Run.each run es) (each run' es) := by
  induction es with
  | nil => exact .pure trivial
  | cons e rest ih =>
    refine HandsValue.tested (h e) (fun _ => rfl) fun v _ => ?_
    refine Hands.bind ih (fun _ => rfl) fun vs _ => ?_
    exact .pure trivial

theorem hands_entries (h : ∀ e, HandsValue (run e) (run' e)) (pairs : List (Expr × Expr))
    (found : List (Key × HashPair Value)) : HandsEach (Run.entries run pairs found) (entries run' pairs found) := by
  induction pairs generalizing found with
  | nil => exact .pure trivial
  | cons pair rest ih =>
    refine HandsValue.tested (h pair.1) (fun _ => rfl) fun key _ => ?_
    cases key.key? with
    | none => exact .fault (.unusableKey key.type)
    | some usable =>
      refine HandsValue.tested (h pair.2) (fun _ => rfl) fun v _ => ?_
      exact ih _

theorem hands_stmt (h : ∀ e, HandsValue (run e) (run' e)) (scope : Nat) (s : Stmt) :
    HandsValue (Run.stmt run scope s) (stmt run' scope s) := by
  cases s with
  | bind name e =>
    refine HandsValue.tested (h e) (fun _ => rfl) fun v _ => ?_
    refine Hands.after (fun m => ⟨(), _, rfl, rfl⟩) fun _ => ?_
    exact .pure rfl
  | ret e =>
    refine HandsValue.tested (h e) (fun _ => rfl) fun v _ => ?_
    exact .pure rfl
  | expr e => exact h e

-- What blocks do with the value of each statement.
theorem hands_stmts (h : ∀ e, HandsValue (run e) (run' e)) (scope : Nat) (ss : List Stmt) (v : Value)
    (hv : v.isFailure = false) : HandsValue (Run.stmts run scope ss v) (stmts run' scope ss v) := by
  induction ss generalizing v with
  | nil => exact .pure hv
  | cons s rest ih =>
    refine Hands.bind (hands_stmt h scope s) (fun _ => rfl) fun w hw => ?_
    cases w with
    | failure cause => cases hw
    | returned inner => exact .pure rfl
    | _ => exact ih _ rfl

-- The marks of return statements are only seen outside the program.
theorem hands_outermost (h : ∀ e, HandsValue (run e) (run' e)) (scope : Nat) (ss : List Stmt) (v : Value)
    (hv : v.isFailure = false) (hmark : v.unreturned = v) :
    HandsValue (Run.outermost run scope ss v) (do raise (← stmts run' scope ss v).unreturned) := by
  induction ss generalizing v with
  | nil =>
    change HandsValue (Pure.pure v) (raise v.unreturned)
    rw [hmark]
    exact .raise v
  | cons s rest ih =>
    unfold Run.outermost stmts
    rw [Eval.bind_assoc]
    refine Hands.bind (hands_stmt h scope s) (fun _ => rfl) fun w hw => ?_
    cases w with
    | failure cause => cases hw
    | returned inner => exact HandsValue.raise inner
    | _ => exact ih _ rfl rfl

end

section

variable {run : Expr → Run Value} {run' : Expr → Eval Value} {scope : Nat}
variable {branch : Expr → Block → Option Block → Run (Except Fault (List Value × Bool))}
variable {branch' : Expr → Block → Option Block → Eval (List Value × Bool)}

theorem run_collect_cons {s : Stmt} (h : isBranch s = false) (rest : Block) :
    Run.collect run branch scope (s :: rest) = (do
      let value ← Run.stmt run scope s
      match value with
      | .failure fault => return .error fault
      | .returned inner => return .ok (inner.solids, true)
      | value =>
        match ← Run.collect run branch scope rest with
        | .error fault => return .error fault
        | .ok (more, ended) => return .ok (value.solids ++ more, ended)) := by
  cases s with
  | bind name value => rfl
  | ret value => rfl
  | expr value => cases value <;> first | rfl | cases h

theorem hands_behind (found : List Value) {x : Run (Except Fault (List Value × Bool))} {y : Eval (List Value × Bool)}
    (h : HandsFound x y) : HandsFound (Run.behind found x) (behind found y) := by
  refine Hands.bind h (fun _ => rfl) fun more _ => ?_
  exact .pure trivial

theorem hands_collect (h : ∀ e, HandsValue (run e) (run' e))
    (hbranch : ∀ condition consequence alternative,
      HandsFound (branch condition consequence alternative) (branch' condition consequence alternative))
    (ss : List Stmt) : HandsFound (Run.collect run branch scope ss) (collect run' branch' scope ss) := by
  induction ss with
  | nil => exact .pure trivial
  | cons s rest ih =>
    cases hs : isBranch s with
    | true =>
      obtain ⟨condition, consequence, alternative, rfl⟩ := eq_cond_of_isBranch hs
      refine Hands.bind (hbranch condition consequence alternative) (fun _ => rfl) fun result _ => ?_
      obtain ⟨found, ended⟩ := result
      cases ended with
      | true => exact .pure trivial
      | false => exact hands_behind found ih
    | false =>
      rw [run_collect_cons hs, collect_cons hs]
      refine Hands.bind (hands_stmt h scope s) (fun _ => rfl) fun v hv => ?_
      cases v with
      | failure cause => cases hv
      | returned inner => exact .pure trivial
      | _ => exact hands_behind _ ih

end

theorem hands_call {run : Nat → Expr → Run Value} {run' : Nat → Expr → Eval Value}
    (h : ∀ scope e, HandsValue (run scope e) (run' scope e)) (callee : Value) (args : List Value) :
    HandsValue (Run.call run callee args) (call run' callee args) := by
  cases callee with
  | function ref params body outer =>
    unfold Run.call call
    dsimp only
    split
    · refine .after (fun m => ⟨m.scopes.next, _, rfl, rfl⟩) fun inner => ?_
      refine Hands.bind (hands_stmts (h inner) inner body .null rfl) (fun _ => rfl) fun v _ => ?_
      exact HandsValue.raise v.unreturned
    · exact .fault _
  | builtin b => exact hands_builtin b args
  | _ => exact .fault _

-- Every value of an expression inside is tested where the other form would have ended.
theorem hands_node {run : Nat → Expr → Run Value} {run' : Nat → Expr → Eval Value}
    {gather : Nat → Block → Run (Except Fault (List Value × Bool))} {gather' : Nat → Block → Eval (List Value × Bool)}
    (h : ∀ scope e, HandsValue (run scope e) (run' scope e))
    (hgather : ∀ scope block, HandsFound (gather scope block) (gather' scope block)) (scope : Nat) (e : Expr) :
    HandsValue (Run.node run gather scope e) (node run' gather' scope e) := by
  cases e with
  | ident name => exact hands_readName scope name
  | int value => exact .pure rfl
  | float value => exact .pure rfl
  | string text => exact .pure rfl
  | bool value => exact .pure rfl
  | undef => exact .pure rfl
  | unary op right =>
    refine HandsValue.tested (h scope right) (fun _ => rfl) fun r _ => ?_
    exact HandsValue.ofExcept fun v hv => isFailure_of_isPlain (UnaryOp.isPlain_apply hv)
  | binary left op right =>
    refine HandsValue.tested (h scope left) (fun _ => rfl) fun l _ => ?_
    refine HandsValue.tested (h scope right) (fun _ => rfl) fun r _ => ?_
    exact HandsValue.ofExcept fun v hv => isFailure_of_isPlain (BinaryOp.isPlain_apply hv)
  | cond condition consequence alternative =>
    refine HandsValue.tested (h scope condition) (fun _ => rfl) fun c _ => ?_
    exact hands_stmts (h scope) scope _ .null rfl
  | function params body => exact hands_new fun _ => rfl
  | call callee args =>
    refine HandsValue.tested (h scope callee) (fun _ => rfl) fun c _ => ?_
    refine Hands.bind (hands_each (h scope) args) (fun _ => rfl) fun vs _ => ?_
    exact hands_call h c vs
  | array elements =>
    refine Hands.bind (hands_each (h scope) elements) (fun _ => rfl) fun vs _ => ?_
    exact hands_new fun _ => rfl
  | hash pairs =>
    refine Hands.bind (hands_entries (h scope) pairs []) (fun _ => rfl) fun entries _ => ?_
    exact hands_new fun _ => rfl
  | index left key =>
    refine HandsValue.tested (h scope left) (fun _ => rfl) fun l _ => ?_
    refine HandsValue.tested (h scope key) (fun _ => rfl) fun k _ => ?_
    cases l.index k with
    | ok v => exact HandsValue.raise v
    | error cause => exact .fault cause
  | named name value =>
    refine HandsValue.tested (h scope value) (fun _ => rfl) fun v _ => ?_
    exact hands_new fun _ => rfl
  | primitive kind args body =>
    refine Hands.bind (hands_each (h scope) args) (fun _ => rfl) fun vs _ => ?_
    cases body with
    | none => exact hands_new fun _ => rfl
    | some block =>
      refine Hands.bind (hgather scope block) (fun _ => rfl) fun found _ => ?_
      exact hands_new fun _ => rfl

-- All runs of expressions and blocks, by induction on the number of steps.
theorem hands_expr_gather (steps : Nat) :
    (∀ scope e, HandsValue (Run.expr steps scope e) (expr steps scope e)) ∧
    ∀ scope block, HandsFound (Run.gather steps scope block) (gather steps scope block) := by
  induction steps with
  | zero =>
    refine ⟨fun scope e => .outOfSteps, fun scope block => ?_⟩
    exact hands_collect (fun _ => .outOfSteps) (fun _ _ _ => .outOfSteps) block
  | succ steps ih =>
    obtain ⟨hexpr, hgather⟩ := ih
    have hnode (scope : Nat) (e : Expr) := hands_node hexpr hgather scope e
    refine ⟨hnode, fun scope block => ?_⟩
    refine hands_collect (hnode scope) (fun condition consequence alternative => ?_) block
    refine Hands.bind (hexpr scope condition) (fun _ => rfl) fun c hc => ?_
    cases c with
    | failure cause => cases hc
    | _ => exact hgather scope _

variable (steps scope : Nat) (m : Machine)

theorem run_expr_eq (e : Expr) : Run.expr steps scope e m = (expr steps scope e m).handed id .failure :=
  ((hands_expr_gather steps).1 scope e m).1

theorem run_gather_eq (block : Block) : Run.gather steps scope block m = (gather steps scope block m).handed .ok .error :=
  ((hands_expr_gather steps).2 scope block m).1

theorem run_stmt_eq (s : Stmt) : Run.stmt (Run.expr steps scope) scope s m =
    (stmt (expr steps scope) scope s m).handed id .failure :=
  (hands_stmt ((hands_expr_gather steps).1 scope) scope s m).1

theorem run_stmts_eq (block : Block) : Run.stmts (Run.expr steps scope) scope block .null m =
    (stmts (expr steps scope) scope block .null m).handed id .failure :=
  (hands_stmts ((hands_expr_gather steps).1 scope) scope block .null rfl m).1

theorem run_call_eq (callee : Value) (args : List Value) :
    Run.call (Run.expr steps) callee args m = (call (expr steps) callee args m).handed id .failure :=
  (hands_call (hands_expr_gather steps).1 callee args m).1

-- The two forms of a run of a program.
theorem run_program_eq (program : Program) :
    Run.program steps scope program m = (Eval.program steps scope program m).handed id .failure :=
  (hands_outermost ((hands_expr_gather steps).1 scope) scope program .null rfl rfl m).1

theorem run_scene_eq (program : Program) :
    Run.scene steps scope program m = (scene steps scope program m).handed .ok .error := by
  have h : HandsFound (Run.scene steps scope program) (scene steps scope program) := by
    refine Hands.bind ((hands_expr_gather steps).2 scope program) (fun _ => rfl) fun found _ => ?_
    exact .pure trivial
  exact (h m).1

end Eval

end SolidScript
