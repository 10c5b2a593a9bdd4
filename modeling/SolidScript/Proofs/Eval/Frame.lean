import SolidScript.Proofs.Eval.Runs

namespace SolidScript

-- A function that is defined in one of the first `n` scopes.
def Value.isLinked (n : Nat) : Value → Bool
  | function _ _ _ scope => scope < n
  | _ => true

theorem lasting_isLinked : Lasting Value.isLinked where
  grow := by
    intro n v h
    cases v with
    | function ref params body scope =>
      simp only [Value.isLinked, decide_eq_true_eq] at h ⊢
      omega
    | _ => rfl
  ordinary := by
    intro n v h
    cases v with
    | function ref params body scope => cases h
    | _ => rfl
  inner := by simp [Value.isLinked]
  leaf := rfl
  block := fun _ => rfl

-- The condition that says nothing.
theorem lasting_true : Lasting fun _ _ => true := ⟨fun _ => rfl, fun _ => rfl, rfl, rfl, fun _ => rfl⟩

namespace Scopes

-- Every scope lies inside an earlier one, or inside none.
def isOutward (s : Scopes) : Bool := (List.range s.size).all fun i => ((s.all[i]?).bind Scope.outer).all (· < i)

theorem isOutward_iff {s : Scopes} : s.isOutward ↔
    ∀ (i outer : Nat) (scope : Scope), s.all[i]? = some scope → scope.outer = some outer → outer < i := by
  simp only [isOutward, List.all_eq_true, List.mem_range, Option.all_eq_true, Option.bind_eq_some_iff,
    decide_eq_true_eq]
  constructor
  · intro h i outer scope hscope houter
    obtain ⟨hi, -⟩ := Array.getElem?_eq_some_iff.1 hscope
    exact h i hi outer ⟨scope, hscope, houter⟩
  · rintro h i - outer ⟨scope, hscope, houter⟩
    exact h i outer scope hscope houter

-- The walk outward from a scope, up to the first one that has the name.
inductive Walk (s : Scopes) (name : String) : Nat → Option Value → Prop where
  | found {id : Nat} {scope : Scope} {value : Value} (hscope : s.all[id]? = some scope)
    (hfind : scope.find? name = some value) : Walk s name id (some value)
  | missing {id : Nat} {scope : Scope} (hscope : s.all[id]? = some scope) (hfind : scope.find? name = none)
    (houter : scope.outer = none) : Walk s name id none
  | outward {id outer : Nat} {scope : Scope} {result : Option Value} (hscope : s.all[id]? = some scope)
    (hfind : scope.find? name = none) (houter : scope.outer = some outer) (h : Walk s name outer result) :
    Walk s name id result

-- The walk ends, and the result is that of looking up the name.
theorem walk_get? {s : Scopes} (h : s.isOutward) (name : String) (id : Nat) (hid : id < s.size) :
    s.Walk name id (s.get? id name) := by
  fun_induction get? s id name with
  | case1 id hnone => exact absurd (Array.getElem?_eq_none_iff.1 hnone) (Nat.not_le_of_gt hid)
  | case2 id scope hscope value hfind => exact .found hscope hfind
  | case3 id scope hscope hfind houter => exact .missing hscope hfind houter
  | case4 id scope hscope hfind outer houter hlt ih => exact .outward hscope hfind houter (ih (Nat.lt_trans hlt hid))
  | case5 id scope hscope hfind outer houter hlt => exact absurd (isOutward_iff.1 h id outer scope hscope houter) hlt

theorem isOutward_set {s : Scopes} (h : s.isOutward) (id : Nat) (name : String) (value : Value) :
    (s.set id name value).isOutward := by
  rw [isOutward_iff] at h ⊢
  intro i outer scope hscope houter
  rw [getElem?_set] at hscope
  split at hscope
  · obtain ⟨old, hold, rfl⟩ := Option.map_eq_some_iff.1 hscope
    exact h i outer old hold houter
  · exact h i outer scope hscope houter

theorem isOutward_enclose {s : Scopes} (h : s.isOutward) {outer : Nat} (ho : outer < s.size)
    (bindings : List (String × Value)) : (s.enclose outer bindings).isOutward := by
  rw [isOutward_iff] at h ⊢
  intro i o scope hscope houter
  rw [getElem?_enclose] at hscope
  split at hscope
  · cases hscope
    cases houter
    omega
  · exact h i o scope hscope houter

end Scopes

namespace Machine

theorem holds_true (m : Machine) : m.holds fun _ => true :=
  holds_iff.2 fun _ _ _ b _ => Value.everywhere_of_forall (fun _ => rfl) b.2

-- What refers to a scope refers to one that exists: functions, and scopes inside of others.
def isLinked (m : Machine) : Bool := m.scopes.isOutward && m.holds (Value.isLinked m.scopes.size)

theorem isLinked_initial : initial.isLinked := by decide

namespace Changes

variable {p : Nat → Value → Bool} {scope : Nat} {m m' : Machine}

theorem kept (h : Changes p scope m m') {i : Nat} (hi : i < m.scopes.size) (hne : i ≠ scope) :
    m'.scopes.all[i]? = m.scopes.all[i]? := by
  induction h with
  | refl => rfl
  | trans h _ ih ih' => rw [ih' (Nat.lt_of_lt_of_le hi h.size_le) hne, ih hi hne]
  | draw => rfl
  | print => rfl
  | bind => rw [Scopes.getElem?_set, if_neg hne]
  | enter _ _ _ ih =>
    -- the scope that is entered is a new one
    rw [ih (by rw [Scopes.size_enclose]; omega) (Nat.ne_of_lt hi), Scopes.getElem?_enclose_of_lt hi]

theorem outer (h : Changes p scope m m') {i : Nat} (hi : i < m.scopes.size) :
    (m'.scopes.all[i]?).map Scope.outer = (m.scopes.all[i]?).map Scope.outer := by
  induction h with
  | refl => rfl
  | trans h _ ih ih' => rw [ih' (Nat.lt_of_lt_of_le hi h.size_le), ih hi]
  | draw => rfl
  | print => rfl
  | bind =>
    rw [Scopes.getElem?_set]
    split
    · rw [Option.map_map]
      rfl
    · rfl
  | enter _ _ _ ih => rw [ih (by rw [Scopes.size_enclose]; omega), Scopes.getElem?_enclose_of_lt hi]

theorem isOutward (h : Changes Value.isLinked scope m m') (hm : m.scopes.isOutward) : m'.scopes.isOutward := by
  induction h with
  | refl => exact hm
  | trans _ _ ih ih' => exact ih' (ih hm)
  | draw => exact hm
  | print => exact hm
  | bind => exact Scopes.isOutward_set hm _ _ _
  | enter hf _ _ ih => exact ih (Scopes.isOutward_enclose hm (by simpa [Value.isLinked] using hf) _)

theorem isLinked (h : Changes Value.isLinked scope m m') (hm : m.isLinked) : m'.isLinked := by
  simp only [Machine.isLinked, Bool.and_eq_true] at hm ⊢
  exact ⟨h.isOutward hm.1, h.holds lasting_isLinked hm.2⟩

end Changes

-- What a run in a scope leaves as it was, and how the scopes lie in each other behind it.
structure Confined (scope : Nat) (m m' : Machine) : Prop where
  kept : ∀ i < m.scopes.size, i ≠ scope → m'.scopes.all[i]? = m.scopes.all[i]?
  outer : ∀ i < m.scopes.size, (m'.scopes.all[i]?).map Scope.outer = (m.scopes.all[i]?).map Scope.outer
  made : ∀ (i outer : Nat) (made : Scope), m.scopes.size ≤ i → m'.scopes.all[i]? = some made →
    made.outer = some outer → outer < i
  ends : ∀ (name : String) (id : Nat), id < m'.scopes.size → m'.scopes.Walk name id (m'.scopes.get? id name)
  linked : m'.isLinked

theorem confined {p : Nat → Value → Bool} {scope other : Nat} {m m' : Machine} (h : Changes p scope m m')
    (hlinked : Changes Value.isLinked other m m') (hm : m.isLinked) : Confined scope m m' := by
  have hm' := hlinked.isLinked hm
  have houtward : m'.scopes.isOutward := (Bool.and_eq_true_iff.1 hm').1
  exact ⟨fun i hi hne => h.kept hi hne, fun i hi => h.outer hi,
    fun i outer made _ hmade houter => Scopes.isOutward_iff.1 houtward i outer made hmade houter,
    Scopes.walk_get? houtward, hm'⟩

end Machine

-- A part of a run, with a value, a failure or a return for its result, changes one scope at most.
def Run.Confines (scope : Nat) (m : Machine) (x : Run α) : Prop := ∀ a m', x m = some (a, m') → Machine.Confined scope m m'

theorem Eval.Keeps.confines {p : Nat → Value → Bool} {scope other : Nat} {m : Machine} (hm : m.isLinked) {x : Eval α}
    {Q R : Nat → α → Prop} (h : Keeps p scope m x Q) (hlinked : Keeps Value.isLinked other m x R) {y : Run β}
    {ok : α → β} {failed : Fault → β} (hy : y m = (x m).handed ok failed) : Run.Confines scope m y := by
  intro b m' hb
  rw [hy] at hb
  exact Machine.confined (Outcome.Ends.handed h hb).1 (Outcome.Ends.handed hlinked hb).1 hm

namespace Run

open Eval Machine

-- Whatever is evaluated in a scope changes that scope only. A call changes none, as its own scope is a new one.
theorem eval_confined (steps scope : Nat) (m : Machine) (hm : m.isLinked) (hs : scope < m.scopes.size) :
    (∀ e, Confines scope m (expr steps scope e)) ∧
    (∀ s, Confines scope m (stmt (expr steps scope) scope s)) ∧
    (∀ block, Confines scope m (stmts (expr steps scope) scope block .null)) ∧
    (∀ block, Confines scope m (gather steps scope block)) ∧
    (∀ p, Confines scope m (program steps scope p)) ∧
    (∀ p, Confines scope m (scene steps scope p)) ∧
    ∀ callee args, callee.everywhere (Value.isLinked m.scopes.size) →
      (∀ v ∈ args, v.everywhere (Value.isLinked m.scopes.size)) →
      Confines m.scopes.size m (call (expr steps) callee args) := by
  have hready : Ready Value.isLinked scope m :=
    ⟨(Bool.and_eq_true_iff.1 hm).2, fun ref params body => by simpa [Value.isLinked] using hs⟩
  have htame := tame lasting_isLinked steps
  refine ⟨fun e => ?_, fun s => ?_, fun block => ?_, fun block => ?_, fun p => ?_, fun p => ?_, ?_⟩
  · have h := htame.gives scope m e hready
    exact h.confines hm h (run_expr_eq steps scope m e)
  · have h := gives_stmt lasting_isLinked (htame.gives scope) s hready
    exact h.confines hm h (run_stmt_eq steps scope m s)
  · have h : Gives Value.isLinked scope m (Eval.stmts (Eval.expr steps scope) scope block .null) :=
      gives_stmts lasting_isLinked (htame.gives scope) block hready rfl
    exact h.confines hm h (run_stmts_eq steps scope m block)
  · have h := htame.gathers scope m block hready
    exact h.confines hm h (run_gather_eq steps scope m block)
  · have h := gives_program lasting_isLinked steps p hready
    exact h.confines hm h (run_program_eq steps scope m p)
  · have h := keeps_scene lasting_isLinked steps p hready
    exact h.confines hm h (run_scene_eq steps scope m p)
  · intro callee args hcallee hargs
    have hlinked := gives_call lasting_isLinked htame.gives hready hcallee hargs
    -- Without a condition on values a call can be told of the scope that does not exist yet.
    have hnew : Gives (fun _ _ => true) m.scopes.size m (Eval.call (Eval.expr steps) callee args) :=
      gives_call lasting_true (tame lasting_true steps).gives ⟨holds_true m, fun _ _ _ => rfl⟩
        (Value.everywhere_of_forall (fun _ => rfl) callee) fun v _ => Value.everywhere_of_forall (fun _ => rfl) v
    exact hnew.confines hm hlinked (run_call_eq steps m callee args)

-- A function that is called binds a name in its own scope, and gives a function that lives on in it.
theorem eval_confined_closure :
    let body : Block := [.bind "y" (.ident "x"), .expr (.function [] [.expr (.ident "y")])]
    let f : Value := .function 0 ["x"] body 0
    let m : Machine := ⟨⟨#[⟨[("f", f)], none⟩]⟩, 1, ""⟩
    m.isLinked ∧ m.scopes.size = 1 ∧
      (∃ v m', expr 9 0 (.call (.ident "f") [.int 7]) m = some (v, m') ∧ m'.scopes.size = 2 ∧ Confined 0 m m') ∧
      ∃ v m', call (expr 9) f [.int 7] m = some (v, m') ∧ m'.scopes.size = 2 ∧ Confined 1 m m' := by
  intro body f m
  have hm : m.isLinked := by decide
  have hall := eval_confined 9 0 m hm (by decide)
  have hexpr : (expr 9 0 (.call (.ident "f") [.int 7]) m).map (·.2.scopes.size) = some 2 := by decide +kernel
  have hcall : (call (expr 9) f [.int 7] m).map (·.2.scopes.size) = some 2 := by decide +kernel
  obtain ⟨⟨v₁, m₁⟩, hm₁, hsize₁⟩ := Option.map_eq_some_iff.1 hexpr
  obtain ⟨⟨v₂, m₂⟩, hm₂, hsize₂⟩ := Option.map_eq_some_iff.1 hcall
  exact ⟨hm, rfl, ⟨v₁, m₁, hm₁, hsize₁, hall.1 _ v₁ m₁ hm₁⟩, v₂, m₂, hm₂, hsize₂,
    hall.2.2.2.2.2.2 f [.int 7] (by decide) (by decide) v₂ m₂ hm₂⟩

end Run

end SolidScript
