import SolidScript.Eval.Program
import SolidScript.Proofs.Eval.Changes
import SolidScript.Proofs.Eval.Refinement

namespace SolidScript

namespace Eval

open Machine

variable {α β : Type} {p : Nat → Value → Bool} {scope : Nat} {m : Machine}

-- A machine whose values have `p`, and a scope that functions with `p` can be defined in.
structure Ready (p : Nat → Value → Bool) (scope : Nat) (m : Machine) : Prop where
  holds : m.holds (p m.scopes.size)
  defines : ∀ ref params body, p m.scopes.size (.function ref params body scope)

theorem Ready.changed (hp : Lasting p) (hm : Ready p scope m) {m' : Machine} (h : Changes p scope m m') :
    Ready p scope m' :=
  ⟨h.holds hp hm.holds, fun ref params body => hp.later h.size_le (hm.defines ref params body)⟩

theorem Ready.enclosed (hp : Lasting p) (hm : Ready p scope m) (outer : Nat) {bindings : List (String × Value)}
    (hb : ∀ b ∈ bindings, b.2.everywhere (p m.scopes.size)) :
    Ready p m.scopes.size { m with scopes := m.scopes.enclose outer bindings } := by
  constructor
  · rw [Scopes.size_enclose]
    exact holds_mono (fun _ => hp.grow) (holds_enclose hm.holds outer hb)
  · rw [Scopes.size_enclose]
    exact fun _ _ _ => hp.inner

-- What holds of the machine and of the value.
def Outcome.Ends (left : Machine → Prop) (good : α → Machine → Prop) : Outcome α → Prop
  | done a m => left m ∧ good a m
  | faulted _ m => left m
  | exhausted => True

namespace Outcome.Ends

variable {left left' : Machine → Prop} {good : α → Machine → Prop}

theorem imp {good' : α → Machine → Prop} {o : Outcome α} (h : o.Ends left good) (hl : ∀ m, left m → left' m)
    (hg : ∀ a m, left m → good a m → good' a m) : o.Ends left' good' := by
  cases o with
  | done a m => exact ⟨hl m h.1, hg a m h.1 h.2⟩
  | faulted cause m => exact hl m h
  | exhausted => trivial

theorem bind {good' : β → Machine → Prop} {x : Eval α} {f : α → Eval β} (h : (x m).Ends left good)
    (hl : ∀ m', left m' → left' m') (hf : ∀ a m', left m' → good a m' → (f a m').Ends left' good') :
    ((x >>= f) m).Ends left' good' := by
  change (Eval.bind x f m).Ends left' good'
  unfold Eval.bind
  cases hx : x m with
  | done a m' =>
    rw [hx] at h
    exact hf a m' h.1 h.2
  | faulted cause m' =>
    rw [hx] at h
    exact hl m' h
  | exhausted => trivial

-- The same for the form of the run that hands a fault on as a value.
theorem handed {o : Outcome α} (h : o.Ends left good) {ok : α → β} {failed : Fault → β} {b : β} {m : Machine}
    (hb : o.handed ok failed = some (b, m)) : left m ∧ ((∃ a, b = ok a ∧ good a m) ∨ ∃ cause, b = failed cause) := by
  cases o with
  | done a m' =>
    cases hb
    exact ⟨h.1, .inl ⟨a, rfl, h.2⟩⟩
  | faulted cause m' =>
    cases hb
    exact ⟨h, .inr ⟨cause, rfl⟩⟩
  | exhausted => cases hb

end Outcome.Ends

-- A run in a scope makes the changes that it may, and `Q` holds of its value and the number of scopes then.
def Keeps (p : Nat → Value → Bool) (scope : Nat) (m : Machine) (x : Eval α) (Q : Nat → α → Prop) : Prop :=
  (x m).Ends (Changes p scope m) fun a m' => Q m'.scopes.size a

namespace Keeps

variable {Q : Nat → α → Prop} {R : Nat → β → Prop}

theorem pure {a : α} (h : Q m.scopes.size a) : Keeps p scope m (Pure.pure a) Q := ⟨.refl m, h⟩

theorem fault (cause : Fault) : Keeps p scope m (Eval.fault cause) Q := Changes.refl m

theorem outOfSteps : Keeps p scope m Eval.outOfSteps Q := trivial

theorem ofExcept {x : Except Fault α} (h : ∀ a, x = .ok a → Q m.scopes.size a) :
    Keeps p scope m (Eval.ofExcept x) Q := by
  cases x with
  | error cause => exact Changes.refl m
  | ok a => exact ⟨.refl m, h a rfl⟩

theorem bind (hp : Lasting p) (hm : Ready p scope m) {x : Eval α} {f : α → Eval β} (hx : Keeps p scope m x Q)
    (hf : ∀ a m', Ready p scope m' → m.scopes.size ≤ m'.scopes.size → Q m'.scopes.size a → Keeps p scope m' (f a) R) :
    Keeps p scope m (x >>= f) R := by
  refine Outcome.Ends.bind hx (fun _ h => h) ?_
  intro a m' h ha
  have hrest := hf a m' (hm.changed hp h) h.size_le ha
  exact hrest.imp (fun _ => h.trans) fun _ _ _ hb => hb

theorem freshRef : Keeps p scope m Eval.freshRef fun _ _ => True := ⟨.draw m, trivial⟩

theorem printLine (line : String) : Keeps p scope m (Eval.printLine line) fun _ _ => True := ⟨.print m line, trivial⟩

theorem bindName (name : String) {value : Value} (hv : value.everywhere (p m.scopes.size)) :
    Keeps p scope m (Eval.bindName scope name value) fun _ _ => True :=
  ⟨.bind name hv, trivial⟩

theorem raise {v : Value} (h : v.everywhere (p m.scopes.size)) :
    Keeps p scope m (Eval.raise v) fun n v => v.everywhere (p n) := by
  cases v with
  | failure cause => exact Changes.refl m
  | _ => exact ⟨.refl m, h⟩

theorem readName (hp : Lasting p) (hm : Ready p scope m) (name : String) :
    Keeps p scope m (Eval.readName scope name) fun n v => v.everywhere (p n) := by
  unfold Keeps Eval.readName
  cases hv : m.scopes.get? scope name with
  | none =>
    cases Builtin.ofName? name with
    | none => exact Changes.refl m
    | some b => exact ⟨.refl m, hp.plain rfl⟩
  | some v => exact raise (everywhere_get? hm.holds hv)

-- A run in a scope that is new is a change of the scope that it was entered from, whatever it binds there.
theorem enterScope {x : Nat → Eval α} {ref outer : Nat} {params : List String} {body : Block}
    {bindings : List (String × Value)} (hf : p m.scopes.size (.function ref params body outer))
    (hb : ∀ b ∈ bindings, b.2.everywhere (p m.scopes.size))
    (hx : Keeps p m.scopes.size { m with scopes := m.scopes.enclose outer bindings } (x m.scopes.size) Q) :
    Keeps p scope m (Eval.enterScope outer bindings >>= x) Q := by
  change (x m.scopes.size { m with scopes := m.scopes.enclose outer bindings }).Ends _ _
  exact hx.imp (fun _ => .enter hf hb) fun _ _ _ ha => ha

end Keeps

-- The value that a run gives has `p` everywhere.
abbrev Gives (p : Nat → Value → Bool) (scope : Nat) (m : Machine) (x : Eval Value) : Prop :=
  Keeps p scope m x fun n v => v.everywhere (p n)

-- The primitives that a run collects.
abbrev Gathers (p : Nat → Value → Bool) (scope : Nat) (m : Machine) (x : Eval (List Value × Bool)) : Prop :=
  Keeps p scope m x fun n found => ∀ v ∈ found.1, v.isPrimitive ∧ v.everywhere (p n)

section Parts

variable (hp : Lasting p) {run : Expr → Eval Value} (hrun : ∀ m e, Ready p scope m → Gives p scope m (run e))

include hp

-- A new value that holds others and is neither a function nor a primitive.
theorem gives_ordinary (hm : Ready p scope m) (make : Nat → Value) (ho : ∀ ref, (make ref).isOrdinary)
    (hv : ∀ ref, ∀ v ∈ (make ref).parts, v.everywhere (p m.scopes.size)) :
    Gives p scope m (do return make (← freshRef)) := by
  apply Keeps.bind hp hm .freshRef
  intro ref m₁ _ hle _
  have hparts : ∀ v ∈ (make ref).parts, v.everywhere (p m₁.scopes.size) :=
    fun v hmem => hp.everywhere hle (hv ref v hmem)
  exact Keeps.pure (Value.everywhere_iff.2 ⟨hp.ordinary (ho ref), hparts⟩)

include hrun

theorem keeps_each (es : List Expr) (hm : Ready p scope m) :
    Keeps p scope m (each run es) fun n vs => ∀ v ∈ vs, v.everywhere (p n) := by
  induction es generalizing m with
  | nil => exact .pure (by simp)
  | cons e rest ih =>
    apply Keeps.bind hp hm (hrun m e hm)
    intro v m₁ hm₁ _ hv
    apply Keeps.bind hp hm₁ (ih hm₁)
    intro vs m₂ _ hle hvs
    apply Keeps.pure
    simpa using ⟨hp.everywhere hle hv, hvs⟩

-- The parts of the hash that is made of `found` are the keys and the values in it.
theorem keeps_entries (pairs : List (Expr × Expr)) (hm : Ready p scope m) {found : List (Key × HashPair Value)}
    (hfound : ∀ v ∈ Value.entryParts found, v.everywhere (p m.scopes.size)) :
    Keeps p scope m (entries run pairs found) fun n entries => ∀ v ∈ Value.entryParts entries, v.everywhere (p n) := by
  induction pairs generalizing m found with
  | nil => exact .pure hfound
  | cons pair rest ih =>
    apply Keeps.bind hp hm (hrun m pair.1 hm)
    intro key m₁ hm₁ hle₁ hkey
    cases key.key? with
    | none => exact .fault _
    | some k =>
      apply Keeps.bind hp hm₁ (hrun m₁ pair.2 hm₁)
      intro v m₂ hm₂ hle₂ hv
      apply ih hm₂
      intro u hu
      rcases Value.mem_entryParts_insertEntry hu with rfl | rfl | hu
      · exact hp.everywhere hle₂ hkey
      · exact hv
      · exact hp.everywhere (Nat.le_trans hle₁ hle₂) (hfound u hu)

theorem gives_stmt (s : Stmt) (hm : Ready p scope m) : Gives p scope m (stmt run scope s) := by
  cases s with
  | bind name value =>
    apply Keeps.bind hp hm (hrun m value hm)
    intro v m₁ hm₁ _ hv
    apply Keeps.bind hp hm₁ (.bindName name hv)
    intro _ m₂ _ _ _
    exact Keeps.pure (hp.plain rfl)
  | ret value =>
    apply Keeps.bind hp hm (hrun m value hm)
    intro v m₁ _ _ hv
    apply Keeps.pure
    exact Value.everywhere_iff.2 ⟨hp.ordinary rfl, by simpa [Value.parts] using hv⟩
  | expr value => exact hrun m value hm

theorem gives_stmts (block : Block) (hm : Ready p scope m) {value : Value} (hv : value.everywhere (p m.scopes.size)) :
    Gives p scope m (stmts run scope block value) := by
  induction block generalizing m value with
  | nil => exact .pure hv
  | cons s rest ih =>
    apply Keeps.bind hp hm (gives_stmt hp hrun s hm)
    intro v m₁ hm₁ _ hv
    cases v with
    | returned inner => exact .pure hv
    | _ => exact ih hm₁ hv

end Parts

theorem gathers_behind (hp : Lasting p) (hm : Ready p scope m) {found : List Value}
    (hfound : ∀ v ∈ found, v.isPrimitive ∧ v.everywhere (p m.scopes.size)) {rest : Eval (List Value × Bool)}
    (hrest : Gathers p scope m rest) : Gathers p scope m (behind found rest) := by
  apply Keeps.bind hp hm hrest
  intro more m₁ _ hle hmore
  apply Keeps.pure
  intro v hv
  rcases List.mem_append.1 hv with hv | hv
  · exact ⟨(hfound v hv).1, hp.everywhere hle (hfound v hv).2⟩
  · exact hmore v hv

section Collecting

variable {run : Expr → Eval Value} {branch : Expr → Block → Option Block → Eval (List Value × Bool)}

variable (hp : Lasting p) (hrun : ∀ m e, Ready p scope m → Gives p scope m (run e))
variable (hbranch : ∀ m condition consequence alternative, Ready p scope m →
  Gathers p scope m (branch condition consequence alternative))

include hp hrun hbranch

theorem gathers_collect (block : Block) (hm : Ready p scope m) :
    Gathers p scope m (collect run branch scope block) := by
  have hsolids : ∀ {n : Nat} {v : Value}, v.everywhere (p n) → ∀ u ∈ v.solids, u.isPrimitive ∧ u.everywhere (p n) := by
    intro n v hv u hu
    obtain ⟨hprimitive, hgood⟩ := Value.mem_solids v u hu
    exact ⟨hprimitive, hgood hv⟩
  induction block generalizing m with
  | nil => exact .pure (by simp)
  | cons s rest ih =>
    cases hs : isBranch s with
    | true =>
      obtain ⟨condition, consequence, alternative, rfl⟩ := eq_cond_of_isBranch hs
      apply Keeps.bind hp hm (hbranch m condition consequence alternative hm)
      intro result m₁ hm₁ _ hfound
      obtain ⟨found, ended⟩ := result
      cases ended with
      | true => exact .pure hfound
      | false => exact gathers_behind hp hm₁ hfound (ih hm₁)
    | false =>
      rw [collect_cons hs]
      apply Keeps.bind hp hm (gives_stmt hp hrun s hm)
      intro value m₁ hm₁ _ hvalue
      cases value with
      | returned inner => exact .pure (hsolids (Value.everywhere_of_mem hvalue List.mem_cons_self))
      | _ => exact gathers_behind hp hm₁ (hsolids hvalue) (ih hm₁)

end Collecting

section Calls

variable {q : Value → Bool} {args elements : List Value}

-- What builtins take out of their arguments.
theorem everywhere_onlyArray {b : Builtin} (h : b.onlyArray args = .ok elements) (hargs : ∀ v ∈ args, v.everywhere q) :
    ∀ v ∈ elements, v.everywhere q := by
  unfold Builtin.onlyArray at h
  split at h
  · cases h
    exact fun v hv => Value.everywhere_of_mem (hargs _ List.mem_cons_self) hv
  · cases h
  · cases h

theorem everywhere_arrayAndValue {found : List Value × Value} (h : Builtin.arrayAndValue args = .ok found)
    (hargs : ∀ v ∈ args, v.everywhere q) : ∀ v ∈ found.1 ++ [found.2], v.everywhere q := by
  unfold Builtin.arrayAndValue at h
  split at h
  · cases h
    intro v hv
    rcases List.mem_append.1 hv with hv | hv
    · exact Value.everywhere_of_mem (hargs _ List.mem_cons_self) hv
    · exact hargs v (List.mem_cons_of_mem _ hv)
  · cases h
  · cases h

theorem everywhere_headD (hnull : Value.null.everywhere q) (h : ∀ v ∈ elements, v.everywhere q) :
    (elements.headD .null).everywhere q := by
  cases elements with
  | nil => exact hnull
  | cons v rest => exact h v List.mem_cons_self

theorem everywhere_getLastD (hnull : Value.null.everywhere q) (h : ∀ v ∈ elements, v.everywhere q) :
    (elements.getLastD .null).everywhere q := by
  rw [List.getLastD_eq_getLast?]
  cases hl : elements.getLast? with
  | none => exact hnull
  | some v => exact h v (List.mem_of_getLast? hl)

theorem isPlain_length {v : Value} (h : Builtin.length args = .ok v) : v.isPlain := by
  unfold Builtin.length at h
  split at h <;> cases h <;> rfl

theorem everywhere_unreturned {v : Value} (h : v.everywhere q) : v.unreturned.everywhere q := by
  cases v with
  | returned inner => exact Value.everywhere_of_mem h List.mem_cons_self
  | _ => exact h

variable (hp : Lasting p)

include hp

theorem keeps_printEach (args : List Value) (hm : Ready p scope m) :
    Keeps p scope m (printEach args) fun _ _ => True := by
  induction args generalizing m with
  | nil => exact .pure trivial
  | cons v rest ih =>
    apply Keeps.bind hp hm (.printLine _)
    intro _ m₁ hm₁ _ _
    exact ih hm₁

theorem gives_newArray (hm : Ready p scope m) {elements : List Value}
    (h : ∀ v ∈ elements, v.everywhere (p m.scopes.size)) : Gives p scope m (newArray elements) :=
  gives_ordinary hp hm (.array · elements) (fun _ => rfl) fun _ => h

theorem gives_builtin (b : Builtin) (hm : Ready p scope m) (hargs : ∀ v ∈ args, v.everywhere (p m.scopes.size)) :
    Gives p scope m (builtin b args) := by
  have hnull : ∀ n, Value.null.everywhere (p n) := fun n => hp.plain rfl
  have harray (b : Builtin) :
      Keeps p scope m (ofExcept (b.onlyArray args)) fun n elements => ∀ v ∈ elements, v.everywhere (p n) :=
    .ofExcept fun _ h => everywhere_onlyArray h hargs
  cases b with
  | len => exact .ofExcept fun v h => hp.plain (isPlain_length h)
  | first =>
    apply Keeps.bind hp hm (harray .first)
    intro elements m₁ _ _ h
    exact Keeps.raise (everywhere_headD (hnull _) h)
  | last =>
    apply Keeps.bind hp hm (harray .last)
    intro elements m₁ _ _ h
    exact Keeps.raise (everywhere_getLastD (hnull _) h)
  | rest =>
    apply Keeps.bind hp hm (harray .rest)
    intro elements m₁ hm₁ _ h
    cases elements with
    | nil => exact .pure (hnull _)
    | cons v rest => exact gives_newArray hp hm₁ fun v hv => h v (List.mem_cons_of_mem _ hv)
  | push =>
    have hpair : Keeps p scope m (ofExcept (Builtin.arrayAndValue args)) fun n found =>
        ∀ v ∈ found.1 ++ [found.2], v.everywhere (p n) := .ofExcept fun _ h => everywhere_arrayAndValue h hargs
    apply Keeps.bind hp hm hpair
    intro found m₁ hm₁ _ h
    exact gives_newArray hp hm₁ h
  | puts =>
    apply Keeps.bind hp hm (keeps_printEach hp args hm)
    intro _ m₁ _ _ _
    exact Keeps.pure (hnull _)

theorem gives_call {run : Nat → Expr → Eval Value} (hrun : ∀ scope m e, Ready p scope m → Gives p scope m (run scope e))
    (hm : Ready p scope m) {callee : Value} {args : List Value} (hcallee : callee.everywhere (p m.scopes.size))
    (hargs : ∀ v ∈ args, v.everywhere (p m.scopes.size)) : Gives p scope m (call run callee args) := by
  cases callee with
  | function ref params body outer =>
    unfold call
    dsimp only
    split
    · have hbound : ∀ b ∈ params.zip args, b.2.everywhere (p m.scopes.size) :=
        fun b hb => hargs b.2 (List.of_mem_zip hb).2
      have hinner := hm.enclosed hp outer hbound
      have hbody : Gives p m.scopes.size _ (stmts (run m.scopes.size) m.scopes.size body .null) :=
        gives_stmts hp (hrun m.scopes.size) body hinner (hp.plain rfl)
      apply Keeps.enterScope hcallee hbound
      apply Keeps.bind hp hinner hbody
      intro v m₁ _ _ hv
      exact Keeps.raise (everywhere_unreturned hv)
    · exact .fault _
  | builtin b => exact gives_builtin hp b hm hargs
  | _ => exact .fault _

end Calls

-- A way of running expressions, and of collecting from blocks, for any scope.
structure Tame (p : Nat → Value → Bool) (run : Nat → Expr → Eval Value)
    (gather : Nat → Block → Eval (List Value × Bool)) : Prop where
  gives : ∀ scope m e, Ready p scope m → Gives p scope m (run scope e)
  gathers : ∀ scope m block, Ready p scope m → Gathers p scope m (gather scope block)

-- What holds of the runs of all parts holds of the run of an expression.
theorem gives_node (hp : Lasting p) {run : Nat → Expr → Eval Value} {gather : Nat → Block → Eval (List Value × Bool)}
    (h : Tame p run gather) (hm : Ready p scope m) (e : Expr) : Gives p scope m (node run gather scope e) := by
  have hrun := h.gives scope
  cases e with
  | ident name => exact .readName hp hm name
  | int value => exact .pure (hp.plain rfl)
  | float value => exact .pure (hp.plain rfl)
  | string text => exact .pure (hp.plain rfl)
  | bool value => exact .pure (hp.plain rfl)
  | undef => exact .pure (hp.plain rfl)
  | unary op right =>
    apply Keeps.bind hp hm (hrun m right hm)
    intro v m₁ _ _ _
    apply Keeps.ofExcept
    intro u hu
    exact hp.plain (UnaryOp.isPlain_apply hu)
  | binary left op right =>
    apply Keeps.bind hp hm (hrun m left hm)
    intro l m₁ hm₁ _ _
    apply Keeps.bind hp hm₁ (hrun m₁ right hm₁)
    intro r m₂ _ _ _
    apply Keeps.ofExcept
    intro u hu
    exact hp.plain (BinaryOp.isPlain_apply hu)
  | cond condition consequence alternative =>
    apply Keeps.bind hp hm (hrun m condition hm)
    intro c m₁ hm₁ _ _
    exact gives_stmts hp hrun _ hm₁ (hp.plain rfl)
  | function params body =>
    apply Keeps.bind hp hm .freshRef
    intro ref m₁ hm₁ _ _
    apply Keeps.pure
    exact Value.everywhere_iff.2 ⟨hm₁.defines ref params body, by simp [Value.parts]⟩
  | call callee args =>
    apply Keeps.bind hp hm (hrun m callee hm)
    intro c m₁ hm₁ _ hc
    apply Keeps.bind hp hm₁ (keeps_each hp hrun args hm₁)
    intro vs m₂ hm₂ hle hvs
    exact gives_call hp h.gives hm₂ (hp.everywhere hle hc) hvs
  | array elements =>
    apply Keeps.bind hp hm (keeps_each hp hrun elements hm)
    intro vs m₁ hm₁ _ hvs
    exact gives_ordinary hp hm₁ (.array · vs) (fun _ => rfl) fun _ => hvs
  | hash pairs =>
    have hempty : ∀ v ∈ Value.entryParts [], v.everywhere (p m.scopes.size) := List.forall_mem_nil _
    apply Keeps.bind hp hm (keeps_entries hp hrun pairs hm hempty)
    intro found m₁ hm₁ _ hfound
    exact gives_ordinary hp hm₁ (.hash · found) (fun _ => rfl) fun _ => hfound
  | index left key =>
    apply Keeps.bind hp hm (hrun m left hm)
    intro l m₁ hm₁ _ hl
    apply Keeps.bind hp hm₁ (hrun m₁ key hm₁)
    intro k m₂ hm₂ hle _
    have hfound : Keeps p scope m₂ (ofExcept (l.index k)) fun n v => v.everywhere (p n) := by
      apply Keeps.ofExcept
      intro v hv
      rcases Value.mem_parts_of_index hv with rfl | hv
      · exact hp.plain rfl
      · exact hp.everywhere hle (Value.everywhere_of_mem hl hv)
    apply Keeps.bind hp hm₂ hfound
    intro v m₃ _ _ hv
    exact Keeps.raise hv
  | named name value =>
    apply Keeps.bind hp hm (hrun m value hm)
    intro v m₁ hm₁ _ hv
    exact gives_ordinary hp hm₁ (.named · name v) (fun _ => rfl) (by simpa [Value.parts] using hv)
  | primitive kind args body =>
    apply Keeps.bind hp hm (keeps_each hp hrun args hm)
    intro vs m₁ hm₁ _ hvs
    cases body with
    | none =>
      apply Keeps.bind hp hm₁ .freshRef
      intro ref m₂ _ hle _
      refine Keeps.pure (Value.everywhere_iff.2 ⟨hp.leaf, ?_⟩)
      intro v hv
      exact hp.everywhere hle (hvs v (by simpa [Value.parts] using hv))
    | some block =>
      apply Keeps.bind hp hm₁ (h.gathers scope m₁ block hm₁)
      intro found m₂ hm₂ hle hfound
      apply Keeps.bind hp hm₂ .freshRef
      intro ref m₃ _ hle' _
      refine Keeps.pure (Value.everywhere_iff.2 ⟨hp.block fun v hv => (hfound v hv).1, ?_⟩)
      intro v hv
      rcases List.mem_append.1 hv with hv | hv
      · exact hp.everywhere (Nat.le_trans hle hle') (hvs v hv)
      · exact hp.everywhere hle' (hfound v hv).2

-- All runs of expressions and blocks, by induction on the number of steps.
theorem tame (hp : Lasting p) (steps : Nat) : Tame p (expr steps) (gather steps) := by
  induction steps with
  | zero =>
    refine ⟨fun scope m e _ => .outOfSteps, fun scope m block hm => ?_⟩
    exact gathers_collect hp (fun _ _ _ => .outOfSteps) (fun _ _ _ _ _ => .outOfSteps) block hm
  | succ steps ih =>
    have hnode (scope : Nat) (m : Machine) (e : Expr) (hm : Ready p scope m) := gives_node hp ih hm e
    refine ⟨hnode, fun scope m block hm => ?_⟩
    apply gathers_collect hp (hnode scope) _ block hm
    intro m condition consequence alternative hm
    apply Keeps.bind hp hm (ih.gives scope m condition hm)
    intro c m₁ hm₁ _ _
    exact ih.gathers scope m₁ _ hm₁

theorem gives_program (hp : Lasting p) (steps : Nat) (program : Program) (hm : Ready p scope m) :
    Gives p scope m (Eval.program steps scope program) := by
  have hvalue : Gives p scope m (stmts (expr steps scope) scope program .null) :=
    gives_stmts hp ((tame hp steps).gives scope) program hm (hp.plain rfl)
  apply Keeps.bind hp hm hvalue
  intro v m₁ _ _ hv
  exact Keeps.raise (everywhere_unreturned hv)

theorem keeps_scene (hp : Lasting p) (steps : Nat) (program : Program) (hm : Ready p scope m) :
    Keeps p scope m (scene steps scope program) fun n found => ∀ v ∈ found, v.isPrimitive ∧ v.everywhere (p n) := by
  apply Keeps.bind hp hm ((tame hp steps).gathers scope m program hm)
  intro found m₁ _ _ hfound
  exact Keeps.pure hfound

section Steady

-- A condition that does not speak of scopes, so functions can be defined in any of them.
variable {q : Value → Bool} (hq : Lasting fun _ => q) (hm : m.holds q) (steps scope : Nat) (program : Program)

include hq hm

theorem ends_program : (Eval.program steps scope program m).Ends (·.holds q) fun v _ => v.everywhere q :=
  (gives_program hq steps program ⟨hm, fun _ _ _ => hq.inner⟩).imp (fun _ h => h.holds hq hm) fun _ _ _ hv => hv

theorem ends_scene :
    (scene steps scope program m).Ends (·.holds q) fun found _ => ∀ v ∈ found, v.isPrimitive ∧ v.everywhere q :=
  (keeps_scene hq steps program ⟨hm, fun _ _ _ => hq.inner⟩).imp (fun _ h => h.holds hq hm) fun _ _ _ hfound => hfound

end Steady

end Eval

namespace Machine

variable {m : Machine} {left : Machine → Prop} {scope : Nat}

theorem ends_runProgram {good : Value → Prop} (hm : left m) (program : Program)
    (h : (Eval.program Run.stepLimit scope program m).Ends left fun v _ => good v) :
    left (m.runProgram scope program).2 ∧
      ∀ v, (m.runProgram scope program).1 = some v → good v ∨ ∃ cause, v = .failure cause := by
  unfold runProgram
  have hrun := Eval.run_program_eq Run.stepLimit scope m program
  cases hx : Run.program Run.stepLimit scope program m with
  | none => exact ⟨hm, nofun⟩
  | some result =>
    obtain ⟨hleft, hvalue⟩ := h.handed (hrun.symm.trans hx)
    refine ⟨hleft, ?_⟩
    rintro _ ⟨⟩
    exact hvalue.imp_left fun ⟨_, hv, hgood⟩ => hv ▸ hgood

theorem ends_runScene {good : List Value → Prop} (hm : left m) (program : Program)
    (h : (Eval.scene Run.stepLimit scope program m).Ends left fun found _ => good found) :
    left (m.runScene scope program).2 ∧ ∀ found, (m.runScene scope program).1 = .ok found → good found := by
  unfold runScene
  have hrun := Eval.run_scene_eq Run.stepLimit scope m program
  cases hx : Run.scene Run.stepLimit scope program m with
  | none => exact ⟨hm, nofun⟩
  | some result =>
    obtain ⟨hleft, hvalue⟩ := h.handed (hrun.symm.trans hx)
    obtain ⟨result, m'⟩ := result
    rcases hvalue with ⟨found, rfl, hgood⟩ | ⟨cause, rfl⟩
    · refine ⟨hleft, ?_⟩
      rintro _ ⟨⟩
      exact hgood
    · exact ⟨hleft, nofun⟩

theorem ends_evaluate {good : List Value → Prop} (hm : left m) (source : String)
    (h : ∀ program, (Eval.scene Run.stepLimit scope program m).Ends left fun found _ => good found) :
    left (m.evaluate scope source).2 ∧ ∀ found, (m.evaluate scope source).1 = .ok found → good found := by
  unfold evaluate
  dsimp only
  split
  · exact ends_runScene hm _ (h _)
  · exact ⟨hm, nofun⟩

end Machine

end SolidScript
