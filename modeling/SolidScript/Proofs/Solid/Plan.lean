import Mathlib.Data.List.Forall2
import SolidScript.Proofs.Solid.Nodes

namespace SolidScript

namespace Shader

open Value

-- The call for a node: of the function that is made for it, or of the library.
def Stands (plan : List (Value × Function Float)) (v : Value) (call : Call Float) : Prop :=
  (∃ f, (v, f) ∈ plan ∧ call = .block f.name) ∨
    ∃ kind f, v.kind? = some kind ∧ call.library? = some f ∧ f.name = kind.keyword

-- A plan gives a function to each node that needs one. What it calls are the children of the node with geometry.
structure IsPlan (vs : List Value) (calls : List (Call Float)) (functions : List (Function Float))
    (plan : List (Value × Function Float)) : Prop where
  nodes : plan.map Prod.fst = (nodesEach vs).filter needsFunction
  functions : plan.map Prod.snd = functions
  calls : List.Forall₂ (Stands plan) (vs.filter hasGeometry) calls
  kind : ∀ v f, (v, f) ∈ plan → v.kind? = some f.body.kind
  children : ∀ v f, (v, f) ∈ plan → List.Forall₂ (Stands plan) (v.children.filter hasGeometry) f.body.calls

theorem Stands.mono {plan plan' : List (Value × Function Float)} (h : plan ⊆ plan') {vs : List Value}
    {calls : List (Call Float)} (hcalls : List.Forall₂ (Stands plan) vs calls) : List.Forall₂ (Stands plan') vs calls := by
  refine hcalls.imp fun v call hv => ?_
  rcases hv with ⟨f, hf, hcall⟩ | hlibrary
  · exact .inl ⟨f, h hf, hcall⟩
  · exact .inr hlibrary

namespace IsPlan

variable {vs vs' : List Value} {calls calls' : List (Call Float)} {functions functions' : List (Function Float)}
variable {plan plan' : List (Value × Function Float)}

theorem nil : IsPlan [] [] [] [] := ⟨rfl, rfl, .nil, by simp, by simp⟩

theorem append (h : IsPlan vs calls functions plan) (h' : IsPlan vs' calls' functions' plan') :
    IsPlan (vs ++ vs') (calls ++ calls') (functions ++ functions') (plan ++ plan') where
  nodes := by rw [nodesEach_append, List.filter_append, List.map_append, h.nodes, h'.nodes]
  functions := by rw [List.map_append, h.functions, h'.functions]
  calls := by
    rw [List.filter_append]
    exact List.rel_append (Stands.mono (List.subset_append_left _ _) h.calls)
      (Stands.mono (List.subset_append_right _ _) h'.calls)
  kind := by
    intro v f hf
    rcases List.mem_append.1 hf with hf | hf
    · exact h.kind v f hf
    · exact h'.kind v f hf
  children := by
    intro v f hf
    rcases List.mem_append.1 hf with hf | hf
    · exact Stands.mono (List.subset_append_left _ _) (h.children v f hf)
    · exact Stands.mono (List.subset_append_right _ _) (h'.children v f hf)

theorem any_hasGeometry (h : IsPlan vs calls functions plan) : vs.any hasGeometry = !calls.isEmpty := by
  have hlength := h.calls.length_eq
  rw [← List.countP_eq_length_filter] at hlength
  cases hcalls : calls with
  | nil => simpa [hcalls, List.countP_eq_zero] using hlength
  | cons call calls =>
    have hpos : 0 < vs.countP hasGeometry := by simp [hlength, hcalls]
    simpa [List.countP_pos_iff] using hpos

section Nodes

variable {ref : Nat} {kind : Primitive} {args : List Value} {body : Option (List Value)}

theorem leaf {call : Call Float} {f : LibraryFunction} (hk : kind.isShape) (hp : kind ≠ .polygon)
    (hf : call.library? = some f) (hname : f.name = kind.keyword) :
    IsPlan [.primitive ref kind args none] [call] [] [] where
  nodes := by
    rw [nodesEach_singleton, List.filter_append]
    simp [nodesEach, needsFunction_leaf hk hp]
  functions := rfl
  calls := by
    rw [List.filter_cons_of_pos (hasGeometry_shape hk)]
    exact .cons (.inr ⟨kind, f, rfl, hf, hname⟩) .nil
  kind := by simp
  children := by simp

theorem hasGeometry_eq (hk : kind.isBlock) (h : IsPlan (body.getD []) calls functions plan) :
    (primitive ref kind args body).hasGeometry = !calls.isEmpty := by
  rw [hasGeometry_block hk, h.any_hasGeometry]

theorem empty (hk : kind.isBlock) (h : IsPlan (body.getD []) [] functions plan) :
    IsPlan [.primitive ref kind args body] [] functions plan where
  nodes := by
    rw [nodesEach_singleton, List.filter_append, h.nodes]
    simp [needsFunction_block hk, h.hasGeometry_eq hk]
  functions := h.functions
  calls := by
    rw [List.filter_cons_of_neg (by simp [h.hasGeometry_eq hk])]
    exact .nil
  kind := h.kind
  children := h.children

-- One more function is made for a node, behind those that were made for its children.
theorem close {count : Nat} {stem : Stem} {made : Body Float} (h : IsPlan (body.getD []) calls functions plan)
    (hg : (primitive ref kind args body).hasGeometry) (hn : (primitive ref kind args body).needsFunction)
    (hkind : made.kind = kind) (hcalls : made.calls = calls) :
    IsPlan [.primitive ref kind args body] [(Shader.close count functions stem made).1]
      (Shader.close count functions stem made).2
      (plan ++ [(.primitive ref kind args body, ⟨⟨stem, count + functions.length⟩, made⟩)]) where
  nodes := by
    rw [nodesEach_singleton, List.filter_append, List.map_append, h.nodes]
    simp [hn]
  functions := by simp [h.functions, Shader.close]
  calls := by
    rw [List.filter_cons_of_pos hg]
    exact .cons (.inl ⟨_, List.mem_append_right _ (List.mem_singleton_self _), rfl⟩) .nil
  kind := by
    intro v f hf
    rcases List.mem_append.1 hf with hf | hf
    · exact h.kind v f hf
    · cases List.mem_singleton.1 hf
      exact congrArg some hkind.symm
  children := by
    intro v f hf
    refine Stands.mono (List.subset_append_left _ _) ?_
    rcases List.mem_append.1 hf with hf | hf
    · exact h.children v f hf
    · cases List.mem_singleton.1 hf
      exact hcalls ▸ h.calls

end Nodes

theorem calls_ne_nil (h : IsPlan vs calls functions plan) {v : Value} {f : Function Float} (hf : (v, f) ∈ plan)
    (hk : f.body.kind.isBlock) : f.body.calls ≠ [] := by
  have hkind := h.kind v f hf
  have hneeds : v.needsFunction := by
    have hmem := List.mem_map_of_mem (f := Prod.fst) hf
    rw [h.nodes] at hmem
    exact (List.mem_filter.1 hmem).2
  cases v with
  | primitive ref kind args body =>
    cases hkind
    rw [needsFunction_block hk, hasGeometry_block hk] at hneeds
    obtain ⟨child, hchild, hg⟩ := List.any_eq_true.1 hneeds
    intro hnil
    have hchildren := h.children _ f hf
    rw [hnil, List.forall₂_nil_right_iff] at hchildren
    exact List.not_mem_nil (hchildren ▸ List.mem_filter.2 ⟨hchild, hg⟩)
  | _ => cases hkind

end IsPlan

end Shader

namespace Solid

open Value Shader

theorem emitEach_append (count : Nat) (ss ss' : List (Solid Float)) :
    emitEach count (ss ++ ss') = ((emitEach count ss).1 ++ (emitEach (count + (emitEach count ss).2.length) ss').1,
      (emitEach count ss).2 ++ (emitEach (count + (emitEach count ss).2.length) ss').2) := by
  induction ss generalizing count with
  | nil => simp [emitEach]
  | cons s ss ih => simp only [List.cons_append, emitEach, ih, List.length_append, List.append_assoc, Nat.add_assoc]

theorem emitEach_singleton (count : Nat) (s : Solid Float) :
    emitEach count [s] = ([(s.emit count).1], (s.emit count).2) := by
  simp [emitEach]

-- A plan of solids says which function is made for which node.
theorem kept_isPlan : Kept fun vs ss => ∀ count, ∃ plan, IsPlan vs (emitEach count ss).1 (emitEach count ss).2 plan where
  nil := fun _ => ⟨[], .nil⟩
  append := by
    intro vs vs' ss ss' h h' count
    obtain ⟨plan, hplan⟩ := h count
    obtain ⟨plan', hplan'⟩ := h' (count + (emitEach count ss).2.length)
    rw [emitEach_append]
    exact ⟨plan ++ plan', hplan.append hplan'⟩
  leaf := by
    intro ref kind args s hk hp hs count
    obtain ⟨call, f, hemit, hf, hname⟩ := hs count
    rw [emitEach_singleton, hemit]
    exact ⟨[], .leaf hk hp hf hname⟩
  polygon := by
    intro ref args s hs count
    obtain ⟨stem, body, hkind, hcalls, hemit⟩ := hs count
    rw [emitEach_singleton, hemit]
    have hnone : IsPlan ((none : Option (List Value)).getD []) [] [] [] := .nil
    exact ⟨_, hnone.close rfl rfl hkind hcalls⟩
  empty := by
    intro ref kind args body hk h count
    obtain ⟨plan, hplan⟩ := h count
    exact ⟨plan, hplan.empty hk⟩
  block := by
    intro ref kind args body first s rest hk h hs count
    obtain ⟨stem, made, hkind, hcalls, hemit⟩ := hs count
    obtain ⟨plan, hplan⟩ := h count
    have hg : (primitive ref kind args body).hasGeometry := by
      rw [hplan.hasGeometry_eq hk, emitEach]
      rfl
    rw [emitEach_singleton, hemit]
    exact ⟨_, hplan.close hg ((needsFunction_block hk).trans hg) hkind hcalls⟩

end Solid

end SolidScript
