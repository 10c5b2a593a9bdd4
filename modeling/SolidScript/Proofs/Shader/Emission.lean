import Mathlib.Data.List.Perm.Basic
import Mathlib.Data.List.Flatten
import SolidScript.Proofs.Solid.Tree

namespace SolidScript

namespace Shader

variable {α : Type}

-- The function that a call needs, if it does not call the library.
def Call.name? : Call α → Option Name
  | block name => some name
  | _ => none

-- The library function that a call needs.
def Call.library? : Call α → Option LibraryFunction
  | cube .. => some .cube
  | sphere _ => some .sphere
  | cylinder .. => some .cylinder
  | square .. => some .square
  | circle _ => some .circle
  | block _ => none

def Body.names (body : Body α) : List Name := body.calls.filterMap Call.name?

-- The library functions that a body calls, with repetitions.
def Body.library : Body α → List LibraryFunction
  | combine _ calls | transform _ calls => calls.filterMap Call.library?
  | extrude extrusion calls => calls.filterMap Call.library? ++ if extrusion.twist.isSome then [.rotZ] else []
  | revolve _ calls => calls.filterMap Call.library? ++ [.rotZ]
  | polygon _ _ bands => bands.map fun _ => .testTwoLineSegments

-- Functions that were made from the number `count` on, and the calls that are left to be made to them.
structure Emitted (count : Nat) (calls : List (Call α)) (made : List (Function α)) : Prop where
  numbers : made.map (·.name.number) = List.range' count made.length
  once : (calls.filterMap Call.name? ++ made.flatMap (·.body.names)).Perm (made.map (·.name))
  later : ∀ f ∈ made, ∀ name ∈ f.body.names, name.number < f.name.number

namespace Emitted

variable {count : Nat} {calls calls' : List (Call α)} {made made' : List (Function α)}

theorem nil : Emitted count ([] : List (Call α)) [] := ⟨rfl, by simp, by simp⟩

theorem of_library {call : Call α} (h : call.name? = none) : Emitted count [call] [] where
  numbers := rfl
  once := by simp [h]
  later := by simp

theorem append (h : Emitted count calls made) (h' : Emitted (count + made.length) calls' made') :
    Emitted count (calls ++ calls') (made ++ made') where
  numbers := by
    rw [List.map_append, h.numbers, h'.numbers, List.length_append, List.range'_append_1]
  once := by
    have hp := h.once.append h'.once
    rw [List.map_append, List.filterMap_append, List.flatMap_append]
    refine .trans ?_ hp
    rw [List.append_assoc, List.append_assoc]
    refine List.Perm.append_left _ ?_
    rw [← List.append_assoc, ← List.append_assoc]
    exact List.Perm.append_right _ List.perm_append_comm
  later := by
    intro f hf
    rcases List.mem_append.1 hf with hf | hf
    · exact h.later f hf
    · exact h'.later f hf

theorem number_lt (h : Emitted count calls made) {name : Name} (hn : name ∈ calls.filterMap Call.name?) :
    name.number < count + made.length := by
  have hm := h.once.subset (List.mem_append_left _ hn)
  have hm := List.mem_map_of_mem (f := Name.number) hm
  rw [List.map_map] at hm
  change _ ∈ made.map (·.name.number) at hm
  rw [h.numbers, List.mem_range'_1] at hm
  exact hm.2

-- The functions that are called by one more function, which is called instead of them.
theorem close {body : Body α} (stem : Stem) (h : Emitted count calls made) (hb : body.calls = calls) :
    Emitted count [(Shader.close count made stem body).1] (Shader.close count made stem body).2 where
  numbers := by
    simp [Shader.close, h.numbers, List.range'_concat]
  once := by
    have hnames : body.names = calls.filterMap Call.name? := by rw [Body.names, hb]
    simp only [Shader.close, List.filterMap_cons, Call.name?, List.filterMap_nil, List.flatMap_append, List.flatMap_cons,
      List.flatMap_nil, List.map_append, List.map_cons, List.map_nil, hnames]
    rw [List.append_nil, List.singleton_append]
    refine .trans (List.Perm.cons _ ?_) (List.perm_append_singleton _ _).symm
    exact List.perm_append_comm.trans h.once
  later := by
    intro f hf
    rcases List.mem_append.1 hf with hf | hf
    · exact h.later f hf
    · rw [List.mem_singleton] at hf
      subst hf
      intro name hn
      rw [Body.names, hb] at hn
      exact h.number_lt hn

end Emitted

-- The library functions that are called by functions and by calls to be made are required.
structure Covered (calls : List (Call α)) (made : List (Function α)) (required : List LibraryFunction) : Prop where
  calls : ∀ f ∈ calls.filterMap Call.library?, f ∈ required
  made : ∀ f ∈ made, ∀ g ∈ f.body.library, g ∈ required

namespace Covered

variable {calls calls' : List (Call α)} {made made' : List (Function α)} {required required' : List LibraryFunction}

theorem nil : Covered ([] : List (Call α)) [] [] := ⟨by simp, by simp⟩

theorem append (h : Covered calls made required) (h' : Covered calls' made' required') :
    Covered (calls ++ calls') (made ++ made') (required ++ required') where
  calls := by
    intro f hf
    rw [List.filterMap_append, List.mem_append] at hf
    exact List.mem_append.2 (hf.imp (h.calls f) (h'.calls f))
  made := by
    intro f hf g hg
    rcases List.mem_append.1 hf with hf | hf
    · exact List.mem_append_left _ (h.made f hf g hg)
    · exact List.mem_append_right _ (h'.made f hf g hg)

theorem close {count : Nat} {body : Body α} (stem : Stem) (h : Covered calls made required) (hr : required ⊆ required')
    (hb : ∀ f ∈ body.library, f ∈ calls.filterMap Call.library? ∨ f ∈ required') :
    Covered [(Shader.close count made stem body).1] (Shader.close count made stem body).2 required' where
  calls := by simp [Shader.close, Call.library?]
  made := by
    intro f hf g hg
    rcases List.mem_append.1 hf with hf | hf
    · exact hr (h.made f hf g hg)
    · rw [List.mem_singleton] at hf
      subst hf
      exact (hb g hg).elim (fun hg => hr (h.calls g hg)) id

end Covered

end Shader

namespace Solid

open Shader

variable {α : Type}

-- A set of library functions that has with each function those that its source calls.
def Complete (required : List LibraryFunction) : Prop := ∀ f ∈ required, ∀ g ∈ f.calls, g ∈ required

theorem Complete.append {required required' : List LibraryFunction} (h : Complete required) (h' : Complete required') :
    Complete (required ++ required') := by
  intro f hf g hg
  exact List.mem_append.2 ((List.mem_append.1 hf).imp (h f · g hg) (h' f · g hg))

theorem complete_rotation : Complete [.rotAxis, .rotZ] := by
  unfold Complete
  decide

mutual

theorem complete_requires : (s : Solid α) → Complete s.requires
  | .cube .. | .sphere _ | .cylinder .. | .square .. | .circle _ | .polygon _ => by
    simp [requires, Complete, LibraryFunction.calls]
  | .combine _ first rest | .transform _ _ first rest => (complete_requires first).append (complete_requiresEach rest)
  | .extrude extrusion first rest => by
    refine ((complete_requires first).append (complete_requiresEach rest)).append ?_
    split
    · exact complete_rotation
    · exact fun _ hf => absurd hf List.not_mem_nil
  | .revolve _ first rest => ((complete_requires first).append (complete_requiresEach rest)).append complete_rotation

theorem complete_requiresEach : (ss : List (Solid α)) → Complete (requiresEach ss)
  | [] => fun _ hf => absurd hf List.not_mem_nil
  | s :: rest => (complete_requires s).append (complete_requiresEach rest)

end

variable [Scalar α]

mutual

theorem emitted_emit (count : Nat) : (s : Solid α) → Emitted count [(s.emit count).1] (s.emit count).2
  | .cube .. | .sphere _ | .cylinder .. | .square .. | .circle _ => .of_library rfl
  | .polygon _ => Emitted.close _ .nil rfl
  | .combine _ first rest | .transform _ _ first rest | .extrude _ first rest | .revolve _ first rest =>
    Emitted.close _ ((emitted_emit count first).append (emitted_emitEach _ rest)) rfl

theorem emitted_emitEach (count : Nat) : (ss : List (Solid α)) → Emitted count (emitEach count ss).1 (emitEach count ss).2
  | [] => .nil
  | s :: rest => (emitted_emit count s).append (emitted_emitEach _ rest)

end

mutual

theorem covered_emit (count : Nat) : (s : Solid α) → Covered [(s.emit count).1] (s.emit count).2 s.requires
  | .cube .. | .sphere _ | .cylinder .. | .square .. | .circle _ =>
    ⟨by simp [emit, requires, Call.library?], by simp [emit]⟩
  | .polygon fill => by
    refine Covered.close _ .nil (List.nil_subset _) fun f hf => .inr ?_
    obtain ⟨-, -, rfl⟩ := List.mem_map.1 hf
    simp [requires]
  | .combine _ first rest | .transform _ _ first rest =>
    Covered.close _ ((covered_emit count first).append (covered_emitEach _ rest)) (List.Subset.refl _) fun _ hf => .inl hf
  | .extrude extrusion first rest => by
    refine Covered.close _ ((covered_emit count first).append (covered_emitEach _ rest)) (List.subset_append_left _ _)
      fun f hf => (List.mem_append.1 hf).imp_right fun hf => List.mem_append_right _ ?_
    split at hf
    · rw [if_pos ‹_›, List.mem_singleton.1 hf]
      simp
    · simp at hf
  | .revolve _ first rest => by
    refine Covered.close _ ((covered_emit count first).append (covered_emitEach _ rest)) (List.subset_append_left _ _)
      fun f hf => (List.mem_append.1 hf).imp_right fun hf => List.mem_append_right _ ?_
    rw [List.mem_singleton.1 hf]
    simp

theorem covered_emitEach (count : Nat) :
    (ss : List (Solid α)) → Covered (emitEach count ss).1 (emitEach count ss).2 (requiresEach ss)
  | [] => .nil
  | s :: rest => (covered_emit count s).append (covered_emitEach _ rest)

end

end Solid

end SolidScript
