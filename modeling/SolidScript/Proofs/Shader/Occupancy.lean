import SolidScript.Proofs.Shader.Arithmetic
import SolidScript.Proofs.Shader.Scope

namespace SolidScript

namespace Shader

-- A point of space: whether it is inside of the leaf that a function calls at some place, inside of a polygon, and
-- within the extent of an extrusion. Functions are given by their numbers.
structure Sample where
  leaf : Nat → Nat → Bool
  polygon : Nat → Bool
  extent : Nat → Bool

namespace Sample

def bit (inside : Bool) : Int := if inside then 1 else 0

def call (s : Sample) (env : Name → Int) (number place : Nat) : Call α → Int
  | .block name => env name
  | _ => bit (s.leaf number place)

-- The values of the calls of a function.
def arguments (s : Sample) (env : Name → Int) (f : Function α) : List Int :=
  f.body.calls.zipIdx.map fun c => s.call env f.name.number c.2 c.1

def value (s : Sample) (env : Name → Int) (f : Function α) : Int :=
  match f.body.kind with
  | .polygon => bit (s.polygon f.name.number)
  | .linearExtrude | .rotateExtrude => if s.extent f.name.number then Arithmetic.plainSum.value (s.arguments env f) else 0
  | kind => kind.arithmetic.value (s.arguments env f)

-- The values of functions that are evaluated in their order.
def run (s : Sample) : List (Function α) → (Name → Int) → Name → Int
  | [], env => env
  | f :: fs, env => s.run fs fun name => if name = f.name then s.value env f else env name

-- The value of a function of a shader.
def final (s : Sample) (shader : Shader Float) : Name → Int := s.run shader.functions fun _ => 0

variable {α : Type} (s : Sample)

theorem run_of_notMem {fs : List (Function α)} {env : Name → Int} {name : Name} (h : name ∉ fs.map (·.name)) :
    s.run fs env name = env name := by
  induction fs generalizing env with
  | nil => rfl
  | cons f fs ih =>
    rw [List.map_cons, List.mem_cons, not_or] at h
    rw [run, ih h.2, if_neg h.1]

theorem arguments_congr {env env' : Name → Int} {f : Function α} (h : ∀ name ∈ f.body.names, env name = env' name) :
    s.arguments env f = s.arguments env' f := by
  refine List.map_congr_left fun c hc => ?_
  obtain ⟨call, place⟩ := c
  cases call with
  | block name =>
    refine h name (List.mem_filterMap.2 ⟨.block name, ?_, rfl⟩)
    exact List.fst_mem_of_mem_zipIdx hc
  | _ => rfl

theorem value_congr {env env' : Name → Int} {f : Function α} (h : ∀ name ∈ f.body.names, env name = env' name) :
    s.value env f = s.value env' f := by
  unfold value
  rw [arguments_congr s h]

-- A function has the value of its body, as nothing that it calls is evaluated later.
theorem run_eq {fs : List (Function α)} (hn : (fs.map (·.name)).Nodup)
    (hlater : fs.Pairwise fun f g => g.name ∉ f.body.names) (hself : ∀ f ∈ fs, f.name ∉ f.body.names) (env : Name → Int)
    {f : Function α} (hf : f ∈ fs) : s.run fs env f.name = s.value (s.run fs env) f := by
  induction fs generalizing env with
  | nil => cases hf
  | cons g fs ih =>
    rw [List.map_cons, List.nodup_cons] at hn
    rw [List.pairwise_cons] at hlater
    rcases List.mem_cons.1 hf with rfl | hf
    · rw [run, run_of_notMem s hn.1, if_pos rfl]
      refine value_congr s fun name hname => ?_
      have hne : name ≠ f.name := by
        rintro rfl
        exact hself f (by simp) hname
      have hfs : name ∉ fs.map (·.name) := by
        intro hm
        obtain ⟨g, hg, rfl⟩ := List.mem_map.1 hm
        exact hlater.1 g hg hname
      rw [run_of_notMem s hfs, if_neg hne]
    · exact ih hn.2 hlater.2 (fun f hf => hself f (by simp [hf])) _ hf

theorem final_eq {shader : Shader Float} (h : Fits shader) {f : Function Float} (hf : f ∈ shader.functions) :
    s.final shader f.name = s.value (s.final shader) f := by
  have hordered : shader.functions.Pairwise fun f g => f.name.number < g.name.number := by
    rw [← List.pairwise_map (f := fun f : Function Float => f.name.number) (R := (· < ·)), h.emitted.numbers]
    exact List.pairwise_lt_range'
  refine run_eq s h.nodup ?_ ?_ _ hf
  · refine hordered.imp_of_mem fun {f g} hf _ hlt hname => ?_
    have := h.emitted.later f hf _ hname
    omega
  · intro f hf hname
    exact lt_irrefl _ (h.emitted.later f hf _ hname)

end Sample

namespace Sample

variable {α : Type} (s : Sample) {env : Name → Int}

theorem call_nonneg (henv : ∀ name, 0 ≤ env name) (number place : Nat) (call : Call α) :
    0 ≤ s.call env number place call := by
  cases call with
  | block name => exact henv name
  | _ =>
    change 0 ≤ bit _
    unfold bit
    split <;> decide

theorem arguments_nonneg (henv : ∀ name, 0 ≤ env name) (f : Function α) : ∀ n ∈ s.arguments env f, 0 ≤ n := by
  intro n hn
  obtain ⟨c, -, rfl⟩ := List.mem_map.1 hn
  exact s.call_nonneg henv _ _ _

theorem bit_nonneg (inside : Bool) : 0 ≤ bit inside := by
  cases inside <;> decide

theorem value_nonneg (henv : ∀ name, 0 ≤ env name) (f : Function α) : 0 ≤ s.value env f := by
  have hns := s.arguments_nonneg henv f
  unfold value
  split
  · exact bit_nonneg _
  · split
    · exact Arithmetic.value_nonneg .group hns
    · exact le_refl 0
  · split
    · exact Arithmetic.value_nonneg .group hns
    · exact le_refl 0
  · exact Arithmetic.value_nonneg _ hns

-- No value is negative, as functions only get values that are not.
theorem run_nonneg (fs : List (Function α)) (henv : ∀ name, 0 ≤ env name) : ∀ name, 0 ≤ s.run fs env name := by
  induction fs generalizing env with
  | nil => exact henv
  | cons f fs ih =>
    refine ih fun name => ?_
    split
    · exact s.value_nonneg henv f
    · exact henv name

theorem value_join {f : Function α} (h : f.body.kind.isJoin) :
    s.value env f = f.body.kind.arithmetic.value (s.arguments env f) := by
  unfold value
  split <;> simp_all [Primitive.isJoin]

end Sample

-- A function that is written as the arithmetic of its calls, and whose value follows the law of its kind.
structure Obeys (s : Sample) (shader : Shader Float) (f : Function Float) : Prop where
  text : ∃ lines, f.body.text = lines ++ ret (f.body.kind.arithmetic.text (f.body.calls.map Call.text))
  value : s.final shader f.name = f.body.kind.arithmetic.value (s.arguments (s.final shader) f)
  law : Law f.body.kind (s.final shader f.name) (s.arguments (s.final shader) f)

theorem Fits.obeys {shader : Shader Float} (h : Fits shader) {f : Function Float} (hf : f ∈ shader.functions)
    (hk : f.body.kind.isJoin) (hne : f.body.calls ≠ []) (s : Sample) : Obeys s shader f where
  text := f.body.text_arithmetic hk
  value := (s.final_eq h hf).trans (s.value_join hk)
  law := by
    rw [s.final_eq h hf, s.value_join hk]
    refine .of_isJoin hk (by simpa [Sample.arguments] using hne) ?_
    exact s.arguments_nonneg (s.run_nonneg _ fun _ => le_refl 0) f

end Shader

open Shader

-- The blocks of a scene have the values that their kinds stand for, at every point of space.
theorem compile_obeys {scene : List Value} {center : Bool} {shader : Shader Float}
    (hscene : (Value.nodesEach scene).all Value.isBare) (h : compile scene center = .ok (some shader)) :
    ∃ plan, IsPlan scene shader.main.calls shader.functions plan ∧
      ∀ (s : Sample) (v : Value) (f : Function Float), (v, f) ∈ plan → f.body.kind.isJoin → Obeys s shader f := by
  obtain ⟨hfits, plan, hplan⟩ := compile_fits hscene h
  refine ⟨plan, hplan, fun s v f hf hk => ?_⟩
  have hmem : f ∈ shader.functions := hplan.functions ▸ List.mem_map_of_mem (f := Prod.snd) hf
  have hblock : f.body.kind.isBlock := by
    cases hkind : f.body.kind <;> first | rfl | (rw [hkind] at hk; cases hk)
  exact hfits.obeys hmem hk (hplan.calls_ne_nil hf hblock) s

theorem compile_obeys_nested :
    let scene : List Value := [.primitive 0 .difference [] (some [.primitive 1 .cube [] none, .primitive 2 .union [] (some []),
      .primitive 3 .color [] (some [.primitive 4 .intersection [] (some [.primitive 5 .sphere [] none])])])]
    ∃ shader, compile scene true = .ok (some shader) ∧
      ∃ plan, IsPlan scene shader.main.calls shader.functions plan ∧
        ∀ (s : Sample) (v : Value) (f : Function Float), (v, f) ∈ plan → f.body.kind.isJoin → Obeys s shader f := by
  intro scene
  have hcompile : ∃ shader, compile scene true = .ok (some shader) := ⟨_, rfl⟩
  obtain ⟨shader, h⟩ := hcompile
  exact ⟨shader, h, compile_obeys (by decide) h⟩

-- A group counts a point twice that is in both of its children, and a difference takes it away only once.
theorem compile_difference_of_overlap :
    let cube : Value := .primitive 0 .cube [] none
    let scene : List Value := [.primitive 1 .difference [] (some [.primitive 2 .group [] (some [cube, cube]), cube])]
    let s : Sample := ⟨fun _ _ => true, fun _ => true, fun _ => true⟩
    ∃ shader, compile scene true = .ok (some shader) ∧ ∃ f ∈ shader.functions, f.body.kind = .difference ∧
      s.arguments (s.final shader) f = [2, 1] ∧
        ¬ (s.final shader f.name ≠ 0 ↔ (s.arguments (s.final shader) f).headD 0 ≠ 0 ∧
          ∀ n ∈ (s.arguments (s.final shader) f).tail, n = 0) := by
  intro cube scene s
  refine ⟨_, rfl, _, List.mem_cons_of_mem _ List.mem_cons_self, rfl, ?_, ?_⟩
  · decide
  · decide

end SolidScript
