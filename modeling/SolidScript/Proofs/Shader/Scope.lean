import Mathlib.Data.List.Nodup
import SolidScript.Proofs.Shader.Callees
import SolidScript.Proofs.Solid.Plan

namespace SolidScript

namespace Shader

-- The name of the function that a text defines, and the words that are called in it.
def definedName (text : String) : String := (bracketed text).headD ""

def calledIn (text : String) : List String := (bracketed text).tail

-- The texts of all functions of the shader, from the library and for the scene.
def sources (s : Shader Float) : List String := s.library.map LibraryFunction.source ++ s.texts

-- A shader in whose text `count` functions stand in front of the main one.
structure IsClosed (s : Shader Float) (count : Nat) : Prop where
  length : s.texts.length = count + 1
  numbered : ∀ i < count, ∃ stem : Stem, (s.texts.map definedName)[i]? = some (stem.text ++ toString i)
  main : (s.texts.map definedName)[count]? = some "mainModel4"
  library : ∀ f ∈ s.library, definedName f.source = f.name
  distinct : (s.sources.map definedName).Nodup
  earlier : ∀ (i : Nat) (text : String), s.texts[i]? = some text → ∀ name : Name, name.text ∈ calledIn text →
    ∃ j < i, (s.texts.map definedName)[j]? = some name.text
  once : ∀ i < count, ∀ word, (s.texts.map definedName)[i]? = some word → (s.sources.flatMap calledIn).count word = 1
  included : ∀ text ∈ s.sources, ∀ f : LibraryFunction, f.name ∈ calledIn text → f ∈ s.library

theorem bracketed_function (f : Function Float) : bracketed f.text = f.name.text :: f.body.callees.map Callee.text :=
  f.brackets.bracketed

theorem bracketed_main (m : Main Float) : bracketed m.text = "mainModel4" :: m.callees.map Callee.text :=
  m.brackets.bracketed

theorem definedName_source (f : LibraryFunction) : definedName f.source = f.name := by
  rw [definedName, bracketed, (source_brackets f).bracketed, List.headD_cons]

theorem calledIn_source (f : LibraryFunction) : calledIn f.source = sourceWords f := by
  rw [calledIn, bracketed, (source_brackets f).bracketed, List.tail_cons]

theorem mem_calls_of_source {f g : LibraryFunction} (h : g.name ∈ calledIn f.source) : g ∈ f.calls := by
  have hall : ∀ f ∈ LibraryFunction.all, ∀ g ∈ LibraryFunction.all, g.name ∈ sourceWords f → g ∈ f.calls := by
    decide +kernel
  rw [calledIn_source] at h
  exact hall f f.mem_all g g.mem_all h

theorem reserved_of_source {f : LibraryFunction} {word : String} (h : word ∈ calledIn f.source) : reserved word := by
  have hall : ∀ f ∈ LibraryFunction.all, ∀ word ∈ sourceWords f, reserved word := by decide +kernel
  rw [calledIn_source] at h
  exact hall f f.mem_all word h

theorem count_text (name : Name) (callees : List Callee) :
    (callees.map Callee.text).count name.text = (callees.filterMap Callee.name?).count name := by
  induction callees with
  | nil => rfl
  | cons c callees ih =>
    rw [List.map_cons, List.count_cons, ih, List.filterMap_cons]
    by_cases hc : c.text = name.text
    · have hb := Callee.eq_block hc
      subst hb
      simp [Callee.name?, Callee.text]
    · cases c with
      | block other =>
        have hne : other ≠ name := by
          rintro rfl
          exact hc rfl
        simp [Callee.name?, hc, hne]
      | intrinsic i => simp [Callee.name?, hc]
      | library f => simp [Callee.name?, hc]

-- What is known of the parts of a shader before they are written.
structure Fits (s : Shader Float) : Prop where
  emitted : Emitted 0 s.main.calls s.functions
  covered : Covered s.main.calls s.functions s.library
  complete : Solid.Complete s.library
  ordered : s.library.Nodup

namespace Fits

variable {s : Shader Float}

theorem definedNames (s : Shader Float) :
    s.texts.map definedName = s.functions.map (·.name.text) ++ ["mainModel4"] := by
  have hf (f : Function Float) : definedName f.text = f.name.text := by rw [definedName, bracketed_function, List.headD_cons]
  have hm : definedName s.main.text = "mainModel4" := by rw [definedName, bracketed_main, List.headD_cons]
  simp [texts, hf, hm]

theorem number (h : Fits s) {i : Nat} {f : Function Float} (hi : s.functions[i]? = some f) : f.name.number = i := by
  have hn := congrArg (·[i]?) h.emitted.numbers
  simp only [List.getElem?_map, hi, Option.map_some] at hn
  obtain ⟨hlt, -⟩ := List.getElem?_eq_some_iff.1 hi
  rw [List.getElem?_range' hlt] at hn
  simpa using hn

theorem nodup (h : Fits s) : (s.functions.map (·.name)).Nodup := by
  refine List.Nodup.of_map Name.number ?_
  rw [List.map_map]
  exact h.emitted.numbers ▸ List.nodup_range'

-- The function that a call is for.
theorem exists_function (h : Fits s) {name : Name}
    (hn : name ∈ s.main.calls.filterMap Call.name? ++ s.functions.flatMap (·.body.names)) :
    (s.texts.map definedName)[name.number]? = some name.text ∧ name.number < s.functions.length := by
  obtain ⟨f, hf, rfl⟩ := List.mem_map.1 (h.emitted.once.subset hn)
  obtain ⟨i, hi⟩ := List.mem_iff_getElem?.1 hf
  rw [h.number hi]
  obtain ⟨hlt, -⟩ := List.getElem?_eq_some_iff.1 hi
  refine ⟨?_, hlt⟩
  rw [definedNames, List.getElem?_append_left (by simpa using hlt), List.getElem?_map, hi]
  rfl

theorem mem_names {name : Name} {callees : List Callee} (h : name.text ∈ callees.map Callee.text) :
    name ∈ callees.filterMap Callee.name? := by
  obtain ⟨c, hc, ht⟩ := List.mem_map.1 h
  rw [Callee.eq_block ht] at hc
  exact List.mem_filterMap.2 ⟨_, hc, rfl⟩

theorem calledIn_function (f : Function Float) : calledIn f.text = f.body.callees.map Callee.text := by
  rw [calledIn, bracketed_function, List.tail_cons]

theorem calledIn_main (m : Main Float) : calledIn m.text = m.callees.map Callee.text := by
  rw [calledIn, bracketed_main, List.tail_cons]

theorem earlier (h : Fits s) {i : Nat} {text : String} (hi : s.texts[i]? = some text) {name : Name}
    (hn : name.text ∈ calledIn text) : ∃ j < i, (s.texts.map definedName)[j]? = some name.text := by
  rw [texts, List.getElem?_append] at hi
  split at hi
  · rename_i hlt
    obtain ⟨f, hf, rfl⟩ := Option.map_eq_some_iff.1 (List.getElem?_map ▸ hi)
    rw [calledIn_function] at hn
    have hn := mem_names hn
    rw [Body.names_callees] at hn
    have hm := List.mem_of_getElem? hf
    refine ⟨name.number, ?_, (h.exists_function (List.mem_append_right _ (List.mem_flatMap.2 ⟨f, hm, hn⟩))).1⟩
    rw [← h.number hf]
    exact h.emitted.later f hm name hn
  · rename_i hge
    have htext := List.mem_singleton.1 (List.mem_of_getElem? hi)
    subst htext
    rw [calledIn_main] at hn
    have hn := mem_names hn
    rw [Main.names_callees] at hn
    obtain ⟨hj, hlt⟩ := h.exists_function (List.mem_append_left _ hn)
    rw [List.length_map] at hge
    exact ⟨name.number, by omega, hj⟩

-- Calls of made functions are counted in the data that is written.
theorem count_sources (s : Shader Float) (name : Name) :
    (s.sources.flatMap calledIn).count name.text =
      (s.main.calls.filterMap Call.name? ++ s.functions.flatMap (·.body.names)).count name := by
  have hlibrary : ((s.library.map LibraryFunction.source).flatMap calledIn).count name.text = 0 := by
    refine List.count_eq_zero.2 fun hm => ?_
    obtain ⟨text, ht, hw⟩ := List.mem_flatMap.1 hm
    obtain ⟨f, -, rfl⟩ := List.mem_map.1 ht
    exact Name.text_ne (reserved_of_source hw) rfl
  have hfunctions : ((s.functions.map Function.text).flatMap calledIn).count name.text =
      (s.functions.flatMap (·.body.names)).count name := by
    induction s.functions with
    | nil => rfl
    | cons f fs ih =>
      rw [List.map_cons, List.flatMap_cons, List.count_append, ih, calledIn_function, count_text, Body.names_callees,
        List.flatMap_cons, List.count_append]
  have hmain : (calledIn s.main.text).count name.text = (s.main.calls.filterMap Call.name?).count name := by
    rw [calledIn_main, count_text, Main.names_callees]
  rw [sources, texts, List.flatMap_append, List.flatMap_append, List.count_append, List.count_append, hlibrary,
    hfunctions, List.flatMap_singleton, hmain, List.count_append]
  omega

theorem once (h : Fits s) {i : Nat} {f : Function Float} (hf : s.functions[i]? = some f) :
    (s.sources.flatMap calledIn).count f.name.text = 1 := by
  rw [count_sources, h.emitted.once.count_eq]
  exact List.count_eq_one_of_mem h.nodup (List.mem_map_of_mem (List.mem_of_getElem? hf))

theorem included (h : Fits s) {text : String} (ht : text ∈ s.sources) {f : LibraryFunction}
    (hf : f.name ∈ calledIn text) : f ∈ s.library := by
  have hcallee {callees : List Callee} (hm : f.name ∈ callees.map Callee.text) : .library f ∈ callees := by
    obtain ⟨c, hc, ht⟩ := List.mem_map.1 hm
    exact Callee.eq_library ht ▸ hc
  rcases List.mem_append.1 ht with ht | ht
  · obtain ⟨g, hg, rfl⟩ := List.mem_map.1 ht
    exact h.complete g hg f (mem_calls_of_source hf)
  · rcases List.mem_append.1 ht with ht | ht
    · obtain ⟨g, hg, rfl⟩ := List.mem_map.1 ht
      rw [calledIn_function] at hf
      exact h.covered.made g hg f (Body.library_callees (hcallee hf))
    · have htext := List.mem_singleton.1 ht
      subst htext
      rw [calledIn_main] at hf
      exact h.covered.calls f (Main.library_callees (hcallee hf))

theorem distinct (h : Fits s) : (s.sources.map definedName).Nodup := by
  have hreserved : reserved "mainModel4" := by decide +kernel
  have hlibrary : (s.library.map LibraryFunction.source).map definedName = s.library.map LibraryFunction.name := by
    rw [List.map_map]
    exact List.map_congr_left fun f _ => definedName_source f
  have hnames : (s.functions.map (·.name.text)).Nodup := by
    have := List.Nodup.map (f := Name.text) (fun a b => Name.text_injective) h.nodup
    rwa [List.map_map] at this
  have hlib : (s.library.map LibraryFunction.name).Nodup := by
    refine List.Nodup.map (fun f g hfg => ?_) h.ordered
    cases Callee.eq_library (c := .library f) hfg
    rfl
  rw [sources, List.map_append, hlibrary, definedNames, List.nodup_append, List.nodup_append]
  refine ⟨hlib, ⟨hnames, List.nodup_singleton _, fun word hw main hm => ?_⟩, fun word hw other ho => ?_⟩
  · obtain ⟨f, -, rfl⟩ := List.mem_map.1 hw
    rw [List.mem_singleton.1 hm]
    exact Name.text_ne hreserved
  · obtain ⟨f, -, rfl⟩ := List.mem_map.1 hw
    rcases List.mem_append.1 ho with ho | ho
    · obtain ⟨g, -, rfl⟩ := List.mem_map.1 ho
      exact (Name.text_ne (reserved_library f)).symm
    · rw [List.mem_singleton.1 ho]
      cases f <;> decide

theorem isClosed (h : Fits s) : s.IsClosed s.functions.length where
  length := by simp [texts]
  numbered := by
    intro i hi
    have hf : s.functions[i]? = some s.functions[i] := List.getElem?_eq_getElem hi
    refine ⟨s.functions[i].name.stem, ?_⟩
    rw [definedNames, List.getElem?_append_left (by simpa using hi), List.getElem?_map, hf]
    simp [Name.text, h.number hf]
  main := by simp [definedNames]
  library := fun f _ => definedName_source f
  distinct := h.distinct
  earlier := fun i text hi name hn => h.earlier hi hn
  once := by
    intro i hi word hw
    have hf : s.functions[i]? = some s.functions[i] := List.getElem?_eq_getElem hi
    rw [definedNames, List.getElem?_append_left (by simpa using hi), List.getElem?_map, hf] at hw
    cases hw
    exact h.once hf
  included := fun text ht f hf => h.included ht hf

end Fits

theorem fits_ofSolids (center : Bool) (first : Solid Float) (rest : List (Solid Float)) :
    Fits (ofSolids center first rest) where
  emitted := Solid.emitted_emitEach 0 (first :: rest)
  covered := by
    have h := Solid.covered_emitEach 0 (first :: rest)
    exact ⟨fun f hf => LibraryFunction.mem_inOrder.2 (h.calls f hf),
      fun f hf g hg => LibraryFunction.mem_inOrder.2 (h.made f hf g hg)⟩
  complete := fun f hf g hg =>
    LibraryFunction.mem_inOrder.2 (Solid.complete_requiresEach (first :: rest) f (LibraryFunction.mem_inOrder.1 hf) g hg)
  ordered := List.Nodup.filter _ (by decide)

end Shader

theorem compile_fits {scene : List Value} {center : Bool} {shader : Shader Float}
    (hscene : (Value.nodesEach scene).all Value.isBare) (h : compile scene center = .ok (some shader)) :
    shader.Fits ∧ ∃ plan, Shader.IsPlan scene shader.main.calls shader.functions plan := by
  have hplan := Solid.kept_isPlan.ofValues scene hscene
  rw [compile_eq] at h
  cases hs : Solid.ofValues scene with
  | error e =>
    rw [hs] at h
    cases h
  | ok solids =>
    rw [hs] at h
    cases solids with
    | nil => cases h
    | cons first rest =>
      cases h
      exact ⟨Shader.fits_ofSolids center first rest, hplan _ hs 0⟩

-- Every shader of a scene is closed, and its functions are those of the polygons and blocks of the scene.
theorem compile_isClosed {scene : List Value} {center : Bool} {shader : Shader Float}
    (hscene : (Value.nodesEach scene).all Value.isBare) (h : compile scene center = .ok (some shader)) :
    shader.IsClosed ((Value.nodesEach scene).countP Value.needsFunction) := by
  obtain ⟨hfits, plan, hplan⟩ := compile_fits hscene h
  have hlength : shader.functions.length = (Value.nodesEach scene).countP Value.needsFunction := by
    rw [List.countP_eq_length_filter, ← hplan.nodes, ← hplan.functions, List.length_map, List.length_map]
  exact hlength ▸ hfits.isClosed

theorem compile_isClosed_nested :
    let turned : Value := .primitive 0 .rotateExtrude [.named 1 "angle" (.int 90)] (some [.primitive 2 .square [] none])
    let scene : List Value := [.primitive 3 .difference []
      (some [turned, .primitive 4 .union [] (some []), .primitive 5 .group [] (some [.primitive 6 .cube [] none])])]
    ∃ shader, compile scene true = .ok (some shader) ∧ shader.IsClosed 3 := by
  intro turned scene
  have hcompile : ∃ shader, compile scene true = .ok (some shader) := ⟨_, rfl⟩
  obtain ⟨shader, h⟩ := hcompile
  exact ⟨shader, h, compile_isClosed (by decide) h⟩

end SolidScript
