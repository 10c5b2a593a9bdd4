import SolidScript.Proofs.Shader.Brackets
import SolidScript.Proofs.Shader.Emission

namespace SolidScript

namespace Shader

-- The functions of the shading language that generated code calls.
inductive Intrinsic where
  | float
  | vec2
  | vec3
  | vec4
  | mat4
  | clamp
  | abs
  | mix
  | atan
  | any
  | lessThan
  | greaterThan
deriving DecidableEq

def Intrinsic.name : Intrinsic → String
  | float => "float"
  | vec2 => "vec2"
  | vec3 => "vec3"
  | vec4 => "vec4"
  | mat4 => "mat4"
  | clamp => "clamp"
  | abs => "abs"
  | mix => "mix"
  | atan => "atan"
  | any => "any"
  | lessThan => "lessThan"
  | greaterThan => "greaterThan"

def Intrinsic.all : List Intrinsic :=
  [float, vec2, vec3, vec4, mat4, clamp, abs, mix, atan, any, lessThan, greaterThan]

theorem Intrinsic.mem_all (i : Intrinsic) : i ∈ all := by
  cases i <;> decide

inductive Callee where
  | intrinsic (i : Intrinsic)
  | library (f : LibraryFunction)
  | block (name : Name)
deriving DecidableEq

namespace Callee

def text : Callee → String
  | intrinsic i => i.name
  | library f => f.name
  | block name => name.text

def name? : Callee → Option Name
  | block name => some name
  | _ => none

def library? : Callee → Option LibraryFunction
  | library f => some f
  | _ => none

end Callee

-- What is called, in the order of the text.
def Call.callees : Call α → List Callee
  | cube .. => [.library .cube, .intrinsic .vec3]
  | sphere _ => [.library .sphere, .intrinsic .float]
  | cylinder .. => [.library .cylinder, .intrinsic .float, .intrinsic .float, .intrinsic .float]
  | square .. => [.library .square, .intrinsic .vec2]
  | circle _ => [.library .circle, .intrinsic .float]
  | block name => [.block name]

def bandCallees : List Callee :=
  [.intrinsic .float, .intrinsic .float, .library .testTwoLineSegments, .intrinsic .vec2, .intrinsic .vec2,
    .intrinsic .vec2, .intrinsic .vec2]

def Body.callees : Body α → List Callee
  | combine .group calls | combine .color calls => calls.flatMap Call.callees
  | combine _ calls => .intrinsic .clamp :: calls.flatMap Call.callees
  | transform inverse calls =>
    .intrinsic .mat4 :: inverse.rows.map (fun _ => .intrinsic .vec4) ++ .intrinsic .vec4 :: calls.flatMap Call.callees
  | extrude extrusion calls =>
    [.intrinsic .float, .intrinsic .abs] ++ (if extrusion.twist.isSome then [.intrinsic .mix, .intrinsic .float] else [])
      ++ [.intrinsic .mix, .intrinsic .vec2, .intrinsic .vec2]
      ++ (if extrusion.twist.isSome then [.intrinsic .vec4, .library .rotZ] else []) ++ calls.flatMap Call.callees
  | revolve _ calls =>
    [.intrinsic .atan, .intrinsic .float, .intrinsic .vec4, .library .rotZ] ++ calls.flatMap Call.callees
  | polygon _ _ bands =>
    [.intrinsic .any, .intrinsic .lessThan, .intrinsic .vec2, .intrinsic .any, .intrinsic .greaterThan, .intrinsic .vec2]
      ++ bands.flatMap fun _ => bandCallees

def Main.callees (m : Main α) : List Callee :=
  (if m.offset.isSome then [.intrinsic .vec3] else []) ++ m.calls.flatMap Call.callees

namespace Brackets

theorem float (x : Float) : Brackets (float x) ["float"] :=
  insert (.literal rfl rfl : Brackets "float(" ["float"]) (.shader x) (.literal rfl rfl) rfl

theorem vec2 (v : Vec2 Float) : Brackets (vec2 v) ["vec2"] :=
  insert (.literal rfl rfl : Brackets "vec2(" ["vec2"]) (.pair v) (.literal rfl rfl) rfl

theorem vec4 (v : Vec4 Float) : Brackets (vec4 v) ["vec4"] :=
  insert (.literal rfl rfl : Brackets "vec4(" ["vec4"]) (.numbers _) (.literal rfl rfl) rfl

end Brackets

theorem Stem.isWord (stem : Stem) : stem.text.toList.all fun c => Token.isWordPart c && !c.isDigit := by
  rcases stem with (_ | _ | _ | _ | _) | _ | _ | _ | _ <;> decide

theorem Name.toList_text (name : Name) : name.text.toList = name.stem.text.toList ++ Nat.toDigits 10 name.number := by
  rw [Name.text, String.toList_append]
  exact congrArg _ Nat.toList_repr

theorem Name.isWord (name : Name) : name.text.toList.all Token.isWordPart ∧ name.text ≠ "" := by
  have hstem := List.all_eq_true.1 name.stem.isWord
  constructor
  · rw [name.toList_text, List.all_append, Bool.and_eq_true, List.all_eq_true, List.all_eq_true]
    exact ⟨fun c hc => (Bool.and_eq_true_iff.1 (hstem c hc)).1,
      fun c hc => Token.isWordPart_of_isDigit (Number.isDigit_toDigits hc)⟩
  · intro h
    have := congrArg String.toList h
    rw [name.toList_text] at this
    exact Nat.toDigits_ne_nil (List.append_eq_nil_iff.1 this).2

theorem Call.brackets (call : Call Float) : Brackets call.text (call.callees.map Callee.text) := by
  have hcomma : Brackets ", " [] := .literal rfl rfl
  have hpoint : Brackets ", xyz)" [] := .literal rfl rfl
  cases call with
  | cube size center =>
    have hsize : Brackets ("cube(vec3(" ++ extent3 size ++ "), ") ["cube", "vec3"] :=
      .insert (.literal rfl rfl : Brackets _ ["cube", "vec3"]) (.extent3 size) (.literal rfl rfl) rfl
    exact hsize.insert (.truth center) hpoint rfl
  | sphere radius =>
    have hradius := (.literal rfl rfl : Brackets "sphere(" ["sphere"]).append (.float radius)
    exact hradius.before hpoint
  | cylinder height bottom top center =>
    have hheight := ((.literal rfl rfl : Brackets "cylinder(" ["cylinder"]).append (.float height)).before hcomma
    have hradii := ((hheight.append (.float bottom)).before hcomma).append (.float top)
    exact (hradii.before hcomma).insert (.truth center) hpoint rfl
  | square size center =>
    have hsize : Brackets ("square(vec2(" ++ extent2 size ++ "), ") ["square", "vec2"] :=
      .insert (.literal rfl rfl : Brackets _ ["square", "vec2"]) (.extent2 size) (.literal rfl rfl) rfl
    exact hsize.insert (.truth center) hpoint rfl
  | circle radius =>
    have hradius := (.literal rfl rfl : Brackets "circle(" ["circle"]).append (.float radius)
    exact hradius.before hpoint
  | block name =>
    obtain ⟨hw, hne⟩ := name.isWord
    exact .word_append hw hne (.literal rfl rfl) rfl

theorem joined_brackets {separator : String} (hs : Brackets separator []) (calls : List (Call Float)) :
    Brackets (joined separator calls) ((calls.flatMap Call.callees).map Callee.text) := by
  rw [List.map_flatMap]
  exact .intercalate hs calls fun call _ => call.brackets

theorem line_brackets {text : String} {words : List String} (h : Brackets text words) : Brackets (line text) words :=
  (h.behind (.literal rfl rfl)).before (.literal rfl rfl)

theorem ret_brackets {value : String} {words : List String} (h : Brackets value words) : Brackets (ret value) words :=
  line_brackets ((h.behind (.literal rfl rfl)).before (.literal rfl rfl))

theorem sum_brackets (calls : List (Call Float)) :
    Brackets (sum calls) ((calls.flatMap Call.callees).map Callee.text) := joined_brackets (.literal rfl rfl) calls

theorem clamped_brackets {value : String} {words : List String} (h : Brackets value words) :
    Brackets (clamped value) ("clamp" :: words) :=
  (Brackets.append (.literal rfl rfl : Brackets "clamp(" ["clamp"]) h).before (.literal rfl rfl)

theorem bandLine_brackets (b : Band Float) : Brackets (bandLine b) (bandCallees.map Callee.text) := by
  have hvecs : Brackets (",".intercalate [vec2 b.left.low, vec2 b.left.high, vec2 b.right.low, vec2 b.right.high])
      ["vec2", "vec2", "vec2", "vec2"] :=
    .intercalate (.literal rfl rfl) [b.left.low, b.left.high, b.right.low, b.right.high] fun v _ => .vec2 v
  have hlow : Brackets ("if (xyz.y >= " ++ float b.low) ["float"] := (Brackets.float b.low).behind (.literal rfl rfl)
  have hand : Brackets " && xyz.y <= " [] := .literal rfl rfl
  have hhigh := (hlow.before hand).append (.float b.high)
  have hcall := hhigh.append (.literal rfl rfl : Brackets ") \x7b return testTwoLineSegments(" ["testTwoLineSegments"])
  exact line_brackets ((hcall.append hvecs).before (.literal rfl rfl))

theorem pi_flat : IsFlat pi := by decide +kernel

theorem extrudeText_brackets (e : Extrusion Float) (calls : List (Call Float)) :
    Brackets (extrudeText e calls) ((Body.extrude e calls).callees.map Callee.text) := by
  have hheight : Brackets ("xyz.z /= " ++ float e.height ++ ";") ["float"] :=
    ((Brackets.float e.height).behind (.literal rfl rfl)).before (.literal rfl rfl)
  have hcenter : Brackets ("if (" ++ truth e.center ++ ") \x7b z += 0.5; \x7d else \x7b xyz.z -= 0.5; \x7d") [] :=
    .insert (.literal rfl rfl : Brackets "if (" []) (.truth e.center) (.literal rfl rfl) rfl
  have hmix : Brackets "vec2 s = mix(vec2(1)," ["mix", "vec2"] := .literal rfl rfl
  have hscale : Brackets ("vec2 s = mix(vec2(1)," ++ vec2 e.scale ++ ",z);") ["mix", "vec2", "vec2"] :=
    (hmix.append (.vec2 e.scale)).before (.literal rfl rfl)
  have hplace : Brackets "float z = xyz.z;" [] := .literal rfl rfl
  have hreach : Brackets "if (abs(xyz.z) > 0.5) \x7b return 0.0; \x7d" ["abs"] := .literal rfl rfl
  have hstart := (((line_brackets hheight).append (line_brackets hplace)).append (line_brackets hcenter)).append
    (line_brackets hreach)
  have hshape : Brackets "xyz.xy /= s;" [] := .literal rfl rfl
  unfold extrudeText
  cases htwist : e.twist with
  | none =>
    have h := ((((hstart.append (.literal rfl rfl : Brackets "" [])).append (line_brackets hscale)).append
      (line_brackets hshape)).append (.literal rfl rfl : Brackets "" [])).append (ret_brackets (sum_brackets calls))
    simpa [Body.callees, htwist, Callee.text, Intrinsic.name] using h
  | some twist =>
    have hlead : Brackets "float angle = mix(0.0, " ["mix"] := .literal rfl rfl
    have hangle : Brackets ("float angle = mix(0.0, " ++ float twist.degrees ++ "*" ++ pi ++ "/180.0, z);")
        ["mix", "float"] :=
      ((hlead.append (.float twist.degrees)).before (.literal rfl rfl)).insert pi_flat (.literal rfl rfl) rfl
    have hturn : Brackets "xyz = (vec4(xyz, 1) * rotZ(angle)).xyz;" ["vec4", "rotZ"] := .literal rfl rfl
    have h := ((((hstart.append (line_brackets hangle)).append (line_brackets hscale)).append
      (line_brackets hshape)).append (line_brackets hturn)).append (ret_brackets (sum_brackets calls))
    simpa [Body.callees, htwist, Callee.text, Intrinsic.name, LibraryFunction.name] using h

theorem revolveText_brackets (degrees : Float) (calls : List (Call Float)) :
    Brackets (revolveText degrees calls) ((Body.revolve degrees calls).callees.map Callee.text) := by
  have hangle : Brackets ("if (angle>" ++ float degrees ++ "*" ++ pi ++ "/180.0) \x7b return 0.0; \x7d") ["float"] :=
    (((Brackets.float degrees).behind (.literal rfl rfl)).before (.literal rfl rfl)).insert pi_flat (.literal rfl rfl) rfl
  have hatan : Brackets "float angle = atan(xyz.y, xyz.x);" ["atan"] := .literal rfl rfl
  have hfull : Brackets ("if (angle<0.) \x7b angle+=(2.*" ++ pi ++ "); \x7d") [] :=
    .insert (.literal rfl rfl : Brackets "if (angle<0.) \x7b angle+=(2.*" []) pi_flat (.literal rfl rfl) rfl
  have hslice : Brackets "vec3 slice=(vec4(xyz,1)*rotZ(-angle)).xyz;" ["vec4", "rotZ"] := .literal rfl rfl
  have hplane : Brackets "xyz = slice.xzy;" [] := .literal rfl rfl
  have h := (((((line_brackets hatan).append (line_brackets hfull)).append (line_brackets hangle)).append
    (line_brackets hslice)).append (line_brackets hplane)).append (ret_brackets (sum_brackets calls))
  unfold revolveText
  simpa [Body.callees, Callee.text, Intrinsic.name, LibraryFunction.name] using h

theorem polygonText_brackets (low high : Vec2 Float) (bands : List (Band Float)) :
    Brackets (polygonText low high bands) ((Body.polygon low high bands).callees.map Callee.text) := by
  have hlow : Brackets ("if (any(lessThan(xyz.xy, " ++ vec2 low) ["any", "lessThan", "vec2"] :=
    .append (.literal rfl rfl : Brackets "if (any(lessThan(xyz.xy, " ["any", "lessThan"]) (.vec2 low)
  have hhigh : Brackets (")) || any(greaterThan(xyz.xy, " ++ vec2 high) ["any", "greaterThan", "vec2"] :=
    .append (.literal rfl rfl : Brackets ")) || any(greaterThan(xyz.xy, " ["any", "greaterThan"]) (.vec2 high)
  have hend : Brackets "))) \x7b return 0.0; \x7d" [] := .literal rfl rfl
  have hbox := (hlow.append hhigh).before hend
  rw [← String.append_assoc] at hbox
  have hbands : Brackets (String.join (bands.map bandLine)) ((bands.flatMap fun _ => bandCallees).map Callee.text) := by
    induction bands with
    | nil => exact .literal rfl rfl
    | cons b bands ih =>
      rw [List.map_cons, String.join_cons, List.flatMap_cons, List.map_append]
      exact (bandLine_brackets b).append ih
  have hinside : Brackets (ret "1.0") [] := ⟨rfl, rfl⟩
  exact ((line_brackets hbox).append hbands).before hinside

theorem transformText_brackets (inverse : Mat4 Float) (calls : List (Call Float)) :
    Brackets (Body.transform inverse calls).text ((Body.transform inverse calls).callees.map Callee.text) := by
  have hrows : Brackets (", ".intercalate (inverse.rows.map vec4)) (inverse.rows.flatMap fun _ => ["vec4"]) :=
    .intercalate (.literal rfl rfl) _ fun v _ => .vec4 v
  have hlead : Brackets "mat4 xfm = mat4(" ["mat4"] := .literal rfl rfl
  have hclose : Brackets ");" [] := .literal rfl rfl
  have hmatrix := (hlead.append hrows).before hclose
  have hmove : Brackets "xyz = (vec4(xyz, 1.0) * xfm).xyz;" ["vec4"] := .literal rfl rfl
  have h := ((line_brackets hmatrix).append (line_brackets hmove)).append (ret_brackets (sum_brackets calls))
  simpa [Body.text, Body.callees, Callee.text, Intrinsic.name, Mat4.rows] using h

theorem Body.brackets (body : Body Float) : Brackets body.text (body.callees.map Callee.text) := by
  cases body with
  | combine combination calls =>
    refine ret_brackets ?_
    cases combination with
    | union => exact clamped_brackets (joined_brackets (.literal rfl rfl) calls)
    | difference => exact clamped_brackets (joined_brackets (.literal rfl rfl) calls)
    | intersection => exact clamped_brackets (joined_brackets (.literal rfl rfl) calls)
    | group => exact joined_brackets (.literal rfl rfl) calls
    | color => exact joined_brackets (.literal rfl rfl) calls
  | transform inverse calls => exact transformText_brackets inverse calls
  | extrude extrusion calls => exact extrudeText_brackets extrusion calls
  | revolve degrees calls => exact revolveText_brackets degrees calls
  | polygon low high bands => exact polygonText_brackets low high bands

theorem Function.brackets (f : Function Float) :
    Brackets f.text (f.name.text :: f.body.callees.map Callee.text) := by
  obtain ⟨hw, hne⟩ := f.name.isWord
  have hname : Brackets (f.name.text ++ "(in vec3 xyz) \x7b\n") [f.name.text] := .word_append hw hne (.literal rfl rfl) rfl
  have hhead : Brackets ("float " ++ (f.name.text ++ "(in vec3 xyz) \x7b\n")) [f.name.text] := hname.behind (.literal rfl rfl)
  rw [← String.append_assoc] at hhead
  exact (hhead.append f.body.brackets).before (.literal rfl rfl)

theorem Main.brackets (m : Main Float) : Brackets m.text ("mainModel4" :: m.callees.map Callee.text) := by
  have hhead : Brackets "void mainModel4(out vec4 materials, in vec3 xyz) \x7b\n" ["mainModel4"] := .literal rfl rfl
  have hsum : Brackets ("materials[0] = " ++ sum m.calls ++ ";") ((m.calls.flatMap Call.callees).map Callee.text) :=
    ((sum_brackets m.calls).behind (.literal rfl rfl)).before (.literal rfl rfl)
  have hend : Brackets "\x7d\n" [] := .literal rfl rfl
  unfold Main.text
  cases hoffset : m.offset with
  | none =>
    have h := ((hhead.append (.literal rfl rfl : Brackets "" [])).append (line_brackets hsum)).before hend
    simpa [Main.callees, hoffset] using h
  | some v =>
    have hmove : Brackets ("xyz += vec3(" ++ numbers v.toList ++ ");") ["vec3"] :=
      .insert (.literal rfl rfl : Brackets _ ["vec3"]) (.numbers _) (.literal rfl rfl) rfl
    have h := ((hhead.append (line_brackets hmove)).append (line_brackets hsum)).before hend
    simpa [Main.callees, hoffset, Callee.text, Intrinsic.name] using h

-- The words that are called in the source of a library function.
def sourceWords : LibraryFunction → List String
  | .circle | .sphere => ["length"]
  | .cube => ["vec3", "any", "greaterThan", "abs", "vec3"]
  | .cylinder => ["abs", "length", "mix"]
  | .rotAxis => ["sin", "cos", "mat3", "mat3"]
  | .rotZ => ["mat4", "rotAxis", "vec3"]
  | .square => ["vec2", "any", "greaterThan", "abs", "vec2"]
  | .testTwoLineSegments => ["mix", "mix"]

theorem source_brackets (f : LibraryFunction) : Brackets f.source (f.name :: sourceWords f) := by
  -- the words of each line of the source
  cases f
  case' circle => show Brackets _ (["circle"] ++ ["length"] ++ [] ++ [])
  case' cube => show Brackets _ (["cube"] ++ [] ++ ["vec3"] ++ ["any", "greaterThan", "abs", "vec3"] ++ [] ++ [])
  case' cylinder => show Brackets _ (["cylinder"] ++ [] ++ [] ++ [] ++ ["abs"] ++ ["length"] ++ ["mix"] ++ [] ++ [])
  case' rotAxis => show Brackets _ (["rotAxis"] ++ ["sin"] ++ ["cos"] ++ [] ++ [] ++ ["mat3"] ++ ["mat3"] ++ [] ++ [])
  case' rotZ => show Brackets _ (["rotZ"] ++ ["mat4", "rotAxis", "vec3"] ++ [])
  case' sphere => show Brackets _ (["sphere"] ++ ["length"] ++ [] ++ [])
  case' square => show Brackets _ (["square"] ++ [] ++ ["vec2"] ++ ["any", "greaterThan", "abs", "vec2"] ++ [] ++ [])
  case' testTwoLineSegments => show Brackets _ (["testTwoLineSegments"] ++ ["mix"] ++ ["mix"] ++ [] ++ [])
  all_goals repeat' first | refine .append ?_ ?_ | exact .literal rfl rfl

-- Every stem, so that what holds of all of them can be checked.
def Stem.all : List Stem :=
  [.combination .union, .combination .difference, .combination .intersection, .combination .group, .combination .color,
    .transform, .extrude, .revolve, .polygon]

theorem Stem.mem_all (stem : Stem) : stem ∈ all := by
  rcases stem with (_ | _ | _ | _ | _) | _ | _ | _ | _ <;> decide

theorem Stem.text_injective {stem stem' : Stem} (h : stem.text = stem'.text) : stem = stem' := by
  have hall : ∀ a ∈ all, ∀ b ∈ all, a.text = b.text → a = b := by decide +kernel
  exact hall stem stem.mem_all stem' stem'.mem_all h

-- The number of a name starts at its first digit.
theorem Name.text_injective {name name' : Name} (h : name.text = name'.text) : name = name' := by
  have hstem (n : Name) : n.text.toList.takeWhile (fun c => !c.isDigit) = n.stem.text.toList := by
    rw [n.toList_text]
    refine Token.takeWhile_append_apart (fun c hc => ?_) fun c hc => ?_
    · exact (Bool.and_eq_true_iff.1 (List.all_eq_true.1 n.stem.isWord c hc)).2
    · simpa using Number.isDigit_toDigits (List.mem_of_mem_head? hc)
  have hs : name.stem.text.toList = name'.stem.text.toList := by rw [← hstem name, h, hstem name']
  have hd := congrArg String.toList h
  rw [name.toList_text, name'.toList_text, hs] at hd
  have hd := List.append_cancel_left hd
  have hs := Stem.text_injective (String.toList_inj.1 hs)
  have hd := congrArg Number.digitsValue hd
  rw [Number.digitsValue_toDigits, Number.digitsValue_toDigits] at hd
  obtain ⟨stem, number⟩ := name
  obtain ⟨stem', number'⟩ := name'
  cases hs
  cases hd
  rfl

-- The words that no name of a made function starts like.
def reserved (word : String) : Bool := Stem.all.all fun stem => !stem.text.toList.isPrefixOf word.toList

theorem Name.text_ne {name : Name} {word : String} (h : reserved word) : name.text ≠ word := by
  rintro rfl
  have hp := List.all_eq_true.1 h name.stem name.stem.mem_all
  rw [name.toList_text, List.isPrefixOf_iff_prefix.2 (List.prefix_append _ _)] at hp
  cases hp

theorem reserved_intrinsic (i : Intrinsic) : reserved i.name := by
  have h : ∀ i ∈ Intrinsic.all, reserved i.name := by decide +kernel
  exact h i i.mem_all

theorem reserved_library (f : LibraryFunction) : reserved f.name := by
  have h : ∀ f ∈ LibraryFunction.all, reserved f.name := by decide +kernel
  exact h f f.mem_all

namespace Callee

theorem eq_block {c : Callee} {name : Name} (h : c.text = name.text) : c = .block name := by
  cases c with
  | intrinsic i => exact absurd h.symm (Name.text_ne (reserved_intrinsic i))
  | library f => exact absurd h.symm (Name.text_ne (reserved_library f))
  | block name' => rw [Name.text_injective h]

theorem eq_library {c : Callee} {f : LibraryFunction} (h : c.text = f.name) : c = .library f := by
  have hi : ∀ i ∈ Intrinsic.all, ∀ f ∈ LibraryFunction.all, i.name ≠ f.name := by decide +kernel
  have hl : ∀ f ∈ LibraryFunction.all, ∀ g ∈ LibraryFunction.all, f.name = g.name → f = g := by decide +kernel
  cases c with
  | intrinsic i => exact absurd h (hi i i.mem_all f f.mem_all)
  | library g => rw [hl g g.mem_all f f.mem_all h]
  | block name => exact absurd h (Name.text_ne (reserved_library f))

end Callee

-- What is called for the scene and from the library is what the calls stand for.

theorem Call.names_callees (calls : List (Call α)) :
    (calls.flatMap Call.callees).filterMap Callee.name? = calls.filterMap Call.name? := by
  induction calls with
  | nil => rfl
  | cons call calls ih =>
    rw [List.flatMap_cons, List.filterMap_append, ih]
    cases call <;> rfl

theorem Call.library_callees {calls : List (Call α)} {f : LibraryFunction} (h : .library f ∈ calls.flatMap Call.callees) :
    f ∈ calls.filterMap Call.library? := by
  obtain ⟨call, hc, hf⟩ := List.mem_flatMap.1 h
  refine List.mem_filterMap.2 ⟨call, hc, ?_⟩
  cases call <;> simp [Call.callees] at hf <;> simp [Call.library?, hf]

theorem Body.names_callees (body : Body α) : body.callees.filterMap Callee.name? = body.names := by
  cases body with
  | combine combination calls => cases combination <;> exact Call.names_callees calls
  | transform inverse calls => exact Call.names_callees calls
  | extrude extrusion calls =>
    have hcalls := Call.names_callees calls
    cases htwist : extrusion.twist <;> simpa [callees, htwist, List.filterMap_cons, Callee.name?, names, Body.calls] using hcalls
  | revolve degrees calls => exact Call.names_callees calls
  | polygon low high bands =>
    have hnone : (bands.flatMap fun _ => bandCallees).filterMap Callee.name? = [] := by
      induction bands with
      | nil => rfl
      | cons b bands ih => rw [List.flatMap_cons, List.filterMap_append, ih]; rfl
    exact hnone

theorem Body.library_callees {body : Body α} {f : LibraryFunction} (h : .library f ∈ body.callees) : f ∈ body.library := by
  cases body with
  | combine combination calls =>
    cases combination <;> simp only [callees, List.mem_cons, reduceCtorEq, false_or] at h <;> exact Call.library_callees h
  | transform inverse calls =>
    simp only [callees, List.mem_append, List.mem_cons, List.mem_map, reduceCtorEq, and_false, exists_false, false_or] at h
    exact Call.library_callees h
  | extrude extrusion calls =>
    simp only [callees, library, List.mem_append] at h ⊢
    rcases h with h | h
    · right
      cases htwist : extrusion.twist <;> simp [htwist] at h ⊢
      exact h
    · exact .inl (Call.library_callees h)
  | revolve degrees calls =>
    simp only [callees, library, List.mem_append] at h ⊢
    rcases h with h | h
    · right
      simpa using h
    · exact .inl (Call.library_callees h)
  | polygon low high bands =>
    simp only [callees, library, List.mem_append, List.mem_flatMap, List.mem_map] at h ⊢
    rcases h with h | ⟨b, hb, h⟩
    · simp at h
    · refine ⟨b, hb, ?_⟩
      simpa [bandCallees, eq_comm] using h

theorem Main.names_callees (m : Main α) : m.callees.filterMap Callee.name? = m.calls.filterMap Call.name? := by
  have hcalls := Call.names_callees m.calls
  cases hoffset : m.offset <;> simpa [callees, hoffset, List.filterMap_cons, Callee.name?] using hcalls

theorem Main.library_callees {m : Main α} {f : LibraryFunction} (h : .library f ∈ m.callees) :
    f ∈ m.calls.filterMap Call.library? := by
  cases hoffset : m.offset <;> simp [callees, hoffset] at h <;> exact Call.library_callees (by simpa using h)

end Shader

end SolidScript
