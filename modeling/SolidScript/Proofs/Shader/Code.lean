import Mathlib.Algebra.Order.Field.Rat
import SolidScript.Shader.Render

namespace SolidScript

namespace Shader

namespace Code

-- The values of the variables. A matrix is given by its columns.
structure Store (β : Type) where
  xyz : Vec3 β
  xfm : Vec4 (Vec4 β)
  numbers : String → β
  pairs : String → Vec2 β

-- A number that can be read and written: a variable, or a component of one.
inductive Place where
  | y
  | z
  | named (name : String)
  | first (name : String)
  | second (name : String)

namespace Place

@[simp]
def text : Place → String
  | y => "xyz.y"
  | z => "xyz.z"
  | named name => name
  | first name => name ++ ".x"
  | second name => name ++ ".y"

@[simp]
def get (s : Store β) : Place → β
  | y => s.xyz.y
  | z => s.xyz.z
  | named name => s.numbers name
  | first name => (s.pairs name).x
  | second name => (s.pairs name).y

@[simp]
def set (s : Store β) (value : β) : Place → Store β
  | y => { s with xyz := { s.xyz with y := value } }
  | z => { s with xyz := { s.xyz with z := value } }
  | named name => { s with numbers := Function.update s.numbers name value }
  | first name => { s with pairs := Function.update s.pairs name { s.pairs name with x := value } }
  | second name => { s with pairs := Function.update s.pairs name { s.pairs name with y := value } }

end Place

-- The numbers that are the same in all shaders.
inductive Fixed where
  | zero
  | half
  | one

@[simp]
def Fixed.text : Fixed → String
  | zero => "0.0"
  | half => "0.5"
  | one => "1.0"

inductive Sign where
  | plus
  | minus
  | times
  | slash

@[simp]
def Sign.text : Sign → String
  | plus => "+"
  | minus => "-"
  | times => "*"
  | slash => "/"

inductive Number (α : Type) where
  | read (place : Place)
  | constant (n : α)
  | fixed (d : Fixed)
  | grouped (a : Number α)
  | join (sign : Sign) (a b : Number α)
  | abs (a : Number α)
  | mix (a b t : Number α)
  | sum (calls : List (Call α))
  | test (left right : Edge α)

inductive Pair (α : Type) where
  | xy
  | named (name : String)
  | constant (v : Vec2 α)
  | ones
  | mix (a b : Pair α) (t : Number α)

inductive Comparison (α : Type) where
  | exceeds (a b : Number α)
  | atLeast (a b : Number α)
  | atMost (a b : Number α)
  | anyLess (a b : Pair α)
  | anyGreater (a b : Pair α)

inductive Condition (α : Type) where
  | truth (b : Bool)
  | only (a : Comparison α)
  | both (a b : Comparison α)
  | either (a b : Comparison α)

inductive Statement (α : Type) where
  | number (name : String) (value : Number α)
  | pair (name : String) (value : Pair α)
  | matrix (columns : Vec4 (Vec4 α))
  | carry
  | shrink (factors : Pair α)
  | update (place : Place) (sign : Sign) (value : Number α)
  | branch (condition : Condition α) (yes no : Statement α)
  | leave (condition : Condition α) (value : Number α)

inductive Result (α : Type) where
  | number (value : Number α)
  | choice (condition : Condition α) (yes no : Number α)

@[simp]
def Number.text : Number Float → String
  | read place => place.text
  | constant n => float n
  | fixed d => d.text
  | grouped a => .join ["(", a.text, ")"]
  | join sign a b => .join [a.text, " ", sign.text, " ", b.text]
  | abs a => .join ["abs(", a.text, ")"]
  | mix a b t => .join ["mix(", a.text, ", ", b.text, ", ", t.text, ")"]
  | sum calls => Shader.sum calls
  | test left right => .join ["testTwoLineSegments(", vec2 left.low, ",", vec2 left.high, ",", vec2 right.low, ",",
      vec2 right.high, ",xyz.xy)"]

@[simp]
def Pair.text : Pair Float → String
  | xy => "xyz.xy"
  | named name => name
  | constant v => vec2 v
  | ones => "vec2(1)"
  | mix a b t => .join ["mix(", a.text, ",", b.text, ",", t.text, ")"]

@[simp]
def Comparison.text : Comparison Float → String
  | exceeds a b => .join [a.text, " > ", b.text]
  | atLeast a b => .join [a.text, " >= ", b.text]
  | atMost a b => .join [a.text, " <= ", b.text]
  | anyLess a b => .join ["any(lessThan(", a.text, ", ", b.text, "))"]
  | anyGreater a b => .join ["any(greaterThan(", a.text, ", ", b.text, "))"]

@[simp]
def Condition.text : Condition Float → String
  | truth b => Shader.truth b
  | only a => a.text
  | both a b => .join [a.text, " && ", b.text]
  | either a b => .join [a.text, " || ", b.text]

@[simp]
def Statement.text : Statement Float → String
  | number name value => .join ["float ", name, " = ", value.text, ";"]
  | pair name value => .join ["vec2 ", name, " = ", value.text, ";"]
  | matrix columns => .join ["mat4 xfm = mat4(", ", ".intercalate (columns.toList.map vec4), ");"]
  | carry => "xyz = (vec4(xyz, 1.0) * xfm).xyz;"
  | shrink factors => .join ["xyz.xy /= ", factors.text, ";"]
  | update place sign value => .join [place.text, " ", sign.text, "= ", value.text, ";"]
  | branch condition yes no => .join ["if (", condition.text, ") \x7b ", yes.text, " \x7d else \x7b ", no.text, " \x7d"]
  | leave condition value => .join ["if (", condition.text, ") \x7b return ", value.text, "; \x7d"]

@[simp]
def Result.text : Result Float → String
  | number value => value.text
  | choice condition yes no => .join [condition.text, " ? ", yes.text, " : ", no.text]

end Code

-- The body of a function, as far as the functions of moved blocks, of extrusions without a twist and of polygons need
-- it: statements, one on each line, and what is returned after them. The same code is printed with floats for its
-- numbers and run with exact ones.
structure Code (α : Type) where
  lines : List (Code.Statement α)
  result : Code.Result α

def Code.text (code : Code Float) : String :=
  String.join (code.lines.map fun statement => line statement.text) ++ ret code.result.text

namespace Code

-- What numbers, operations and calls of other functions stand for. Numbers are compared by their order.
structure Meaning (α β : Type) where
  constant : α → β
  fixed : Fixed → β
  join : Sign → β → β → β
  abs : β → β
  sum : List β → β
  call : Call α → Vec3 β → β
  test : Edge β → Edge β → Vec2 β → β

namespace Meaning

variable (m : Meaning α β)

-- The number at the share `t` of the way from `a` to `b`.
def mix (a b t : β) : β :=
  m.join .plus (m.join .times a (m.join .minus (m.fixed .one) t)) (m.join .times b t)

def pair (v : Vec2 α) : Vec2 β := ⟨m.constant v.x, m.constant v.y⟩

def edge (e : Edge α) : Edge β := ⟨m.pair e.low, m.pair e.high⟩

def column (v : Vec4 α) : Vec4 β := ⟨m.constant v.x, m.constant v.y, m.constant v.z, m.constant v.w⟩

-- One component of the product of a row and a matrix.
def dot (a b : Vec4 β) : β :=
  m.sum [m.join .times a.x b.x, m.join .times a.y b.y, m.join .times a.z b.z, m.join .times a.w b.w]

-- The first three components of the row of a point and a one, times a matrix.
def carried (p : Vec3 β) (columns : Vec4 (Vec4 β)) : Vec3 β :=
  let row : Vec4 β := ⟨p.x, p.y, p.z, m.fixed .one⟩
  ⟨m.dot row columns.x, m.dot row columns.y, m.dot row columns.z⟩

end Meaning

section Run

variable (m : Meaning α β) (s : Store β)

@[simp]
def Number.value : Number α → β
  | read place => place.get s
  | constant n => m.constant n
  | fixed d => m.fixed d
  | grouped a => a.value
  | join sign a b => m.join sign a.value b.value
  | abs a => m.abs a.value
  | mix a b t => m.mix a.value b.value t.value
  | sum calls => m.sum (calls.map fun c => m.call c s.xyz)
  | test left right => m.test (m.edge left) (m.edge right) ⟨s.xyz.x, s.xyz.y⟩

@[simp]
def Pair.value : Pair α → Vec2 β
  | xy => ⟨s.xyz.x, s.xyz.y⟩
  | named name => s.pairs name
  | constant v => m.pair v
  | ones => ⟨m.fixed .one, m.fixed .one⟩
  | mix a b t => ⟨m.mix a.value.x b.value.x (t.value m s), m.mix a.value.y b.value.y (t.value m s)⟩

variable [LinearOrder β]

def less (a b : β) : Bool := a < b

@[simp]
def Comparison.holds : Comparison α → Bool
  | exceeds a b => less (b.value m s) (a.value m s)
  | atLeast a b => !less (a.value m s) (b.value m s)
  | atMost a b => !less (b.value m s) (a.value m s)
  | anyLess a b => less (a.value m s).x (b.value m s).x || less (a.value m s).y (b.value m s).y
  | anyGreater a b => less (b.value m s).x (a.value m s).x || less (b.value m s).y (a.value m s).y

@[simp]
def Condition.holds : Condition α → Bool
  | truth b => b
  | only a => a.holds m s
  | both a b => a.holds m s && b.holds m s
  | either a b => a.holds m s || b.holds m s

-- A statement leaves a store for those after it, or it returns a value.
@[simp]
def Statement.run : Statement α → Store β ⊕ β
  | number name value => .inl { s with numbers := Function.update s.numbers name (value.value m s) }
  | pair name value => .inl { s with pairs := Function.update s.pairs name (value.value m s) }
  | matrix columns => .inl { s with
      xfm := ⟨m.column columns.x, m.column columns.y, m.column columns.z, m.column columns.w⟩ }
  | carry => .inl { s with xyz := m.carried s.xyz s.xfm }
  | shrink factors => .inl { s with
      xyz := ⟨m.join .slash s.xyz.x (factors.value m s).x, m.join .slash s.xyz.y (factors.value m s).y, s.xyz.z⟩ }
  | update place sign value => .inl (place.set s (m.join sign (place.get s) (value.value m s)))
  | branch condition yes no => bif condition.holds m s then yes.run else no.run
  | leave condition value => bif condition.holds m s then .inr (value.value m s) else .inl s

@[simp]
def Result.value : Result α → β
  | number value => value.value m s
  | choice condition yes no => bif condition.holds m s then yes.value m s else no.value m s

end Run

section Lines

variable [LinearOrder β] (m : Meaning α β)

@[simp]
def runLines : List (Statement α) → Store β → Store β ⊕ β
  | [], s => .inl s
  | statement :: rest, s => (statement.run m s).elim (runLines rest) .inr

-- What the code returns.
def value (code : Code α) (s : Store β) : β := (runLines m code.lines s).elim (code.result.value m) id

-- Whether nothing is returned before the end of the code.
def ReachesEnd (code : Code α) (s : Store β) : Prop := ∃ t, runLines m code.lines s = .inl t

end Lines

-- The function of a block that is moved.
def moved (inverse : Mat4 α) (calls : List (Call α)) : Code α where
  lines := [
    .matrix ⟨⟨inverse.x.x, inverse.y.x, inverse.z.x, inverse.w.x⟩, ⟨inverse.x.y, inverse.y.y, inverse.z.y, inverse.w.y⟩,
      ⟨inverse.x.z, inverse.y.z, inverse.z.z, inverse.w.z⟩, ⟨inverse.x.w, inverse.y.w, inverse.z.w, inverse.w.w⟩⟩,
    .carry]
  result := .number (.sum calls)

-- The function of an extrusion without a twist.
def extruded (e : Extrusion α) (calls : List (Call α)) : Code α where
  lines := [
    .update .z .slash (.constant e.height),
    .number "z" (.read .z),
    .branch (.truth e.center) (.update (.named "z") .plus (.fixed .half)) (.update .z .minus (.fixed .half)),
    .leave (.only (.exceeds (.abs (.read .z)) (.fixed .half))) (.fixed .zero),
    .pair "s" (.mix .ones (.constant e.scale) (.read (.named "z"))),
    .shrink (.named "s")]
  result := .number (.sum calls)

def boxTest (low high : Vec2 α) : Statement α :=
  .leave (.either (.anyLess .xy (.constant low)) (.anyGreater .xy (.constant high))) (.fixed .zero)

def bandTest (band : Band α) : Statement α :=
  .leave (.both (.atLeast (.read .y) (.constant band.low)) (.atMost (.read .y) (.constant band.high)))
    (.test band.left band.right)

-- The function of a polygon.
def polygon (low high : Vec2 α) (bands : List (Band α)) : Code α where
  lines := boxTest low high :: bands.map bandTest
  result := .number (.fixed .one)

-- Where an edge is at the height of a sample.
def edgeAt (low high : String) : Number α :=
  .mix (.read (.first low)) (.read (.first high))
    (.join .slash (.grouped (.join .minus (.read (.second "xy")) (.read (.second low))))
      (.grouped (.join .minus (.read (.second high)) (.read (.second low)))))

-- The library function that tests a sample between two edges.
def testTwoLineSegments : Code α where
  lines := [.number "lx" (edgeAt "l0" "l1"), .number "rx" (edgeAt "r0" "r1")]
  result := .choice (.both (.atLeast (.read (.first "xy")) (.read (.named "lx")))
    (.atMost (.read (.first "xy")) (.read (.named "rx")))) (.fixed .one) (.fixed .zero)

-- Exact numbers, with functions for what is called.
def Meaning.exact (constant : α → ℚ) (call : Call α → Vec3 ℚ → ℚ) (test : Edge ℚ → Edge ℚ → Vec2 ℚ → ℚ) :
    Meaning α ℚ where
  constant := constant
  fixed
    | .zero => 0
    | .half => 1 / 2
    | .one => 1
  join
    | .plus, a, b => a + b
    | .minus, a, b => a - b
    | .times, a, b => a * b
    | .slash, a, b => a / b
  abs a := |a|
  sum := List.sum
  call := call
  test := test

section Text

theorem text_extruded {e : Extrusion Float} (htwist : e.twist = none) (calls : List (Call Float)) :
    (Body.extrude e calls).text = (extruded e calls).text := by
  apply String.toList_inj.1
  simp [Body.text, extrudeText, htwist, extruded, text, line]

theorem text_boxTest (low high : Vec2 Float) : (boxTest low high).text =
    "if (any(lessThan(xyz.xy, " ++ vec2 low ++ ")) || any(greaterThan(xyz.xy, " ++ vec2 high
      ++ "))) \x7b return 0.0; \x7d" := by
  apply String.toList_inj.1
  simp [boxTest]

theorem text_bandTest (band : Band Float) : line (bandTest band).text = bandLine band := by
  apply String.toList_inj.1
  simp [bandLine, bandTest, line]

theorem text_polygon (low high : Vec2 Float) (bands : List (Band Float)) :
    (Body.polygon low high bands).text = (polygon low high bands).text := by
  have hbands : (bands.map bandTest).map (fun statement => line statement.text) = bands.map bandLine := by
    rw [List.map_map]
    exact List.map_congr_left fun band _ => text_bandTest band
  rw [Body.text, polygonText, polygon, text, List.map_cons, hbands, String.join_cons, text_boxTest]
  rfl

theorem source_testTwoLineSegments : LibraryFunction.testTwoLineSegments.source =
    "float testTwoLineSegments(in vec2 l0, in vec2 l1, in vec2 r0, in vec2 r1, in vec2 xy) \x7b\n"
      ++ (testTwoLineSegments : Code Float).text ++ "\x7d\n" := by
  decide +kernel

end Text

section Runs

variable [LinearOrder β] {m : Meaning α β} {s : Store β}

theorem less_iff {a b : β} : less a b ↔ a < b := decide_eq_true_iff

theorem less_eq_false_iff {a b : β} : less a b = false ↔ b ≤ a := by
  rw [less, decide_eq_false_iff_not, not_lt]

theorem value_extruded (e : Extrusion α) (calls : List (Call α)) : (extruded e calls).value m s =
    let height := m.join .slash s.xyz.z (m.constant e.height)
    let z := if e.center then m.join .plus height (m.fixed .half) else height
    let level := if e.center then height else m.join .minus height (m.fixed .half)
    if m.fixed .half < m.abs level then m.fixed .zero
    else
      let factor (scale : α) := m.mix (m.fixed .one) (m.constant scale) z
      m.sum (calls.map fun c => m.call c
        ⟨m.join .slash s.xyz.x (factor e.scale.x), m.join .slash s.xyz.y (factor e.scale.y), level⟩) := by
  obtain ⟨height, center, twist, scale⟩ := e
  cases center with
  | true =>
    simp only [if_true]
    split
    · simp [value, extruded, less, *]
    · simp [value, extruded, less, Meaning.pair, *]
  | false =>
    simp only [if_false, Bool.false_eq_true]
    split
    · simp [value, extruded, less, *]
    · simp [value, extruded, less, Meaning.pair, *]

theorem run_boxTest_of_mem {low high : Vec2 α} (h : (m.constant low.x ≤ s.xyz.x ∧ m.constant low.y ≤ s.xyz.y) ∧
    s.xyz.x ≤ m.constant high.x ∧ s.xyz.y ≤ m.constant high.y) : (boxTest low high).run m s = .inl s := by
  obtain ⟨⟨hleft, hbottom⟩, hright, htop⟩ := h
  simp [boxTest, Meaning.pair, less_eq_false_iff.2, *]

theorem run_boxTest_of_notMem {low high : Vec2 α}
    (h : ¬ ((m.constant low.x ≤ s.xyz.x ∧ m.constant low.y ≤ s.xyz.y) ∧
      s.xyz.x ≤ m.constant high.x ∧ s.xyz.y ≤ m.constant high.y)) :
    (boxTest low high).run m s = .inr (m.fixed .zero) := by
  have houtside : (Condition.either (.anyLess .xy (.constant low)) (.anyGreater .xy (.constant high))).holds m s := by
    simpa [less_iff, Meaning.pair, not_and_or, - not_and] using h
  rw [boxTest, Statement.run, houtside]
  rfl

theorem run_bandTest (band : Band α) : (bandTest band).run m s =
    bif m.constant band.low ≤ s.xyz.y && s.xyz.y ≤ m.constant band.high then
      .inr (m.test (m.edge band.left) (m.edge band.right) ⟨s.xyz.x, s.xyz.y⟩)
    else .inl s := by
  have hle (a b : β) : (!less b a) = decide (a ≤ b) := by
    rw [less, ← decide_not, decide_eq_decide, not_lt]
  simp only [bandTest, Statement.run, Condition.holds, Comparison.holds, hle]
  rfl

-- The first band that has the height of the sample decides.
theorem runLines_bandTests (bands : List (Band α)) : runLines m (bands.map bandTest) s =
    match bands.find? fun band => m.constant band.low ≤ s.xyz.y && s.xyz.y ≤ m.constant band.high with
    | some band => .inr (m.test (m.edge band.left) (m.edge band.right) ⟨s.xyz.x, s.xyz.y⟩)
    | none => .inl s := by
  induction bands with
  | nil => rfl
  | cons band rest ih =>
    rw [List.map_cons, runLines, run_bandTest, List.find?_cons]
    cases decide (m.constant band.low ≤ s.xyz.y) && decide (s.xyz.y ≤ m.constant band.high) with
    | true => rfl
    | false => exact ih

end Runs

end Code

end Shader

end SolidScript
