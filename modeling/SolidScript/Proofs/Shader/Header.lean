import SolidScript.Proofs.Decimal.Characters
import SolidScript.Shader.Model

namespace SolidScript

namespace Model

section Delimited

variable {c : Char}

-- The first time that a character occurs is no later than any time that it occurs.
theorem length_le_of_notMem {before after earlier later : List Char} (h : c ∉ before)
    (heq : before ++ c :: after = earlier ++ c :: later) : before.length ≤ earlier.length := by
  rcases List.append_eq_append_iff.1 heq with ⟨more, rfl, -⟩ | ⟨more, rfl, hmore⟩
  · simp
  · cases more with
    | nil => simp
    | cons d more =>
      cases hmore
      simp at h

-- A field ends where the character that closes it is first met.
theorem field_inj {field field' close rest rest' : String} (hclose : close.toList.head? = some c)
    (h : c ∉ field.toList) (h' : c ∉ field'.toList) (heq : field ++ (close ++ rest) = field' ++ (close ++ rest')) :
    field = field' ∧ rest = rest' := by
  obtain ⟨tail, htail⟩ := List.head?_eq_some_iff.1 hclose
  have hlists : field.toList ++ c :: (tail ++ rest.toList) = field'.toList ++ c :: (tail ++ rest'.toList) := by
    simpa [String.toList_append, htail] using congrArg String.toList heq
  have hlength := Nat.le_antisymm (length_le_of_notMem h hlists) (length_le_of_notMem h' hlists.symm)
  obtain ⟨hfield, hrest⟩ := List.append_inj hlists hlength
  refine ⟨String.toList_inj.1 hfield, String.toList_inj.1 ?_⟩
  exact List.append_cancel_left (List.cons.inj hrest).2

end Delimited

-- What keeps a name from ending its field, and the comment.
theorem notMem_of_isName {name : String} (h : isName name) : '"' ∉ name.toList ∧ '*' ∉ name.toList := by
  simp only [isName, Bool.and_eq_true, Bool.not_eq_true', List.any_eq_false] at h
  exact ⟨fun hq => h.2 _ hq rfl, fun hs => h.2 _ hs rfl⟩

theorem make_eq_ok_iff {material units : String} {o : Options} :
    Options.make material units = .ok o ↔ o = ⟨material, units⟩ ∧ isName material ∧ isName units := by
  unfold Options.make
  by_cases hm : isName material
  · by_cases hu : isName units
    · simp [hm, hu, eq_comm]
    · simp [hm, hu]
  · simp [hm]

theorem isName_of_make {material units : String} {o : Options} (h : Options.make material units = .ok o) :
    isName o.material ∧ isName o.units := by
  obtain ⟨rfl, hnames⟩ := make_eq_ok_iff.1 h
  exact hnames

theorem corner_eq (v : Vec3 Float) :
    corner v = Number.shader v.x ++ "," ++ Number.shader v.y ++ "," ++ Number.shader v.z := by
  simp [corner, Vec3.toList, String.intercalate_cons_cons, String.append_assoc]

-- Only numbers and commas stand in a corner.
theorem notMem_corner {c : Char} (hc : Number.isNumeric c = false) (hcomma : c ≠ ',') (v : Vec3 Float) :
    c ∉ (corner v).toList := by
  have hnumber (x : Float) : c ∉ (Number.shader x).toList := by
    intro hm
    rw [IsNumeric.shader x c hm] at hc
    cases hc
  simp [corner_eq, hnumber, hcomma]

-- What stands between the signs that open and close the comment.
def parts (o : Options) (box : Box Float) : List String :=
  ["\x7b\n  irmf: \"", version, "\",\n  materials: [\"", o.material, "\"],\n  max: [", corner box.high,
    "],\n  min: [", corner box.low, "],\n  units: \"", o.units, "\",\n\x7d"]

theorem header_eq (o : Options) (box : Box Float) : header o box = "/*" ++ String.join (parts o box) ++ "*/" ++ "\n\n" := by
  have hjoin (sign lead a b c d e f g h i j close blank : String) :
      sign ++ lead ++ a ++ b ++ c ++ d ++ e ++ f ++ g ++ h ++ i ++ (j ++ close ++ blank) =
        sign ++ String.join [lead, a, b, c, d, e, f, g, h, i, j] ++ close ++ blank := by
    simp [String.append_assoc]
  have hlead : "/*\x7b\n  irmf: \"" = "/*" ++ "\x7b\n  irmf: \"" := by decide +kernel
  have hclose : "\",\n\x7d*/\n\n" = "\",\n\x7d" ++ "*/" ++ "\n\n" := by decide +kernel
  unfold header parts
  rw [hlead, hclose]
  exact hjoin _ _ _ _ _ _ _ _ _ _ _ _ _ _

theorem notMem_join {c : Char} {texts : List String} (h : ∀ text ∈ texts, c ∉ text.toList) :
    c ∉ (String.join texts).toList := by
  rw [String.toList_join]
  simpa using h

theorem notMem_parts {o : Options} (h : isName o.material ∧ isName o.units) (box : Box Float) :
    ∀ text ∈ parts o box, '*' ∉ text.toList := by
  have hcorner (v : Vec3 Float) : '*' ∉ (corner v).toList := notMem_corner (by decide) (by decide) v
  have hmaterial := (notMem_of_isName h.1).2
  have hunits := (notMem_of_isName h.2).2
  simp only [parts, List.forall_mem_cons]
  exact ⟨by decide, by decide, by decide, hmaterial, by decide, hcorner _, by decide, hcorner _, by decide, hunits,
    by decide, nofun⟩

theorem head_parts (o : Options) (box : Box Float) : (String.join (parts o box)).toList.head? = some '\x7b' := by
  have hlead : ("\x7b\n  irmf: \"" : String).toList.head? = some '\x7b' := by decide
  unfold parts
  rw [String.join_cons, String.toList_append, List.head?_append, hlead]
  rfl

-- The signs that close a comment do not occur before.
theorem length_le_of_closes {inner rest earlier later : String} (hopen : inner.toList.head? = some '\x7b')
    (h : '*' ∉ inner.toList) (heq : "/*" ++ inner ++ "*/" ++ rest = earlier ++ "*/" ++ later) :
    ("/*" ++ inner).length ≤ earlier.length := by
  have hlists : '/' :: '*' :: (inner.toList ++ '*' :: '/' :: rest.toList) =
      earlier.toList ++ '*' :: '/' :: later.toList := by
    simpa [String.toList_append] using congrArg String.toList heq
  have hlength : ("/*" ++ inner).length = inner.toList.length + 2 := by
    rw [String.length_append, String.length_toList, Nat.add_comm]
    rfl
  obtain ⟨more, hinner⟩ := List.head?_eq_some_iff.1 hopen
  rw [hlength, ← String.length_toList]
  match hearlier : earlier.toList with
  | [] =>
    rw [hearlier] at hlists
    cases hlists
  | [_] =>
    -- the sign that opens the comment has a brace behind it
    rw [hearlier, hinner] at hlists
    simp at hlists
  | _ :: _ :: earlier =>
    rw [hearlier] at hlists
    have hle := length_le_of_notMem h (List.cons.inj (List.cons.inj hlists).2).2
    simpa using hle

-- The fields of the comment in turn, each with the fixed part that closes it.
theorem header_append (o : Options) (box : Box Float) (body : String) : header o box ++ body =
    "/*\x7b\n  irmf: \"" ++ version ++ "\",\n  materials: [\"" ++ (o.material ++ ("\"],\n  max: [" ++ (corner box.high ++
      ("],\n  min: [" ++ (corner box.low ++ ("],\n  units: \"" ++ (o.units ++ ("\",\n\x7d*/\n\n" ++ body)))))))) := by
  have hfields (lead a close₁ b close₂ c close₃ d close₄ rest : String) :
      lead ++ a ++ close₁ ++ b ++ close₂ ++ c ++ close₃ ++ d ++ close₄ ++ rest =
        lead ++ (a ++ (close₁ ++ (b ++ (close₂ ++ (c ++ (close₃ ++ (d ++ (close₄ ++ rest)))))))) := by
    simp only [String.append_assoc]
  unfold header
  exact hfields _ _ _ _ _ _ _ _ _ _

theorem header_append_inj {o o' : Options} (h : isName o.material ∧ isName o.units)
    (h' : isName o'.material ∧ isName o'.units) {box box' : Box Float} {body body' : String}
    (heq : header o box ++ body = header o' box' ++ body') :
    o.material = o'.material ∧ o.units = o'.units ∧ corner box.low = corner box'.low ∧
      corner box.high = corner box'.high ∧ body = body' := by
  have hcorner (v : Vec3 Float) : ']' ∉ (corner v).toList := notMem_corner (by decide) (by decide) v
  have hfields := (header_append o box body).symm.trans (heq.trans (header_append o' box' body'))
  obtain ⟨hmaterial, hfields⟩ :=
    field_inj (by decide) (notMem_of_isName h.1).1 (notMem_of_isName h'.1).1 ((String.append_right_inj _).1 hfields)
  obtain ⟨hhigh, hfields⟩ := field_inj (by decide) (hcorner _) (hcorner _) hfields
  obtain ⟨hlow, hfields⟩ := field_inj (by decide) (hcorner _) (hcorner _) hfields
  obtain ⟨hunits, hbody⟩ := field_inj (by decide) (notMem_of_isName h.2).1 (notMem_of_isName h'.2).1 hfields
  exact ⟨hmaterial, hunits, hlow, hhigh, hbody⟩

-- The box that a file tells of, and the text behind the comment.
def boxOf (shader : Option (Shader Float)) : Box Float := shader.elim ⟨.zero, .zero⟩ Shader.box

def bodyOf (shader : Option (Shader Float)) : String := shader.elim "" Shader.text

theorem text_eq (o : Options) (shader : Option (Shader Float)) :
    text o shader = header o (boxOf shader) ++ bodyOf shader := by
  cases shader with
  | none => exact String.append_empty.symm
  | some shader => rfl

theorem header_closes {o : Options} (h : isName o.material ∧ isName o.units) (box : Box Float) :
    ∃ comment, header o box = comment ++ "*/" ++ "\n\n" ∧
      ∀ body earlier later, header o box ++ body = earlier ++ "*/" ++ later → comment.length ≤ earlier.length := by
  refine ⟨"/*" ++ String.join (parts o box), header_eq o box, fun body earlier later heq => ?_⟩
  have htext := congrArg (· ++ body) (header_eq o box)
  have hclosed := String.append_assoc.symm.trans (htext.symm.trans heq)
  exact length_le_of_closes (head_parts o box) (notMem_join (notMem_parts h box)) hclosed

-- With names that are accepted, a file tells the names, the corners and what stands behind the comment, whatever the
-- box and the text behind it are, and none of them can be taken for anything else. The first signs that close a
-- comment are those of the comment at the head of the file. The files of shaders are of this form.
theorem header_unforgeable {material units material' units' : String} {o o' : Options}
    (h : Options.make material units = .ok o) (h' : Options.make material' units' = .ok o') :
    (∀ box box' body body', header o box ++ body = header o' box' ++ body' →
      o.material = o'.material ∧ o.units = o'.units ∧ corner box.low = corner box'.low ∧
        corner box.high = corner box'.high ∧ body = body') ∧
    (∀ box, ∃ comment, header o box = comment ++ "*/" ++ "\n\n" ∧
      ∀ body earlier later, header o box ++ body = earlier ++ "*/" ++ later → comment.length ≤ earlier.length) ∧
    ∀ shader, text o shader = header o (boxOf shader) ++ bodyOf shader := by
  refine ⟨fun box box' body body' heq => ?_, fun box => ?_, text_eq o⟩
  · exact header_append_inj (isName_of_make h) (isName_of_make h') heq
  · exact header_closes (isName_of_make h) box

-- A name that looks like the fields behind it, up to the end of the comment.
theorem header_unforgeable_imitated :
    let o : Options := ⟨"A],  max: [9,9,9],  units: mm,  \x7d/", "mm"⟩
    let o' : Options := ⟨"A", "mm"⟩
    Options.make o.material o.units = .ok o ∧ Options.make o'.material o'.units = .ok o' ∧
      (∀ shader shader', text o shader ≠ text o' shader') ∧
      ∀ shader, ∃ comment, text o shader = comment ++ "*/" ++ "\n\n" ++ bodyOf shader ∧
        ∀ earlier later, text o shader = earlier ++ "*/" ++ later → comment.length ≤ earlier.length := by
  intro o o'
  have h : Options.make o.material o.units = .ok o := make_eq_ok_iff.2 ⟨rfl, by decide +kernel, by decide +kernel⟩
  have h' : Options.make o'.material o'.units = .ok o' := make_eq_ok_iff.2 ⟨rfl, by decide +kernel, by decide +kernel⟩
  obtain ⟨hfields, hclosed, -⟩ := header_unforgeable h h'
  refine ⟨h, h', fun shader shader' heq => ?_, fun shader => ?_⟩
  · rw [text_eq, text_eq] at heq
    exact absurd (hfields _ _ _ _ heq).1 (by decide)
  · obtain ⟨comment, hcomment, hfirst⟩ := hclosed (boxOf shader)
    rw [text_eq]
    exact ⟨comment, congrArg (· ++ bodyOf shader) hcomment, hfirst (bodyOf shader)⟩

end Model

end SolidScript
