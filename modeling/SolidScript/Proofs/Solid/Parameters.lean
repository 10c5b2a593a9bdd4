import Mathlib.Data.List.Nodup
import Mathlib.Tactic.Common
import SolidScript.Shader.Compiler

namespace SolidScript

namespace Arguments

def isNamed : Value → Bool
  | .named .. => true
  | _ => false

-- The value of an argument that has the given name.
def valueAs? (name : String) : Value → Option Value
  | .named _ other value => if other = name then some value else none
  | _ => none

-- The arguments without a name.
def positional (args : List Value) : List Value := args.filter fun v => !isNamed v

-- The values of the arguments with the given name.
def namedAs (name : String) (args : List Value) : List Value := args.filterMap (valueAs? name)

-- Null counts as nothing.
def present : Option Value → Option Value
  | some .null => none
  | value => value

-- The last value that is assigned to a name.
def last? (name : String) (given : List (String × Value)) : Option Value := given.reverse.lookup name

theorem get?_eq (a : Arguments) (name : String) : a.get? name = present (last? name (assign a.params a.values)) := by
  unfold get? present last?
  rfl

theorem isNamed_iff {v : Value} : isNamed v ↔ ∃ ref name value, v = .named ref name value := by
  cases v <;> simp [isNamed]

section Kinds

variable {name : String} {v : Value} (hv : isNamed v = false) (rest : List Value)

theorem positional_named (ref : Nat) (name : String) (value : Value) :
    positional (.named ref name value :: rest) = positional rest := rfl

theorem positional_append (before after : List Value) :
    positional (before ++ after) = positional before ++ positional after := List.filter_append _ _

theorem namedAs_append (before after : List Value) :
    namedAs name (before ++ after) = namedAs name before ++ namedAs name after := List.filterMap_append

theorem namedAs_self (ref : Nat) (value : Value) :
    namedAs name (.named ref name value :: rest) = value :: namedAs name rest := by
  simp [namedAs, valueAs?]

theorem namedAs_named_eq_nil_iff {other : String} {ref : Nat} {value : Value} :
    namedAs name (.named ref other value :: rest) = [] ↔ other ≠ name ∧ namedAs name rest = [] := by
  by_cases h : other = name <;> simp [namedAs, valueAs?, h]

include hv

theorem positional_cons : positional (v :: rest) = v :: positional rest := by
  simp [positional, hv]

theorem namedAs_cons : namedAs name (v :: rest) = namedAs name rest := by
  cases v <;> first | rfl | cases hv

end Kinds

theorem last?_append (name : String) (given more : List (String × Value)) :
    last? name (given ++ more) = (last? name more).or (last? name given) := by
  rw [last?, List.reverse_append, List.lookup_append, last?, last?]

theorem last?_self (name : String) (value : Value) (more : List (String × Value)) :
    last? name ((name, value) :: more) = (last? name more).or (some value) := by
  rw [← List.singleton_append, last?_append]
  simp [last?]

theorem last?_other {name param : String} (h : param ≠ name) (value : Value) (more : List (String × Value)) :
    last? name ((param, value) :: more) = last? name more := by
  rw [← List.singleton_append, last?_append]
  simp [last?, List.lookup_cons, beq_false_of_ne (Ne.symm h)]

section Assign

variable {params : List String} {name : String}

-- An argument without a name takes the next parameter, if there is one left.
theorem assign_cons {v : Value} (hv : isNamed v = false) (rest : List Value) :
    assign params (v :: rest) = params.head?.toList.map (·, v) ++ assign params.tail rest := by
  cases params <;> cases v <;> first | rfl | cases hv

theorem assign_append (before after : List Value) : assign params (before ++ after) =
    assign params before ++ assign (params.drop (positional before).length) after := by
  induction before generalizing params with
  | nil => rfl
  | cons v before ih =>
    cases hv : isNamed v with
    | true =>
      obtain ⟨ref, other, value, rfl⟩ := isNamed_iff.1 hv
      rw [List.cons_append, assign, assign, ih, List.cons_append, positional_named]
    | false =>
      rw [List.cons_append, assign_cons hv, assign_cons hv, ih, List.append_assoc, positional_cons hv, List.length_cons,
        List.drop_tail]

theorem last?_assign_of_notMem {args : List Value} (hname : name ∉ params) (hargs : namedAs name args = []) :
    last? name (assign params args) = none := by
  induction args generalizing params with
  | nil => rfl
  | cons v rest ih =>
    cases hv : isNamed v with
    | true =>
      obtain ⟨ref, other, value, rfl⟩ := isNamed_iff.1 hv
      obtain ⟨hother, hrest⟩ := (namedAs_named_eq_nil_iff rest).1 hargs
      rw [assign, last?_other hother, ih hname hrest]
    | false =>
      rw [namedAs_cons hv] at hargs
      rw [assign_cons hv]
      cases params with
      | nil => exact ih hname hargs
      | cons param params =>
        rw [List.mem_cons, not_or] at hname
        exact (last?_other (Ne.symm hname.1) v _).trans (ih hname.2 hargs)

-- Without its name among the arguments, a parameter gets the argument in its place.
theorem last?_assign_of_unnamed {args : List Value} (hn : params.Nodup) (hargs : namedAs name args = []) {i : Nat}
    (hi : params[i]? = some name) : last? name (assign params args) = (positional args)[i]? := by
  induction args generalizing params i with
  | nil => rfl
  | cons v rest ih =>
    cases hv : isNamed v with
    | true =>
      obtain ⟨ref, other, value, rfl⟩ := isNamed_iff.1 hv
      obtain ⟨hother, hrest⟩ := (namedAs_named_eq_nil_iff rest).1 hargs
      rw [assign, last?_other hother, ih hn hrest hi, positional_named]
    | false =>
      rw [namedAs_cons hv] at hargs
      rw [assign_cons hv, positional_cons hv]
      cases params with
      | nil => cases hi
      | cons param params =>
        rw [List.nodup_cons] at hn
        cases i with
        | zero =>
          cases hi
          refine (last?_self name v _).trans ?_
          change (last? name (assign params rest)).or (some v) = some v
          rw [last?_assign_of_notMem hn.1 hargs, Option.none_or]
        | succ i =>
          have hother : param ≠ name := by
            rintro rfl
            exact hn.1 (List.mem_of_getElem? hi)
          exact (last?_other hother v _).trans (ih hn.2 hargs hi)

-- Before the last argument with the name of a parameter, nothing counts for the parameter any more.
theorem last?_assign_of_named {before after : List Value} {ref : Nat} {value : Value} :
    last? name (assign params (before ++ .named ref name value :: after)) =
      (last? name (assign (params.drop (positional before).length) after)).or (some value) := by
  rw [assign_append, last?_append, assign, last?_self, Option.or_assoc, Option.some_or]

theorem exists_last_named {args : List Value} (h : namedAs name args ≠ []) :
    ∃ before ref value after, args = before ++ .named ref name value :: after ∧ namedAs name after = [] := by
  induction args with
  | nil => exact absurd rfl h
  | cons v rest ih =>
    by_cases hrest : namedAs name rest = []
    · cases hv : isNamed v with
      | true =>
        obtain ⟨ref, other, value, rfl⟩ := isNamed_iff.1 hv
        rcases eq_or_ne other name with rfl | hother
        · exact ⟨[], ref, value, rest, rfl, hrest⟩
        · exact absurd ((namedAs_named_eq_nil_iff rest).2 ⟨hother, hrest⟩) h
      | false => exact absurd ((namedAs_cons hv rest).trans hrest) h
    · obtain ⟨before, ref, value, after, rfl, hafter⟩ := ih hrest
      exact ⟨v :: before, ref, value, after, rfl, hafter⟩

end Assign

-- What the parameter at a place should get: the last argument with its name, and otherwise the argument in its place.
def preferred (a : Arguments) (i : Nat) (name : String) : Option Value :=
  (namedAs name a.values).getLast?.or (positional a.values)[i]?

-- Whether the argument in the place of a parameter comes after the last one with its name.
def Overtaken (a : Arguments) (i : Nat) (name : String) : Prop :=
  ∃ before ref value after, a.values = before ++ .named ref name value :: after ∧ namedAs name after = [] ∧
    (positional before).length ≤ i ∧ i < (positional a.values).length

-- Whether an argument belongs to no parameter: its name is unknown, or all parameters have been taken before.
def Idle (params : List String) (before : List Value) (v : Value) : Prop :=
  (∃ ref other value, v = .named ref other value ∧ other ∉ params) ∨
    isNamed v = false ∧ params.length ≤ (positional before).length

section Get

variable {a : Arguments} {i : Nat} {name : String}

section Split

variable {before after : List Value} {ref : Nat} {value : Value}
  (hvalues : a.values = before ++ .named ref name value :: after) (hafter : namedAs name after = [])

include hvalues

theorem positional_of_split : positional a.values = positional before ++ positional after := by
  rw [hvalues, positional_append, positional_named]

include hafter

theorem preferred_of_split : a.preferred i name = some value := by
  rw [preferred, hvalues, namedAs_append, namedAs_self, hafter, List.getLast?_concat, Option.some_or]

variable (hn : a.params.Nodup) (hi : a.params[i]? = some name)

include hn hi

-- If its place is taken before its name, a parameter is not among those that are left.
theorem get?_of_taken (h : i < (positional before).length) : a.get? name = present (some value) := by
  have hgone : name ∉ a.params.drop (positional before).length := by
    intro hmem
    obtain ⟨j, hj⟩ := List.mem_iff_getElem?.1 hmem
    rw [List.getElem?_drop] at hj
    have hlt : i < a.params.length := (List.getElem?_eq_some_iff.1 hi).1
    have hsame : i = (positional before).length + j := (List.getElem?_inj hlt hn).1 (hi.trans hj.symm)
    omega
  rw [get?_eq, hvalues, last?_assign_of_named, last?_assign_of_notMem hgone hafter, Option.none_or]

theorem get?_of_left (h : (positional before).length ≤ i) :
    a.get? name = present ((positional a.values)[i]?.or (some value)) := by
  have hleft : (a.params.drop (positional before).length)[i - (positional before).length]? = some name := by
    rw [List.getElem?_drop, Nat.add_sub_cancel' h, hi]
  have hlater := last?_assign_of_unnamed (hn.sublist (List.drop_sublist _ _)) hafter hleft
  rw [positional_of_split hvalues, List.getElem?_append_right h, ← hlater, get?_eq, hvalues, last?_assign_of_named]

end Split

theorem get?_of_idle (hname : name ∈ a.params) {before after : List Value} {v : Value}
    (hvalues : a.values = before ++ v :: after) (hidle : Idle a.params before v) :
    a.get? name = { a with values := before ++ after }.get? name := by
  rw [get?_eq, get?_eq, hvalues, assign_append, assign_append, last?_append, last?_append]
  rcases hidle with ⟨ref, other, value, rfl, hother⟩ | ⟨hv, hlength⟩
  · have hne : other ≠ name := by
      rintro rfl
      exact hother hname
    rw [assign, last?_other hne]
  · rw [List.drop_of_length_le hlength, assign_cons hv]
    rfl

-- A parameter gets what it should, except that an argument in its place overtakes an argument with its name. An
-- argument that belongs to no parameter might as well be missing.
theorem get?_eq_preferred_unless_overtaken (hn : a.params.Nodup) (hi : a.params[i]? = some name) :
    (¬ a.Overtaken i name → a.get? name = present (a.preferred i name)) ∧
      (a.Overtaken i name → a.get? name = present (positional a.values)[i]?) ∧
      ∀ before v after, a.values = before ++ v :: after → Idle a.params before v →
        a.get? name = { a with values := before ++ after }.get? name := by
  refine ⟨fun hkept => ?_, ?_, fun before v after => get?_of_idle (List.mem_of_getElem? hi)⟩
  · by_cases hnamed : namedAs name a.values = []
    · rw [get?_eq, last?_assign_of_unnamed hn hnamed hi, preferred, hnamed, List.getLast?_nil, Option.none_or]
    · obtain ⟨before, ref, value, after, hvalues, hafter⟩ := exists_last_named hnamed
      rw [preferred_of_split hvalues hafter]
      rcases Nat.lt_or_ge i (positional before).length with h | h
      · exact get?_of_taken hvalues hafter hn hi h
      · have hnone : (positional a.values)[i]? = none := by
          rw [List.getElem?_eq_none_iff, ← Nat.not_lt]
          exact fun hlt => hkept ⟨before, ref, value, after, hvalues, hafter, h, hlt⟩
        rw [get?_of_left hvalues hafter hn hi h, hnone, Option.none_or]
  · rintro ⟨before, ref, value, after, hvalues, hafter, h, hlt⟩
    rw [get?_of_left hvalues hafter hn hi h, List.getElem?_eq_getElem hlt, Option.some_or]

-- A cube with the size 7 by name and then 1 without a name gets the size 1, although the name should prevail, and the
-- argument with the unknown name in between makes no difference. In the other order, it gets the size 7.
theorem get?_size_overtaken :
    let a : Arguments := ⟨.cube, ["size", "center"], [.named 0 "size" (.int 7), .named 1 "$fn" (.int 5), .int 1]⟩
    let b : Arguments := ⟨.cube, ["size", "center"], [.int 1, .named 0 "size" (.int 7)]⟩
    a.get? "size" = some (.int 1) ∧ present (a.preferred 0 "size") = some (.int 7) ∧
      { a with values := [.named 0 "size" (.int 7), .int 1] }.get? "size" = some (.int 1) ∧
      b.get? "size" = some (.int 7) := by
  intro a b
  have hn : ["size", "center"].Nodup := by decide
  have hi : ["size", "center"][0]? = some "size" := rfl
  obtain ⟨-, hover, hidle⟩ := get?_eq_preferred_unless_overtaken (a := a) hn hi
  obtain ⟨hkept, -⟩ := get?_eq_preferred_unless_overtaken (a := b) hn hi
  have hafter : a.get? "size" = some (.int 1) :=
    hover ⟨[], 0, .int 7, [.named 1 "$fn" (.int 5), .int 1], rfl, rfl, by decide, by decide⟩
  refine ⟨hafter, rfl, ?_, hkept ?_⟩
  · exact (hidle [.named 0 "size" (.int 7)] (.named 1 "$fn" (.int 5)) [.int 1] rfl
      (.inl ⟨1, "$fn", .int 5, rfl, by decide⟩)).symm.trans hafter
  · rintro ⟨before, ref, value, after, hvalues, -, hplace, -⟩
    cases before with
    | nil => cases hvalues
    | cons v before =>
      obtain ⟨rfl, -⟩ := List.cons.inj hvalues
      simp [positional, isNamed] at hplace

end Get

end Arguments

end SolidScript
