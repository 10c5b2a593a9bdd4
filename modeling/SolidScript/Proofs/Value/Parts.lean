import Mathlib.Tactic.Common
import SolidScript.Eval.Program

namespace SolidScript

namespace Value

-- The keys and the values of entries.
def entryParts (entries : List (Key × HashPair Value)) : List Value := entries.flatMap fun (_, ⟨key, value⟩) => [key, value]

-- The values directly inside of a value.
def parts : Value → List Value
  | int _ | float _ | string _ | bool _ | null | function .. | builtin _ | failure _ => []
  | array _ elements => elements
  | hash _ entries => entryParts entries
  | returned value => [value]
  | named _ _ value => [value]
  | primitive _ _ args body => args ++ body.getD []

mutual

-- Whether `p` holds of the value and of everything inside it.
def everywhere (p : Value → Bool) : Value → Bool
  | .array ref elements => p (.array ref elements) && everywhereEach p elements
  | .hash ref entries => p (.hash ref entries) && everywhereEntries p entries
  | .returned value => p (.returned value) && everywhere p value
  | .named ref name value => p (.named ref name value) && everywhere p value
  | .primitive ref kind args body =>
    p (.primitive ref kind args body) && (everywhereEach p args && everywhereBody p body)
  | .int value => p (.int value)
  | .float value => p (.float value)
  | .string text => p (.string text)
  | .bool value => p (.bool value)
  | .null => p .null
  | .function ref params body scope => p (.function ref params body scope)
  | .builtin b => p (.builtin b)
  | .failure fault => p (.failure fault)
termination_by structural v => v

def everywhereEach (p : Value → Bool) : List Value → Bool
  | [] => true
  | v :: rest => everywhere p v && everywhereEach p rest
termination_by structural vs => vs

def everywhereEntries (p : Value → Bool) : List (Key × HashPair Value) → Bool
  | [] => true
  | (_, ⟨key, value⟩) :: rest => everywhere p key && everywhere p value && everywhereEntries p rest
termination_by structural es => es

def everywhereBody (p : Value → Bool) : Option (List Value) → Bool
  | none => true
  | some children => everywhereEach p children
termination_by structural b => b

end

section

variable {p : Value → Bool}

theorem everywhereEach_eq (vs : List Value) : everywhereEach p vs = vs.all (everywhere p) := by
  induction vs with
  | nil => rfl
  | cons v vs ih => simp [everywhereEach, ih]

theorem everywhereEntries_eq (entries : List (Key × HashPair Value)) :
    everywhereEntries p entries = (entryParts entries).all (everywhere p) := by
  induction entries with
  | nil => rfl
  | cons entry entries ih => simp [everywhereEntries, entryParts, ih, Bool.and_assoc]

theorem everywhereBody_eq (body : Option (List Value)) : everywhereBody p body = (body.getD []).all (everywhere p) := by
  cases body with
  | none => rfl
  | some children => exact everywhereEach_eq children

theorem everywhere_eq (v : Value) : everywhere p v = (p v && v.parts.all (everywhere p)) := by
  cases v <;> simp [everywhere, parts, everywhereEach_eq, everywhereEntries_eq, everywhereBody_eq]

theorem everywhere_iff {v : Value} : everywhere p v ↔ p v ∧ ∀ u ∈ v.parts, everywhere p u := by
  rw [everywhere_eq]
  simp

theorem everywhere_of_mem {u v : Value} (h : v.everywhere p) (hu : u ∈ v.parts) : u.everywhere p :=
  (everywhere_iff.1 h).2 u hu

theorem sizeOf_lt_of_mem_parts {u v : Value} (h : u ∈ v.parts) : sizeOf u < sizeOf v := by
  cases v with
  | array ref elements =>
    have : sizeOf u < sizeOf elements := List.sizeOf_lt_of_mem h
    rw [array.sizeOf_spec]
    omega
  | hash ref entries =>
    obtain ⟨⟨k, key, value⟩, he, hu⟩ := List.mem_flatMap.1 h
    have hs := List.sizeOf_lt_of_mem he
    rw [Prod.mk.sizeOf_spec, HashPair.mk.sizeOf_spec] at hs
    rw [hash.sizeOf_spec]
    simp only [List.mem_cons, List.not_mem_nil, or_false] at hu
    rcases hu with rfl | rfl <;> omega
  | returned value =>
    rw [List.mem_singleton.1 h, returned.sizeOf_spec]
    omega
  | named ref name value =>
    rw [List.mem_singleton.1 h, named.sizeOf_spec]
    omega
  | primitive ref kind args body =>
    rw [primitive.sizeOf_spec]
    rcases List.mem_append.1 h with h | h
    · have := List.sizeOf_lt_of_mem h
      omega
    · cases body with
      | none => cases h
      | some children =>
        have := List.sizeOf_lt_of_mem h
        simp only [Option.getD_some, Option.some.sizeOf_spec] at this ⊢
        omega
  | _ => cases h

theorem everywhere_of_forall (h : ∀ v, p v) (v : Value) : v.everywhere p := by
  refine everywhere_iff.2 ⟨h v, fun u hu => ?_⟩
  have : sizeOf u < sizeOf v := sizeOf_lt_of_mem_parts hu
  exact everywhere_of_forall h u
termination_by sizeOf v

theorem everywhere_mono {q : Value → Bool} (hpq : ∀ v, p v → q v) (v : Value) (h : v.everywhere p) :
    v.everywhere q := by
  obtain ⟨hv, hparts⟩ := everywhere_iff.1 h
  refine everywhere_iff.2 ⟨hpq v hv, fun u hu => ?_⟩
  have : sizeOf u < sizeOf v := sizeOf_lt_of_mem_parts hu
  exact everywhere_mono hpq u (hparts u hu)
termination_by sizeOf v

end

def isPrimitive : Value → Bool
  | primitive .. => true
  | _ => false

-- The values that are neither functions nor failures nor primitives.
def isOrdinary : Value → Bool
  | function .. | failure _ | primitive .. => false
  | _ => true

-- The values that contain no others.
def isPlain (v : Value) : Bool := v.isOrdinary && v.parts.isEmpty

theorem everywhere_of_isPlain {p : Value → Bool} (hp : ∀ v : Value, v.isOrdinary → p v) {v : Value} (h : v.isPlain) :
    v.everywhere p := by
  simp only [isPlain, Bool.and_eq_true, List.isEmpty_iff] at h
  exact everywhere_iff.2 ⟨hp v h.1, by simp [h.2]⟩

-- What an index gives is inside of the value that it is applied to.
theorem mem_parts_of_index {left key v : Value} (h : left.index key = .ok v) : v = .null ∨ v ∈ left.parts := by
  unfold index at h
  split at h
  · rename_i ref elements i
    cases h
    split
    · exact .inl rfl
    · rw [List.getD_eq_getElem?_getD]
      cases he : elements[i.toNatClampNeg]? with
      | none => exact .inl rfl
      | some u => exact .inr (List.mem_of_getElem? he)
  · rename_i ref entries
    split at h
    · split at h
      · rename_i k hk pair he
        cases h
        obtain ⟨before, after, rfl, -⟩ := List.lookup_eq_some_iff.1 he
        exact .inr (by simp [parts, entryParts])
      · cases h
        exact .inl rfl
    · cases h
  · cases h

theorem mem_insertEntry {key : Key} {pair : HashPair Value} {entries : List (Key × HashPair Value)}
    {entry : Key × HashPair Value} (h : entry ∈ insertEntry key pair entries) : entry = (key, pair) ∨ entry ∈ entries := by
  induction entries with
  | nil => simpa [insertEntry] using h
  | cons first rest ih =>
    obtain ⟨k, p⟩ := first
    rw [insertEntry] at h
    split at h
    · rcases List.mem_cons.1 h with rfl | h
      · exact .inl rfl
      · exact .inr (List.mem_cons_of_mem _ h)
    · split at h
      · rcases List.mem_cons.1 h with rfl | h
        · exact .inl rfl
        · exact .inr h
      · rcases List.mem_cons.1 h with rfl | h
        · exact .inr List.mem_cons_self
        · exact (ih h).imp_right (List.mem_cons_of_mem _)

theorem mem_entryParts_insertEntry {key v u : Value} {usable : Key} {entries : List (Key × HashPair Value)}
    (h : u ∈ entryParts (insertEntry usable ⟨key, v⟩ entries)) : u = key ∨ u = v ∨ u ∈ entryParts entries := by
  obtain ⟨entry, he, hu⟩ := List.mem_flatMap.1 h
  rcases mem_insertEntry he with rfl | he
  · simp only [List.mem_cons, List.not_mem_nil, or_false] at hu
    exact hu.imp_right .inl
  · exact .inr (.inr (List.mem_flatMap.2 ⟨entry, he, hu⟩))

mutual

-- The primitives that a value stands for are the value itself or inside of it.
theorem mem_solids {p : Value → Bool} : (v : Value) → ∀ u ∈ v.solids, u.isPrimitive ∧ (v.everywhere p → u.everywhere p)
  | .primitive ref kind args body, u, hu => by
    cases List.mem_singleton.1 hu
    exact ⟨rfl, id⟩
  | .array ref elements, u, hu => by
    obtain ⟨hu, hp⟩ := mem_solidsEach elements u hu
    exact ⟨hu, fun h => hp fun v hv => everywhere_of_mem h hv⟩
  | .int _, _, hu | .float _, _, hu | .string _, _, hu | .bool _, _, hu | .null, _, hu | .hash .., _, hu
  | .function .., _, hu | .builtin _, _, hu | .failure _, _, hu | .returned _, _, hu | .named .., _, hu => nomatch hu

theorem mem_solidsEach {p : Value → Bool} :
    (vs : List Value) → ∀ u ∈ solidsEach vs, u.isPrimitive ∧ ((∀ v ∈ vs, v.everywhere p) → u.everywhere p)
  | [], _, hu => nomatch hu
  | v :: rest, u, hu => by
    rcases List.mem_append.1 hu with hu | hu
    · obtain ⟨hu, hp⟩ := mem_solids v u hu
      exact ⟨hu, fun h => hp (h v List.mem_cons_self)⟩
    · obtain ⟨hu, hp⟩ := mem_solidsEach rest u hu
      exact ⟨hu, fun h => hp fun v hv => h v (List.mem_cons_of_mem _ hv)⟩

end

end Value

theorem UnaryOp.isPlain_apply {op : UnaryOp} {right v : Value} (h : op.apply right = .ok v) : v.isPlain := by
  unfold UnaryOp.apply at h
  split at h <;> cases h <;> rfl

namespace BinaryOp

variable {op : BinaryOp} {v : Value}

theorem isPlain_ints {l r : Int64} (h : op.ints l r = .ok v) : v.isPlain := by
  cases op with
  | divide =>
    simp only [ints] at h
    split at h <;> cases h
    rfl
  | _ =>
    cases h
    rfl

theorem isPlain_floats (l r : Float) : (op.floats l r).isPlain := by
  cases op <;> rfl

theorem isPlain_strings {l r : String} (h : op.strings l r = .ok v) : v.isPlain := by
  cases op <;> cases h <;> rfl

theorem isPlain_others {l r : Value} (h : op.others l r = .ok v) : v.isPlain := by
  unfold others at h
  split at h
  · cases h
    rfl
  · cases h
    rfl
  · split at h <;> cases h

-- Operators make numbers, strings and truth values.
theorem isPlain_apply {l r : Value} (h : op.apply l r = .ok v) : v.isPlain := by
  unfold apply at h
  split at h
  · exact isPlain_ints h
  · exact isPlain_strings h
  · split at h
    · cases h
      exact isPlain_floats _ _
    · exact isPlain_others h

end BinaryOp

end SolidScript
