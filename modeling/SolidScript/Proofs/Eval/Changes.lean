import SolidScript.Proofs.Value.Parts

namespace SolidScript

namespace Scope

variable {bindings : List (String × Value)} {b : String × Value}

theorem mem_bindIn {name : String} {value : Value} (h : b ∈ bindIn name value bindings) :
    b = (name, value) ∨ b ∈ bindings := by
  induction bindings with
  | nil => simpa [bindIn] using h
  | cons first rest ih =>
    obtain ⟨n, v⟩ := first
    rw [bindIn] at h
    split at h
    · rcases List.mem_cons.1 h with rfl | h
      · exact .inl rfl
      · exact .inr (List.mem_cons_of_mem _ h)
    · rcases List.mem_cons.1 h with rfl | h
      · exact .inr List.mem_cons_self
      · exact (ih h).imp_right (List.mem_cons_of_mem _)

theorem mem_bindAll (h : b ∈ bindAll bindings) : b ∈ bindings := by
  have hfold : ∀ (rest found : List (String × Value)),
      b ∈ rest.foldl (fun found first => bindIn first.1 first.2 found) found → b ∈ found ∨ b ∈ rest := by
    intro rest
    induction rest with
    | nil => exact fun found hb => .inl hb
    | cons first rest ih =>
      intro found hb
      rcases ih _ hb with hb | hb
      · rcases mem_bindIn hb with rfl | hb
        · exact .inr List.mem_cons_self
        · exact .inl hb
      · exact .inr (List.mem_cons_of_mem _ hb)
  exact (hfold bindings [] h).resolve_left List.not_mem_nil

end Scope

namespace Scopes

variable (s : Scopes) (id outer i : Nat) (name : String) (value : Value) (bindings : List (String × Value))

@[simp] theorem size_set : (s.set id name value).size = s.size := Array.size_modify

@[simp] theorem size_enclose : (s.enclose outer bindings).size = s.size + 1 := Array.size_push _

theorem getElem?_set :
    (s.set id name value).all[i]? = if i = id then (s.all[i]?).map (·.set name value) else s.all[i]? := by
  simp [set, Array.getElem?_modify, eq_comm (a := i)]

theorem getElem?_enclose :
    (s.enclose outer bindings).all[i]? = if i = s.size then some ⟨Scope.bindAll bindings, some outer⟩ else s.all[i]? :=
  Array.getElem?_push

theorem getElem?_enclose_of_lt {s : Scopes} {outer i : Nat} {bindings : List (String × Value)} (h : i < s.size) :
    (s.enclose outer bindings).all[i]? = s.all[i]? := by
  rw [getElem?_enclose, if_neg (Nat.ne_of_lt h)]

end Scopes

-- A condition on values that holds of all that a run makes anew. It may speak of the number of scopes there are, and
-- it goes on to hold when there are more.
structure Lasting (p : Nat → Value → Bool) : Prop where
  grow {n : Nat} {v : Value} : p n v → p (n + 1) v
  ordinary {n : Nat} {v : Value} : v.isOrdinary → p n v
  inner {n ref : Nat} {params : List String} {body : Block} : p (n + 1) (.function ref params body n)
  leaf {n ref : Nat} {kind : Primitive} {args : List Value} : p n (.primitive ref kind args none)
  block {n ref : Nat} {kind : Primitive} {args children : List Value} :
    (∀ v ∈ children, v.isPrimitive) → p n (.primitive ref kind args (some children))

namespace Lasting

variable {p : Nat → Value → Bool} (hp : Lasting p)

include hp

theorem later {n n' : Nat} (hn : n ≤ n') {v : Value} (h : p n v) : p n' v := by
  induction hn with
  | refl => exact h
  | step _ ih => exact hp.grow ih

theorem everywhere {n n' : Nat} (hn : n ≤ n') {v : Value} (h : v.everywhere (p n)) : v.everywhere (p n') :=
  Value.everywhere_mono (fun _ => hp.later hn) v h

theorem plain {n : Nat} {v : Value} (h : v.isPlain) : v.everywhere (p n) :=
  Value.everywhere_of_isPlain (fun _ => hp.ordinary) h

end Lasting

namespace Machine

-- Whether `p` holds everywhere in the values that are bound in some scope.
def holds (p : Value → Bool) (m : Machine) : Bool :=
  m.scopes.all.toList.all fun scope => scope.bindings.all fun b => b.2.everywhere p

theorem holds_iff {p : Value → Bool} {m : Machine} :
    m.holds p ↔ ∀ (i : Nat) (scope : Scope), m.scopes.all[i]? = some scope →
      ∀ b ∈ scope.bindings, b.2.everywhere p := by
  simp only [holds, List.all_eq_true, Array.mem_toList_iff]
  constructor
  · exact fun h i scope hi => h scope (Array.mem_of_getElem? hi)
  · intro h scope hs
    obtain ⟨i, hi⟩ := Array.getElem?_of_mem hs
    exact h i scope hi

-- A value that is found is bound in some scope.
theorem everywhere_get? {p : Value → Bool} {m : Machine} (h : m.holds p) {id : Nat} {name : String} {v : Value}
    (hv : m.scopes.get? id name = some v) : v.everywhere p := by
  fun_induction Scopes.get? m.scopes id name with
  | case1 id hnone => cases hv
  | case2 id scope hscope value hfind =>
    cases hv
    obtain ⟨before, after, hb, -⟩ := List.lookup_eq_some_iff.1 hfind
    exact holds_iff.1 h id scope hscope (name, v) (by simp [hb])
  | case3 id scope hscope hfind houter => cases hv
  | case4 id scope hscope hfind outer houter hlt ih => exact ih hv
  | case5 id scope hscope hfind outer houter hlt => cases hv

section Holding

variable {q : Value → Bool} {m : Machine}

theorem holds_mono {r : Value → Bool} (hqr : ∀ v, q v → r v) (hm : m.holds q) : m.holds r := by
  rw [holds_iff] at hm ⊢
  exact fun i found hi b hb => Value.everywhere_mono hqr _ (hm i found hi b hb)

theorem holds_set (hm : m.holds q) (scope : Nat) (name : String) {value : Value} (hv : value.everywhere q) :
    ({ m with scopes := m.scopes.set scope name value } : Machine).holds q := by
  rw [holds_iff] at hm ⊢
  intro i found hi b hb
  rw [Scopes.getElem?_set] at hi
  split at hi
  · obtain ⟨old, hold, rfl⟩ := Option.map_eq_some_iff.1 hi
    rcases Scope.mem_bindIn hb with rfl | hb
    · exact hv
    · exact hm i old hold b hb
  · exact hm i found hi b hb

theorem holds_push (hm : m.holds q) {scope : Scope} (hs : ∀ b ∈ scope.bindings, b.2.everywhere q) :
    ({ m with scopes := ⟨m.scopes.all.push scope⟩ } : Machine).holds q := by
  rw [holds_iff] at hm ⊢
  intro i found hi b hb
  rw [Array.getElem?_push] at hi
  split at hi
  · cases hi
    exact hs b hb
  · exact hm i found hi b hb

theorem holds_enclose (hm : m.holds q) (outer : Nat) {bindings : List (String × Value)}
    (hb : ∀ b ∈ bindings, b.2.everywhere q) :
    ({ m with scopes := m.scopes.enclose outer bindings } : Machine).holds q :=
  holds_push hm fun b hmem => hb b (Scope.mem_bindAll hmem)

theorem holds_create (hm : m.holds q) : ({ m with scopes := m.scopes.create } : Machine).holds q := holds_push hm nofun

end Holding

-- The changes that a run in a scope makes. The values that it binds have `p`, and so has the function that is entered.
inductive Changes (p : Nat → Value → Bool) : Nat → Machine → Machine → Prop where
  | refl {scope : Nat} (m : Machine) : Changes p scope m m
  | trans {scope : Nat} {m m' m'' : Machine} : Changes p scope m m' → Changes p scope m' m'' → Changes p scope m m''
  | draw {scope : Nat} (m : Machine) : Changes p scope m { m with nextRef := m.nextRef + 1 }
  | print {scope : Nat} (m : Machine) (line : String) :
    Changes p scope m { m with printed := m.printed ++ line ++ "\n" }
  | bind {scope : Nat} {m : Machine} (name : String) {value : Value} (hv : value.everywhere (p m.scopes.size)) :
    Changes p scope m { m with scopes := m.scopes.set scope name value }
  | enter {scope ref outer : Nat} {m m' : Machine} {params : List String} {body : Block}
    {bindings : List (String × Value)}
    (hf : p m.scopes.size (.function ref params body outer)) (hb : ∀ b ∈ bindings, b.2.everywhere (p m.scopes.size))
    (h : Changes p m.scopes.size { m with scopes := m.scopes.enclose outer bindings } m') : Changes p scope m m'

namespace Changes

variable {p : Nat → Value → Bool} {scope : Nat} {m m' : Machine}

theorem size_le (h : Changes p scope m m') : m.scopes.size ≤ m'.scopes.size := by
  induction h with
  | refl => exact Nat.le_refl _
  | trans _ _ ih ih' => exact Nat.le_trans ih ih'
  | draw => exact Nat.le_refl _
  | print => exact Nat.le_refl _
  | bind => exact Nat.le_of_eq (Scopes.size_set ..).symm
  | enter _ _ _ ih =>
    rw [Scopes.size_enclose] at ih
    exact Nat.le_of_succ_le ih

-- What holds of all values before a run holds of all values behind it.
theorem holds (hp : Lasting p) (h : Changes p scope m m') (hm : m.holds (p m.scopes.size)) :
    m'.holds (p m'.scopes.size) := by
  induction h with
  | refl => exact hm
  | trans _ _ ih ih' => exact ih' (ih hm)
  | draw => exact hm
  | print => exact hm
  | bind name hv =>
    rw [Scopes.size_set]
    exact holds_set hm _ name hv
  | enter _ hb _ ih =>
    refine ih ?_
    rw [Scopes.size_enclose]
    exact holds_mono (fun _ => hp.grow) (holds_enclose hm _ hb)

end Changes

end Machine

end SolidScript
