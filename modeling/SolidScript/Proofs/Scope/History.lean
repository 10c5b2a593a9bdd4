import Mathlib.Data.List.Induction
import Mathlib.Data.List.Nodup
import SolidScript.Proofs.Eval.Changes

namespace SolidScript

namespace Scope

-- The values that a name is given by a list of bindings, in that order.
def assigned (name : String) (bindings : List (String × Value)) : List Value :=
  bindings.filterMap fun b => if b.1 = name then some b.2 else none

-- The last binding of a name counts.
theorem lookup_bindAll (name : String) (bindings : List (String × Value)) :
    (bindAll bindings).lookup name = (assigned name bindings).getLast? := by
  induction bindings using List.reverseRecOn with
  | nil => rfl
  | append_singleton bindings b ih =>
    have hfold : bindAll (bindings ++ [b]) = bindIn b.1 b.2 (bindAll bindings) := List.foldl_append
    rw [hfold, lookup_bindIn, ih]
    unfold assigned
    by_cases hb : b.1 = name
    · simp [hb]
    · simp [hb, Ne.symm hb]

end Scope

namespace Scopes

theorem size_create (s : Scopes) : s.create.size = s.size + 1 := Array.size_push _

theorem getElem?_create (s : Scopes) (i : Nat) :
    s.create.all[i]? = if i = s.size then some ⟨[], none⟩ else s.all[i]? := Array.getElem?_push

end Scopes

-- What was done to scopes so far, where every operation is on scopes that exist. There are `n` of them then. A scope
-- that is made inside another one may get some names at once.
inductive History : Nat → Type where
  | start : History 0
  | create {n : Nat} (before : History n) : History (n + 1)
  | enclose {n : Nat} (before : History n) (outer : Fin n) (bindings : List (String × Value)) : History (n + 1)
  | set {n : Nat} (before : History n) (id : Fin n) (name : String) (value : Value) : History n
  | get {n : Nat} (before : History n) (id : Fin n) (name : String) : History n

namespace History

variable {n : Nat}

-- The scopes behind all operations.
def scopes : {n : Nat} → History n → Scopes
  | _, start => .empty
  | _, create h => h.scopes.create
  | _, enclose h outer bindings => h.scopes.enclose outer bindings
  | _, set h id name value => h.scopes.set id name value
  | _, get h _ _ => h.scopes

-- The given scope and the ones outward of it, the nearest first.
def outward : {n : Nat} → History n → Nat → List Nat
  | _, start, _ => []
  | _, @create n h, i => if i = n then [n] else h.outward i
  | _, @enclose n h outer _, i => if i = n then n :: h.outward outer else h.outward i
  | _, set h _ _ _, i | _, get h _ _, i => h.outward i

-- What was written, in that order: the scope, the name and the value.
def writes : {n : Nat} → History n → List ((Nat × String) × Value)
  | _, start => []
  | _, create h => h.writes
  | _, @enclose n h _ bindings => h.writes ++ bindings.map fun b => ((n, b.1), b.2)
  | _, set h id name value => h.writes ++ [((id.val, name), value)]
  | _, get h _ _ => h.writes

-- The values that a name was given on one scope, in that order.
def given (h : History n) (id : Nat) (name : String) : List Value :=
  h.writes.filterMap fun w => if w.1 = (id, name) then some w.2 else none

-- The same operations without the writes to one scope.
def without (id : Nat) : {n : Nat} → History n → History n
  | _, start => start
  | _, create h => (h.without id).create
  | _, @enclose n h outer bindings => (h.without id).enclose outer (if n = id then [] else bindings)
  | _, set h i name value => if i.val = id then h.without id else (h.without id).set i name value
  | _, get h i name => (h.without id).get i name

-- The writes to one scope with one name.
theorem given_set (h : History n) (i : Fin n) (other : String) (value : Value) (id : Nat) (name : String) :
    (h.set i other value).given id name = h.given id name ++ if i.val = id ∧ other = name then [value] else [] := by
  unfold given
  rw [writes, List.filterMap_append]
  by_cases hw : i.val = id ∧ other = name <;> simp [hw]

theorem given_enclose (h : History n) (outer : Fin n) (bindings : List (String × Value)) (id : Nat) (name : String) :
    (h.enclose outer bindings).given id name =
      h.given id name ++ if n = id then Scope.assigned name bindings else [] := by
  unfold given
  rw [writes, List.filterMap_append, List.filterMap_map]
  by_cases hn : n = id
  · subst hn
    simp [Scope.assigned]
  · simp [hn]

theorem lt_of_mem_outward {h : History n} {i j : Nat} (hj : j ∈ h.outward i) : j < n := by
  induction h generalizing i with
  | start => cases hj
  | create h ih =>
    rw [outward] at hj
    split at hj
    · rw [List.mem_singleton] at hj
      omega
    · have := ih hj
      omega
  | enclose h outer bindings ih =>
    rw [outward] at hj
    split at hj
    · rcases List.mem_cons.1 hj with rfl | hj
      · omega
      · have := ih hj
        omega
    · have := ih hj
      omega
  | set h id name value ih => exact ih hj
  | get h id name ih => exact ih hj

theorem nodup_outward (h : History n) (i : Nat) : (h.outward i).Nodup := by
  induction h generalizing i with
  | start => exact .nil
  | create h ih =>
    rw [outward]
    split
    · exact List.nodup_singleton _
    · exact ih i
  | enclose h outer bindings ih =>
    rw [outward]
    split
    · refine List.nodup_cons.2 ⟨fun hmem => ?_, ih outer⟩
      exact absurd (lt_of_mem_outward hmem) (Nat.lt_irrefl _)
    · exact ih i
  | set h id name value ih => exact ih i
  | get h id name ih => exact ih i

-- Nothing was written to a scope before it was made.
theorem given_of_le (h : History n) {id : Nat} (hid : n ≤ id) (name : String) : h.given id name = [] := by
  induction h with
  | start => rfl
  | create h ih => exact ih (by omega)
  | enclose h outer bindings ih =>
    rw [given_enclose, ih (by omega), if_neg (by omega)]
    rfl
  | set h i other value ih =>
    rw [given_set, ih hid, if_neg (by omega)]
    rfl
  | get h i other ih => exact ih hid

theorem size_scopes (h : History n) : h.scopes.size = n := by
  induction h with
  | start => rfl
  | create h ih => rw [scopes, Scopes.size_create, ih]
  | enclose h outer bindings ih => rw [scopes, Scopes.size_enclose, ih]
  | set h id name value ih => rw [scopes, Scopes.size_set, ih]
  | get h id name ih => exact ih

-- A scope that holds what the history tells of it.
structure Holds (h : History n) (i : Nat) (scope : Scope) : Prop where
  values : ∀ name, scope.find? name = (h.given i name).getLast?
  outward : h.outward i = i :: scope.outer.elim [] h.outward
  earlier : ∀ outer, scope.outer = some outer → outer < i

-- Later operations add scopes behind those that exist, and values to what was given before.
theorem Holds.later {m : Nat} {h : History n} {h' : History m} {i : Nat} {scope : Scope} (hs : h.Holds i scope)
    (hgiven : ∀ name, h'.given i name = h.given i name) (houtward : ∀ j ≤ i, h'.outward j = h.outward j) :
    h'.Holds i scope := by
  refine ⟨fun name => ?_, ?_, hs.earlier⟩
  · rw [hgiven, hs.values]
  · rw [houtward i (Nat.le_refl i), hs.outward]
    cases houter : scope.outer with
    | none => rfl
    | some outer =>
      have hlt := hs.earlier outer houter
      rw [Option.elim_some, Option.elim_some, houtward outer (Nat.le_of_lt hlt)]

-- One step for each operation: it leaves every scope with what the history tells then.
theorem exists_holds (h : History n) {i : Nat} (hi : i < n) : ∃ scope, h.scopes.all[i]? = some scope ∧ h.Holds i scope := by
  induction h with
  | start => exact absurd hi (Nat.not_lt_zero i)
  | @create n h ih =>
    rw [scopes, Scopes.getElem?_create, size_scopes]
    by_cases hn : i = n
    · subst hn
      refine ⟨_, if_pos rfl, fun name => ?_, ?_, nofun⟩
      · exact congrArg List.getLast? (h.given_of_le (Nat.le_refl _) name).symm
      · exact if_pos rfl
    · obtain ⟨scope, hfound, hs⟩ := ih (by omega)
      refine ⟨scope, by rw [if_neg hn, hfound], hs.later (fun _ => rfl) fun j hj => ?_⟩
      exact if_neg (by omega)
  | @enclose n h outer bindings ih =>
    rw [scopes, Scopes.getElem?_enclose, size_scopes]
    by_cases hn : i = n
    · subst hn
      refine ⟨_, if_pos rfl, fun name => ?_, ?_, ?_⟩
      · rw [given_enclose, h.given_of_le (Nat.le_refl _), if_pos rfl, List.nil_append]
        exact Scope.lookup_bindAll name bindings
      · have hne : outer.val ≠ i := Nat.ne_of_lt outer.isLt
        rw [outward, if_pos rfl, Option.elim_some, outward, if_neg hne]
      · rintro _ ⟨⟩
        exact outer.isLt
    · obtain ⟨scope, hfound, hs⟩ := ih (by omega)
      refine ⟨scope, by rw [if_neg hn, hfound], hs.later (fun name => ?_) fun j hj => ?_⟩
      · rw [given_enclose, if_neg (Ne.symm hn), List.append_nil]
      · exact if_neg (by omega)
  | set h id other value ih =>
    obtain ⟨scope, hfound, hs⟩ := ih hi
    rw [scopes, Scopes.getElem?_set, hfound]
    by_cases hid : i = id
    · subst hid
      refine ⟨_, if_pos rfl, fun name => ?_, hs.outward, hs.earlier⟩
      rw [Scope.find?_set, given_set, hs.values]
      by_cases hname : name = other
      · subst hname
        simp
      · simp [hname, Ne.symm hname]
    · refine ⟨scope, if_neg hid, hs.later (fun name => ?_) fun _ _ => rfl⟩
      rw [given_set, if_neg (by omega), List.append_nil]
  | get h id other ih =>
    obtain ⟨scope, hfound, hs⟩ := ih hi
    exact ⟨scope, hfound, hs.later (fun _ => rfl) fun _ _ => rfl⟩

-- The value that was given last on the first of some scopes where one was given.
def nearest? (h : History n) (name : String) (ids : List Nat) : Option Value :=
  ids.findSome? fun i => (h.given i name).getLast?

-- The walk through the scopes passes those of the history.
theorem get?_scopes (h : History n) {id : Nat} (hid : id < n) (name : String) :
    h.scopes.get? id name = h.nearest? name (h.outward id) := by
  induction id using Nat.strongRecOn with
  | ind id ih =>
    obtain ⟨scope, hfound, hs⟩ := h.exists_holds hid
    rw [Scopes.get?, nearest?, hs.outward, List.findSome?_cons, hfound]
    dsimp only
    rw [hs.values]
    cases (h.given id name).getLast? with
    | some value => rfl
    | none =>
      cases houter : scope.outer with
      | none => rfl
      | some outer =>
        have hlt := hs.earlier outer houter
        dsimp only [Option.elim_some]
        rw [if_pos hlt, ih outer hlt (by omega), nearest?]

theorem nearest?_congr {m : Nat} {h : History n} {h' : History m} {name : String} {ids : List Nat}
    (hgiven : ∀ i ∈ ids, h'.given i name = h.given i name) : h'.nearest? name ids = h.nearest? name ids := by
  unfold nearest?
  induction ids with
  | nil => rfl
  | cons i ids ih =>
    rw [List.findSome?_cons, List.findSome?_cons, hgiven i List.mem_cons_self,
      ih fun j hj => hgiven j (List.mem_cons_of_mem _ hj)]

theorem nearest?_eq_some_iff {h : History n} {name : String} {ids : List Nat} {value : Value} :
    h.nearest? name ids = some value ↔
      ∃ nearer i farther, ids = nearer ++ i :: farther ∧ (h.given i name).getLast? = some value ∧
        ∀ j ∈ nearer, h.given j name = [] := by
  simp only [nearest?, List.findSome?_eq_some_iff, List.getLast?_eq_none_iff]

theorem nearest?_eq_none_iff {h : History n} {name : String} {ids : List Nat} :
    h.nearest? name ids = none ↔ ∀ i ∈ ids, h.given i name = [] := by
  simp only [nearest?, List.findSome?_eq_none_iff, List.getLast?_eq_none_iff]

section Late

variable {h : History n} {outer : Fin n} {id : Fin n} {nearer farther : List Nat} {name : String} (value : Value)
  (hsplit : h.outward id = nearer ++ outer.val :: farther)

include hsplit

-- A write to one scope is none to the scopes that are nearer.
theorem given_set_nearer {j : Nat} (hj : j ∈ nearer) : (h.set outer name value).given j name = h.given j name := by
  have hnodup := h.nodup_outward id
  rw [hsplit, List.nodup_append] at hnodup
  have hne : j ≠ outer := hnodup.2.2 j hj outer List.mem_cons_self
  rw [given_set, if_neg fun hw => hne hw.1.symm, List.append_nil]

theorem get?_set_of_clear (hclear : ∀ j ∈ nearer, h.given j name = []) :
    (h.set outer name value).scopes.get? id name = some value := by
  rw [get?_scopes _ id.isLt]
  refine nearest?_eq_some_iff.2 ⟨nearer, outer, farther, hsplit, ?_, fun j hj => ?_⟩
  · simp [given_set]
  · rw [given_set_nearer value hsplit hj, hclear j hj]

theorem get?_set_of_shadowed (hshadowed : ∃ j ∈ nearer, h.given j name ≠ []) :
    (h.set outer name value).scopes.get? id name = h.scopes.get? id name := by
  have hfound : h.nearest? name nearer ≠ none := by
    rw [ne_eq, nearest?_eq_none_iff]
    obtain ⟨j, hj, hgiven⟩ := hshadowed
    exact fun hnone => hgiven (hnone j hj)
  obtain ⟨shadow, hshadow⟩ := Option.ne_none_iff_exists'.1 hfound
  -- both answers come from the scopes that are nearer than the one that was written
  have hsame : (h.set outer name value).nearest? name nearer = some shadow := by
    rw [← hshadow]
    exact nearest?_congr fun j hj => given_set_nearer value hsplit hj
  have hbehind (h' : History n) (h'nearer : h'.nearest? name nearer = some shadow) :
      h'.nearest? name (h.outward id) = some shadow := by
    rw [nearest?] at h'nearer ⊢
    rw [hsplit, List.findSome?_append, h'nearer]
    rfl
  rw [get?_scopes _ id.isLt, get?_scopes _ id.isLt]
  exact (hbehind _ hsame).trans (hbehind h hshadow).symm

end Late

theorem outward_without (h : History n) (other i : Nat) : (h.without other).outward i = h.outward i := by
  induction h generalizing i with
  | start => rfl
  | create h ih => rw [without, outward, outward, ih]
  | enclose h outer bindings ih => rw [without, outward, outward, ih, ih]
  | set h id name value ih =>
    rw [without, outward]
    split
    · exact ih i
    · exact ih i
  | get h id name ih => exact ih i

theorem given_without (h : History n) {other i : Nat} (hne : i ≠ other) (name : String) :
    (h.without other).given i name = h.given i name := by
  induction h with
  | start => rfl
  | create h ih => exact ih
  | @enclose n h outer bindings ih =>
    rw [without, given_enclose, given_enclose, ih]
    by_cases hn : n = i
    · rw [if_pos hn, if_pos hn, if_neg (hn ▸ hne)]
    · rw [if_neg hn, if_neg hn]
  | set h id written value ih =>
    rw [without, given_set]
    split
    · rename_i hid
      rw [if_neg fun hw => hne (hw.1.symm.trans hid), List.append_nil, ih]
    · rw [given_set, ih]
  | get h id written ih => exact ih

-- A name has the value that was written last on the nearest scope on which it was ever written. A write that comes
-- late is seen from the scopes inside, unless a nearer one has the name, and what is written to a scope that is not
-- outward of the given one might as well not have been written.
theorem get?_latest_write (h : History n) (id : Fin n) (name : String) :
    (∀ value, h.scopes.get? id name = some value ↔
      ∃ nearer i farther, h.outward id = nearer ++ i :: farther ∧ (h.given i name).getLast? = some value ∧
        ∀ j ∈ nearer, h.given j name = []) ∧
    (h.scopes.get? id name = none ↔ ∀ i ∈ h.outward id, h.given i name = []) ∧
    (∀ (outer : Fin n) (value : Value) (nearer farther : List Nat), h.outward id = nearer ++ outer.val :: farther →
      ((∀ j ∈ nearer, h.given j name = []) → (h.set outer name value).scopes.get? id name = some value) ∧
      ((∃ j ∈ nearer, h.given j name ≠ []) →
        (h.set outer name value).scopes.get? id name = h.scopes.get? id name)) ∧
    ∀ other ∉ h.outward id, (h.without other).scopes.get? id name = h.scopes.get? id name := by
  refine ⟨fun value => ?_, ?_, fun outer value nearer farther hsplit => ⟨?_, ?_⟩, fun other hother => ?_⟩
  · rw [h.get?_scopes id.isLt, nearest?_eq_some_iff]
  · rw [h.get?_scopes id.isLt, nearest?_eq_none_iff]
  · exact get?_set_of_clear value hsplit
  · exact get?_set_of_shadowed value hsplit
  · rw [get?_scopes _ id.isLt, get?_scopes _ id.isLt, outward_without]
    refine nearest?_congr fun i hi => given_without h ?_ name
    rintro rfl
    exact hother hi

-- The scopes 1 and 3 lie in scope 0, and 2 lies in 1. From 2, what is written late to 0 is seen, until 1 has the name
-- too, and 3 is never seen.
theorem get?_latest_write_shadowed :
    let h : History 4 :=
      ((((History.start.create.enclose 0 []).enclose 1 [("b", .null)]).enclose 0 [("a", .null)]).set 0 "a" (.int 1)).get 2 "a"
    let late := h.set 0 "a" (.int 2)
    let shadowed := late.set 1 "a" (.int 3)
    h.outward 2 = [2, 1, 0] ∧ late.scopes.get? 2 "a" = some (.int 2) ∧
      (shadowed.set 0 "a" (.int 4)).scopes.get? 2 "a" = shadowed.scopes.get? 2 "a" ∧
      shadowed.scopes.get? 2 "a" = some (.int 3) ∧
      (h.without 3).scopes.get? 2 "a" = h.scopes.get? 2 "a" := by
  intro h late shadowed
  refine ⟨rfl, ?_, ?_, ?_, ?_⟩
  · refine ((get?_latest_write h 2 "a").2.2.1 0 (.int 2) [2, 1] [] rfl).1 ?_
    exact List.forall_mem_cons.2 ⟨rfl, List.forall_mem_singleton.2 rfl⟩
  · refine ((get?_latest_write shadowed 2 "a").2.2.1 0 (.int 4) [2, 1] [] rfl).2 ⟨1, by decide, ?_⟩
    exact List.cons_ne_nil (Value.int 3) []
  · refine ((get?_latest_write late 2 "a").2.2.1 1 (.int 3) [2] [0] rfl).1 ?_
    exact List.forall_mem_singleton.2 rfl
  · exact (get?_latest_write h 2 "a").2.2.2 3 (by decide)

end History

end SolidScript
