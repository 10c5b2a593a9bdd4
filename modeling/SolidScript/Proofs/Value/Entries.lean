import Mathlib.Data.List.Nodup
import Mathlib.Data.Prod.Lex
import Mathlib.Data.String.Basic
import SolidScript.Proofs.Value.Parts

namespace SolidScript

namespace Key

-- Where a key stands among all keys. Integers come first and false comes before true, and strings are compared by
-- their code points.
def place : Key → ℕ ×ₗ ℤ ×ₗ String
  | int a => toLex (0, toLex (a.toInt, ""))
  | bool a => toLex (1, toLex (if a then 1 else 0, ""))
  | string a => toLex (2, toLex (0, a))

theorem place_injective : Function.Injective place := by
  intro a b h
  cases a with
  | int a =>
    cases b with
    | int b =>
      have hab : a.toInt = b.toInt := by simpa [place] using h
      rw [Int64.toInt_inj.1 hab]
    | _ => simp [place] at h
  | bool a =>
    cases b with
    | bool b => cases a <;> cases b <;> simp [place] at h ⊢
    | _ => simp [place] at h
  | string a =>
    cases b with
    | string b => simpa [place] using h
    | _ => simp [place] at h

theorem lt_iff {a b : Key} : a.lt b ↔ a.place < b.place := by
  cases a with
  | int a => cases b <;> simp [lt, place, Prod.Lex.toLex_lt_toLex, Int64.lt_iff_toInt_lt]
  | bool a =>
    cases b with
    | bool b => cases a <;> cases b <;> simp [lt, place, Prod.Lex.toLex_lt_toLex]
    | _ => simp [lt, place, Prod.Lex.toLex_lt_toLex]
  | string a => cases b <;> simp [lt, place, Prod.Lex.toLex_lt_toLex]

end Key

namespace Value

theorem key?_eq_some_iff {v : Value} {key : Key} : v.key? = some key ↔ v = key.toValue := by
  constructor
  · intro h
    cases v with
    | int _ | bool _ | string _ =>
      cases h
      rfl
    | _ => cases h
  · rintro rfl
    exact Key.key?_toValue key

-- The entries are in the order of their keys, and no two have the same key.
def IsOrdered (entries : List (Key × HashPair Value)) : Prop := entries.Pairwise fun a b => a.1.place < b.1.place

theorem IsOrdered.insertEntry {entries : List (Key × HashPair Value)} (h : IsOrdered entries) (key : Key)
    (pair : HashPair Value) : IsOrdered (insertEntry key pair entries) := by
  induction entries with
  | nil => exact List.pairwise_singleton _ _
  | cons first rest ih =>
    obtain ⟨k, p⟩ := first
    obtain ⟨hfirst, hrest⟩ := List.pairwise_cons.1 h
    rw [Value.insertEntry]
    by_cases hk : k = key
    · subst hk
      rw [if_pos rfl]
      exact List.pairwise_cons.2 ⟨hfirst, hrest⟩
    rw [if_neg hk]
    by_cases hlt : key.lt k
    · rw [if_pos hlt]
      have hplace := Key.lt_iff.1 hlt
      refine List.pairwise_cons.2 ⟨List.forall_mem_cons.2 ⟨hplace, fun b hb => ?_⟩, h⟩
      exact hplace.trans (hfirst b hb)
    · rw [if_neg hlt]
      have hplace : k.place < key.place :=
        lt_of_le_of_ne (not_lt.1 fun hn => hlt (Key.lt_iff.2 hn)) (Key.place_injective.ne hk)
      refine List.pairwise_cons.2 ⟨fun b hb => ?_, ih hrest⟩
      rcases mem_insertEntry hb with rfl | hb
      · exact hplace
      · exact hfirst b hb

theorem lookup_entry (k : Key) (entry : Key × HashPair Value) (rest : List (Key × HashPair Value)) :
    (entry :: rest).lookup k = if k = entry.1 then some entry.2 else rest.lookup k := by
  by_cases h : k = entry.1
  · subst h
    rw [if_pos rfl, List.lookup_cons_self]
  · rw [if_neg h, List.lookup_cons, beq_false_of_ne h]

theorem lookup_insertEntry (key k : Key) (pair : HashPair Value) (entries : List (Key × HashPair Value)) :
    (insertEntry key pair entries).lookup k = if k = key then some pair else entries.lookup k := by
  induction entries with
  | nil => exact lookup_entry k (key, pair) []
  | cons first rest ih =>
    obtain ⟨other, p⟩ := first
    rw [insertEntry]
    by_cases hother : other = key
    · subst hother
      rw [if_pos rfl, lookup_entry, lookup_entry]
      split <;> rfl
    rw [if_neg hother]
    by_cases hlt : key.lt other
    · rw [if_pos hlt, lookup_entry]
    · rw [if_neg hlt, lookup_entry, lookup_entry, ih]
      by_cases h : k = other
      · rw [if_pos h, if_pos h, if_neg (h ▸ hother)]
      · rw [if_neg h, if_neg h]

-- In ordered entries, looking up a key finds the only entry that has it.
theorem IsOrdered.mem_iff {entries : List (Key × HashPair Value)} (h : IsOrdered entries) {key : Key}
    {pair : HashPair Value} : (key, pair) ∈ entries ↔ entries.lookup key = some pair := by
  rw [List.lookup_eq_some_iff]
  constructor
  · intro hmem
    obtain ⟨before, after, rfl⟩ := List.append_of_mem hmem
    refine ⟨before, after, rfl, fun entry hentry => ?_⟩
    have hlt := (List.pairwise_append.1 h).2.2 entry hentry (key, pair) List.mem_cons_self
    have hne : key ≠ entry.1 := fun he => absurd (he ▸ hlt) (lt_irrefl _)
    simpa using hne
  · rintro ⟨before, after, rfl, -⟩
    exact List.mem_append_right _ List.mem_cons_self

theorem IsOrdered.nodup {entries : List (Key × HashPair Value)} (h : IsOrdered entries) : (entries.map Prod.fst).Nodup := by
  refine List.pairwise_map.2 (h.imp fun {a b} hlt he => ?_)
  rw [he] at hlt
  exact lt_irrefl _ hlt

-- The pairs whose keys can be keys of a hash.
def keyed (pairs : List (Value × Value)) : List (Key × HashPair Value) :=
  pairs.filterMap fun p => p.1.key?.map (·, ⟨p.1, p.2⟩)

-- Puts pairs in, one after the other.
def stored (pairs found : List (Key × HashPair Value)) : List (Key × HashPair Value) :=
  pairs.foldl (fun found p => insertEntry p.1 p.2 found) found

theorem stored_keyed_cons {key : Value} {usable : Key} (h : key.key? = some usable) (value : Value)
    (pairs : List (Value × Value)) (found : List (Key × HashPair Value)) :
    stored (keyed ((key, value) :: pairs)) found = stored (keyed pairs) (insertEntry usable ⟨key, value⟩ found) := by
  rw [keyed, List.filterMap_cons, h]
  rfl

theorem IsOrdered.stored {found : List (Key × HashPair Value)} (h : IsOrdered found)
    (pairs : List (Key × HashPair Value)) : IsOrdered (stored pairs found) := by
  induction pairs generalizing found with
  | nil => exact h
  | cons p pairs ih => exact ih (h.insertEntry p.1 p.2)

theorem lookup_stored (key : Key) (pairs found : List (Key × HashPair Value)) :
    (stored pairs found).lookup key = (pairs.reverse.lookup key).or (found.lookup key) := by
  induction pairs generalizing found with
  | nil => rfl
  | cons p pairs ih =>
    have hnext : stored (p :: pairs) found = stored pairs (insertEntry p.1 p.2 found) := rfl
    rw [hnext, ih, lookup_insertEntry, List.reverse_cons, List.lookup_append, Option.or_assoc]
    congr 1
    rw [lookup_entry]
    by_cases hp : key = p.1
    · rw [if_pos hp, if_pos hp]
      rfl
    · rw [if_neg hp, if_neg hp]
      rfl

-- The last of the pairs with the given key has the given value.
def IsLast (pairs : List (Value × Value)) (key value : Value) : Prop :=
  ∃ before after, pairs = before ++ (key, value) :: after ∧ ∀ p ∈ after, p.1 ≠ key

theorem exists_isLast (pairs : List (Value × Value)) (key : Value) :
    (∃ value, IsLast pairs key value) ∨ ∀ p ∈ pairs, p.1 ≠ key := by
  induction pairs with
  | nil => exact .inr nofun
  | cons p pairs ih =>
    rcases ih with ⟨value, before, after, rfl, hafter⟩ | hpairs
    · exact .inl ⟨value, p :: before, after, rfl, hafter⟩
    · by_cases hp : p.1 = key
      · exact .inl ⟨p.2, [], pairs, by rw [← hp]; rfl, hpairs⟩
      · exact .inr (List.forall_mem_cons.2 ⟨hp, hpairs⟩)

-- Without a pair for a key nothing is found, and with one the last of them.
theorem lookup_keyed_eq_none {pairs : List (Value × Value)} {key : Key} (h : ∀ p ∈ pairs, p.1 ≠ key.toValue) :
    (keyed pairs).reverse.lookup key = none := by
  rw [List.lookup_eq_none_iff]
  intro entry hentry
  rw [List.mem_reverse, keyed, List.mem_filterMap] at hentry
  obtain ⟨p, hp, hkey⟩ := hentry
  obtain ⟨k, hk, rfl⟩ := Option.map_eq_some_iff.1 hkey
  have hne : key ≠ k := by
    rintro rfl
    exact h p hp (key?_eq_some_iff.1 hk)
  simpa using hne

theorem IsLast.lookup_keyed {pairs : List (Value × Value)} {key : Key} {value : Value}
    (h : IsLast pairs key.toValue value) : (keyed pairs).reverse.lookup key = some ⟨key.toValue, value⟩ := by
  obtain ⟨before, after, rfl, hafter⟩ := h
  have hkeyed : keyed (before ++ (key.toValue, value) :: after) =
      keyed before ++ (key, ⟨key.toValue, value⟩) :: keyed after := by
    simp [keyed]
  rw [hkeyed, List.reverse_append, List.reverse_cons, List.append_assoc, List.lookup_append,
    lookup_keyed_eq_none hafter]
  simp

-- What is found for a key is the last pair with it.
theorem isLast_of_lookup_keyed {pairs : List (Value × Value)} {key : Key} {pair : HashPair Value}
    (h : (keyed pairs).reverse.lookup key = some pair) : pair.key = key.toValue ∧ IsLast pairs pair.key pair.value := by
  rcases exists_isLast pairs key.toValue with ⟨value, hlast⟩ | hnone
  · rw [hlast.lookup_keyed] at h
    cases h
    exact ⟨rfl, hlast⟩
  · rw [lookup_keyed_eq_none hnone] at h
    cases h

-- The entries of a hash that was made from pairs. An entry holds the last pair with its key, the key as it was given
-- included, and indexing with a key gives the value of that pair, or null if there is none.
structure LastWins (values : List (Value × Value)) (entries : List (Key × HashPair Value)) : Prop where
  ordered : IsOrdered entries
  nodup : (entries.map Prod.fst).Nodup
  keys : ∀ entry ∈ entries, entry.2.key.key? = some entry.1
  stored : ∀ entry ∈ entries, IsLast values entry.2.key entry.2.value
  found : ∀ (ref : Nat) (key value : Value), key.key?.isSome → IsLast values key value →
    (hash ref entries).index key = .ok value
  missing : ∀ (ref : Nat) (key : Value), key.key?.isSome → (∀ p ∈ values, p.1 ≠ key) →
    (hash ref entries).index key = .ok .null

theorem index_hash (ref : Nat) (entries : List (Key × HashPair Value)) (key : Key) :
    (hash ref entries).index key.toValue = .ok ((entries.lookup key).elim .null HashPair.value) := by
  cases hpair : entries.lookup key <;> cases key <;> simp [index, key?, Key.toValue, hpair]

theorem lastWins_stored (values : List (Value × Value)) : LastWins values (stored (keyed values) []) := by
  have hordered : IsOrdered (stored (keyed values) []) := IsOrdered.stored .nil _
  have hlookup (key : Key) : (stored (keyed values) []).lookup key = (keyed values).reverse.lookup key := by
    rw [lookup_stored, List.lookup_nil, Option.or_none]
  have hentry {entry : Key × HashPair Value} (h : entry ∈ stored (keyed values) []) :
      entry.2.key = entry.1.toValue ∧ IsLast values entry.2.key entry.2.value := by
    refine isLast_of_lookup_keyed ?_
    rw [← hlookup]
    exact hordered.mem_iff.1 h
  refine ⟨hordered, hordered.nodup, fun entry h => ?_, fun entry h => (hentry h).2, fun ref key value hkey hlast => ?_,
    fun ref key hkey hnone => ?_⟩
  · rw [(hentry h).1]
    exact Key.key?_toValue _
  · obtain ⟨usable, hu⟩ := Option.isSome_iff_exists.1 hkey
    obtain rfl := key?_eq_some_iff.1 hu
    rw [index_hash, hlookup, hlast.lookup_keyed]
    rfl
  · obtain ⟨usable, hu⟩ := Option.isSome_iff_exists.1 hkey
    obtain rfl := key?_eq_some_iff.1 hu
    rw [index_hash, hlookup, lookup_keyed_eq_none hnone]
    rfl

end Value

end SolidScript
