import SolidScript.Eval.Program
import SolidScript.Proofs.Value.Entries

namespace SolidScript

theorem Value.eq_failure_of_isFailure {v : Value} (h : v.isFailure) : ∃ cause, v = .failure cause := by
  cases v with
  | failure cause => exact ⟨cause, rfl⟩
  | _ => cases h

theorem Value.isFailure_of_key? {v : Value} (h : v.key?.isSome) : v.isFailure = false := by
  cases v with
  | failure cause => cases h
  | _ => rfl

namespace Run

variable {run : Expr → Run Value} {m m' : Machine} {k v : Expr} {pairs : List (Expr × Expr)} {cause : Fault}
variable {found : List (Key × HashPair Value)}

theorem bind_of_eq_some {x : Run α} {f : α → Run β} {a : α} (h : x m = some (a, m')) : (x >>= f) m = f a m' := by
  change (x m).bind (fun r => f r.1 r.2) = _
  rw [h]
  rfl

theorem exists_of_bind_eq_some {x : Run α} {f : α → Run β} {b : β × Machine} (h : (x >>= f) m = some b) :
    ∃ a m₁, x m = some (a, m₁) ∧ f a m₁ = some b := by
  obtain ⟨⟨a, m₁⟩, hx, hf⟩ := Option.bind_eq_some_iff.1 h
  exact ⟨a, m₁, hx, hf⟩

-- A pair that can be put into a hash: the key can be one, and neither it nor the value fails.
inductive Passes (run : Expr → Run Value) (m : Machine) (k v : Expr) (key value : Value) (m' : Machine) : Prop where
  | intro {m₁ : Machine} (hkey : run k m = some (key, m₁)) (husable : key.key?.isSome)
    (hvalue : run v m₁ = some (value, m')) (hgood : value.isFailure = false) : Passes run m k v key value m'

theorem Passes.isSome_key? {key value : Value} {m₁ : Machine} (h : Passes run m k v key value m₁) : key.key?.isSome := by
  cases h with
  | intro _ husable _ _ => exact husable

-- Pairs that are evaluated one after the other, with the values of their keys and their own.
inductive Evaluated (run : Expr → Run Value) : Machine → List (Expr × Expr) → List (Value × Value) → Machine → Prop where
  | nil {m : Machine} : Evaluated run m [] [] m
  | cons {m m₁ m₂ : Machine} {k v : Expr} {key value : Value} {pairs : List (Expr × Expr)}
    {values : List (Value × Value)} (hpair : Passes run m k v key value m₁) (h : Evaluated run m₁ pairs values m₂) :
    Evaluated run m ((k, v) :: pairs) ((key, value) :: values) m₂

-- What can go wrong with a pair: its key fails, its key cannot be one, or its value fails.
inductive Fails (run : Expr → Run Value) (m : Machine) (k v : Expr) : Fault → Machine → Prop where
  | key {cause : Fault} {m' : Machine} (h : run k m = some (.failure cause, m')) : Fails run m k v cause m'
  | unusable {key : Value} {m' : Machine} (h : run k m = some (key, m')) (hgood : key.isFailure = false)
    (hkey : key.key? = none) : Fails run m k v (.unusableKey key.type) m'
  | value {key : Value} {m₁ m' : Machine} {cause : Fault} (hkey : run k m = some (key, m₁)) (husable : key.key?.isSome)
    (h : run v m₁ = some (.failure cause, m')) : Fails run m k v cause m'

-- The first pair that fails, behind others that do not.
inductive FirstFails (run : Expr → Run Value) (m : Machine) (pairs : List (Expr × Expr)) (cause : Fault) (m' : Machine) :
    Prop where
  | intro {before after : List (Expr × Expr)} {k v : Expr} {values : List (Value × Value)} {m₁ : Machine}
    (hpairs : pairs = before ++ (k, v) :: after) (hbefore : Evaluated run m before values m₁)
    (h : Fails run m₁ k v cause m') : FirstFails run m pairs cause m'

theorem firstFails_cons_iff : FirstFails run m ((k, v) :: pairs) cause m' ↔
    Fails run m k v cause m' ∨ ∃ key value m₁, Passes run m k v key value m₁ ∧ FirstFails run m₁ pairs cause m' := by
  constructor
  · rintro ⟨hpairs, hbefore, hfails⟩
    cases hbefore with
    | nil =>
      cases hpairs
      exact .inl hfails
    | cons hpair hbefore =>
      cases hpairs
      exact .inr ⟨_, _, _, hpair, rfl, hbefore, hfails⟩
  · rintro (hfails | ⟨key, value, m₁, hpair, rfl, hbefore, hfails⟩)
    · exact ⟨List.nil_append _, .nil, hfails⟩
    · exact ⟨rfl, .cons hpair hbefore, hfails⟩

-- A pair that passes is put in, and the pairs behind it go on.
theorem entries_of_passes {key value : Value} {m₁ : Machine} {usable : Key} (h : Passes run m k v key value m₁)
    (hu : key.key? = some usable) :
    entries run ((k, v) :: pairs) found m = entries run pairs (Value.insertEntry usable ⟨key, value⟩ found) m₁ := by
  obtain ⟨hkey, husable, hvalue, hgood⟩ := h
  rw [entries, bind_of_eq_some hkey, Value.isFailure_of_key? husable, if_neg Bool.false_ne_true, hu]
  dsimp only
  rw [bind_of_eq_some hvalue, hgood, if_neg Bool.false_ne_true]

-- A pair with which something goes wrong ends it.
theorem entries_of_fails (h : Fails run m k v cause m') :
    entries run ((k, v) :: pairs) found m = some (.error (.failure cause), m') := by
  rw [entries]
  cases h with
  | key hkey =>
    rw [bind_of_eq_some hkey]
    rfl
  | unusable hkey hgood hnone =>
    rw [bind_of_eq_some hkey, hgood, if_neg Bool.false_ne_true, hnone]
    rfl
  | value hkey husable hvalue =>
    obtain ⟨usable, hu⟩ := Option.isSome_iff_exists.1 husable
    rw [bind_of_eq_some hkey, Value.isFailure_of_key? husable, if_neg Bool.false_ne_true, hu]
    dsimp only
    rw [bind_of_eq_some hvalue]
    rfl

-- There is nothing else that a pair can come to.
theorem passes_or_fails {result : Except Value (List (Key × HashPair Value))}
    (h : entries run ((k, v) :: pairs) found m = some (result, m')) :
    (∃ key value m₁, Passes run m k v key value m₁) ∨ ∃ cause m₁, Fails run m k v cause m₁ := by
  rw [entries] at h
  obtain ⟨key, m₁, hkey, h⟩ := exists_of_bind_eq_some h
  cases hfailed : key.isFailure with
  | true =>
    obtain ⟨cause, rfl⟩ := Value.eq_failure_of_isFailure hfailed
    exact .inr ⟨cause, m₁, .key hkey⟩
  | false =>
    rw [hfailed, if_neg Bool.false_ne_true] at h
    cases hu : key.key? with
    | none => exact .inr ⟨_, m₁, .unusable hkey hfailed hu⟩
    | some usable =>
      rw [hu] at h
      obtain ⟨value, m₂, hvalue, -⟩ := exists_of_bind_eq_some h
      have husable : key.key?.isSome := Option.isSome_of_eq_some hu
      cases hgood : value.isFailure with
      | true =>
        obtain ⟨cause, rfl⟩ := Value.eq_failure_of_isFailure hgood
        exact .inr ⟨cause, m₂, .value hkey husable hvalue⟩
      | false => exact .inl ⟨key, value, m₂, hkey, husable, hvalue, hgood⟩

theorem entries_eq_ok_iff {result : List (Key × HashPair Value)} : entries run pairs found m = some (.ok result, m') ↔
    ∃ values, Evaluated run m pairs values m' ∧ result = Value.stored (Value.keyed values) found := by
  induction pairs generalizing m found with
  | nil =>
    constructor
    · rintro ⟨⟩
      exact ⟨[], .nil, rfl⟩
    · rintro ⟨values, ⟨⟩, rfl⟩
      rfl
  | cons pair pairs ih =>
    obtain ⟨k, v⟩ := pair
    constructor
    · intro h
      rcases passes_or_fails h with ⟨key, value, m₁, hpair⟩ | ⟨cause, m₁, hfails⟩
      · obtain ⟨usable, hu⟩ := Option.isSome_iff_exists.1 hpair.isSome_key?
        rw [entries_of_passes hpair hu] at h
        obtain ⟨values, hvalues, rfl⟩ := ih.1 h
        refine ⟨(key, value) :: values, .cons hpair hvalues, ?_⟩
        rw [Value.stored_keyed_cons hu]
      · rw [entries_of_fails hfails] at h
        cases h
    · rintro ⟨_, h, rfl⟩
      cases h with
      | cons hpair hvalues =>
        obtain ⟨usable, hu⟩ := Option.isSome_iff_exists.1 hpair.isSome_key?
        rw [entries_of_passes hpair hu]
        refine ih.2 ⟨_, hvalues, ?_⟩
        rw [Value.stored_keyed_cons hu]

theorem entries_eq_error_iff {failure : Value} : entries run pairs found m = some (.error failure, m') ↔
    ∃ cause, failure = .failure cause ∧ FirstFails run m pairs cause m' := by
  induction pairs generalizing m found with
  | nil =>
    constructor
    · rintro ⟨⟩
    · rintro ⟨cause, -, hpairs, -, -⟩
      simp at hpairs
  | cons pair pairs ih =>
    obtain ⟨k, v⟩ := pair
    simp only [firstFails_cons_iff]
    constructor
    · intro h
      rcases passes_or_fails h with ⟨key, value, m₁, hpair⟩ | ⟨cause, m₁, hfails⟩
      · obtain ⟨usable, hu⟩ := Option.isSome_iff_exists.1 hpair.isSome_key?
        rw [entries_of_passes hpair hu] at h
        obtain ⟨cause, hcause, hfirst⟩ := ih.1 h
        exact ⟨cause, hcause, .inr ⟨key, value, m₁, hpair, hfirst⟩⟩
      · rw [entries_of_fails hfails] at h
        cases h
        exact ⟨cause, rfl, .inl hfails⟩
    · rintro ⟨cause, rfl, hfails | ⟨key, value, m₁, hpair, hfirst⟩⟩
      · exact entries_of_fails hfails
      · obtain ⟨usable, hu⟩ := Option.isSome_iff_exists.1 hpair.isSome_key?
        rw [entries_of_passes hpair hu]
        exact ih.2 ⟨cause, rfl, hfirst⟩

variable {steps scope : Nat}

theorem expr_hash_of_evaluated {values : List (Value × Value)} (h : Evaluated (expr steps scope) m pairs values m') :
    expr (steps + 1) scope (.hash pairs) m =
      some (.hash m'.nextRef (Value.stored (Value.keyed values) []), { m' with nextRef := m'.nextRef + 1 }) := by
  rw [expr, node, bind_of_eq_some (entries_eq_ok_iff.2 ⟨values, h, rfl⟩)]
  rfl

theorem expr_hash_of_firstFails (h : FirstFails (expr steps scope) m pairs cause m') :
    expr (steps + 1) scope (.hash pairs) m = some (.failure cause, m') := by
  rw [expr, node, bind_of_eq_some (entries_eq_error_iff.2 ⟨cause, rfl, h⟩)]
  rfl

-- A hash that is written as pairs is made, or its first failure is what is told.
theorem evaluated_or_firstFails {result : Value} (h : expr (steps + 1) scope (.hash pairs) m = some (result, m')) :
    (∃ values m₁, Evaluated (expr steps scope) m pairs values m₁) ∨
      ∃ cause m₁, FirstFails (expr steps scope) m pairs cause m₁ := by
  rw [expr, node] at h
  obtain ⟨found, m₁, hfound, -⟩ := exists_of_bind_eq_some h
  cases found with
  | ok found =>
    obtain ⟨values, hvalues, -⟩ := entries_eq_ok_iff.1 hfound
    exact .inl ⟨values, m₁, hvalues⟩
  | error failure =>
    obtain ⟨cause, -, hfirst⟩ := entries_eq_error_iff.1 hfound
    exact .inr ⟨cause, m₁, hfirst⟩

-- A hash that is written as pairs has, for each key, the value of the last pair with that key, and its entries are
-- ordered by their keys. It is made if and only if no key and no value fails and every key can be one, and otherwise
-- the first of these that went wrong is what is told.
theorem hash_literal_last_wins (steps scope : Nat) (pairs : List (Expr × Expr)) (m : Machine) :
    (∀ result m', expr (steps + 1) scope (.hash pairs) m = some (result, m') → result.isFailure = false →
      ∃ values m₁ entries, Evaluated (expr steps scope) m pairs values m₁ ∧ result = .hash m₁.nextRef entries ∧
        Value.LastWins values entries) ∧
    ((∃ result m', expr (steps + 1) scope (.hash pairs) m = some (result, m') ∧ result.isFailure = false) ↔
      ∃ values m₁, Evaluated (expr steps scope) m pairs values m₁) ∧
    ∀ cause m', expr (steps + 1) scope (.hash pairs) m = some (.failure cause, m') ↔
      FirstFails (expr steps scope) m pairs cause m' := by
  have made {result : Value} {m' : Machine} (h : expr (steps + 1) scope (.hash pairs) m = some (result, m'))
      (hgood : result.isFailure = false) : ∃ values m₁, Evaluated (expr steps scope) m pairs values m₁ := by
    rcases evaluated_or_firstFails h with hvalues | ⟨cause, m₁, hfirst⟩
    · exact hvalues
    · rw [expr_hash_of_firstFails hfirst] at h
      cases h
      cases hgood
  refine ⟨fun result m' h hgood => ?_, ⟨?_, ?_⟩, fun cause m' => ⟨fun h => ?_, expr_hash_of_firstFails⟩⟩
  · obtain ⟨values, m₁, hvalues⟩ := made h hgood
    rw [expr_hash_of_evaluated hvalues] at h
    cases h
    exact ⟨values, m₁, _, hvalues, rfl, Value.lastWins_stored values⟩
  · rintro ⟨result, m', h, hgood⟩
    exact made h hgood
  · rintro ⟨values, m₁, hvalues⟩
    exact ⟨_, _, expr_hash_of_evaluated hvalues, rfl⟩
  · rcases evaluated_or_firstFails h with ⟨values, m₁, hvalues⟩ | ⟨cause', m₁, hfirst⟩
    · rw [expr_hash_of_evaluated hvalues] at h
      cases h
    · rw [expr_hash_of_firstFails hfirst] at h
      cases h
      exact hfirst

-- Of two pairs with the same key the second one counts. In the other hash a value fails before a key is found to be
-- none.
theorem hash_literal_last_wins_repeated :
    let pairs : List (Expr × Expr) := [(.string "b", .int 1), (.bool true, .int 2), (.string "b", .int 3)]
    let wrong : List (Expr × Expr) := [(.int 1, .int 2), (.int 3, .unary .negate (.bool true)), (.array [], .int 4)]
    let m : Machine := .initial
    (∃ ref entries m', expr 3 0 (.hash pairs) m = some (.hash ref entries, m') ∧ Value.IsOrdered entries ∧
      (Value.hash ref entries).index (.string "b") = .ok (.int 3) ∧
      (Value.hash ref entries).index (.int 1) = .ok .null) ∧
    ∃ m', expr 3 0 (.hash wrong) m = some (.failure (.unknownUnary .negate .boolean), m') := by
  intro pairs wrong m
  constructor
  · obtain ⟨result, m', hdone, hgood⟩ :
        ∃ result m', expr 3 0 (.hash pairs) m = some (result, m') ∧ result.isFailure = false := ⟨_, _, rfl, rfl⟩
    obtain ⟨values, m₁, entries, hvalues, rfl, hlast⟩ := (hash_literal_last_wins 2 0 pairs m).1 result m' hdone hgood
    obtain rfl : values = [(.string "b", .int 1), (.bool true, .int 2)] ++ [(.string "b", .int 3)] := by
      unfold pairs at hvalues
      obtain _ | ⟨⟨⟨⟩, -, ⟨⟩, -⟩, _ | ⟨⟨⟨⟩, -, ⟨⟩, -⟩, _ | ⟨⟨⟨⟩, -, ⟨⟩, -⟩, ⟨⟩⟩⟩⟩ := hvalues
      rfl
    refine ⟨_, entries, m', hdone, hlast.ordered, hlast.found _ _ _ rfl ⟨_, [], rfl, nofun⟩, hlast.missing _ _ rfl ?_⟩
    simp
  · have hbefore : Evaluated (expr 2 0) m [(.int 1, .int 2)] [(.int 1, .int 2)] m := .cons ⟨rfl, rfl, rfl, rfl⟩ .nil
    exact ⟨m, ((hash_literal_last_wins 2 0 wrong m).2.2 _ _).2 ⟨rfl, hbefore, .value rfl rfl rfl⟩⟩

end Run

end SolidScript
