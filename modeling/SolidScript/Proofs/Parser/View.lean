import SolidScript.Proofs.Parser.Enough

namespace SolidScript.Parser

variable {α β : Type}

-- The same tokens in other surroundings: their places are moved, other tokens stand behind them, and errors are there
-- before. A parser does the same in both as long as it stops with two tokens in front of it.
structure View where
  move : Position → Position
  tail : List Token
  eof : Token
  before : List ParseError

namespace View

def token (v : View) (t : Token) : Token := { t with position := v.move t.position }

def error (v : View) (e : ParseError) : ParseError := { e with position := v.move e.position }

def state (v : View) (s : State) : State where
  tokens := s.tokens.map v.token ++ v.tail
  eof := v.eof
  errors := v.before ++ s.errors.map v.error

variable {v : View} {s t : State}

@[simp] theorem kind_token (v : View) (t : Token) : (v.token t).kind = t.kind := rfl

@[simp] theorem literal_token (v : View) (t : Token) : (v.token t).literal = t.literal := rfl

-- Both tokens that a parser looks at belong to the state, or nothing but the end stands behind it.
def InSight (v : View) (s : State) : Prop := (v.tail = [] ∧ v.eof = v.token s.eof) ∨ 2 ≤ s.tokens.length

theorem InSight.of_later (hs : Later s t) (h : v.InSight t) : v.InSight s := by
  rcases h with ⟨hv, he⟩ | hl
  · exact .inl ⟨hv, by rw [he, hs.eof]⟩
  · exact .inr (Nat.le_trans hl hs.length_le)

theorem current_state (h : s.tokens ≠ []) : (v.state s).current = v.token s.current := by
  obtain ⟨token, rest, ht⟩ := List.exists_cons_of_ne_nil h
  simp [State.current, state, ht]

theorem advanced_state (h : s.tokens ≠ []) : (v.state s).advanced = v.state s.advanced := by
  obtain ⟨token, rest, ht⟩ := List.exists_cons_of_ne_nil h
  simp [State.advanced, state, ht]

namespace InSight

theorem current (h : v.InSight s) : (v.state s).current = v.token s.current := by
  cases ht : s.tokens with
  | nil =>
    rcases h with ⟨hv, he⟩ | hl
    · simp [State.current, state, ht, hv, he]
    · simp [ht] at hl
  | cons token rest => exact current_state (by simp [ht])

theorem following (h : v.InSight s) : (v.state s).following = v.token s.following := by
  rcases h with ⟨hv, he⟩ | hl
  · match ht : s.tokens with
    | [] | [_] | _ :: _ :: _ => simp [State.following, state, ht, hv, he]
  · match ht : s.tokens with
    | [] | [_] => simp [ht] at hl
    | _ :: _ :: _ => simp [State.following, state, ht]

theorem advanced (h : v.InSight s) : (v.state s).advanced = v.state s.advanced := by
  cases ht : s.tokens with
  | nil =>
    rcases h with ⟨hv, -⟩ | hl
    · simp [State.advanced, state, ht, hv]
    · simp [ht] at hl
  | cons token rest => exact advanced_state (by simp [ht])

end InSight

theorem skipStatement_map (v : View) (tokens : List Token)
    (h : v.tail = [] ∨ 2 ≤ (skipStatement tokens).length) :
    skipStatement (tokens.map v.token ++ v.tail) = (skipStatement tokens).map v.token ++ v.tail := by
  fun_induction skipStatement tokens with
  | case1 => rcases h with h | h <;> simp_all [skipStatement]
  | case2 => rcases h with h | h <;> simp_all [skipStatement]
  | case3 token next rest hstop => simp [skipStatement, hstop]
  | case4 token next rest hstop ih =>
    have hnext := ih h
    simp_all [skipStatement]

end View

-- What a parser does in a view, if it stops in sight.
def Outcome.Mirrored (v : View) (o : Outcome α) : Outcome α → Prop
  | done a t => v.InSight t → o = done a (v.state t)
  | failed e t => v.InSight t → o = failed (v.error e) (v.state t)
  | exhausted => True

-- The right parser does in the view what the left one does.
structure Mirrors (v : View) (α : Type) (x y : Parser α) : Prop where
  later : ∀ s, (x s).LaterThan s
  mirrored : ∀ s, (y (v.state s)).Mirrored v (x s)

namespace Mirrors

variable {v : View} {x y : Parser α}

theorem done {s t : State} {a : α} (h : Mirrors v α x y) (hx : x s = .done a t) (ht : v.InSight t) :
    y (v.state s) = .done a (v.state t) := by
  have hm := h.mirrored s
  rw [hx] at hm
  exact hm ht

theorem failed {s t : State} {e : ParseError} (h : Mirrors v α x y) (hx : x s = .failed e t) (ht : v.InSight t) :
    y (v.state s) = .failed (v.error e) (v.state t) := by
  have hm := h.mirrored s
  rw [hx] at hm
  exact hm ht

end Mirrors

-- A parser that goes on from a state in sight was in sight before.
theorem Outcome.Mirrored.of_inSight {v : View} {s : State} {o p : Outcome α} (hl : o.LaterThan s)
    (h : v.InSight s → p.Mirrored v o) : p.Mirrored v o := by
  cases o with
  | done a t => exact fun ht => h (ht.of_later hl) ht
  | failed e t => exact fun ht => h (ht.of_later hl) ht
  | exhausted => trivial

theorem mirrors_bind {v : View} {x y : Parser α} {f g : α → Parser β} (hx : Mirrors v α x y)
    (hf : ∀ a, Mirrors v β (f a) (g a)) : Mirrors v β (x >>= f) (y >>= g) where
  later := laterThan_bind hx.later fun a => (hf a).later
  mirrored s := by
    rw [bind_apply, bind_apply]
    cases hs : x s with
    | done a t =>
      refine .of_inSight ((hf a).later t) fun ht => ?_
      simp only [hx.done hs ht]
      exact (hf a).mirrored t
    | failed e t =>
      intro ht
      simp only [hx.failed hs ht]
    | exhausted => trivial

theorem mirrors_attempt {v : View} {x y : Parser α} {f g : Except ParseError α → Parser β} (hx : Mirrors v α x y)
    (hf : ∀ a, Mirrors v β (f (.ok a)) (g (.ok a)))
    (hg : ∀ d e, e = v.error d → Mirrors v β (f (.error d)) (g (.error e))) :
    Mirrors v β (attempt x >>= f) (attempt y >>= g) where
  later := by
    refine laterThan_bind (laterThan_attempt hx.later) fun result => ?_
    cases result with
    | ok a => exact (hf a).later
    | error e => exact (hg e _ rfl).later
  mirrored s := by
    simp only [bind_apply, attempt]
    cases hs : x s with
    | done a t =>
      refine .of_inSight ((hf a).later t) fun ht => ?_
      simp only [hx.done hs ht]
      exact (hf a).mirrored t
    | failed e t =>
      refine .of_inSight ((hg e _ rfl).later t) fun ht => ?_
      simp only [hx.failed hs ht]
      exact (hg e _ rfl).mirrored t
    | exhausted => trivial

theorem View.simulation (v : View) :
    Simulation (fun t u => u = v.token t) (fun d e => e = v.error d) (Mirrors v) where
  kind := by
    rintro t _ rfl
    rfl
  literal := by
    rintro t _ rfl
    rfl
  outOfSteps _ := ⟨fun _ => trivial, fun _ => trivial⟩
  pure a := ⟨Later.refl, fun _ _ => rfl⟩
  current {α f g} h := by
    have hl (s : State) : (f s.current s).LaterThan s := (h _ _ rfl).later s
    refine ⟨hl, fun s => .of_inSight (hl s) fun hs => ?_⟩
    rw [current_bind, hs.current]
    exact (h _ _ rfl).mirrored s
  following {α f g} h := by
    have hl (s : State) : (f s.following s).LaterThan s := (h _ _ rfl).later s
    refine ⟨hl, fun s => .of_inSight (hl s) fun hs => ?_⟩
    rw [following_bind, hs.following]
    exact (h _ _ rfl).mirrored s
  advance := by
    refine ⟨Later.advanced, fun s hs => ?_⟩
    rw [advance_apply, (hs.of_later (.advanced s)).advanced]
    rfl
  fail := by
    rintro _ t _ cause rfl
    exact ⟨Later.refl, fun _ _ => rfl⟩
  report := by
    rintro d _ rfl
    refine ⟨later_congruence.report d, fun s _ => ?_⟩
    simp [report, View.state]
  synchronize := by
    refine ⟨later_congruence.synchronize, fun s hs => ?_⟩
    have hk := v.skipStatement_map s.tokens (hs.imp And.left id)
    simp [synchronize, View.state, hk]
  attempt := mirrors_attempt
  bind := mirrors_bind

end SolidScript.Parser
