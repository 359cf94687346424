import Mathlib.Data.List.Forall2
import Mathlib.Tactic.Common

/-!
# Outcomes

When a computation in steps succeeds, and how its errors are renamed.
-/

namespace TableQuery

variable {ε ε' α β γ : Type}

/-- A computation succeeds exactly if its first step does and the rest does with its value. -/
lemma bind_eq_ok_iff {x : Except ε α} {f : α → Except ε β} {b : β} :
    (x >>= f) = .ok b ↔ ∃ a, x = .ok a ∧ f a = .ok b := by
  cases x with
  | error e => simp [bind, Except.bind]
  | ok a => simp [bind, Except.bind]

/-- A computation fails exactly if its first step does or the rest does with its value. -/
lemma bind_eq_error_iff {x : Except ε α} {f : α → Except ε β} {e : ε} :
    (x >>= f) = .error e ↔ x = .error e ∨ ∃ a, x = .ok a ∧ f a = .error e := by
  cases x with
  | error e => simp [bind, Except.bind]
  | ok a => simp [bind, Except.bind]

/-- A computation without a value succeeds exactly if it does not fail. -/
lemma eq_ok_unit_iff {x : Except ε Unit} : x = .ok () ↔ ¬ ∃ e, x = .error e := by
  cases x with
  | error e => simp
  | ok _ => simp

/-- Two computations one after the other succeed exactly if each does. -/
lemma bind_pair_eq_ok_iff {x : Except ε α} {y : Except ε β} {f : α → β → γ} {c : γ} :
    (do return f (← x) (← y)) = .ok c ↔ ∃ a b, x = .ok a ∧ y = .ok b ∧ f a b = c := by
  rw [bind_eq_ok_iff]
  constructor
  · rintro ⟨a, ha, h⟩
    obtain ⟨b, hb, h⟩ := bind_eq_ok_iff.1 h
    cases h
    exact ⟨a, b, ha, hb, rfl⟩
  · rintro ⟨a, b, ha, hb, rfl⟩
    exact ⟨a, ha, bind_eq_ok_iff.2 ⟨b, hb, rfl⟩⟩

/-- An outcome that is mapped is a success exactly if it was one. -/
lemma map_eq_ok_iff {x : Except ε α} {f : α → β} {b : β} :
    x.map f = .ok b ↔ ∃ a, x = .ok a ∧ f a = b := by
  cases x with
  | error e => simp [Except.map]
  | ok a => simp [Except.map]

/-- An outcome with a value of which something is true is a success. -/
lemma exists_of_any_toOption {x : Except ε α} {p : α → Bool} (h : x.toOption.any p = true) :
    ∃ a, x = .ok a ∧ p a = true := by
  cases x with
  | error e => cases h
  | ok a => exact ⟨a, rfl, h⟩

/-- A computation with a value succeeds with it. -/
lemma eq_ok_of_toOption {x : Except ε α} {a : α} (h : x.toOption = some a) : x = .ok a := by
  cases x with
  | error e => cases h
  | ok b =>
    cases h
    rfl

/-- An outcome that is mapped is a failure exactly if it was one. -/
lemma map_eq_error_iff {x : Except ε α} {f : α → β} {e : ε} :
    x.map f = .error e ↔ x = .error e := by
  cases x with
  | error e => simp [Except.map]
  | ok a => simp [Except.map]

/-- If there is always a reason to succeed or one to fail, then a computation ends either way for
its reasons only. -/
lemma outcome_iff {x : Except ε α} {succeeds : α → Prop} {fails : ε → Prop}
    (hok : ∀ a, succeeds a → x = .ok a) (herror : ∀ e, fails e → x = .error e)
    (h : (∃ a, succeeds a) ∨ ∃ e, fails e) :
    (∀ a, x = .ok a ↔ succeeds a) ∧ ∀ e, x = .error e ↔ fails e := by
  rcases h with ⟨a, ha⟩ | ⟨e, he⟩
  · refine ⟨fun b => ⟨fun hb => ?_, hok b⟩, fun e => ⟨fun he => ?_, herror e⟩⟩
    · cases (hok a ha).symm.trans hb
      exact ha
    · cases (hok a ha).symm.trans he
  · refine ⟨fun a => ⟨fun ha => ?_, hok a⟩, fun e' => ⟨fun he' => ?_, herror e'⟩⟩
    · cases (herror e he).symm.trans ha
    · cases (herror e he).symm.trans he'
      exact he

/-- A traversal succeeds exactly if each of its steps does, and gives their values. -/
lemma mapM_eq_ok_iff {f : α → Except ε β} {l : List α} {bs : List β} :
    l.mapM f = .ok bs ↔ List.Forall₂ (fun a b => f a = .ok b) l bs := by
  induction l generalizing bs with
  | nil =>
    rw [List.forall₂_nil_left_iff, List.mapM_nil]
    show Except.ok [] = Except.ok bs ↔ bs = []
    rw [Except.ok.injEq, eq_comm]
  | cons a l ih =>
    rw [List.mapM_cons, bind_pair_eq_ok_iff, List.forall₂_cons_left_iff]
    constructor
    · rintro ⟨b, bs', ha, hl, rfl⟩
      exact ⟨b, bs', ha, ih.1 hl, rfl⟩
    · rintro ⟨b, bs', ha, hl, rfl⟩
      exact ⟨b, bs', ha, ih.2 hl, rfl⟩

/-- A list of outcomes has values exactly if each of them is a success. -/
lemma mapM_id_eq_ok_iff {l : List (Except ε α)} {as : List α} :
    l.mapM id = .ok as ↔ l = as.map .ok := by
  rw [mapM_eq_ok_iff, ← List.forall₂_eq_eq_eq, List.forall₂_map_right_iff]
  rfl

/-- A traversal succeeds exactly if each of its steps does. -/
lemma exists_mapM_eq_ok_iff {f : α → Except ε β} {l : List α} :
    (∃ bs, l.mapM f = .ok bs) ↔ ∀ a ∈ l, ∃ b, f a = .ok b := by
  induction l with
  | nil => exact iff_of_true ⟨[], rfl⟩ nofun
  | cons a l ih =>
    rw [List.forall_mem_cons, ← ih]
    simp only [List.mapM_cons, bind_pair_eq_ok_iff]
    constructor
    · rintro ⟨_, b, bs, ha, hl, -⟩
      exact ⟨⟨b, ha⟩, bs, hl⟩
    · rintro ⟨⟨b, ha⟩, bs, hl⟩
      exact ⟨_, b, bs, ha, hl, rfl⟩

/-- Outcomes without an error are those of some values. -/
lemma exists_eq_map_ok_iff {l : List (Except ε α)} :
    (∃ as : List α, l = as.map .ok) ↔ ∀ x ∈ l, ∃ a, x = .ok a := by
  simp only [← mapM_id_eq_ok_iff]
  exact exists_mapM_eq_ok_iff

/-- A traversal fails exactly with the error of the first step that has one. -/
lemma mapM_eq_error_iff {f : α → Except ε β} {l : List α} {e : ε} :
    l.mapM f = .error e ↔ ∃ before a rest, l = before ++ a :: rest
      ∧ (∀ b ∈ before, ∃ c, f b = .ok c) ∧ f a = .error e := by
  induction l with
  | nil =>
    refine iff_of_false nofun ?_
    rintro ⟨before, a, rest, hl, -⟩
    exact List.append_ne_nil_of_right_ne_nil before (List.cons_ne_nil a rest) hl.symm
  | cons x l ih =>
    rw [List.mapM_cons, bind_eq_error_iff]
    constructor
    · rintro (hx | ⟨y, hx, h⟩)
      · exact ⟨[], x, l, rfl, nofun, hx⟩
      · rcases bind_eq_error_iff.1 h with h | ⟨ys, -, h⟩
        · obtain ⟨before, a, rest, rfl, hbefore, ha⟩ := ih.1 h
          exact ⟨x :: before, a, rest, rfl, List.forall_mem_cons.2 ⟨⟨y, hx⟩, hbefore⟩, ha⟩
        · cases h
    · rintro ⟨before, a, rest, hl, hbefore, ha⟩
      cases before with
      | nil =>
        cases hl
        exact .inl ha
      | cons b before =>
        cases hl
        obtain ⟨⟨c, hb⟩, hbefore⟩ := List.forall_mem_cons.1 hbefore
        exact .inr ⟨c, hb, bind_eq_error_iff.2 (.inl (ih.2 ⟨before, a, rest, rfl, hbefore, ha⟩))⟩

/-- The errors of a computation are those of its steps. -/
lemma mapError_bind (g : ε → ε') (x : Except ε α) (f : α → Except ε β) :
    (x >>= f).mapError g = x.mapError g >>= fun a => (f a).mapError g := by
  cases x <;> rfl

end TableQuery
