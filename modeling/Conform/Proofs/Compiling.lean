import Conform.Schema.Compile
import Mathlib.Data.List.Forall2

/-!
# Steps of a compilation

A step of the compilation of a node comes to a result or stops at an error, and hands the flag of
the node on to the next step. The flag decides nothing on the way: what a step can come to, and
whether it stops, is told without it.
-/

namespace Conform

theorem Except.ok_of_bind {ε α β : Type} {x : Except ε α} {f : α → Except ε β} {b : β}
    (h : x >>= f = .ok b) : ∃ a, x = .ok a ∧ f a = .ok b := by
  cases x with
  | error e => cases h
  | ok a => exact ⟨a, rfl, h⟩

theorem Except.ok_of_map {ε α β : Type} {x : Except ε α} {f : α → β} {b : β}
    (h : x.map f = .ok b) : ∃ a, x = .ok a ∧ f a = b := by
  cases x with
  | error e => cases h
  | ok a =>
    cases h
    exact ⟨a, rfl, rfl⟩

theorem Except.error_of_bind {ε α β : Type} {x : Except ε α} {f : α → Except ε β} {e : ε}
    (h : x >>= f = .error e) : x = .error e ∨ ∃ a, x = .ok a ∧ f a = .error e := by
  cases x with
  | error e' =>
    cases h
    exact .inl rfl
  | ok a => exact .inr ⟨a, rfl, h⟩

theorem Except.error_of_map {ε α β : Type} {x : Except ε α} {f : α → β} {e : ε}
    (h : x.map f = .error e) : x = .error e := by
  cases x with
  | error e' =>
    cases h
    rfl
  | ok a => cases h

@[simp] theorem Except.isOk_ok {ε α : Type} (a : α) : (Except.ok a : Except ε α).isOk = true := rfl

@[simp] theorem Except.isOk_error {ε α : Type} (e : ε) :
    (Except.error e : Except ε α).isOk = false := rfl

theorem Except.isOk_iff {ε α : Type} {x : Except ε α} : x.isOk = true ↔ ∃ a, x = .ok a := by
  cases x <;> simp [Except.isOk, Except.toBool]

theorem Except.not_isOk {ε α : Type} {x : Except ε α} {e : ε} (h : x = .error e) :
    ¬ x.isOk = true := by
  rw [h]
  exact Bool.false_ne_true

theorem Except.isOk_map {ε α β : Type} {x : Except ε α} {f : α → β} : (x.map f).isOk = x.isOk := by
  cases x <;> rfl

/-- Two steps succeed if the first does and the second does on what the first gives. -/
theorem Except.isOk_bind {ε α β : Type} {x : Except ε α} {f : α → Except ε β} :
    (x >>= f).isOk = true ↔ ∃ a, x = .ok a ∧ (f a).isOk = true := by
  cases x with
  | error e =>
    constructor
    · intro h
      cases h
    · rintro ⟨a, ⟨⟩, h⟩
  | ok a =>
    constructor
    · intro h
      exact ⟨a, rfl, h⟩
    · rintro ⟨b, ⟨⟩, h⟩
      exact h

/-- The success of the second step does not hang on what the first gives. -/
theorem Except.isOk_bind_of {ε α β : Type} {x : Except ε α} {f : α → Except ε β} {P : Prop}
    (h : ∀ a, (f a).isOk = true ↔ P) : (x >>= f).isOk = true ↔ x.isOk = true ∧ P := by
  rw [isOk_bind]
  simp only [h]
  cases x <;> simp

theorem Except.isOk_bind_pure {ε α β : Type} {x : Except ε α} {f : α → β} :
    (x >>= fun a => pure (f a)).isOk = true ↔ x.isOk = true :=
  (isOk_bind_of fun _ => iff_true_intro rfl).trans (and_iff_left trivial)

namespace Compiling

variable {α β : Type} {x : Compiling α} {f : α → Compiling β} {a : α} {b : β} {e : CompileError}
  {flag flag' : Bool}

theorem run_of_bind (h : (x >>= f).run flag = .ok (b, flag')) :
    ∃ a between, x.run flag = .ok (a, between) ∧ (f a).run between = .ok (b, flag') := by
  obtain ⟨⟨a, between⟩, ha, hb⟩ := Except.ok_of_bind h
  exact ⟨a, between, ha, hb⟩

theorem run_of_map {f : α → β} (h : (f <$> x).run flag = .ok (b, flag')) :
    ∃ a, x.run flag = .ok (a, flag') ∧ f a = b := by
  obtain ⟨⟨a, between⟩, ha, hb⟩ := Except.ok_of_bind h
  cases hb
  exact ⟨a, ha, rfl⟩

theorem run_of_lift {x : Except CompileError α}
    (h : (liftM x : Compiling α).run flag = .ok (a, flag')) : x = .ok a ∧ flag' = flag := by
  obtain ⟨a, ha, hb⟩ := Except.ok_of_bind h
  cases hb
  exact ⟨ha, rfl⟩

theorem run_of_nest {compiled : Except CompileError Rule} {r : Rule}
    (h : (nest compiled).run flag = .ok (r, flag')) :
    compiled = .ok r ∧ flag' = (flag || r.declaresDependents) := by
  obtain ⟨r', between, hr, hset⟩ := run_of_bind h
  obtain ⟨hcompiled, rfl⟩ := run_of_lift hr
  split at hset
  · next hflag =>
    cases hset
    exact ⟨hcompiled, by rw [hflag, Bool.or_true]⟩
  · next hflag =>
    cases hset
    exact ⟨hcompiled, by rw [Bool.eq_false_iff.2 hflag, Bool.or_false]⟩

/-- The compilation can come to a result, whatever the flag is. -/
def Makes (x : Compiling α) (a : α) : Prop := ∃ flag flag', x.run flag = .ok (a, flag')

theorem Makes.of_pure {a' : α} (h : Makes (pure a) a') : a = a' := by
  obtain ⟨flag, flag', h⟩ := h
  cases h
  rfl

theorem Makes.of_bind (h : Makes (x >>= f) b) : ∃ a, x.Makes a ∧ (f a).Makes b := by
  obtain ⟨flag, flag', h⟩ := h
  obtain ⟨a, between, ha, hb⟩ := run_of_bind h
  exact ⟨a, ⟨flag, between, ha⟩, between, flag', hb⟩

theorem Makes.of_map {f : α → β} (h : Makes (f <$> x) b) : ∃ a, x.Makes a ∧ f a = b := by
  obtain ⟨flag, flag', h⟩ := h
  obtain ⟨a, ha, hb⟩ := run_of_map h
  exact ⟨a, ⟨flag, flag', ha⟩, hb⟩

theorem Makes.of_lift {x : Except CompileError α} (h : Makes (liftM x) a) : x = .ok a := by
  obtain ⟨flag, flag', h⟩ := h
  exact (run_of_lift h).1

theorem Makes.of_nest {compiled : Except CompileError Rule} {r : Rule}
    (h : (nest compiled).Makes r) : compiled = .ok r := by
  obtain ⟨flag, flag', h⟩ := h
  exact (run_of_nest h).1

theorem not_makes_throw : ¬ Makes (throw e) a := fun ⟨_, _, h⟩ => nomatch h

theorem Makes.of_mapM {f : β → Compiling α} {bs : List β} {as : List α}
    (h : Makes (bs.mapM f) as) : List.Forall₂ (fun b => (f b).Makes) bs as := by
  induction bs generalizing as with
  | nil =>
    obtain rfl := h.of_pure
    exact .nil
  | cons b bs ih =>
    rw [List.mapM_cons] at h
    obtain ⟨a, ha, h⟩ := h.of_bind
    obtain ⟨as, has, h⟩ := h.of_bind
    obtain rfl := h.of_pure
    exact .cons ha (ih has)

/-- The compilation can stop at an error, whatever the flag is. -/
def Fails (x : Compiling α) (e : CompileError) : Prop := ∃ flag, x.run flag = .error e

theorem not_fails_pure : ¬ Fails (pure a) e := fun ⟨_, h⟩ => nomatch h

theorem Fails.of_throw {e' : CompileError} (h : Fails (throw e' : Compiling α) e) : e' = e := by
  obtain ⟨flag, h⟩ := h
  cases h
  rfl

theorem Fails.of_bind (h : Fails (x >>= f) e) : x.Fails e ∨ ∃ a, x.Makes a ∧ (f a).Fails e := by
  obtain ⟨flag, h⟩ := h
  obtain h | ⟨⟨a, between⟩, ha, h⟩ := Except.error_of_bind h
  · exact .inl ⟨flag, h⟩
  · exact .inr ⟨a, ⟨flag, between, ha⟩, between, h⟩

theorem Fails.of_map {f : α → β} (h : Fails (f <$> x) e) : x.Fails e := by
  obtain ⟨flag, h⟩ := h
  obtain h | ⟨a, -, h⟩ := Except.error_of_bind h
  · exact ⟨flag, h⟩
  · cases h

theorem Fails.of_lift {x : Except CompileError α} (h : Fails (liftM x) e) : x = .error e := by
  obtain ⟨flag, h⟩ := h
  obtain h | ⟨a, -, h⟩ := Except.error_of_bind h
  · exact h
  · cases h

theorem Fails.of_nest {compiled : Except CompileError Rule} (h : (nest compiled).Fails e) :
    compiled = .error e := by
  obtain h | ⟨r, -, flag, h⟩ := Fails.of_bind h
  · exact h.of_lift
  · split at h
    · cases h
    · cases h

/-- Whatever the flag is, the compilation comes to a result under this condition and no other. -/
def SucceedsIff (x : Compiling α) (P : Prop) : Prop := ∀ flag, (x.run flag).isOk = true ↔ P

namespace SucceedsIff

variable {P Q : Prop}

theorem pure (a : α) : SucceedsIff (Pure.pure a) True := fun _ => iff_true_intro rfl

theorem throw (e : CompileError) : SucceedsIff (MonadExcept.throw e : Compiling α) False :=
  fun _ => iff_false_intro Bool.false_ne_true

theorem congr (h : x.SucceedsIff P) (iff : P ↔ Q) : x.SucceedsIff Q :=
  fun flag => (h flag).trans iff

theorem bind (hx : x.SucceedsIff P) (hf : ∀ a, (f a).SucceedsIff Q) :
    (x >>= f).SucceedsIff (P ∧ Q) := by
  intro flag
  refine (Except.isOk_bind_of fun p => ?_).trans (and_congr_left' (hx flag))
  exact hf p.1 p.2

theorem map {f : α → β} (h : x.SucceedsIff P) : (f <$> x).SucceedsIff P :=
  fun flag => Except.isOk_bind_pure.trans (h flag)

theorem lift {x : Except CompileError α} (h : x.isOk = true ↔ P) :
    SucceedsIff (liftM x : Compiling α) P :=
  fun _ => Except.isOk_bind_pure.trans h

theorem nest {compiled : Except CompileError Rule} (h : compiled.isOk = true ↔ P) :
    (Compiling.nest compiled).SucceedsIff P := by
  refine ((lift h).bind (Q := True) fun r flag => iff_true_intro ?_).congr (and_iff_left trivial)
  split
  · rfl
  · rfl

end SucceedsIff

end Compiling

end Conform
