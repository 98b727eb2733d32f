/-
Outcomes

* `ok_bind`, `error_bind`, `bind_eq_ok`, `bind_eq_error`: what follows an answer and
  what follows a failure;
* `mapError_eq_ok`, `mapError_eq_error`: failures that are told in other words;
* `eq_ok_of_toOption`: an answer that can be read off;
* `mapM_eq_ok`, `forM_eq_ok`, `exists_of_mapM_eq_ok`: an operation that answers everywhere along
  a list.
-/
import Mathlib.Tactic

namespace Locator

variable {α β ε : Type}

@[simp]
lemma ok_bind (a : α) (f : α → Except ε β) : (Except.ok a >>= f) = f a := rfl

@[simp]
lemma error_bind (e : ε) (f : α → Except ε β) : ((Except.error e : Except ε α) >>= f) = .error e :=
  rfl

@[simp]
lemma pure_eq_ok (a : α) : (pure a : Except ε α) = .ok a := rfl

/-- What follows answers only behind an answer. -/
lemma bind_eq_ok {x : Except ε α} {f : α → Except ε β} {b : β} :
    (x >>= f) = .ok b ↔ ∃ a, x = .ok a ∧ f a = .ok b := by
  cases x <;> simp

/-- A failure is one of what comes first or of what follows its answer. -/
lemma bind_eq_error {x : Except ε α} {f : α → Except ε β} {e : ε} :
    (x >>= f) = .error e ↔ x = .error e ∨ ∃ a, x = .ok a ∧ f a = .error e := by
  cases x <;> simp

@[simp]
lemma mapError_eq_ok {ζ : Type} {x : Except ε α} {f : ε → ζ} {a : α} :
    x.mapError f = .ok a ↔ x = .ok a := by
  cases x <;> simp [Except.mapError]

@[simp]
lemma mapError_eq_error {ζ : Type} {x : Except ε α} {f : ε → ζ} {e : ζ} :
    x.mapError f = .error e ↔ ∃ why, x = .error why ∧ f why = e := by
  cases x <;> simp [Except.mapError]

/-- An answer that can be read off is one. -/
lemma eq_ok_of_toOption {x : Except ε α} {a : α} (h : x.toOption = some a) : x = .ok a := by
  cases x with
  | error e => exact absurd h (by simp [Except.toOption])
  | ok b => exact congrArg _ (Option.some.inj h)

/-- An operation that answers everywhere along a list. -/
lemma mapM_eq_ok {f : α → Except ε β} {g : α → β} {l : List α} (h : ∀ a ∈ l, f a = .ok (g a)) :
    l.mapM f = .ok (l.map g) := by
  induction l with
  | nil => rfl
  | cons a l ih =>
      have hl := ih fun b hb => h b (by simp [hb])
      simp [List.mapM_cons, h a (by simp), hl]

/-- What comes of an operation along a list comes of one of its members. -/
lemma exists_of_mapM_eq_ok {f : α → Except ε β} {l : List α} {bs : List β}
    (h : l.mapM f = .ok bs) : ∀ b ∈ bs, ∃ a ∈ l, f a = .ok b := by
  induction l generalizing bs with
  | nil =>
      obtain rfl : [] = bs := Except.ok.inj h
      simp
  | cons a l ih =>
      rw [List.mapM_cons] at h
      obtain ⟨b, hb, h⟩ := bind_eq_ok.mp h
      obtain ⟨rest, hrest, h⟩ := bind_eq_ok.mp h
      obtain rfl : b :: rest = bs := Except.ok.inj h
      intro c hc
      rcases List.mem_cons.mp hc with rfl | hc
      · exact ⟨a, by simp, hb⟩
      · obtain ⟨x, hx, hfx⟩ := ih hrest c hc
        exact ⟨x, by simp [hx], hfx⟩

/-- A check that passes everywhere along a list. -/
lemma forM_eq_ok {f : α → Except ε PUnit} {l : List α} (h : ∀ a ∈ l, f a = .ok ()) :
    l.forM f = .ok () := by
  induction l with
  | nil => rfl
  | cons a l ih =>
      have hl := ih fun b hb => h b (by simp [hb])
      change (f a >>= fun _ => l.forM f) = _
      rw [h a (by simp), ok_bind, hl]

end Locator
