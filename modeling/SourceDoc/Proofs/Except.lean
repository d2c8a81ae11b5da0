import Mathlib.Data.List.Forall2

/-!
# Computations that may fail

What the parts of a computation gave, if the whole of it gave a value.
-/

namespace SourceDoc

theorem Except.map_eq_ok {ε α β : Type} {f : α → β} {x : Except ε α} {b : β}
    (h : x.map f = .ok b) : ∃ a, x = .ok a ∧ f a = b := by
  cases x with
  | error e => cases h
  | ok a => exact ⟨a, rfl, Except.ok.inj h⟩

theorem Except.eq_error_of_map {ε α β : Type} {f : α → β} {x : Except ε α} {e : ε}
    (h : x.map f = .error e) : x = .error e := by
  cases x with
  | error e' => exact congrArg Except.error (Except.error.inj h)
  | ok a => cases h

theorem Except.mapError_eq_ok {ε ε' α : Type} {f : ε → ε'} {x : Except ε α} {a : α}
    (h : x.mapError f = .ok a) : x = .ok a := by
  cases x with
  | error e => cases h
  | ok b => exact congrArg Except.ok (Except.ok.inj h)

theorem Except.eq_ok_of_toOption {ε α : Type} {x : Except ε α} {a : α} (h : x.toOption = some a) :
    x = .ok a := by
  cases x with
  | error e => cases h
  | ok b => exact congrArg Except.ok (Option.some.inj h)

theorem exists_of_toOption_map {ε α β : Type} {x : Except ε α} {f : α → β} {b : β}
    (h : x.toOption.map f = some b) : ∃ a, x = .ok a ∧ f a = b := by
  cases x with
  | error e => cases h
  | ok a => exact ⟨a, rfl, Option.some.inj h⟩

theorem Except.bind_eq_ok {ε α β : Type} {f : α → Except ε β} {x : Except ε α} {b : β}
    (h : x >>= f = .ok b) : ∃ a, x = .ok a ∧ f a = .ok b := by
  cases x with
  | error e => cases h
  | ok a => exact ⟨a, rfl, h⟩

/-- A result of two branches that go on alike comes from a result of one of them. -/
theorem Except.ite_bind_eq_ok {ε α β : Type} {p : Prop} [Decidable p] {x y : Except ε α}
    {f : α → Except ε β} {b : β} (h : (if p then x >>= f else y >>= f) = .ok b) :
    ∃ a, (if p then x else y) = .ok a ∧ f a = .ok b := by
  split
  · rw [if_pos ‹p›] at h
    exact bind_eq_ok h
  · rw [if_neg ‹¬p›] at h
    exact bind_eq_ok h

theorem Except.exists_of_mapM {ε α β : Type} {f : α → Except ε β} {l : List α} {bs : List β}
    (h : l.mapM f = .ok bs) : ∀ a ∈ l, ∃ b, f a = .ok b := by
  induction l generalizing bs with
  | nil => exact nofun
  | cons a l ih =>
    rw [List.mapM_cons] at h
    obtain ⟨b, hb, h⟩ := bind_eq_ok h
    obtain ⟨rest, hrest, -⟩ := bind_eq_ok h
    exact List.forall_mem_cons.2 ⟨⟨b, hb⟩, ih hrest⟩

theorem Except.forall₂_of_mapM {ε α β : Type} {f : α → Except ε β} {l : List α} {bs : List β}
    (h : l.mapM f = .ok bs) : List.Forall₂ (fun a b => f a = .ok b) l bs := by
  induction l generalizing bs with
  | nil =>
    cases h
    exact .nil
  | cons a l ih =>
    rw [List.mapM_cons] at h
    obtain ⟨b, hb, h⟩ := bind_eq_ok h
    obtain ⟨rest, hrest, h⟩ := bind_eq_ok h
    cases h
    exact .cons hb (ih hrest)

/-- The first check that fails gives the fault. -/
theorem Except.exists_first_of_forM {ε α : Type} {f : α → Except ε Unit} {l : List α} {e : ε}
    (h : l.forM f = .error e) :
    ∃ before a after, l = before ++ a :: after ∧ (∀ b ∈ before, f b = .ok ()) ∧ f a = .error e := by
  induction l with
  | nil => cases h
  | cons a l ih =>
    change (f a >>= fun _ => l.forM f) = .error e at h
    cases ha : f a with
    | error e' =>
      rw [ha] at h
      exact ⟨[], a, l, rfl, nofun, ha.trans (congrArg Except.error (Except.error.inj h))⟩
    | ok u =>
      rw [ha] at h
      obtain ⟨before, b, after, rfl, hbefore, hb⟩ := ih h
      exact ⟨a :: before, b, after, rfl, List.forall_mem_cons.2 ⟨ha, hbefore⟩, hb⟩

/-! ### Values and faults -/

/-- A computation gives a value with a property, or fails with a fault that has another. -/
inductive Except.Gives {ε α : Type} (E : ε → Prop) (Q : α → Prop) : Except ε α → Prop where
  | ok {a : α} (h : Q a) : Gives E Q (.ok a)
  | error {e : ε} (h : E e) : Gives E Q (.error e)

namespace Except.Gives

variable {ε α β : Type} {E : ε → Prop} {P : α → Prop} {Q : β → Prop}

theorem bind {x : Except ε α} {f : α → Except ε β} (hx : Gives E P x)
    (hf : ∀ a, P a → Gives E Q (f a)) : Gives E Q (x >>= f) := by
  cases hx with
  | ok h => exact hf _ h
  | error h => exact .error h

theorem bind_ok {x : Except ε α} {f : α → Except ε β} {a : α} (hx : x = .ok a)
    (hf : Gives E Q (f a)) : Gives E Q (x >>= f) := by
  rw [hx]
  exact hf

theorem mono {E' : ε → Prop} {P' : α → Prop} {x : Except ε α} (hx : Gives E P x)
    (hE : ∀ e, E e → E' e) (hP : ∀ a, P a → P' a) : Gives E' P' x := by
  cases hx with
  | ok h => exact .ok (hP _ h)
  | error h => exact .error (hE _ h)

theorem of_eq {x : Except ε α} {a : α} (hx : x = .ok a) (ha : P a) : Gives E P x := by
  rw [hx]
  exact .ok ha

theorem fault {x : Except ε α} {e : ε} (hx : Gives E P x) (he : x = .error e) : E e := by
  rw [he] at hx
  cases hx with
  | error h => exact h

theorem mapM {l : List α} {f : α → Except ε β} (h : ∀ a ∈ l, Gives E Q (f a)) :
    Gives E (fun bs => ∀ b ∈ bs, Q b) (l.mapM f) := by
  induction l with
  | nil => exact .ok nofun
  | cons a l ih =>
    rw [List.mapM_cons]
    refine (h a List.mem_cons_self).bind fun b hb => ?_
    refine (ih fun a ha => h a (List.mem_cons_of_mem _ ha)).bind fun bs hbs => .ok ?_
    exact List.forall_mem_cons.2 ⟨hb, hbs⟩

end Except.Gives

end SourceDoc
