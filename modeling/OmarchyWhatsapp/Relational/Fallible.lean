import Mathlib.Data.List.Basic
import Mathlib.Data.Nat.Notation

/-!
# Code that can fail

What a computation that succeeds has gone through, and what can stop one: an error that it returns
to its caller, or a fault that the language raises.
-/

namespace Relational

section Except

variable {ε α β : Type}

theorem bind_eq_ok {x : Except ε α} {f : α → Except ε β} {b : β} :
    x >>= f = .ok b ↔ ∃ a, x = .ok a ∧ f a = .ok b := by
  cases x with
  | error e => exact iff_of_false (by rintro ⟨⟩) (by rintro ⟨a, ⟨⟩, -⟩)
  | ok a =>
    constructor
    · exact fun h => ⟨a, rfl, h⟩
    · rintro ⟨a', ⟨⟩, h⟩
      exact h

@[simp] theorem ok_bind (a : α) (f : α → Except ε β) : (Except.ok a >>= f) = f a := rfl

theorem pure_eq_ok {a b : α} : (pure a : Except ε α) = .ok b ↔ a = b :=
  ⟨fun h => Except.ok.inj h, fun h => congrArg Except.ok h⟩

theorem isOk_then (x : Except ε α) (y : Except ε β) :
    (x >>= fun _ => y).isOk = (x.isOk && y.isOk) := by
  cases x <;> rfl

theorem isOk_forM (f : α → Except ε Unit) (l : List α) :
    (l.forM f).isOk = l.all (fun a => (f a).isOk) := by
  induction l with
  | nil => rfl
  | cons a l ih =>
    show (f a >>= fun _ => l.forM f).isOk = _
    rw [isOk_then, ih, List.all_cons]

theorem mapM_eq_ok {f : α → Except ε β} {l : List α} {bs : List β} (h : l.mapM f = .ok bs) :
    ∀ a ∈ l, ∃ b ∈ bs, f a = .ok b := by
  induction l generalizing bs with
  | nil => exact fun _ ha => absurd ha List.not_mem_nil
  | cons a l ih =>
    rw [List.mapM_cons] at h
    obtain ⟨b, hb, h⟩ := bind_eq_ok.mp h
    obtain ⟨rest, hrest, h⟩ := bind_eq_ok.mp h
    rw [← pure_eq_ok.mp h]
    intro a' ha'
    rcases List.mem_cons.mp ha' with rfl | ha'
    · exact ⟨b, List.mem_cons_self, hb⟩
    · obtain ⟨b', hmem, hb'⟩ := ih hrest a' ha'
      exact ⟨b', List.mem_cons_of_mem _ hmem, hb'⟩

theorem exists_mapM {f : α → Except ε β} {l : List α} (h : ∀ a ∈ l, ∃ b, f a = .ok b) :
    ∃ bs, l.mapM f = .ok bs ∧ ∀ b ∈ bs, ∃ a ∈ l, f a = .ok b := by
  induction l with
  | nil => exact ⟨[], rfl, fun _ hb => absurd hb List.not_mem_nil⟩
  | cons a l ih =>
    obtain ⟨b, hb⟩ := h a List.mem_cons_self
    obtain ⟨bs, hbs, hfrom⟩ := ih fun a ha => h a (List.mem_cons_of_mem _ ha)
    refine ⟨b :: bs, ?_, ?_⟩
    · rw [List.mapM_cons, hb, hbs]
      rfl
    · intro b' hb'
      rcases List.mem_cons.mp hb' with rfl | hb'
      · exact ⟨a, List.mem_cons_self, hb⟩
      · obtain ⟨a', ha', hf⟩ := hfrom b' hb'
        exact ⟨a', List.mem_cons_of_mem _ ha', hf⟩

end Except

/-! ## Errors and faults -/

/-- Why a computation stops: an error that it returns, or a fault of the language. -/
inductive Halt where
  | error (message : String)
  | fault
deriving DecidableEq, Repr

section Halting

variable {α : Type*}

/-- `Option::context`. -/
def context (value : Option α) (message : String) : Except Halt α :=
  match value with
  | some a => .ok a
  | none => .error (.error message)

/-- `if condition { bail!(message) }`. -/
def bailIf (condition : Prop) [Decidable condition] (message : String) : Except Halt Unit :=
  if condition then .error (.error message) else .ok ()

@[simp] theorem context_some (a : α) (message : String) : context (some a) message = .ok a := rfl

@[simp] theorem context_none (message : String) :
    context (none : Option α) message = .error (.error message) := rfl

theorem context_eq_ok {value : Option α} {message : String} {a : α} :
    context value message = .ok a ↔ value = some a := by
  cases value <;> simp

theorem bailIf_true {condition : Prop} [Decidable condition] (h : condition) (message : String) :
    bailIf condition message = .error (.error message) := if_pos h

theorem bailIf_false {condition : Prop} [Decidable condition] (h : ¬condition) (message : String) :
    bailIf condition message = .ok () := if_neg h

/-- `ensure!` has passed exactly if its condition holds. -/
theorem bailIf_eq_ok {condition : Prop} [Decidable condition] {message : String} {u : Unit} :
    bailIf (¬condition) message = .ok u ↔ condition := by
  unfold bailIf
  by_cases h : condition
  · simp [h]
  · simp [h]

theorem context_ne_fault (value : Option α) (message : String) :
    context value message ≠ .error .fault := by
  cases value <;> simp

theorem bailIf_ne_fault (condition : Prop) [Decidable condition] (message : String) :
    bailIf condition message ≠ .error .fault := by
  by_cases h : condition
  · simp [bailIf_true h]
  · simp [bailIf_false h]

/-- Steps that never fault, one after the other. -/
theorem bind_ne_fault {α β : Type} {x : Except Halt α} {f : α → Except Halt β}
    (hx : x ≠ .error .fault) (hf : ∀ a, f a ≠ .error .fault) : x >>= f ≠ .error .fault := by
  cases x with
  | error e =>
    intro h
    exact hx (congrArg Except.error (Except.error.inj h))
  | ok a => exact hf a

end Halting

end Relational
