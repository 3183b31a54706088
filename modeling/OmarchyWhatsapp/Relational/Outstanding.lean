import Mathlib.Data.List.Basic

/-!
# Values that are still to be sent

A value `current` changes locally and is sent to a `remote` afterwards, by tasks that run beside
each other. `owed t` is the value that task `t` still has to send. The remote follows the local
value (`Tracks`) as long as a change starts only when nothing is outstanding.
-/

namespace Relational

variable {τ β : Type*} {owed : τ → Option β} {tasks : List τ} {current remote : β}

/-- Whatever is still to be sent is the current value, and once nothing is the remote has it. -/
def Tracks (owed : τ → Option β) (tasks : List τ) (current remote : β) : Prop :=
  (∀ t ∈ tasks, ∀ v ∈ owed t, v = current) ∧ ((∀ t ∈ tasks, owed t = none) → remote = current)

namespace Tracks

/-- Nothing is left to send: the remote has the current value. -/
theorem settled (h : Tracks owed tasks current remote) (hnone : ∀ t ∈ tasks, owed t = none) :
    remote = current := h.2 hnone

/-- A new task that owes nothing, and no change. -/
theorem keep (h : Tracks owed tasks current remote) {t : τ} (ht : owed t = none) :
    Tracks owed (t :: tasks) current remote := by
  refine ⟨fun x hx v hv => ?_, fun hnone => h.2 fun x hx => hnone x (List.mem_cons_of_mem t hx)⟩
  rcases List.mem_cons.mp hx with rfl | hx
  · rw [ht] at hv
    cases hv
  · exact h.1 x hx v hv

/-- A change, when nothing is outstanding. -/
theorem change (hnone : ∀ t ∈ tasks, owed t = none) {t : τ} (ht : owed t = some current) :
    Tracks owed (t :: tasks) current remote := by
  refine ⟨fun x hx v hv => ?_, fun hall => ?_⟩
  · rcases List.mem_cons.mp hx with rfl | hx
    · rw [ht] at hv
      exact (Option.mem_some.mp hv).symm
    · rw [hnone x hx] at hv
      cases hv
  · have := hall t List.mem_cons_self
    rw [ht] at this
    cases this

variable [DecidableEq τ]

/-- A task goes on without sending this value. -/
theorem moveTo (h : Tracks owed tasks current remote) {t t' : τ} (ht : t ∈ tasks)
    (howed : owed t' = owed t) : Tracks owed (t' :: tasks.erase t) current remote := by
  refine ⟨fun x hx v hv => ?_, fun hnone => h.2 fun x hx => ?_⟩
  · rcases List.mem_cons.mp hx with rfl | hx
    · exact h.1 t ht v (howed ▸ hv)
    · exact h.1 x (List.mem_of_mem_erase hx) v hv
  · by_cases hxt : x = t
    · rw [hxt, ← howed]
      exact hnone t' List.mem_cons_self
    · exact hnone x (List.mem_cons_of_mem t' ((List.mem_erase_of_ne hxt).mpr hx))

/-- A task sends its value. -/
theorem send (h : Tracks owed tasks current remote) {t t' : τ} {v : β} (ht : t ∈ tasks)
    (hv : owed t = some v) (ht' : owed t' = none) : Tracks owed (t' :: tasks.erase t) current v := by
  have hcurrent : v = current := h.1 t ht v hv
  refine ⟨fun x hx w hw => ?_, fun _ => hcurrent⟩
  rcases List.mem_cons.mp hx with rfl | hx
  · rw [ht'] at hw
    cases hw
  · exact h.1 x (List.mem_of_mem_erase hx) w hw

/-- Tasks with nothing to send end. -/
theorem sublist (h : Tracks owed tasks current remote) {rest : List τ}
    (hsub : ∀ t ∈ rest, t ∈ tasks) (hgone : ∀ t ∈ tasks, t ∉ rest → owed t = none) :
    Tracks owed rest current remote := by
  refine ⟨fun x hx v hv => h.1 x (hsub x hx) v hv, fun hnone => h.2 fun x hx => ?_⟩
  by_cases hin : x ∈ rest
  · exact hnone x hin
  · exact hgone x hx hin

end Tracks

end Relational
