import Mathlib.Data.List.Basic

/-!
Threads at a condition variable. A thread looks at the condition under the mutex and, when it
does not hold, releases the mutex and goes to sleep in one step; it has the mutex from its look
until then. `notify_all` wakes those that sleep, and a thread that is woken looks again.
-/

namespace Mini2.Monitor

/-- A thread is at some place of its code, or has looked at the condition in vain, or sleeps. -/
inductive Waiter (P : Type*)
  | at (p : P)
  | checked
  | parked
  deriving DecidableEq

variable {P : Type*} {ws : List (Waiter P)} {w : Waiter P} {entry p : P} {i : ℕ}

/-- Some thread has seen that the condition does not hold, and will not look again by itself. -/
def Waiting (ws : List (Waiter P)) : Prop := .checked ∈ ws ∨ .parked ∈ ws

instance [DecidableEq P] (ws : List (Waiter P)) : Decidable (Waiting ws) :=
  inferInstanceAs (Decidable (_ ∨ _))

def woken (entry : P) : Waiter P → Waiter P
  | .parked => .at entry
  | w => w

/-- `notify_all`: whoever sleeps goes back to `entry`, where it takes the mutex and looks. -/
def wakeAll (entry : P) (ws : List (Waiter P)) : List (Waiter P) := ws.map (woken entry)

lemma not_waiting_nil : ¬ Waiting ([] : List (Waiter P)) := by
  simp [Waiting]

lemma parked_notMem_wakeAll : .parked ∉ wakeAll entry ws := by
  intro h
  obtain ⟨w, -, hw⟩ := List.mem_map.mp h
  cases w <;> cases hw

lemma checked_of_mem_wakeAll (h : .checked ∈ wakeAll entry ws) : .checked ∈ ws := by
  obtain ⟨w, hmem, hw⟩ := List.mem_map.mp h
  cases w with
  | checked => exact hmem
  | _ => cases hw

lemma checked_of_waiting_wakeAll (h : Waiting (wakeAll entry ws)) : .checked ∈ ws :=
  checked_of_mem_wakeAll (h.resolve_right parked_notMem_wakeAll)

lemma not_waiting_wakeAll (h : .checked ∉ ws) : ¬ Waiting (wakeAll entry ws) :=
  fun hw => h (checked_of_waiting_wakeAll hw)

lemma waiting_of_set_at (h : Waiting (ws.set i (.at p))) : Waiting ws := by
  refine h.imp (fun h => ?_) fun h => ?_
  · exact (List.mem_or_eq_of_mem_set h).resolve_right (by simp)
  · exact (List.mem_or_eq_of_mem_set h).resolve_right (by simp)

lemma waiting_of_append_at (h : Waiting (ws ++ [.at p])) : Waiting ws := by
  refine h.imp (fun h => ?_) fun h => ?_
  · exact (List.mem_append.mp h).resolve_right (by simp)
  · exact (List.mem_append.mp h).resolve_right (by simp)

lemma waiting_of_parks (hi : ws[i]? = some .checked) : Waiting ws :=
  .inl (List.mem_of_getElem? hi)

end Mini2.Monitor
