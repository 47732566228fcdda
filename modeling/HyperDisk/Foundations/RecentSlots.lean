import Mathlib.Data.List.Basic

/- A fixed number of slots filled in turn. Entry k of the history goes to slot k mod m, so
   the slots hold the last m entries. -/
namespace RecentSlots
variable {α : Type} {m : Nat} {slots slots' : Nat → Option α} {history : List α} {e : α}

def Recent (m : Nat) (slots : Nat → Option α) (history : List α) : Prop :=
  ∀ k e, history[k]? = some e → history.length ≤ k + m → slots (k % m) = some e

theorem recent_nil : Recent m slots [] := by
  intro k e found
  cases found

theorem mod_ne_of_close {a b : Nat} (before : a < b) (close : b < a + m) : a % m ≠ b % m := by
  intro same
  have apart : (b - a) % m = 0 := Nat.sub_mod_eq_zero_of_mod_eq same.symm
  rw [Nat.mod_eq_of_lt (by omega)] at apart
  omega

theorem recent_push (h : Recent m slots history) (here : slots' (history.length % m) = some e)
    (others : ∀ j, j < m → j ≠ history.length % m → slots' j = slots j) :
    Recent m slots' (history ++ [e]) := by
  intro k e' found room
  rw [List.length_append, List.length_singleton] at room
  by_cases last : k = history.length
  · subst last
    rw [List.getElem?_append_right (Nat.le_refl _), Nat.sub_self] at found
    cases found
    exact here
  · have inside : k < history.length := by
      have := (List.getElem?_eq_some_iff.mp found).1
      simp only [List.length_append, List.length_singleton] at this
      omega
    rw [List.getElem?_append_left inside] at found
    rw [others (k % m) (Nat.mod_lt k (by omega)) (mod_ne_of_close inside (by omega))]
    exact h k e' found (by omega)

theorem recent_in_order {i : Nat} (h : Recent m slots history) (few : history.length ≤ m)
    (inside : i < history.length) : slots i = history[i]? := by
  have found := List.getElem?_eq_getElem inside
  have slot := h i _ found (by omega)
  rwa [Nat.mod_eq_of_lt (by omega), ← found] at slot

/-- Afterwards the oldest entry stands where the next one will go. -/
theorem recent_wrapped {i : Nat} (h : Recent m slots history) (full : m ≤ history.length)
    (inside : i < m) :
    slots ((history.length + i) % m) = history[history.length - m + i]? := by
  have bound : history.length - m + i < history.length := by omega
  have found := List.getElem?_eq_getElem bound
  have slot := h _ _ found (by omega)
  rwa [← found, ← Nat.add_mod_right (history.length - m + i),
    show history.length - m + i + m = history.length + i by omega] at slot

theorem recent_every {q : Nat} (h : Recent m slots history) (full : m ≤ history.length)
    (inside : q < m) : ∃ e, e ∈ history ∧ slots q = some e := by
  have turn := Nat.mod_lt history.length (show 0 < m by omega)
  have parts := Nat.div_add_mod history.length m
  have reached : (history.length + (q + (m - history.length % m)) % m) % m = q := by
    rw [Nat.add_mod_mod, show history.length + (q + (m - history.length % m)) =
      m * (history.length / m) + m + q by omega, Nat.add_assoc, Nat.mul_add_mod, Nat.add_mod_left,
      Nat.mod_eq_of_lt inside]
  have slot := recent_wrapped h full (Nat.mod_lt (q + (m - history.length % m)) (by omega))
  rw [reached] at slot
  have bound : history.length - m + (q + (m - history.length % m)) % m < history.length := by
    have := Nat.mod_lt (q + (m - history.length % m)) (show 0 < m by omega)
    omega
  rw [List.getElem?_eq_getElem bound] at slot
  exact ⟨_, List.getElem_mem bound, slot⟩

end RecentSlots
