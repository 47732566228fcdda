import Mathlib.Data.List.Basic

/- The latest entry of a log that satisfies a test, and when a narrower test finds the same
   value. -/
namespace LatestEntries
variable {E V : Type} {p q : E → Bool} {log : List E} {e : E}

def latest (p : E → Bool) (log : List E) : Option E := log.reverse.find? p

@[simp] theorem latest_nil (p : E → Bool) : latest p [] = none := rfl

theorem latest_snoc (p : E → Bool) (log : List E) (e : E) :
    latest p (log ++ [e]) = if p e then some e else latest p log := by
  rw [latest, List.reverse_append, List.reverse_singleton, List.singleton_append, List.find?_cons]
  cases p e <;> rfl

theorem latest_exists (member : e ∈ log) (hit : p e = true) :
    ∃ found, latest p log = some found := by
  apply Option.isSome_iff_exists.mp
  rw [latest, List.find?_isSome]
  exact ⟨e, List.mem_reverse.mpr member, hit⟩

theorem latest_mem (found : latest p log = some e) : e ∈ log :=
  List.mem_reverse.mp (List.mem_of_find?_eq_some found)

theorem latest_hit (found : latest p log = some e) : p e = true := List.find?_some found

theorem latest_none_of_narrower (narrower : ∀ e ∈ log, p e = true → q e = true)
    (missing : latest q log = none) : latest p log = none := by
  rw [latest, List.find?_eq_none] at missing ⊢
  intro e member hit
  exact missing e member (narrower e (List.mem_reverse.mp member) hit)

theorem latest_of_narrower (narrower : ∀ e ∈ log, p e = true → q e = true)
    (found : latest q log = some e) (hit : p e = true) : latest p log = some e := by
  rw [latest, List.find?_eq_some_iff_append] at found ⊢
  obtain ⟨_, later, earlier, split, passed⟩ := found
  refine ⟨hit, later, earlier, split, fun x member => ?_⟩
  have inLog : x ∈ log := by
    rw [← List.mem_reverse, split]
    exact List.mem_append_left _ member
  have refused := passed x member
  cases narrow : p x with
  | false => rfl
  | true =>
    rw [narrower x inLog narrow] at refused
    cases refused

/-- The narrower test finds the value of the wider one exactly when the entry the wider one
    finds passes it or carries the value found anyway. -/
theorem latest_agree_iff (narrower : ∀ e ∈ log, p e = true → q e = true) (value : E → V) :
    (latest p log).map value = (latest q log).map value ↔
      ∀ e, latest q log = some e → p e = true ∨ (latest p log).map value = some (value e) := by
  constructor
  · intro same e found
    exact Or.inr (by rw [same, found, Option.map_some])
  · intro every
    cases found : latest q log with
    | none => rw [latest_none_of_narrower narrower found]
    | some e =>
      rcases every e found with hit | value
      · rw [latest_of_narrower narrower found hit]
      · exact value

end LatestEntries
