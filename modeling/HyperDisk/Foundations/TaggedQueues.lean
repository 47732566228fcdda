import Mathlib.Data.List.Perm.Basic

/- Keys spread over several queues by a tag: each tagged key stands once in the queue its
   tag names and nowhere else, untagged keys stand in no queue. -/
namespace TaggedQueues
variable {K Q : Type} [DecidableEq K] [DecidableEq Q]

def Placed (queues : Q → List K) (tag : K → Option Q) : Prop :=
  ∀ q k, (queues q).count k = if tag k = some q then 1 else 0

variable {queues queues' : Q → List K} {tag tag' : K → Option Q} {k : K} {q : Q}

theorem placed_mem (h : Placed queues tag) : k ∈ queues q ↔ tag k = some q := by
  have count := h q k
  rw [← List.count_pos_iff, count]
  split <;> simp_all

theorem placed_insert (h : Placed queues tag) (fresh : tag k = none)
    (joins : ∀ x, (queues' q).count x = (queues q).count x + if x = k then 1 else 0)
    (others : ∀ p, p ≠ q → queues' p = queues p)
    (tagged : ∀ x, tag' x = if x = k then some q else tag x) : Placed queues' tag' := by
  intro p x
  rw [tagged]
  by_cases here : p = q
  · rw [here, joins, h]
    by_cases same : x = k
    · simp [same, fresh]
    · simp [same]
  · rw [others p here, h]
    by_cases same : x = k
    · simp [same, fresh, Ne.symm here]
    · simp [same]

theorem placed_remove (h : Placed queues tag) (here : tag k = some q)
    (leaves : ∀ x, (queues' q).count x + (if x = k then 1 else 0) = (queues q).count x)
    (others : ∀ p, p ≠ q → queues' p = queues p)
    (untagged : ∀ x, tag' x = if x = k then none else tag x) : Placed queues' tag' := by
  intro p x
  rw [untagged]
  by_cases same : p = q
  · have count := leaves x
    rw [h] at count
    rw [same]
    by_cases gone : x = k
    · simp only [gone, here, if_true] at count ⊢
      simpa using count
    · simpa [gone] using count
  · rw [others p same, h]
    by_cases gone : x = k
    · simp [gone, here, Ne.symm same]
    · simp [gone]

theorem count_cons_split (l : List K) (k x : K) :
    l.count x + (if x = k then 1 else 0) = (k :: l).count x := by
  by_cases same : x = k
  · simp [same]
  · simp [same, List.count_cons_of_ne (Ne.symm same)]

theorem count_append_split (l : List K) (k x : K) :
    (l ++ [k]).count x = l.count x + if x = k then 1 else 0 := by
  rw [count_cons_split]
  exact (List.perm_append_singleton k l).count_eq x

theorem count_erase_split {l : List K} (member : k ∈ l) (x : K) :
    (l.erase k).count x + (if x = k then 1 else 0) = l.count x := by
  rw [count_cons_split]
  exact (List.perm_cons_erase member).symm.count_eq x

theorem count_eraseIdx_split {l : List K} {i : Nat} (found : l[i]? = some k) (x : K) :
    (l.eraseIdx i).count x + (if x = k then 1 else 0) = l.count x := by
  rw [count_cons_split]
  obtain ⟨inside, same⟩ := List.getElem?_eq_some_iff.mp found
  rw [← same]
  exact (List.getElem_cons_eraseIdx_perm inside).count_eq x

end TaggedQueues
