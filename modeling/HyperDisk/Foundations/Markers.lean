import Mathlib.Data.List.Basic

/- Searching a text for a marker, as code does it: symbol by symbol, with `none` for a look behind
   the end of the text. Where the first marker is, is `List.dropInfix?`. -/
namespace Markers
variable {α : Type} [DecidableEq α]

def startsWith : List α → List α → Option Bool
  | [], _ => some true
  | _ :: _, [] => none
  | m :: marker, a :: text => if a = m then startsWith marker text else some false

/-- Looks for a marker up to the first terminator. -/
def search (terminator : α) (marker : List α) : List α → Option (Option Nat)
  | [] => if marker = [] then some (some 0) else none
  | a :: text => do
    if ← startsWith marker (a :: text) then some (some 0)
    else if a = terminator then some none
    else do
      let found ← search terminator marker text
      some (found.map (· + 1))

def scan (marker text : List α) : Nat → Nat → Option (Option Nat)
  | 0, _ => some none
  | left + 1, i => do
    if ← startsWith marker (text.drop i) then some (some i)
    else scan marker text left (i + 1)

def firstEnd (marker text : List α) : Option Nat :=
  (text.dropInfix? marker).map fun parts => parts.1.length + marker.length

theorem startsWith_append (marker after : List α) :
    startsWith marker (marker ++ after) = some true := by
  induction marker with
  | nil => rfl
  | cons m marker ih =>
    rw [List.cons_append, startsWith, if_pos rfl]
    exact ih

theorem startsWith_other {marker text : List α} (other : ¬ marker <+: text) :
    startsWith marker text = some false ∨ startsWith marker text = none ∧ text <+: marker := by
  induction marker generalizing text with
  | nil => exact absurd List.nil_prefix other
  | cons m marker ih =>
    cases text with
    | nil => exact .inr ⟨rfl, List.nil_prefix⟩
    | cons a text =>
      rw [startsWith]
      by_cases same : a = m
      · rw [if_pos same, same, List.cons_prefix_cons]
        rw [same, List.cons_prefix_cons, not_and] at other
        rcases ih (other rfl) with differs | ⟨ends, short⟩
        · exact .inl differs
        · exact .inr ⟨ends, rfl, short⟩
      · rw [if_neg same]
        exact .inl rfl

theorem startsWith_room {marker text : List α} (room : marker.length ≤ text.length) :
    startsWith marker text = some (decide (marker <+: text)) := by
  by_cases starts : marker <+: text
  · rw [decide_eq_true starts]
    obtain ⟨after, rfl⟩ := starts
    exact startsWith_append marker after
  · rw [decide_eq_false starts]
    rcases startsWith_other starts with differs | ⟨-, short⟩
    · exact differs
    · have same := short.eq_of_length (Nat.le_antisymm short.length_le room)
      exact absurd (same ▸ List.prefix_refl _) starts

theorem split_go (marker text seen : List α) :
    List.dropInfix?.go marker text seen =
      (List.dropInfix?.go marker text []).map fun parts => (seen.reverse ++ parts.1, parts.2) := by
  induction text generalizing seen with
  | nil =>
    change (if marker.isEmpty then some (seen.reverse, []) else none) =
      (if marker.isEmpty then some ([], []) else none).map _
    split
    · simp
    · rfl
  | cons a text ih =>
    change (match (a :: text).dropPrefix? marker with
        | none => List.dropInfix?.go marker text (a :: seen)
        | some after => some (seen.reverse, after)) =
      (match (a :: text).dropPrefix? marker with
        | none => List.dropInfix?.go marker text [a]
        | some after => some ([], after)).map _
    split
    · rw [ih (a :: seen), ih [a], Option.map_map]
      simp [Function.comp_def]
    · simp

theorem split_here {marker text after : List α} (starts : text = marker ++ after) :
    text.dropInfix? marker = some ([], after) := by
  apply List.dropInfix?_eq_some_iff.mpr
  exact ⟨⟨marker, starts, beq_self_eq_true _⟩, fun _ _ _ _ _ => Nat.zero_le _⟩

theorem split_later {marker text : List α} {a : α} (other : ¬ marker <+: a :: text) :
    (a :: text).dropInfix? marker =
      (text.dropInfix? marker).map fun parts => (a :: parts.1, parts.2) := by
  have missing : (a :: text).dropPrefix? marker = none := by
    apply Option.eq_none_iff_forall_ne_some.mpr
    intro after found
    obtain ⟨front, split, same⟩ := List.dropPrefix?_eq_some_iff.mp found
    exact other ⟨after, (eq_of_beq same) ▸ split.symm⟩
  change (match (a :: text).dropPrefix? marker with
    | none => List.dropInfix?.go marker text [a]
    | some after => some ([], after)) = _
  rw [missing]
  exact split_go marker text [a]

theorem split_eq {marker text before after : List α}
    (found : text.dropInfix? marker = some (before, after)) : text = before ++ marker ++ after := by
  obtain ⟨⟨middle, split, same⟩, -⟩ := List.dropInfix?_eq_some_iff.mp found
  rw [← eq_of_beq same]
  exact split

theorem split_short {marker text : List α} (short : text.length < marker.length) :
    text.dropInfix? marker = none := by
  apply Option.eq_none_iff_forall_ne_some.mpr
  intro parts found
  have sizes := congrArg List.length (split_eq found)
  rw [List.length_append, List.length_append] at sizes
  omega

/-- The search finds the first marker unless a terminator comes before it. Without a marker it
    depends on a terminator to stop. -/
theorem search_eq {marker : List α} {terminator : α} (nonempty : marker ≠ [])
    (plain : terminator ∉ marker) (text : List α) :
    search terminator marker text =
      match text.dropInfix? marker with
      | some (before, _) => if terminator ∈ before then some none else some (some before.length)
      | none => if terminator ∈ text then some none else none := by
  induction text with
  | nil =>
    have missing : ([] : List α).dropInfix? marker = none :=
      split_short (List.length_pos_of_ne_nil nonempty)
    rw [missing, search, if_neg nonempty]
    rfl
  | cons a text ih =>
    rw [search]
    by_cases starts : marker <+: a :: text
    · obtain ⟨after, split⟩ := starts
      rw [split_here split.symm, ← split, startsWith_append]
      rfl
    · rcases startsWith_other starts with differs | ⟨ends, short⟩
      · rw [differs, split_later starts]
        by_cases stops : a = terminator
        · cases text.dropInfix? marker with
          | none => simp [stops]
          | some parts => simp [stops]
        · have passes : terminator ≠ a := Ne.symm stops
          cases found : text.dropInfix? marker with
          | none =>
            rw [found] at ih
            simp only [Option.bind_eq_bind, Option.bind_some, Bool.false_eq_true, if_false, stops,
              ih, Option.map_none, List.mem_cons, passes, false_or]
            split
            · rfl
            · rfl
          | some parts =>
            rw [found] at ih
            simp only [Option.bind_eq_bind, Option.bind_some, Bool.false_eq_true, if_false, stops,
              ih, Option.map_some, List.mem_cons, passes, false_or]
            split
            · rfl
            · rfl
      · -- The text is the beginning of a marker, in which there is no terminator.
        have fewer : (a :: text).length < marker.length := by
          apply Nat.lt_of_le_of_ne short.length_le
          intro same
          exact starts ((short.eq_of_length same) ▸ List.prefix_refl _)
        rw [ends, split_short fewer]
        change none = if terminator ∈ a :: text then some none else none
        rw [if_neg fun inside => plain (short.subset inside)]

theorem scan_eq {marker text : List α} (nonempty : marker ≠ []) {left i : Nat}
    (places : left = (text.drop i).length + 1 - marker.length) :
    scan marker text left i =
      some (((text.drop i).dropInfix? marker).map fun parts => i + parts.1.length) := by
  induction left generalizing i with
  | zero =>
    rw [scan, split_short (show (text.drop i).length < marker.length by omega)]
    rfl
  | succ left ih =>
    have positive := List.length_pos_of_ne_nil nonempty
    have inside : i < text.length := by
      rw [List.length_drop] at places
      omega
    have next : text.drop i = text[i] :: text.drop (i + 1) := List.drop_eq_getElem_cons inside
    rw [scan]
    by_cases starts : marker <+: text.drop i
    · obtain ⟨after, split⟩ := starts
      rw [split_here split.symm, ← split, startsWith_append]
      rfl
    · rw [startsWith_room (show marker.length ≤ (text.drop i).length by omega),
        decide_eq_false starts]
      change scan marker text left (i + 1) = _
      rw [ih (by rw [List.length_drop] at places ⊢; omega), next]
      rw [next] at starts
      rw [split_later starts, Option.map_map]
      congr 2
      funext parts
      simp only [Function.comp_apply, List.length_cons]
      omega

theorem firstEnd_here (marker after : List α) :
    firstEnd marker (marker ++ after) = some marker.length := by
  unfold firstEnd
  rw [split_here rfl]
  simp

theorem firstEnd_later {marker text : List α} {a : α} (other : ¬ marker <+: a :: text) :
    firstEnd marker (a :: text) = (firstEnd marker text).map (· + 1) := by
  unfold firstEnd
  rw [split_later other, Option.map_map, Option.map_map]
  congr 1
  funext parts
  simp only [Function.comp_apply, List.length_cons]
  omega

theorem firstEnd_short {marker text : List α} (short : text.length < marker.length) :
    firstEnd marker text = none := by
  unfold firstEnd
  rw [split_short short]
  rfl

theorem firstEnd_take {marker : List α} (nonempty : marker ≠ []) (text : List α) (n : Nat) :
    firstEnd marker (text.take n) = (firstEnd marker text).filter (· ≤ n) := by
  have missing : firstEnd marker [] = none := firstEnd_short (List.length_pos_of_ne_nil nonempty)
  induction text generalizing n with
  | nil =>
    rw [List.take_nil, missing]
    rfl
  | cons a text ih =>
    by_cases starts : marker <+: a :: text
    · obtain ⟨after, split⟩ := starts
      rw [← split, firstEnd_here, Option.filter_some]
      by_cases fits : marker.length ≤ n
      · rw [List.take_append, List.take_of_length_le fits, firstEnd_here]
        simp [fits]
      · rw [firstEnd_short (Nat.lt_of_le_of_lt (List.length_take_le n _) (Nat.not_le.mp fits))]
        simp [fits]
    · rw [firstEnd_later starts]
      cases n with
      | zero =>
        rw [List.take_zero, missing]
        cases firstEnd marker text with
        | none => rfl
        | some last =>
          rw [Option.map_some, Option.filter_some]
          simp
      | succ n =>
        have other : ¬ marker <+: a :: text.take n := by
          intro inside
          apply starts
          exact inside.trans (List.cons_prefix_cons.mpr ⟨rfl, List.take_prefix n text⟩)
        rw [List.take_succ_cons, firstEnd_later other, ih]
        cases firstEnd marker text with
        | none => rfl
        | some last =>
          rw [Option.map_some, Option.filter_some, Option.filter_some]
          by_cases fits : last ≤ n
          · simp [fits]
          · simp [fits]

section Positions
variable {marker : List α} {c : α}

def find (marker text : List α) (pos : Nat) : Option Nat :=
  ((text.drop pos).dropInfix? marker).map fun parts => pos + parts.1.length

theorem split_missing {text : List α} (missing : ¬ marker <:+: text) :
    text.dropInfix? marker = none := by
  apply Option.eq_none_iff_forall_ne_some.mpr
  rintro ⟨before, after⟩ found
  exact missing ⟨before, after, (split_eq found).symm⟩

theorem split_exists {text : List α} (inside : marker <:+: text) :
    ∃ before after, text.dropInfix? marker = some (before, after) := by
  induction text with
  | nil =>
    have empty := List.eq_nil_of_infix_nil inside
    exact ⟨[], [], by simp [empty]⟩
  | cons a text ih =>
    by_cases starts : marker <+: a :: text
    · obtain ⟨after, split⟩ := starts
      exact ⟨[], after, split_here split.symm⟩
    · rcases List.infix_cons_iff.mp inside with here | later
      · exact absurd here starts
      · obtain ⟨before, after, found⟩ := ih later
        exact ⟨a :: before, after, by rw [split_later starts, found]; rfl⟩

theorem split_first {text before after : List α} (nonempty : marker ≠ [])
    (found : text.dropInfix? marker = some (before, after)) : ¬ marker <:+: before := by
  rintro ⟨front, rest, rfl⟩
  have positive := List.length_pos_of_ne_nil nonempty
  have earliest := (List.dropInfix?_eq_some_iff.mp found).2 front marker (rest ++ marker ++ after)
    (by simpa using split_eq found) (beq_self_eq_true _)
  rw [List.length_append, List.length_append] at earliest
  omega

theorem split_symbol {before : List α} (missing : c ∉ before) (after : List α) :
    (before ++ c :: after).dropInfix? [c] = some (before, after) := by
  induction before with
  | nil => exact split_here rfl
  | cons a before ih =>
    rw [List.mem_cons, not_or] at missing
    have other : ¬ [c] <+: a :: (before ++ c :: after) := by
      intro starts
      exact missing.1 (List.cons_prefix_cons.mp starts).1
    rw [List.cons_append, split_later other, ih missing.2]
    rfl

theorem find_symbol {before : List α} (missing : c ∉ before) (front after : List α) :
    find [c] (front ++ (before ++ c :: after)) front.length =
      some (front.length + before.length) := by
  rw [find, List.drop_left, split_symbol missing]
  rfl

theorem find_no_symbol {rest : List α} (missing : c ∉ rest) (front : List α) :
    find [c] (front ++ rest) front.length = none := by
  rw [find, List.drop_left, split_missing]
  · rfl
  · intro inside
    exact missing (inside.subset (List.mem_singleton_self c))

end Positions

end Markers
