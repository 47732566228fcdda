import HyperDisk.BootAgent.BootMeta
import HyperDisk.Foundations.Markers

/- How the boot agent takes the body out of an HTTP response: DownloadScript with strstr on the
   vector it received into, DownloadBootMeta with a loop over its own buffer. `none` is a look at
   a byte that was not received. What is received comes in pieces, as the network delivers it. -/
namespace HttpBody
open LittleEndian Markers FileImages BootMeta

def blankLine : Bytes := [13, 10, 13, 10]

structure Arrivals where
  pieces : List Bytes
  filled : ∀ piece ∈ pieces, piece ≠ []

def recv (room : Nat) : List Bytes → Bytes × List Bytes
  | [] => ([], [])
  | piece :: rest =>
    if piece.length ≤ room then (piece, rest) else (piece.take room, piece.drop room :: rest)

def receiveAll : Nat → List Bytes → Option Bytes
  | 0, _ => none
  | fuel + 1, pieces =>
    if (recv 4096 pieces).1 = [] then some []
    else do
      let rest ← receiveAll fuel (recv 4096 pieces).2
      some ((recv 4096 pieces).1 ++ rest)

def receiveInto : Nat → Bytes → List Bytes → Option Bytes
  | 0, _, _ => none
  | fuel + 1, buf, pieces =>
    if buf.length < 8191 then
      if (recv (8191 - buf.length) pieces).1 = [] then some buf
      else
        receiveInto fuel (buf ++ (recv (8191 - buf.length) pieces).1)
          (recv (8191 - buf.length) pieces).2
    else some buf

def strstr (text : Bytes) : Option (Option Nat) := search 0 blankLine text

def findBody (response : Bytes) : Option (Option Nat) :=
  if response = [] then some none
  else do
    let found ← strstr response
    some (found.map (· + 4))

def scanBody (buf : Bytes) : Option (Option Nat) := do
  let found ← scan blankLine buf (buf.length - 3) 0
  some (found.map (· + 4))

structure Connection where
  wsaStarts : Bool
  urlParses : Bool
  socketOpens : Bool
  resolves : Bool
  connects : Bool
  arrivals : Arrivals

def downloadScript (c : Connection) : Option Bytes :=
  if ¬ c.wsaStarts then some []
  else if ¬ c.urlParses then some []
  else if ¬ c.socketOpens then some []
  else if ¬ c.resolves then some []
  else if ¬ c.connects then some []
  else do
    let response ← receiveAll (c.arrivals.pieces.flatten.length + 1) c.arrivals.pieces
    match ← findBody response with
    | some start => some (response.drop start)
    | none => some []

def downloadFile (c : Connection) : Option Bytes := downloadScript c

structure MetaConnection where
  serverGiven : Bool
  wsaStarts : Bool
  socketOpens : Bool
  connects : Bool
  arrivals : Arrivals

def metaBuffer (a : Arrivals) : Option Bytes :=
  receiveInto (a.pieces.flatten.length + 1) [] a.pieces

def httpBody (c : MetaConnection) : Option Bool :=
  if c.serverGiven ∧ c.wsaStarts ∧ c.socketOpens ∧ c.connects then do
    let buf ← metaBuffer c.arrivals
    match ← scanBody buf with
    | some start => some (decide (start < buf.length))
    | none => some false
  else some false

/-- DownloadBootMeta. A body that came over HTTP is left alone; otherwise the cache asks for the
    record itself and is saved, however that goes. -/
def downloadBootMeta (c : MetaConnection) (x : Exchange) (s : BootMetaCache) (disk : Disk)
    (path : Path) (opens : Bool) (outcome : WriteOutcome) (good : Bool) :
    Option (Int × BootMetaCache × Disk) := do
  if ← httpBody c then some (0, s, disk)
  else do
    let (s, loaded) ← loadFromServer s x
    if loaded then
      let (s, disk, _) := save s disk path opens outcome good
      some (0, s, disk)
    else some (-1, s, disk)

section Receiving
variable {pieces : List Bytes} {room : Nat}

theorem recv_flatten (room : Nat) (pieces : List Bytes) :
    (recv room pieces).1 ++ (recv room pieces).2.flatten = pieces.flatten := by
  cases pieces with
  | nil => rfl
  | cons piece rest =>
    rw [recv]
    split
    · rfl
    · simp only [List.flatten_cons]
      rw [← List.append_assoc, List.take_append_drop]

theorem recv_length (room : Nat) (pieces : List Bytes) : (recv room pieces).1.length ≤ room := by
  cases pieces with
  | nil => exact Nat.zero_le _
  | cons piece rest =>
    rw [recv]
    split
    · assumption
    · exact List.length_take_le _ _

theorem recv_nil (filled : ∀ piece ∈ pieces, piece ≠ []) (some_room : 0 < room)
    (nothing : (recv room pieces).1 = []) : pieces = [] := by
  cases pieces with
  | nil => rfl
  | cons piece rest =>
    have first := filled piece List.mem_cons_self
    rw [recv] at nothing
    split at nothing
    · exact absurd nothing first
    · rcases List.take_eq_nil_iff.mp nothing with none_left | empty
      · omega
      · exact absurd empty first

theorem recv_filled (filled : ∀ piece ∈ pieces, piece ≠ []) :
    ∀ piece ∈ (recv room pieces).2, piece ≠ [] := by
  cases pieces with
  | nil => exact fun _ inside => absurd inside List.not_mem_nil
  | cons piece rest =>
    rw [recv]
    split
    · exact fun other inside => filled other (List.mem_cons_of_mem _ inside)
    · rename_i long
      intro other inside
      rcases List.mem_cons.mp inside with rfl | inside
      · intro empty
        exact long (List.drop_eq_nil_iff.mp empty)
      · exact filled other (List.mem_cons_of_mem _ inside)

theorem recv_fewer (more : (recv room pieces).1 ≠ []) :
    (recv room pieces).2.flatten.length < pieces.flatten.length := by
  have sizes := congrArg List.length (recv_flatten room pieces)
  have positive := List.length_pos_of_ne_nil more
  rw [List.length_append] at sizes
  omega

theorem receiveAll_eq {fuel : Nat} (filled : ∀ piece ∈ pieces, piece ≠ [])
    (enough : pieces.flatten.length < fuel) : receiveAll fuel pieces = some pieces.flatten := by
  induction fuel generalizing pieces with
  | zero => exact absurd enough (Nat.not_lt_zero _)
  | succ fuel ih =>
    rw [receiveAll]
    split
    · rename_i nothing
      rw [recv_nil filled (by decide) nothing]
      rfl
    · rename_i more
      have fewer := recv_fewer more
      rw [ih (recv_filled filled) (by omega), ← recv_flatten 4096 pieces]
      rfl

theorem receiveInto_eq {fuel : Nat} {buf : Bytes} (filled : ∀ piece ∈ pieces, piece ≠ [])
    (enough : pieces.flatten.length < fuel) (fits : buf.length ≤ 8191) :
    receiveInto fuel buf pieces = some ((buf ++ pieces.flatten).take 8191) := by
  induction fuel generalizing pieces buf with
  | zero => exact absurd enough (Nat.not_lt_zero _)
  | succ fuel ih =>
    rw [receiveInto]
    split
    · rename_i free
      split
      · rename_i nothing
        rw [recv_nil filled (Nat.sub_pos_of_lt free) nothing, List.flatten_nil, List.append_nil,
          List.take_of_length_le fits]
      · rename_i more
        have fewer := recv_fewer more
        have short := recv_length (8191 - buf.length) pieces
        rw [ih (recv_filled filled) (by omega) (by rw [List.length_append]; omega),
          List.append_assoc, recv_flatten]
    · rename_i full
      rw [List.take_append_of_le_length (by omega), List.take_of_length_le fits]

end Receiving

def received (c : Connection) : Bytes :=
  if c.wsaStarts ∧ c.urlParses ∧ c.socketOpens ∧ c.resolves ∧
    c.connects then c.arrivals.pieces.flatten
  else []

def body (response : Bytes) : Bytes :=
  match response.dropInfix? blankLine with
  | some (_, after) => after
  | none => []

theorem downloadScript_eq (c : Connection) :
    downloadScript c = (findBody (received c)).map fun found =>
      match found with
      | some start => (received c).drop start
      | none => [] := by
  by_cases reached : c.wsaStarts ∧ c.urlParses ∧ c.socketOpens ∧ c.resolves ∧ c.connects
  · have all := receiveAll_eq c.arrivals.filled (Nat.lt_succ_self _)
    unfold downloadScript received
    rw [if_pos reached, all]
    obtain ⟨wsa, url, socket, resolved, connected⟩ := reached
    simp only [wsa, url, socket, resolved, connected, not_true_eq_false, if_false,
      Option.bind_eq_bind, Option.bind_some]
    cases findBody c.arrivals.pieces.flatten with
    | none => rfl
    | some found =>
      cases found with
      | none => rfl
      | some start => rfl
  · unfold downloadScript received
    rw [if_neg reached]
    split_ifs with wsa url socket resolved connected
    · exact absurd ⟨wsa, url, socket, resolved, connected⟩ reached
    · rfl
    · rfl
    · rfl
    · rfl
    · rfl

theorem scanBody_eq (response : Bytes) :
    scanBody (response.take 8191) = some ((firstEnd blankLine response).filter (· ≤ 8191)) := by
  have places : (response.take 8191).length - 3 =
      ((response.take 8191).drop 0).length + 1 - blankLine.length := by
    rw [List.drop_zero, show blankLine.length = 4 from rfl]
    omega
  rw [← firstEnd_take (by decide), scanBody, scan_eq (by decide) places]
  unfold firstEnd
  simp only [List.drop_zero, Option.bind_eq_bind, Option.bind_some, Option.map_map,
    Function.comp_def, Nat.zero_add]
  rfl

theorem findBody_eq (response : Bytes) (some_bytes : response ≠ []) :
    findBody response =
      match response.dropInfix? blankLine with
      | some (before, _) => if 0 ∈ before then some none else some (some (before.length + 4))
      | none => if 0 ∈ response then some none else none := by
  rw [findBody, if_neg some_bytes, strstr, search_eq (by decide) (by decide)]
  cases response.dropInfix? blankLine with
  | none =>
    simp only
    split
    · rfl
    · rfl
  | some parts =>
    simp only
    split
    · rfl
    · rfl

/-- DownloadScript returns what follows the first blank line. However the same bytes arrive at
    DownloadBootMeta, its loop finds the body in the same place, as far as it has room. -/
def Extracts (c : Connection) : Prop :=
  downloadScript c = some (body (received c)) ∧
    ∃ start, findBody (received c) = some start ∧
      ∀ a : Arrivals, a.pieces.flatten = received c →
        (metaBuffer a).bind scanBody = some (start.filter (· ≤ 8191))

theorem metaBuffer_eq (a : Arrivals) : metaBuffer a = some (a.pieces.flatten.take 8191) :=
  receiveInto_eq a.filled (Nat.lt_succ_self _) (Nat.zero_le _)

theorem arrives_whole (bytes : Bytes) : ∃ a : Arrivals, a.pieces.flatten = bytes := by
  by_cases empty : bytes = []
  · exact ⟨⟨[], fun _ inside => absurd inside List.not_mem_nil⟩, empty.symm⟩
  · exact ⟨⟨[bytes], fun _ inside => List.mem_singleton.mp inside ▸ empty⟩, List.flatten_singleton⟩

theorem scanned_iff (bytes : Bytes) (found : Option Nat) :
    (∀ a : Arrivals, a.pieces.flatten = bytes → (metaBuffer a).bind scanBody = some found) ↔
      (firstEnd blankLine bytes).filter (· ≤ 8191) = found := by
  have scanned : ∀ a : Arrivals, a.pieces.flatten = bytes →
      (metaBuffer a).bind scanBody = some ((firstEnd blankLine bytes).filter (· ≤ 8191)) := by
    intro a arrives
    rw [metaBuffer_eq, arrives]
    exact scanBody_eq bytes
  constructor
  · intro all
    obtain ⟨a, arrives⟩ := arrives_whole bytes
    exact Option.some.inj ((scanned a arrives).symm.trans (all a arrives))
  · rintro rfl
    exact scanned

/-- A NUL byte before the blank line hides the body, and a response with neither a blank line nor a
    NUL byte is read past its end. -/
theorem extracts_iff (c : Connection) :
    Extracts c ↔ received c = [] ∨
      (∃ before after, (received c).dropInfix? blankLine = some (before, after) ∧
        (0 ∉ before ∨ after = [] ∧ 8191 < before.length + 4)) ∨
      (received c).dropInfix? blankLine = none ∧ 0 ∈ received c := by
  unfold Extracts
  simp only [downloadScript_eq, scanned_iff]
  by_cases empty : received c = []
  · simp only [empty, true_or, iff_true]
    exact ⟨rfl, none, rfl, rfl⟩
  · simp only [empty, false_or, findBody_eq _ empty, body, firstEnd]
    cases found : (received c).dropInfix? blankLine with
    | none =>
      by_cases stops : (0 : UInt8) ∈ received c
      · simp [stops]
      · simp [stops]
    | some parts =>
      obtain ⟨before, after⟩ := parts
      have size : blankLine.length = 4 := rfl
      have rest : (received c).drop (before.length + 4) = after := by
        rw [split_eq found]
        exact List.drop_left' (by rw [List.length_append]; rfl)
      by_cases hidden : (0 : UInt8) ∈ before
      · simp [hidden, size]
      · simp [hidden, size, rest]

theorem nul_hides_body :
    let binary : Connection := ⟨true, true, true, true, true, [[0, 13, 10, 13, 10, 65]], by decide⟩
    let plain : Connection := ⟨true, true, true, true, true, [[72, 84, 84, 80]], by decide⟩
    downloadScript binary = some [] ∧ body (received binary) = [65] ∧
      scanBody (received binary) = some (some 5) ∧
      downloadScript plain = none ∧ body (received plain) = [] := by
  decide

end HttpBody
