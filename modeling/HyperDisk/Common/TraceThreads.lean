import Mathlib.Data.List.Perm.Basic
import HyperDisk.Common.BootTrace
import HyperDisk.Foundations.ThreadStates

/- Several threads that record into the boot IO trace at the same time. A call of RecordIo is
   four steps between which other threads run: the fetch_add of the request id, the fetch_add
   of write_pos, the store of the event and the fetch_add of the count. built and order are
   the history of the first two of them, and index is the number of reservations before a
   thread's own. -/
namespace TraceThreads
open BootTrace StepRuns ThreadStates RecentSlots WordCounters

structure Call where
  type : BootIoType
  blockAddr : UInt64
  blockCount : UInt32
  latencyUs : UInt32
  cacheLevel : UInt8
  status : UInt32
  now : UInt64
  deriving DecidableEq

def Call.event (c : Call) (requestId : UInt64) : BootIoEvent :=
  { zeroEvent with
    timestampNs := c.now
    ioType := c.type
    blockAddr := c.blockAddr
    blockCount := c.blockCount
    latencyUs := c.latencyUs
    cacheLevel := c.cacheLevel
    status := c.status
    requestId := requestId }

inductive Local where
  | idle
  | numbered (event : BootIoEvent)
  | placed (event : BootIoEvent) (pos : UInt32)
  | stored
  deriving DecidableEq

structure System (T : Type) where
  trace : BootIoTrace
  locals : T → Local
  built : List (T × BootIoEvent)
  order : List (T × BootIoEvent)
  index : T → Nat

inductive Action (T : Type) where
  | recordIo (t : T) (c : Call)
  | advance (t : T)

section Steps
variable {T : Type} [DecidableEq T]

def begin (s : BootIoTrace) : System T := ⟨reset s, fun _ => .idle, [], [], fun _ => 0⟩

def System.move (s : System T) (t : T) (l : Local) : System T :=
  { s with locals := setLocal s.locals t l }

def call (s : System T) (t : T) (c : Call) : System T :=
  let event := c.event s.trace.nextRequestId
  { s with
    trace := { s.trace with nextRequestId := s.trace.nextRequestId + 1 }
    built := s.built ++ [(t, event)] }.move t (.numbered event)

def reserve (s : System T) (t : T) (event : BootIoEvent) : System T :=
  { s with
    trace := { s.trace with writePos := s.trace.writePos + 1 }
    order := s.order ++ [(t, event)]
    index := fun u => if u = t then s.order.length else s.index u }.move t
      (.placed event (s.trace.writePos % bootTraceBufSize))

def store (s : System T) (t : T) (event : BootIoEvent) (pos : UInt32) : System T :=
  { s with
    trace := { s.trace with
      buffer := fun i => if i = pos.toNat then event else s.trace.buffer i } }.move t .stored

def finish (s : System T) (t : T) : System T :=
  { s with trace := { s.trace with count := s.trace.count + 1 } }.move t .idle

def step (s : System T) : Action T → System T
  | .recordIo t c => if s.locals t = .idle then call s t c else s
  | .advance t =>
    match s.locals t with
    | .idle => s
    | .numbered event => reserve s t event
    | .placed event pos => store s t event pos
    | .stored => finish s t

theorem alone (s : System T) (t : T) (c : Call) (free : s.locals t = .idle) :
    (run step s [.recordIo t c, .advance t, .advance t, .advance t]).trace =
      BootTrace.recordIo s.trace c.type c.blockAddr c.blockCount c.latencyUs c.cacheLevel c.status
        c.now := by
  simp [run, step, free, call, reserve, store, finish, System.move, BootTrace.recordIo, recordEvent,
    Call.event]

/-- A place is reserved for another thread only while no reservation still to be stored is a
    whole buffer behind. -/
def Prompt (s : System T) : Action T → Prop
  | .recordIo _ _ => True
  | .advance t => ∀ event, s.locals t = .numbered event →
      ∀ u e pos, s.locals u = .placed e pos → s.order.length < s.index u + 65536

def pending (t : T) : Local → List (T × BootIoEvent)
  | .numbered event => [(t, event)]
  | _ => []

def uncounted : Local → Nat
  | .placed _ _ => 1
  | .stored => 1
  | _ => 0

end Steps

section Invariant
variable {T : Type} [DecidableEq T] [Fintype T] {first : UInt64} {s : System T} {t : T}
  {event : BootIoEvent}
  {pos : UInt32}

structure Linear (first : UInt64) (s : System T) : Prop where
  position : s.trace.writePos.toNat = s.order.length % 2 ^ 32
  counted : (s.trace.count.toNat + ∑ t, uncounted (s.locals t)) % 2 ^ 32 = s.order.length % 2 ^ 32
  next : s.trace.nextRequestId = first + UInt64.ofNat s.built.length
  ids : s.built.map (fun r => r.2.requestId) =
    (List.range s.built.length).map fun k => first + UInt64.ofNat k
  program : ∀ t, s.built.filter (fun r => r.1 = t) =
    s.order.filter (fun r => r.1 = t) ++ pending t (s.locals t)
  waiting : ∀ t e pos, s.locals t = .placed e pos → s.order[s.index t]? = some (t, e) ∧
    pos.toNat = s.index t % 65536 ∧ s.order.length ≤ s.index t + 65536
  slots : ∀ k t e, s.order[k]? = some (t, e) → s.order.length ≤ k + 65536 →
    s.trace.buffer (k % 65536) = e ∨ ∃ pos, s.locals t = .placed e pos ∧ s.index t = k

theorem linear_begin (s : BootIoTrace) : Linear s.nextRequestId (begin s : System T) := by
  constructor
  · rfl
  · simp [begin, reset, uncounted]
  · simp [begin, reset]
  · rfl
  · intro t
    rfl
  · intro t e pos placed
    cases placed
  · intro k t e found
    cases found

omit [Fintype T] in
@[simp] theorem move_locals (l : Local) (u : T) :
    (s.move t l).locals u = if u = t then l else s.locals u := rfl

omit [Fintype T] in
@[simp] theorem move_built (l : Local) : (s.move t l).built = s.built := rfl

omit [Fintype T] in
@[simp] theorem move_order (l : Local) : (s.move t l).order = s.order := rfl

theorem uncounted_move (l : Local) :
    (∑ u, uncounted ((s.move t l).locals u)) + uncounted (s.locals t) =
      (∑ u, uncounted (s.locals u)) + uncounted l :=
  total_setLocal uncounted s.locals t l

theorem linear_call (h : Linear first s) (c : Call) (free : s.locals t = .idle) :
    Linear first (call s t c) := by
  have same : ∀ u l, (call s t c).locals u = l → (∀ e, l ≠ .numbered e) →
      s.locals u = l ∧ u ≠ t := by
    intro u l here other
    by_cases it : u = t
    · rw [call, move_locals, if_pos it] at here
      exact absurd here.symm (other _)
    · rw [call, move_locals, if_neg it] at here
      exact ⟨here, it⟩
  constructor
  · exact h.position
  · have sum := uncounted_move (s := s) (t := t) (.numbered (c.event s.trace.nextRequestId))
    rw [free] at sum
    have total : ∑ u, uncounted ((call s t c).locals u) = ∑ u, uncounted (s.locals u) := sum
    rw [total]
    exact h.counted
  · simp only [call, System.move, List.length_append, List.length_singleton]
    rw [h.next, UInt64.ofNat_add, UInt64.add_assoc]
    rfl
  · simp only [call, System.move, List.map_append, List.length_append, List.length_singleton,
      List.range_succ, h.ids, h.next]
    rfl
  · intro u
    have old := h.program u
    by_cases it : u = t
    · subst it
      rw [free] at old
      simp [call, pending, old]
    · simp [call, it, Ne.symm it, old]
  · intro u e pos placed
    exact h.waiting u e pos (same u _ placed nofun).1
  · intro k u e found near
    rcases h.slots k u e found near with there | ⟨pos, placed, here⟩
    · exact Or.inl there
    · have it : u ≠ t := by
        rintro rfl
        rw [free] at placed
        cases placed
      exact Or.inr ⟨pos, by simp [call, it, placed], here⟩

theorem linear_reserve (h : Linear first s) (numbered : s.locals t = .numbered event)
    (prompt : ∀ u e pos, s.locals u = .placed e pos → s.order.length < s.index u + 65536) :
    Linear first (reserve s t event) := by
  have length : (reserve s t event).order.length = s.order.length + 1 := by
    simp [reserve, System.move]
  have slot : (s.trace.writePos % bootTraceBufSize).toNat = s.order.length % 65536 := by
    rw [slot_toNat, h.position]
    omega
  constructor
  · rw [length]
    exact succ_toNat h.position
  · have sum :=
      uncounted_move (s := s) (t := t) (.placed event (s.trace.writePos % bootTraceBufSize))
    rw [numbered] at sum
    have total : ∑ u, uncounted ((reserve s t event).locals u) =
        (∑ u, uncounted (s.locals u)) + 1 := sum
    have counted := h.counted
    rw [total, length]
    show (s.trace.count.toNat + _) % 2 ^ 32 = _
    omega
  · exact h.next
  · exact h.ids
  · intro u
    have old := h.program u
    by_cases it : u = t
    · subst it
      rw [numbered] at old
      simpa [reserve, System.move, pending] using old
    · simpa [reserve, System.move, it, Ne.symm it] using old
  · intro u e pos placed
    rw [length]
    by_cases it : u = t
    · subst it
      simp only [reserve, move_locals, if_true, Local.placed.injEq] at placed
      obtain ⟨rfl, rfl⟩ := placed
      simp [reserve, System.move, slot]
    · simp only [reserve, move_locals, if_neg it] at placed
      obtain ⟨found, where_, near⟩ := h.waiting u e pos placed
      have inside := (List.getElem?_eq_some_iff.mp found).1
      have close := prompt u e pos placed
      simp only [reserve, System.move, if_neg it, List.getElem?_append_left inside]
      exact ⟨found, where_, close⟩
  · intro k u e found near
    rw [length] at near
    by_cases last : k = s.order.length
    · subst last
      simp only [reserve, System.move, List.getElem?_concat_length, Option.some.injEq,
        Prod.mk.injEq] at found
      obtain ⟨rfl, rfl⟩ := found
      refine Or.inr ⟨s.trace.writePos % bootTraceBufSize, ?_, ?_⟩
      · simp [reserve]
      · simp [reserve, System.move]
    · have inside : k < s.order.length := by
        have := (List.getElem?_eq_some_iff.mp found).1
        rw [length] at this
        omega
      simp only [reserve, System.move, List.getElem?_append_left inside] at found
      rcases h.slots k u e found (by omega) with there | ⟨pos, placed, here⟩
      · exact Or.inl there
      · have it : u ≠ t := by
          rintro rfl
          rw [numbered] at placed
          cases placed
        exact Or.inr ⟨pos, by simp [reserve, it, placed], by simp [reserve, System.move, it, here]⟩

theorem linear_store (h : Linear first s) (placed : s.locals t = .placed event pos) :
    Linear first (store s t event pos) := by
  obtain ⟨found, where_, near⟩ := h.waiting t event pos placed
  have inside := (List.getElem?_eq_some_iff.mp found).1
  have others : ∀ u l, (store s t event pos).locals u = l → l ≠ .stored →
      s.locals u = l ∧ u ≠ t := by
    intro u l here other
    by_cases it : u = t
    · rw [store, move_locals, if_pos it] at here
      exact absurd here.symm other
    · rw [store, move_locals, if_neg it] at here
      exact ⟨here, it⟩
  constructor
  · exact h.position
  · have sum := uncounted_move (s := s) (t := t) .stored
    rw [placed] at sum
    have total : ∑ u, uncounted ((store s t event pos).locals u) = ∑ u, uncounted (s.locals u) :=
      Nat.add_right_cancel sum
    rw [total]
    exact h.counted
  · exact h.next
  · exact h.ids
  · intro u
    have old := h.program u
    by_cases it : u = t
    · subst it
      rw [placed] at old
      simpa [store, System.move, pending] using old
    · simpa [store, System.move, it] using old
  · intro u e q waiting
    exact h.waiting u e q (others u _ waiting nofun).1
  · intro k u e there close
    have whole : (store s t event pos).order = s.order := rfl
    rw [whole] at there close
    have bound := (List.getElem?_eq_some_iff.mp there).1
    by_cases mine : k = s.index t
    · subst mine
      have same : (t, event) = (u, e) := Option.some.inj (found.symm.trans there)
      cases same
      left
      simp [store, System.move, where_]
    · have apart : k % 65536 ≠ pos.toNat := by
        rw [where_]
        rcases Nat.lt_or_gt_of_ne mine with before | after
        · exact mod_ne_of_close before (by omega)
        · exact (mod_ne_of_close after (by omega)).symm
      rcases h.slots k u e there close with kept | ⟨q, waiting, index⟩
      · left
        simpa [store, System.move, apart] using kept
      · have it : u ≠ t := by
          rintro rfl
          exact mine index.symm
        exact Or.inr ⟨q, by simp [store, it, waiting], index⟩

theorem linear_finish (h : Linear first s) (stored : s.locals t = .stored) :
    Linear first (finish s t) := by
  have others : ∀ u l, (finish s t).locals u = l → l ≠ .idle → s.locals u = l := by
    intro u l here other
    by_cases it : u = t
    · rw [finish, move_locals, if_pos it] at here
      exact absurd here.symm other
    · rwa [finish, move_locals, if_neg it] at here
  constructor
  · exact h.position
  · have sum := uncounted_move (s := s) (t := t) .idle
    rw [stored] at sum
    have total : (∑ u, uncounted ((finish s t).locals u)) + 1 = ∑ u, uncounted (s.locals u) := sum
    have counted := h.counted
    have up : (finish s t).trace.count.toNat = (s.trace.count.toNat + 1) % 2 ^ 32 := succ_mod _
    rw [up]
    show _ = s.order.length % 2 ^ 32
    omega
  · exact h.next
  · exact h.ids
  · intro u
    have old := h.program u
    by_cases it : u = t
    · subst it
      rw [stored] at old
      simpa [finish, System.move, pending] using old
    · simpa [finish, System.move, it] using old
  · intro u e q waiting
    exact h.waiting u e q (others u _ waiting nofun)
  · intro k u e there close
    rcases h.slots k u e there close with kept | ⟨q, waiting, index⟩
    · exact Or.inl kept
    · have it : u ≠ t := by
        rintro rfl
        rw [stored] at waiting
        cases waiting
      exact Or.inr ⟨q, by simp [finish, it, waiting], index⟩

theorem linear_step (s : System T) (a : Action T) (h : Linear first s) (prompt : Prompt s a) :
    Linear first (step s a) := by
  cases a with
  | recordIo t c =>
    rw [step]
    split
    · rename_i free
      exact linear_call h c free
    · exact h
  | advance t =>
    rw [step]
    split
    · exact h
    · rename_i event numbered
      exact linear_reserve h numbered (prompt event numbered)
    · rename_i event pos placed
      exact linear_store h placed
    · rename_i stored
      exact linear_finish h stored

/-- With no call under way the trace is as if the events had been recorded one by one, in the
    order of their reservations. -/
theorem traced_of_quiet (h : Linear first s) (quiet : ∀ t, s.locals t = .idle) :
    Traced (s.order.map Prod.snd) s.trace := by
  constructor
  · rw [List.length_map]
    exact h.position
  · have counted := h.counted
    simp only [quiet, uncounted, Finset.sum_const_zero, Nat.add_zero] at counted
    rw [List.length_map, ← counted, Nat.mod_eq_of_lt s.trace.count.toNat_lt]
  · intro k e found near
    rw [List.getElem?_map, Option.map_eq_some_iff] at found
    obtain ⟨⟨t, _⟩, here, rfl⟩ := found
    rw [List.length_map] at near
    rcases h.slots k t _ here near with there | ⟨pos, placed, _⟩
    · exact congrArg some there
    · rw [quiet] at placed
      cases placed

theorem program_of_quiet (h : Linear first s) (quiet : ∀ t, s.locals t = .idle) (t : T) :
    s.order.filter (fun r => r.1 = t) = s.built.filter (fun r => r.1 = t) := by
  have program := h.program t
  rw [quiet] at program
  simpa [pending] using program.symm

omit [Fintype T] in
theorem perm_of_programs {xs ys : List (T × BootIoEvent)}
    (same : ∀ t, xs.filter (fun r => r.1 = t) = ys.filter (fun r => r.1 = t)) : xs.Perm ys := by
  rw [List.perm_iff_count]
  intro r
  have mine := congrArg (List.count r) (same r.1)
  rwa [List.count_filter (by simp), List.count_filter (by simp)] at mine

theorem ids_distinct (h : Linear first s) (few : s.built.length < 2 ^ 64) :
    (s.built.map fun r => r.2.requestId).Nodup := by
  rw [h.ids]
  apply List.Nodup.map_on _ List.nodup_range
  intro i hi j hj same
  rw [List.mem_range] at hi hj
  have offset := congrArg UInt64.toNat ((UInt64.add_right_inj first).mp same)
  rwa [UInt64.toNat_ofNat_of_lt' (hi.trans few), UInt64.toNat_ofNat_of_lt' (hj.trans few)] at offset

/-- Whatever the interleaving, as long as nobody sleeps on a reservation until the buffer has
    come round and fewer than 2^32 events are recorded: once all calls have returned, the
    request ids are distinct, and GetEvents, with up to 65536 events to return, returns the
    latest ones in the order of their reservations, in which each thread's events stand as it
    made them. -/
theorem recorders_linearize (s : BootIoTrace) (actions : List (Action T))
    (prompt : Meets step Prompt (begin s) actions)
    (quiet : ∀ t, (run step (begin s) actions).locals t = .idle)
    (few : (run step (begin s) actions).built.length < 2 ^ 32) :
    ((run step (begin s) actions).built.map fun r => r.2.requestId).Nodup ∧
    (run step (begin s) actions).order.Perm (run step (begin s) actions).built ∧
    (∀ t, (run step (begin s) actions).order.filter (fun r => r.1 = t) =
      (run step (begin s) actions).built.filter fun r => r.1 = t) ∧
    ∀ (out : List BootIoEvent) (maxCount : UInt32), maxCount.toNat ≤ out.length →
      min (run step (begin s) actions).order.length maxCount.toNat ≤ 65536 →
      ∃ returned,
        returned.toNat = min (run step (begin s) actions).order.length maxCount.toNat ∧
        getEvents (run step (begin s) actions).trace out maxCount =
          some (returned, ((run step (begin s) actions).order.map Prod.snd).drop
            ((run step (begin s) actions).order.length - returned.toNat) ++
              out.drop returned.toNat) := by
  have h : Linear s.nextRequestId (run step (begin s) actions) :=
    always_run (invariant_always (linear_begin s) linear_step prompt)
  have program := program_of_quiet h quiet
  have perm := perm_of_programs program
  refine ⟨ids_distinct h (by omega), perm, program, ?_⟩
  intro out maxCount room fits
  have short : ((run step (begin s) actions).order.map Prod.snd).length < 2 ^ 32 := by
    rw [List.length_map, perm.length_eq]
    exact few
  obtain ⟨returned, filled, result, size, latest⟩ :=
    getEvents_returns (traced_of_quiet h quiet) short out maxCount room
  rw [List.length_map] at size latest
  exact ⟨returned, size, by rw [result, latest fits]⟩

end Invariant

def someCall : Call := ⟨.read, 7, 1, 20, 0, 0, 100⟩

def overlapped : List (Action Bool) :=
  [.recordIo false someCall, .recordIo true someCall, .advance true, .advance false, .advance false,
    .advance true, .advance true, .advance false]

theorem overlapped_prompt : Meets step Prompt (begin newTrace) overlapped := by
  simp [overlapped, Meets, Prompt, step, begin, call, reserve, store, finish, System.move]

theorem overlapped_quiet (t : Bool) : (run step (begin newTrace) overlapped).locals t = .idle := by
  cases t <;> rfl

theorem overlapped_linearizes :
    (run step (begin newTrace) overlapped).order =
        [(true, someCall.event 2), (false, someCall.event 1)] ∧
      ∃ returned, returned.toNat = 2 ∧
        getEvents (run step (begin newTrace) overlapped).trace [zeroEvent, zeroEvent] 2 =
          some (returned, [someCall.event 2, someCall.event 1]) := by
  obtain ⟨-, -, -, events⟩ :=
    recorders_linearize newTrace overlapped overlapped_prompt overlapped_quiet (by decide)
  have order : (run step (begin newTrace) overlapped).order =
      [(true, someCall.event 2), (false, someCall.event 1)] := rfl
  obtain ⟨returned, size, result⟩ :=
    events [zeroEvent, zeroEvent] 2 (by decide) (by rw [order]; decide)
  rw [order] at size result
  refine ⟨order, returned, size, ?_⟩
  rw [result, size]
  rfl

end TraceThreads
