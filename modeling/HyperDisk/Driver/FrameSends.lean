import HyperDisk.Driver.BlkDispatch
import HyperDisk.Driver.NetConnections
import HyperDisk.Driver.NetFrame
import HyperDisk.Foundations.PastRuns
import HyperDisk.Foundations.ThreadStates

/- The frames that the network driver makes (net_wsk.c, net_heartbeat.c). A sender looks at its
   connection without the lock and then draws a frame id with an interlocked increment, so
   other senders, and connects and disconnects, may come between. -/
namespace FrameSends
open StepRuns PastRuns ThreadStates WordCounters
open NetConnections (NetExtension initialNet Slot)
open NetFrame (HdNetFrameHeader hdMagic hdVersion)
open BlkDispatch (BlockRequest)

inductive Purpose where
  | block (request : BlockRequest) (dataLen : UInt32)
  | heartbeat (terminalId : UInt64)
  deriving DecidableEq

def header (frameId : UInt32) : Purpose → HdNetFrameHeader
  | .block request dataLen =>
    { magic := hdMagic
      version := hdVersion
      frameType := if request.isWrite ≠ 0 then 0x03 else 0x01
      flags := 0
      frameId := frameId
      payloadLen := dataLen
      imageId := request.imageId
      blockOffset := request.blockOffset
      blockCount := request.blockCount
      layerId := request.layerId
      reserved := (0, 0, 0) }
  | .heartbeat terminalId =>
    { magic := hdMagic
      version := hdVersion
      frameType := 0x10
      flags := 0
      frameId := frameId
      payloadLen := 0
      imageId := terminalId
      blockOffset := 0
      blockCount := 0
      layerId := 0
      reserved := (0, 0, 0) }

def usable (ext : NetExtension) (connIdx : UInt32) : Bool :=
  if h : connIdx.toNat < 64 then (ext.connections ⟨connIdx.toNat, h⟩).isActive else false

def nextFrame (ext : NetExtension) : NetExtension := { ext with nextFrameId := ext.nextFrameId + 1 }

def send (ext : NetExtension) (connIdx : UInt32) (purpose : Purpose) :
    NetConnections.Status × NetExtension × Option HdNetFrameHeader :=
  if usable ext connIdx then (.success, nextFrame ext,
    some (header (nextFrame ext).nextFrameId purpose))
  else (.invalidParameter, ext, none)

def sendBlockRequest (ext : NetExtension) (connIdx : UInt32) (request : BlockRequest)
    (dataLen : UInt32) : NetConnections.Status × NetExtension × Option HdNetFrameHeader :=
  send ext connIdx (.block request dataLen)

def sendHeartbeat (ext : NetExtension) (connIdx : UInt32) (terminalId : UInt64) :
    NetConnections.Status × NetExtension × Option HdNetFrameHeader :=
  send ext connIdx (.heartbeat terminalId)

def recvBlockResponse (ext : NetExtension) (connIdx : UInt32) : NetConnections.Status :=
  if usable ext connIdx then .success else .invalidParameter

/-- The senders between their check and their id, and the frames made so far with the thread
    and the connection of each. -/
structure System (T : Type) where
  ext : NetExtension
  checked : T → Option (UInt32 × Purpose)
  sent : List (T × UInt32 × HdNetFrameHeader)

inductive Action (T : Type) where
  | table (call : NetConnections.Call)
  | check (t : T) (connIdx : UInt32) (purpose : Purpose)
  | draw (t : T)

section Steps
variable {T : Type} [DecidableEq T]

def loaded : System T := ⟨initialNet, fun _ => none, []⟩

def changeTable (ext : NetExtension) : NetConnections.Call → NetExtension
  | .connect port => (NetConnections.connect ext port).2.2
  | .disconnect connIdx => (NetConnections.disconnect ext connIdx).2
  | .cleanup => NetConnections.cleanup ext

def step (s : System T) : Action T → System T
  | .table call => { s with ext := changeTable s.ext call }
  | .check t connIdx purpose =>
    match s.checked t with
    | none =>
      if usable s.ext connIdx then
        { s with checked := setLocal s.checked t (some (connIdx, purpose)) }
      else s
    | some _ => s
  | .draw t =>
    match s.checked t with
    | none => s
    | some (connIdx, purpose) =>
      ⟨nextFrame s.ext, setLocal s.checked t none,
        s.sent ++ [(t, connIdx, header (nextFrame s.ext).nextFrameId purpose)]⟩

theorem alone (s : System T) (t : T) (connIdx : UInt32) (purpose : Purpose)
    (free : s.checked t = none) :
    (run step s [.check t connIdx purpose, .draw t]).ext = (send s.ext connIdx purpose).2.1 := by
  by_cases ok : usable s.ext connIdx
  · simp [run, step, free, send, ok]
  · simp [run, step, free, send, ok]

@[simp] theorem header_frameId (frameId : UInt32) (purpose : Purpose) :
    (header frameId purpose).frameId = frameId := by
  cases purpose <;> rfl

theorem changeTable_nextFrameId (ext : NetExtension) (call : NetConnections.Call) :
    (changeTable ext call).nextFrameId = ext.nextFrameId := by
  have slot : ∀ (ext : NetExtension) i, (NetConnections.cleanupSlot ext i).nextFrameId =
      ext.nextFrameId := by
    intro ext i
    unfold NetConnections.cleanupSlot NetConnections.disconnect
    split_ifs <;> rfl
  have loop : ∀ (slots : List Slot) (ext : NetExtension),
      (slots.foldl NetConnections.cleanupSlot ext).nextFrameId = ext.nextFrameId := by
    intro slots
    induction slots with
    | nil => exact fun _ => rfl
    | cons i slots ih =>
      intro ext
      rw [List.foldl_cons, ih, slot]
  cases call with
  | connect port =>
    change (NetConnections.connect ext port).2.2.nextFrameId = ext.nextFrameId
    unfold NetConnections.connect
    split <;> rfl
  | disconnect connIdx =>
    change (NetConnections.disconnect ext connIdx).2.nextFrameId = ext.nextFrameId
    unfold NetConnections.disconnect
    split <;> rfl
  | cleanup => exact loop _ ext

structure Numbered (s : System T) : Prop where
  next : s.ext.nextFrameId = 1 + UInt32.ofNat s.sent.length
  ids : s.sent.map (fun f => f.2.2.frameId) = (List.range s.sent.length).map fun k =>
    2 + UInt32.ofNat k

theorem numbered_step (s : System T) (a : Action T) (h : Numbered s) : Numbered (step s a) := by
  cases a with
  | table call => exact ⟨(changeTable_nextFrameId s.ext call).trans h.next, h.ids⟩
  | check t connIdx purpose =>
    rw [step]
    split
    · split
      · exact ⟨h.next, h.ids⟩
      · exact h
    · exact h
  | draw t =>
    rw [step]
    split
    · exact h
    · have id : (nextFrame s.ext).nextFrameId = 2 + UInt32.ofNat s.sent.length := by
        rw [nextFrame, h.next, UInt32.add_comm, ← UInt32.add_assoc]
        rfl
      constructor
      · rw [id, List.length_append, List.length_singleton, UInt32.ofNat_add,
          UInt32.add_comm (UInt32.ofNat _), ← UInt32.add_assoc]
        rfl
      · rw [List.map_append, h.ids, List.length_append, List.length_singleton, List.range_succ,
          List.map_append]
        simp [id]

def Looked (actions : List (Action T)) (t : T) (connIdx : UInt32) (purpose : Purpose) : Prop :=
  ∃ k, actions[k]? = some (.check t connIdx purpose) ∧
    usable (run step loaded (actions.take k)).ext connIdx = true

theorem looked_append {actions : List (Action T)} {t : T} {connIdx : UInt32} {purpose : Purpose}
    (more : List (Action T)) (looked : Looked actions t connIdx purpose) :
    Looked (actions ++ more) t connIdx purpose := by
  obtain ⟨k, here, active⟩ := looked
  have inside := (List.getElem?_eq_some_iff.mp here).1
  refine ⟨k, ?_, ?_⟩
  · rw [List.getElem?_append_left inside]
    exact here
  · rw [List.take_append_of_le_length (Nat.le_of_lt inside)]
    exact active

theorem looked_now {before : List (Action T)} {t : T} {connIdx : UInt32} {purpose : Purpose}
    (active : usable (run step loaded before).ext connIdx = true) :
    Looked (before ++ [.check t connIdx purpose]) t connIdx purpose := by
  refine ⟨before.length, List.getElem?_concat_length, ?_⟩
  rw [List.take_left]
  exact active

structure Backed (actions : List (Action T)) (s : System T) : Prop where
  checked : ∀ t connIdx purpose, s.checked t = some (connIdx, purpose) →
    Looked actions t connIdx purpose
  sent : ∀ f ∈ s.sent, ∃ purpose, Looked actions f.1 f.2.1 purpose ∧
    f.2.2 = header f.2.2.frameId purpose

theorem backed_append {actions : List (Action T)} {s : System T} (more : List (Action T))
    (h : Backed actions s) : Backed (actions ++ more) s := by
  constructor
  · intro t connIdx purpose here
    exact looked_append more (h.checked t connIdx purpose here)
  · intro f made
    obtain ⟨purpose, looked, same⟩ := h.sent f made
    exact ⟨purpose, looked_append more looked, same⟩

theorem backed_run (actions : List (Action T)) : Backed actions (run step loaded actions) := by
  apply history_invariant (I := Backed)
  · constructor
    · intro t connIdx purpose checked
      cases checked
    · intro f sent
      cases sent
  · intro before a h
    have kept : Backed (before ++ [a]) (run step loaded before) := backed_append [a] h
    cases a with
    | table call => exact ⟨kept.checked, kept.sent⟩
    | check t connIdx purpose =>
      rw [step]
      split
      · split
        · rename_i free ok
          refine ⟨?_, kept.sent⟩
          intro u idx other here
          rcases setLocal_cases here with ⟨rfl, now⟩ | earlier
          · cases now
            exact looked_now ok
          · exact kept.checked u idx other earlier
        · exact kept
      · exact kept
    | draw t =>
      rw [step]
      split
      · exact kept
      · rename_i idx purpose here
        constructor
        · intro u idx other there
          rcases setLocal_cases there with ⟨-, now⟩ | earlier
          · cases now
          · exact kept.checked u idx other earlier
        · intro f made
          rcases List.mem_append.mp made with earlier | now
          · exact kept.sent f earlier
          · rw [List.mem_singleton.mp now]
            exact ⟨purpose, kept.checked t idx purpose here, by rw [header_frameId]⟩

/-- However senders, connects and disconnects interleave, the frames made since the driver was
    loaded are numbered 2, 3, 4, ... in the order in which they draw their ids; they are told
    apart by their ids exactly up to 2^32 of them; and each one goes back to a look of its own
    sender that found the connection active and was for what the frame says. -/
theorem frame_ids (actions : List (Action T)) :
    (∀ k f, (run step loaded actions).sent[k]? = some f → f.2.2.frameId = 2 + UInt32.ofNat k) ∧
    (((run step loaded actions).sent.map fun f => f.2.2.frameId).Nodup ↔
      (run step loaded actions).sent.length ≤ 2 ^ 32) ∧
    ∀ f ∈ (run step loaded actions).sent, ∃ k purpose,
      actions[k]? = some (.check f.1 f.2.1 purpose) ∧
      usable (run step loaded (actions.take k)).ext f.2.1 = true ∧
      f.2.2 = header f.2.2.frameId purpose := by
  have h : Numbered (run step (loaded : System T) actions) :=
    invariant_run actions ⟨rfl, rfl⟩ numbered_step
  refine ⟨?_, ?_, ?_⟩
  · intro k f here
    have inside := (List.getElem?_eq_some_iff.mp here).1
    have ids := congrArg (fun l => l[k]?) h.ids
    simp only [List.getElem?_map, here, List.getElem?_range inside, Option.map_some,
      Option.some.injEq] at ids
    exact ids
  · rw [h.ids]
    exact nodup_values_iff 2 _
  · intro f made
    obtain ⟨purpose, ⟨k, here, active⟩, same⟩ := (backed_run actions).sent f made
    exact ⟨k, purpose, here, active, same⟩

end Steps

end FrameSends
