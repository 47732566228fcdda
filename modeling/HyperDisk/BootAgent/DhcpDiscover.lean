import HyperDisk.BootAgent.BootConfig
import HyperDisk.BootAgent.DhcpOptions

/- Discover of the DHCP client: the packet it sends, the one answer it waits for, and what the
   options of the answer do to the configuration. `none` is an access outside a buffer. -/
namespace DhcpDiscover
open LittleEndian DecimalText DhcpOptions BootConfig

def packetSize : Nat := 240

def discoverPacket (xid : UInt32) (mac : Vector UInt8 6) : Bytes :=
  [1, 1, 6, 0] ++ store 4 xid.toNat ++ [0, 0, 0x80, 0] ++ List.replicate 16 0 ++ mac.toList ++
    List.replicate 202 0 ++ [0x63, 0x82, 0x53, 0x63] ++
    ([53, 1, 1, 12, 8] ++ (ascii "HYPERDISK".toList).take 8 ++ [55, 4, 1, 3, 6, 60, 255])

structure Network where
  wsaStarts : Bool
  socketOpens : Bool
  binds : Bool
  sends : Bool
  received : Option Bytes
  fits : ∀ bytes ∈ received, bytes.length ≤ 1500

def inetNtop (data : Bytes) : Option Bytes :=
  match data with
  | a :: b :: c :: d :: _ =>
    some (decimal a.toNat ++ 46 :: decimal b.toNat ++ 46 :: decimal c.toNat ++
      46 :: decimal d.toNat)
  | _ => none

/-- The switch over the code of an option. The addresses of codes 1 and 3 are only logged. -/
def applyOption (c : Config) (opt : DhcpOption) : Option Config :=
  if opt.code = 54 then
    if 4 ≤ opt.length then do
      let ip ← inetNtop opt.data
      let c := { c with serverAddress := ip }
      some (if c.primaryServer = [] then { c with primaryServer := ip } else c)
    else some c
  else if opt.code = 67 then some { c with bootScriptUrl := opt.data }
  else if opt.code = 1 ∨ opt.code = 3 then
    if 4 ≤ opt.length then do
      let _ ← inetNtop opt.data
      some c
    else some c
  else some c

def readOffer (c : Config) (bytes : Bytes) : Option (Bool × Config) :=
  if bytes.length < packetSize then some (false, c)
  else do
    let recvBuf := bytes ++ List.replicate (1500 - bytes.length) 0
    let op ← recvBuf[0]?
    if op ≠ 2 then some (false, c)
    else do
      let options ← parseOptions (recvBuf.drop packetSize) (bytes.length - packetSize)
      let c ← options.foldlM applyOption c
      some (c.serverAddress ≠ [], c)

def discover (c : Config) (net : Network) : Option (Bool × Config) :=
  if ¬ net.wsaStarts then some (false, c)
  else if ¬ net.socketOpens then some (false, c)
  else if ¬ net.binds then some (false, c)
  else if ¬ net.sends then some (false, c)
  else
    match net.received with
    | none => some (false, c)
    | some bytes => if bytes = [] then some (false, c) else readOffer c bytes

def servers (options : List DhcpOption) : List Bytes :=
  options.filterMap fun opt => if opt.code = 54 ∧ 4 ≤ opt.length then inetNtop opt.data else none

def scripts (options : List DhcpOption) : List Bytes :=
  options.filterMap fun opt => if opt.code = 67 then some opt.data else none

/-- What the options of an answer stand for: the last server and the last boot file count, but the
    first server for a primary server that is not set yet. -/
def taken (c : Config) (options : List DhcpOption) : Config :=
  { c with
    serverAddress := (servers options).getLastD c.serverAddress
    primaryServer := if c.primaryServer = [] then (servers options).headD [] else c.primaryServer
    bootScriptUrl := (scripts options).getLastD c.bootScriptUrl }

structure Heard (net : Network) (header options : Bytes) : Prop where
  up : net.wsaStarts ∧ net.socketOpens ∧ net.binds ∧ net.sends
  received : net.received = some (header ++ options)
  whole : header.length = packetSize
  reply : header[0]? = some 2

theorem parseLoop_spare (rest spare : Bytes) (fuel offset : Nat) :
    parseLoop (rest ++ spare) rest.length fuel offset = parseLoop rest rest.length fuel offset := by
  induction fuel generalizing offset with
  | zero => rfl
  | succ fuel ih =>
    rw [parseLoop, parseLoop]
    by_cases more : offset + 2 ≤ rest.length
    · have first : (rest ++ spare)[offset]? = rest[offset]? := List.getElem?_append_left (by omega)
      have second : (rest ++ spare)[offset + 1]? = rest[offset + 1]? :=
        List.getElem?_append_left (by omega)
      rw [if_pos more, if_pos more, first, second]
      apply bind_congr
      intro code
      split
      · rfl
      · split
        · exact ih (offset + 1)
        · apply bind_congr
          intro length
          split
          · rfl
          · rename_i inside
            rw [slice_eq_some (by rw [List.length_append]; omega), slice_eq_some (by omega),
              List.drop_append_of_le_length (by omega),
              List.take_append_of_le_length (by rw [List.length_drop]; omega), ih]
    · rw [if_neg more, if_neg more]

theorem parse_received {header options : Bytes} (whole : header.length = packetSize) :
    parseOptions ((header ++ options ++ List.replicate (1500 - (header ++ options).length) 0).drop
      packetSize)
      ((header ++ options).length - packetSize) = parseOptions options options.length := by
  have left : (header ++ options).length - packetSize = options.length := by
    rw [List.length_append, whole, Nat.add_sub_cancel_left]
  rw [left, List.append_assoc, ← whole, List.drop_left]
  exact parseLoop_spare options _ _ 0

theorem inetNtop_some {data : Bytes} (long : 4 ≤ data.length) :
    ∃ ip, inetNtop data = some ip ∧ ip ≠ [] := by
  match data, long with
  | a :: b :: c :: d :: rest, _ =>
    refine ⟨_, rfl, ?_⟩
    simp

theorem taken_server (c : Config) {opt : DhcpOption} {ip : Bytes}
    (identifies : opt.code = 54 ∧ 4 ≤ opt.length) (address : inetNtop opt.data = some ip)
    (nonempty : ip ≠ []) (rest : List DhcpOption) :
    taken { c with serverAddress := ip, primaryServer := if c.primaryServer = [] then ip
      else c.primaryServer }
      rest = taken c (opt :: rest) := by
  have first : servers (opt :: rest) = ip :: servers rest :=
    List.filterMap_cons_some (by rw [if_pos identifies, address])
  have other : scripts (opt :: rest) = scripts rest :=
    List.filterMap_cons_none (by rw [if_neg (by rw [identifies.1]; decide)])
  unfold taken
  rw [first, other, List.getLastD_cons, List.headD_cons]
  by_cases unset : c.primaryServer = []
  · simp [unset, nonempty]
  · simp [unset]

theorem taken_script (c : Config) {opt : DhcpOption} (names : opt.code = 67)
    (rest : List DhcpOption) :
    taken { c with bootScriptUrl := opt.data } rest = taken c (opt :: rest) := by
  have other : servers (opt :: rest) = servers rest :=
    List.filterMap_cons_none (by rw [if_neg (by simp [names])])
  have first : scripts (opt :: rest) = opt.data :: scripts rest :=
    List.filterMap_cons_some (by rw [if_pos names])
  unfold taken
  rw [first, other, List.getLastD_cons]

theorem taken_other (c : Config) {opt : DhcpOption} (silent : ¬ (opt.code = 54 ∧ 4 ≤ opt.length))
    (nameless : opt.code ≠ 67) (rest : List DhcpOption) : taken c rest = taken c (opt :: rest) := by
  have same : servers (opt :: rest) = servers rest :=
    List.filterMap_cons_none (by rw [if_neg silent])
  have kept : scripts (opt :: rest) = scripts rest :=
    List.filterMap_cons_none (by rw [if_neg nameless])
  unfold taken
  rw [same, kept]

theorem applyOption_taken (c : Config) {opt : DhcpOption}
    (sized : opt.length.toNat = opt.data.length) (rest : List DhcpOption) :
    ∃ next, applyOption c opt = some next ∧ taken next rest = taken c (opt :: rest) := by
  have address : 4 ≤ opt.length → ∃ ip, inetNtop opt.data = some ip ∧ ip ≠ [] := by
    intro long
    apply inetNtop_some
    rw [← sized]
    exact UInt8.le_iff_toNat_le.mp long
  unfold applyOption
  by_cases server : opt.code = 54
  · rw [if_pos server]
    by_cases long : 4 ≤ opt.length
    · obtain ⟨ip, found, nonempty⟩ := address long
      refine ⟨_, ?_, taken_server c ⟨server, long⟩ found nonempty rest⟩
      rw [if_pos long, found]
      by_cases unset : c.primaryServer = []
      · simp [unset]
      · simp [unset]
    · exact ⟨c, if_neg long, taken_other c (fun both => long both.2) (by rw [server]; decide) rest⟩
  · rw [if_neg server]
    by_cases script : opt.code = 67
    · exact ⟨_, if_pos script, taken_script c script rest⟩
    · refine ⟨c, ?_, taken_other c (fun both => server both.1) script rest⟩
      rw [if_neg script]
      split
      · split
        · rename_i long
          obtain ⟨ip, found, -⟩ := address long
          rw [found]
          rfl
        · rfl
      · rfl

theorem fold_taken (c : Config) {options : List DhcpOption}
    (sized : ∀ opt ∈ options, opt.length.toNat = opt.data.length) :
    options.foldlM applyOption c = some (taken c options) := by
  induction options generalizing c with
  | nil =>
    have unchanged : (if c.primaryServer = [] then [] else c.primaryServer) = c.primaryServer := by
      split
      · rename_i unset
        exact unset.symm
      · rfl
    change some c = some (taken c [])
    unfold taken
    exact congrArg (fun primary => some { c with primaryServer := primary }) unchanged.symm
  | cons opt rest ih =>
    rw [List.forall_mem_cons] at sized
    obtain ⟨next, applied, same⟩ := applyOption_taken c sized.1 rest
    rw [List.foldlM_cons, applied, Option.bind_eq_bind, Option.bind_some, ih next sized.2, same]

theorem readOffer_heard (c : Config) {header : Bytes} (whole : header.length = packetSize)
    (reply : header[0]? = some 2) (fields : List (Nat × OptionField)) (pads : Nat) {rest : Bytes}
    (stops : Stops rest) :
    readOffer c (header ++ (encodeOptions fields ++ (List.replicate pads 0 ++ rest))) =
      some (decide ((taken c (parsed fields)).serverAddress ≠ []), taken c (parsed fields)) := by
  have options : parseOptions (encodeOptions fields ++ (List.replicate pads 0 ++ rest))
      (encodeOptions fields ++ (List.replicate pads 0 ++ rest)).length = some (parsed fields) := by
    apply parse_encoded fields pads stops
    rw [List.length_append, List.length_append, List.length_replicate]
    omega
  have sized : ∀ opt ∈ parsed fields, opt.length.toNat = opt.data.length := by
    intro opt member
    obtain ⟨field, -, rfl⟩ := List.mem_map.mp member
    exact parsed_length field.2
  generalize encodeOptions fields ++ (List.replicate pads 0 ++ rest) = bytes at options
  have first : (header ++ bytes ++ List.replicate (1500 - (header ++ bytes).length) 0)[0]? =
      some 2 := by
    rw [List.append_assoc, List.getElem?_append_left (by rw [whole]; decide), reply]
  unfold readOffer
  rw [if_neg (by rw [List.length_append, whole]; omega)]
  simp only [first, parse_received whole, options, fold_taken c sized,
    Option.bind_eq_bind, Option.bind_some, ne_eq, not_true_eq_false, if_false]

theorem readOffer_other (c : Config) {bytes : Bytes}
    (other : ¬ ∃ header options, bytes = header ++ options ∧ header.length = packetSize ∧
      header[0]? = some 2) :
    readOffer c bytes = some (false, c) := by
  unfold readOffer
  by_cases short : bytes.length < packetSize
  · rw [if_pos short]
  · have positive : 0 < bytes.length := Nat.lt_of_lt_of_le (by decide) (Nat.not_lt.mp short)
    have differs : bytes[0] ≠ 2 := by
      intro reply
      apply other
      refine ⟨bytes.take packetSize, bytes.drop packetSize,
        (List.take_append_drop _ _).symm, ?_, ?_⟩
      · exact List.length_take_of_le (Nat.not_lt.mp short)
      · rw [List.getElem?_take_of_lt (by decide), List.getElem?_eq_getElem positive, reply]
    rw [if_neg short]
    simp only [List.getElem?_append_left positive, List.getElem?_eq_getElem positive,
      Option.bind_eq_bind, Option.bind_some, differs, ne_eq, not_false_eq_true, if_true]

theorem discover_down (c : Config) {net : Network}
    (down : ¬ (net.wsaStarts ∧ net.socketOpens ∧ net.binds ∧ net.sends)) :
    discover c net = some (false, c) := by
  unfold discover
  by_contra other
  apply down
  simp only [ite_eq_left_iff, not_forall] at other
  obtain ⟨wsa, socket, binds, sends, -⟩ := other
  exact ⟨not_not.mp wsa, not_not.mp socket, not_not.mp binds, not_not.mp sends⟩

theorem discover_up (c : Config) {net : Network}
    (up : net.wsaStarts ∧ net.socketOpens ∧ net.binds ∧ net.sends) {bytes : Bytes}
    (received : net.received = some bytes) (some_bytes : bytes ≠ []) :
    discover c net = readOffer c bytes := by
  obtain ⟨wsa, socket, binds, sends⟩ := up
  unfold discover
  simp only [wsa, socket, binds, sends, received, some_bytes, not_true_eq_false, if_false]

theorem discover_silent (c : Config) {net : Network}
    (silent : ¬ ∃ header options, Heard net header options) : discover c net = some (false, c) := by
  by_cases up : net.wsaStarts ∧ net.socketOpens ∧ net.binds ∧ net.sends
  · cases received : net.received with
    | none => simp [discover, received]
    | some bytes =>
      by_cases empty : bytes = []
      · simp [discover, received, empty]
      · rw [discover_up c up received empty]
        apply readOffer_other
        rintro ⟨header, options, split, whole, reply⟩
        exact silent ⟨header, options, up, split ▸ received, whole, reply⟩
  · exact discover_down c up

theorem discover_heard (c : Config) {net : Network} {header options : Bytes}
    (heard : Heard net header options) :
    ∃ fields pads rest, options = encodeOptions fields ++ (List.replicate pads 0 ++ rest) ∧
      Stops rest ∧
      discover c net =
        some (decide ((taken c (parsed fields)).serverAddress ≠ []), taken c (parsed fields)) := by
  obtain ⟨up, received, whole, reply⟩ := heard
  obtain ⟨fields, pads, rest, split, stops⟩ := buffer_cases options
  refine ⟨fields, pads, rest, split, stops, ?_⟩
  rw [split] at received
  rw [discover_up c up received, readOffer_heard c whole reply fields pads stops]
  intro empty
  simp [(List.append_eq_nil_iff.mp empty).1] at reply

/-- Discover takes the configuration from the options of the first packet that comes in, if it is a
    whole reply, whatever its transaction id, its addressee and its magic say; the options are those
    that are all there. It succeeds if there is a server address then, also an earlier one. Without
    such a packet it fails and changes nothing. -/
theorem offer_taken (c : Config) (net : Network) :
    ((¬ ∃ header options, Heard net header options) → discover c net = some (false, c)) ∧
    ∀ header options, Heard net header options →
      ∃ fields pads rest, options = encodeOptions fields ++ (List.replicate pads 0 ++ rest) ∧
        Stops rest ∧
        discover c net =
          some (decide ((taken c (parsed fields)).serverAddress ≠ []), taken c (parsed fields)) :=
  ⟨discover_silent c, fun _ _ => discover_heard c⟩

theorem inetNtop_length {data ip : Bytes} (address : inetNtop data = some ip) : ip.length ≤ 15 := by
  have byte : ∀ b : UInt8, (decimal b.toNat).length ≤ 3 := by
    intro b
    exact decimal_length_le (by decide) (b.toNat_lt.trans (by decide))
  match data, address with
  | a :: b :: c :: d :: rest, address =>
    cases address
    have first := byte a
    have second := byte b
    have third := byte c
    have fourth := byte d
    simp only [List.length_append, List.length_cons]
    omega

theorem discover_server (c : Config) (net : Network) :
    ∃ found next, discover c net = some (found, next) ∧ (found = true → next.serverAddress ≠ []) ∧
      (next.serverAddress = c.serverAddress ∨ next.serverAddress.length ≤ 15) ∧
      next = { c with
        serverAddress := next.serverAddress
        primaryServer := next.primaryServer
        bootScriptUrl := next.bootScriptUrl } := by
  by_cases heard : ∃ header options, Heard net header options
  · obtain ⟨header, options, heard⟩ := heard
    obtain ⟨fields, pads, rest, -, -, done⟩ := discover_heard c heard
    refine ⟨_, _, done, by simp, ?_, rfl⟩
    cases last : (servers (parsed fields)).getLast? with
    | none =>
      left
      simp [taken, List.getLastD_eq_getLast?, last]
    | some ip =>
      right
      obtain ⟨opt, -, address⟩ := List.mem_filterMap.mp (List.mem_of_getLast? last)
      have short : ip.length ≤ 15 := by
        split at address
        · exact inetNtop_length address
        · cases address
      simpa [taken, List.getLastD_eq_getLast?, last] using short
  · exact ⟨_, _, discover_silent c heard, by simp, .inl rfl, rfl⟩

theorem discoverPacket_options (xid : UInt32) (mac : Vector UInt8 6) :
    (discoverPacket xid mac).length = packetSize + 20 ∧
    parseOptions ((discoverPacket xid mac).drop packetSize) 20 =
      some [⟨53, 1, [1]⟩, ⟨12, 8, ascii "HYPERDIS".toList⟩, ⟨55, 4, [1, 3, 6, 60]⟩] := by
  have header : ∀ xid : Nat, ([1, 1, 6, 0] ++ store 4 xid ++ [0, 0, 0x80, 0] ++
      List.replicate 16 0 ++ mac.toList ++
      List.replicate 202 0 ++ [0x63, 0x82, 0x53, 0x63]).length = packetSize := by
    intro xid
    simp only [List.length_append, List.length_replicate, Vector.length_toList]
    rfl
  unfold discoverPacket
  constructor
  · rw [List.length_append, header]
    rfl
  · rw [List.drop_left' (header _)]
    decide

end DhcpDiscover
