import HyperDisk.Foundations.DecimalText
import HyperDisk.Foundations.Markers
import HyperDisk.Foundations.PrintBuffers

/- The URLs of the HTTP boot client, and the request it sends for one. `none` is an exception that
   std::stoi throws and nobody catches, or a read outside the request buffer. -/
namespace BootUrls
open LittleEndian DecimalText Markers PrintBuffers

def separator : Bytes := [58, 47, 47]

structure Target where
  host : Bytes
  port : Int
  path : Bytes
  deriving DecidableEq, Repr

def parseAuthority (authority path : Bytes) : Option (Option Target) :=
  match find [58] authority 0 with
  | some colon => do
    let port ← stoi (authority.drop (colon + 1))
    some (some ⟨authority.take colon, port, path⟩)
  | none => some (some ⟨authority, 80, path⟩)

/-- ParseUrl; `some none` is false. -/
def parseUrl (url : Bytes) : Option (Option Target) :=
  match find separator url 0 with
  | none => some none
  | some found =>
    let pos := found + 3
    match find [47] url pos with
    | some slash => parseAuthority ((url.drop pos).take (slash - pos)) (url.drop slash)
    | none => parseAuthority (url.drop pos) [47]

structure Url where
  scheme : Bytes
  host : Bytes
  port : Option Bytes
  path : Option Bytes
  plainScheme : ¬ separator <:+: scheme
  plainHost : 47 ∉ host ∧ 58 ∉ host
  plainPort : ∀ digits ∈ port, 47 ∉ digits

def marked (mark : UInt8) : Option Bytes → Bytes
  | some part => mark :: part
  | none => []

def Url.authority (u : Url) : Bytes := u.host ++ marked 58 u.port

def Url.text (u : Url) : Bytes := u.scheme ++ separator ++ (u.authority ++ marked 47 u.path)

def Url.portNumber (u : Url) : Option Int :=
  match u.port with
  | some digits => stoi digits
  | none => some 80

theorem separator_found {scheme : Bytes} (plain : ¬ separator <:+: scheme) (rest : Bytes) :
    (scheme ++ separator ++ rest).dropInfix? separator = some (scheme, rest) := by
  induction scheme with
  | nil => exact split_here rfl
  | cons a scheme ih =>
    have other : ¬ separator <+: a :: (scheme ++ separator ++ rest) := by
      intro starts
      match scheme, starts with
      | [], starts => simp [separator] at starts
      | [b], starts => simp [separator] at starts
      | b :: c :: scheme, starts =>
        apply plain
        simp only [separator, List.cons_append, List.cons_prefix_cons] at starts
        obtain ⟨rfl, rfl, rfl, -⟩ := starts
        exact List.infix_append [] separator scheme
    rw [List.cons_append, List.cons_append, split_later other, ih]
    · rfl
    · intro inside
      exact plain (inside.trans (List.suffix_cons a scheme).isInfix)

theorem parse_separated {scheme : Bytes} (plain : ¬ separator <:+: scheme) (rest : Bytes) :
    find separator (scheme ++ separator ++ rest) 0 = some scheme.length := by
  rw [find, List.drop_zero, separator_found plain]
  simp

theorem Url.authority_plain (u : Url) : 47 ∉ u.authority := by
  unfold Url.authority marked
  rw [List.mem_append, not_or]
  refine ⟨u.plainHost.1, ?_⟩
  cases port : u.port with
  | none => simp
  | some digits => simp [u.plainPort digits port]

theorem parse_authority (u : Url) (path : Bytes) :
    parseAuthority u.authority path = u.portNumber.map fun port => some ⟨u.host, port, path⟩ := by
  unfold parseAuthority Url.authority Url.portNumber
  cases u.port with
  | none =>
    have missing :=
      find_no_symbol (show 58 ∉ u.host ++ marked 58 none by simpa [marked] using u.plainHost.2) []
    rw [List.nil_append, List.length_nil] at missing
    rw [missing]
    simp [marked]
  | some digits =>
    have found := find_symbol u.plainHost.2 [] digits
    rw [List.nil_append, List.length_nil, Nat.zero_add] at found
    rw [marked, found]
    simp [Option.map_eq_bind]

theorem parse_text (u : Url) :
    parseUrl u.text = u.portNumber.map fun port => some ⟨u.host, port, 47 :: u.path.getD []⟩ := by
  have front : (u.scheme ++ separator).length = u.scheme.length + 3 := by simp [separator]
  unfold parseUrl Url.text
  rw [parse_separated u.plainScheme]
  simp only [← front, List.drop_left]
  cases u.path with
  | none =>
    rw [marked, List.append_nil, find_no_symbol u.authority_plain]
    exact parse_authority u [47]
  | some path =>
    rw [marked, find_symbol u.authority_plain]
    simp only [Nat.add_sub_cancel_left, List.take_left, ← List.drop_drop, List.drop_left]
    exact parse_authority u (47 :: path)

theorem marked_split (mark : UInt8) (text : Bytes) :
    ∃ before part, text = before ++ marked mark part ∧ mark ∉ before := by
  by_cases inside : mark ∈ text
  · obtain ⟨before, after, split, first⟩ := List.eq_append_cons_of_mem inside
    exact ⟨before, some after, split, first⟩
  · exact ⟨text, none, (List.append_nil text).symm, inside⟩

theorem url_cases {url : Bytes} (inside : separator <:+: url) : ∃ u : Url, url = u.text := by
  obtain ⟨scheme, rest, found⟩ := split_exists inside
  obtain ⟨authority, path, split, noSlash⟩ := marked_split 47 rest
  obtain ⟨host, port, parts, noColon⟩ := marked_split 58 authority
  have plainHost : 47 ∉ host := fun slash => noSlash (parts ▸ List.mem_append_left _ slash)
  have plainPort : ∀ digits ∈ port, 47 ∉ digits := by
    rintro digits rfl slash
    exact noSlash (parts ▸ List.mem_append_right _ (List.mem_cons_of_mem _ slash))
  have plainScheme : ¬ separator <:+: scheme := split_first (List.cons_ne_nil _ _) found
  have whole : url = scheme ++ separator ++ (host ++ marked 58 port ++ marked 47 path) := by
    rw [split_eq found, split, parts]
  exact ⟨⟨scheme, host, port, path, plainScheme, ⟨plainHost, noColon⟩, plainPort⟩, whole⟩

/-- ParseUrl refuses exactly what has no separator. Everything else is a scheme, a host, an optional
    port and an optional path, and these are what it returns; it throws when the text behind the
    first colon of the authority does not start with an int, and a port is not checked further. -/
theorem url_reading :
    (∀ url, parseUrl url = some none ↔ ¬ separator <:+: url) ∧
    (∀ url, separator <:+: url → ∃ u : Url, url = u.text) ∧
    (∀ u : Url, parseUrl u.text = u.portNumber.map fun port =>
      some ⟨u.host, port, 47 :: u.path.getD []⟩) ∧
    ∀ (u : Url) (n : Nat), u.port = some (decimal n) →
      parseUrl u.text = if n < 2 ^ 31 then some (some ⟨u.host, n, 47 :: u.path.getD []⟩)
        else none := by
  refine ⟨?_, fun url => url_cases, parse_text, ?_⟩
  · intro url
    constructor
    · intro refused inside
      obtain ⟨u, rfl⟩ := url_cases inside
      rw [parse_text] at refused
      cases port : u.portNumber with
      | none => simp [port] at refused
      | some n => simp [port] at refused
    · intro missing
      rw [parseUrl, find, List.drop_zero, split_missing missing]
      rfl
  · intro u n given
    have reads : u.portNumber = if n < 2 ^ 31 then some (n : Int) else none := by
      have read := stoi_decimal n [] (by simp)
      rw [List.append_nil] at read
      rw [Url.portNumber, given]
      exact read
    rw [parse_text, reads]
    split
    · rfl
    · rfl

def requestText (host path : Bytes) : Bytes :=
  ascii "GET ".toList ++ path ++ ascii " HTTP/1.1\r\nHost: ".toList ++ host ++
    ascii "\r\nConnection: close\r\n\r\n".toList

def sendRequest (req : Vector UInt8 2048) (target : Target) : Option Bytes :=
  printAndSend req.toList 2048 (requestText (cString target.host) (cString target.path))

theorem requestText_length (host path : Bytes) :
    (requestText host path).length = host.length + path.length + 44 := by
  simp [requestText, ascii]
  omega

/-- The request goes out whole for a host and a path of 2003 bytes together, whatever the buffer
    held before. One byte more and its last byte is a NUL, and after that send reads behind the
    buffer. -/
theorem request_goes_out (req : Vector UInt8 2048) (target : Target) :
    sendRequest req target =
      let text := requestText (cString target.host) (cString target.path)
      let long := (cString target.host).length + (cString target.path).length
      if long ≤ 2003 then some text
      else if long = 2004 then some (text.dropLast ++ [0])
      else none := by
  simp only
  generalize parts : (cString target.host).length + (cString target.path).length = long
  have length := requestText_length (cString target.host) (cString target.path)
  rw [sendRequest, printAndSend_eq (by simp) (by decide), List.dropLast_eq_take, length, parts]
  by_cases fits : long ≤ 2003
  · rw [if_pos fits, if_pos (by omega)]
  · rw [if_neg fits, if_neg (by omega)]
    by_cases last : long = 2004
    · rw [if_pos last, if_pos (by omega), last]
    · rw [if_neg last, if_neg (by omega)]

end BootUrls
