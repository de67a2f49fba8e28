import LetsFlutSsh.Lib.IpText

/-!
# A SOCKS5 client of a dynamic forward

`portforward/driver.rs`: the handshake over the bytes that a client sends, and the copy of what follows it.

* `handleSocks5Client` : the code, with what the world answers (`World`);
* `Address`, `Starts` : a greeting and a request at the head of a stream;
* `socks5_iff` : which streams are treated by the grammar with a greeting that offers `NO_AUTH`.
-/

namespace LetsFlutSsh.Forward
open Lib List

/-- `Error`. -/
inductive Halt where
  | transport (text : String)
  | io (text : String)

/-- `std::io::ErrorKind`, as far as it matters here. -/
inductive ErrorKind where
  | connectionReset
  | connectionAborted
  | unexpectedEof
  | brokenPipe
  | other

structure IoError where
  kind : ErrorKind
  text : String

/-- What the socket, the session and the channel answer. -/
structure World where
  /-- The write of the method ack. -/
  ack : Except IoError Unit
  channel : Except Halt Unit
  /-- The write of the last reply. -/
  reply : Except IoError Unit
  /-- The pieces in which the rest of a stream is read. -/
  reads : Bytes → List Bytes
  whole : ∀ rest, (reads rest).flatten = rest
  fits : ∀ rest, ∀ piece ∈ reads rest, 0 < piece.length ∧ piece.length ≤ 16 * 1024
  /-- The read after the last piece. -/
  readEnd : Except IoError Unit
  /-- A write of a piece that fails, with what it left in the channel. -/
  writes : Nat → Option (Nat × IoError)
  /-- The other direction. -/
  downstream : Except IoError Unit

/-- What a client got, which channel was opened for it, and what went into the channel. -/
structure Handled where
  sent : Bytes
  opened : Option (String × Nat)
  forwarded : Bytes
  result : Except Halt Unit

/-! ## The code -/

/-- What a client that is turned away still gets. -/
structure Refusal where
  sent : Bytes
  halt : Halt

/-- `read_exact`. -/
def readField (n : Nat) (text : String) (stream : Bytes) : Except Refusal (Bytes × Bytes) :=
  match readExact n stream with
  | some p => .ok p
  | none => .error ⟨[], .transport (text ++ ": early eof")⟩

/-- `socks5_fail`. -/
def failReply (rep : UInt8) : Bytes := [0x05, rep, 0x00, 0x01, 0x00, 0x00, 0x00, 0x00, 0x00, 0x00]

def methodAck : Bytes := [0x05, 0x00]

def successReply : Bytes := [0x05, 0x00, 0x00, 0x01, 0x00, 0x00, 0x00, 0x00, 0x00, 0x00]

/-- `((hi as u16) << 8) | lo as u16`. -/
def word (hi lo : UInt8) : UInt16 := hi.toUInt16 <<< 8 ||| lo.toUInt16

def formatIpv4 (addr : Bytes) : String := String.ofList (['.'].intercalate (addr.map fun b => Nat.toDigits 10 b.toNat))

def wordsOf : Bytes → List UInt16
  | hi :: lo :: rest => word hi lo :: wordsOf rest
  | _ => []

def formatIpv6 (bytes : Bytes) : String :=
  String.ofList ([':'].intercalate ((wordsOf bytes).map fun w => Nat.toDigits 16 w.toNat))

/-- The greeting, up to the list of methods; the list is not looked at. -/
def readGreeting (stream : Bytes) : Except Refusal Bytes := do
  let (greeting, stream) ← readField 2 "socks5 greeting" stream
  if greeting.getD 0 0 ≠ 0x05 then .error ⟨failReply 0x07, .io "socks5: bad version in greeting"⟩
  else do
    let (_, stream) ← readField (greeting.getD 1 0).toNat "socks5 methods" stream
    .ok stream

def readHost (atyp : UInt8) (stream : Bytes) : Except Refusal (String × Bytes) :=
  if atyp = 0x01 then do
    let (addr, stream) ← readField 4 "socks5 ipv4" stream
    .ok (formatIpv4 addr, stream)
  else if atyp = 0x03 then do
    let (len, stream) ← readField 1 "socks5 domain len" stream
    let (domain, stream) ← readField (len.getD 0 0).toNat "socks5 domain" stream
    match fromUtf8 domain with
    | some host => .ok (host, stream)
    | none => .error ⟨[], .io "socks5: domain not utf-8"⟩
  else if atyp = 0x04 then do
    let (addr, stream) ← readField 16 "socks5 ipv6" stream
    .ok (formatIpv6 addr, stream)
  else .error ⟨failReply 0x08, .io "socks5: unsupported address type"⟩

def readRequest (stream : Bytes) : Except Refusal (String × Nat × Bytes) := do
  let (head, stream) ← readField 4 "socks5 req head" stream
  if head.getD 0 0 ≠ 0x05 then .error ⟨failReply 0x07, .io "socks5: bad version in request"⟩
  else if head.getD 1 0 ≠ 0x01 then .error ⟨failReply 0x07, .io "socks5: only CONNECT supported"⟩
  else do
    let (host, stream) ← readHost (head.getD 3 0) stream
    let (port, stream) ← readField 2 "socks5 port" stream
    .ok (host, (word (port.getD 0 0) (port.getD 1 0)).toNat, stream)

def closesRead : ErrorKind → Bool
  | .connectionReset | .connectionAborted | .unexpectedEof | .brokenPipe => true
  | .other => false

def closesWrite : ErrorKind → Bool
  | .connectionReset | .connectionAborted | .brokenPipe => true
  | .unexpectedEof | .other => false

def copyFrom (w : World) (i : Nat) : List Bytes → Bytes × Except IoError Unit
  | [] =>
    match w.readEnd with
    | .ok () => ([], .ok ())
    | .error e => ([], if closesRead e.kind then .ok () else .error e)
  | piece :: pieces =>
    match w.writes i with
    | none => (piece ++ (copyFrom w (i + 1) pieces).1, (copyFrom w (i + 1) pieces).2)
    | some (n, e) => (piece.take n, if closesWrite e.kind then .ok () else .error e)

def copyOneWay (w : World) (rest : Bytes) : Bytes × Except IoError Unit := copyFrom w 0 (w.reads rest)

def pump (w : World) (rest : Bytes) : Bytes × Except Halt Unit :=
  let up := copyOneWay w rest
  (up.1,
    match up.2 with
    | .error e => .error (.io ("pump upstream: " ++ e.text))
    | .ok () =>
      match w.downstream with
      | .error e => .error (.io ("pump downstream: " ++ e.text))
      | .ok () => .ok ())

def handleSocks5Client (w : World) (stream : Bytes) : Handled :=
  match readGreeting stream with
  | .error r => ⟨r.sent, none, [], .error r.halt⟩
  | .ok stream =>
    match w.ack with
    | .error e => ⟨[], none, [], .error (.transport ("socks5 method ack: " ++ e.text))⟩
    | .ok () =>
      match readRequest stream with
      | .error r => ⟨methodAck ++ r.sent, none, [], .error r.halt⟩
      | .ok (host, port, rest) =>
        match w.channel with
        | .error e => ⟨methodAck ++ failReply 0x05, some (host, port), [], .error e⟩
        | .ok () =>
          match w.reply with
          | .error e => ⟨methodAck, some (host, port), [], .error (.transport ("socks5 reply: " ++ e.text))⟩
          | .ok () => ⟨methodAck ++ successReply, some (host, port), (pump w rest).1, (pump w rest).2⟩

/-! ## The grammar -/

inductive Address where
  | ipv4 (addr : Block 4)
  | domain (name : String)
  | ipv6 (addr : Block 16)

def Address.octets : Address → Bytes
  | .ipv4 addr => 0x01 :: addr.1
  | .domain name => 0x03 :: UInt8.ofNat (utf8 name).length :: utf8 name
  | .ipv6 addr => 0x04 :: addr.1

def Address.text : Address → String
  | .ipv4 addr => formatIpv4 addr.1
  | .domain name => name
  | .ipv6 addr => formatIpv6 addr.1

def Address.Fits : Address → Prop
  | .domain name => (utf8 name).length < 256
  | _ => True

/-- A greeting with these methods, a request for this address and port, and the rest. -/
structure Starts (stream methods : Bytes) (address : Address) (port : Nat) (rest : Bytes) : Prop where
  count : methods.length < 256
  fits : address.Fits
  bound : port < 65536
  whole : ∃ rsv, stream = 0x05 :: UInt8.ofNat methods.length :: (methods ++ (0x05 :: 0x01 :: rsv ::
    (address.octets ++ (UInt8.ofNat (port / 256) :: UInt8.ofNat port :: rest))))

def Denotes (host : String) : Address → Prop
  | .ipv4 addr => parseIpv4 host.toList = some addr.1
  | .domain name => host = name
  | .ipv6 addr => parseIpv6 host.toList = some addr.1

def noAuth : UInt8 := 0x00

/-! ## What is read -/

variable {stream rest a : Bytes} {host label : String} {n port : Nat}

theorem readField_iff : readField n label stream = .ok (a, rest) ↔ a.length = n ∧ stream = a ++ rest := by
  unfold readField
  constructor
  · intro h
    unfold readExact at h
    split_ifs at h with hle
    cases h
    exact ⟨by rw [length_take]; omega, (take_append_drop n stream).symm⟩
  · rintro ⟨hlen, rfl⟩
    rw [readExact_append hlen]

theorem readField_ok (h : a.length = n) (label : String) (rest : Bytes) : readField n label (a ++ rest) = .ok (a, rest) :=
  readField_iff.2 ⟨h, rfl⟩

theorem bind_iff {α β : Type} {x : Except Refusal α} {f : α → Except Refusal β} {b : β} :
    (x >>= f) = .ok b ↔ ∃ a, x = .ok a ∧ f a = .ok b := by
  cases x with
  | error e => exact ⟨nofun, fun ⟨_, h, _⟩ => nomatch h⟩
  | ok a => exact ⟨fun h => ⟨a, rfl, h⟩, fun ⟨_, h, hf⟩ => by cases h; exact hf⟩

theorem toNat_word (hi lo : UInt8) : (word hi lo).toNat = hi.toNat * 256 + lo.toNat := by
  have hhi := hi.toNat_lt
  have hlo := lo.toNat_lt
  unfold word
  rw [UInt16.toNat_or, UInt16.toNat_shiftLeft, UInt8.toNat_toUInt16, UInt8.toNat_toUInt16]
  show (hi.toNat <<< 8 % 2 ^ 16) ||| lo.toNat = _
  rw [Nat.mod_eq_of_lt (by rw [Nat.shiftLeft_eq]; omega), ← Nat.shiftLeft_add_eq_or_of_lt (by omega), Nat.shiftLeft_eq]

theorem readGreeting_iff : readGreeting stream = .ok rest ↔
    ∃ methods : Bytes, methods.length < 256 ∧ stream = 0x05 :: UInt8.ofNat methods.length :: (methods ++ rest) := by
  unfold readGreeting
  rw [bind_iff]
  constructor
  · rintro ⟨⟨greeting, after⟩, hgreeting, h⟩
    obtain ⟨hlen, rfl⟩ := readField_iff.1 hgreeting
    obtain ⟨ver, count, rfl⟩ := length_eq_two.1 hlen
    dsimp only at h
    split_ifs at h with hver
    rw [bind_iff] at h
    obtain ⟨⟨methods, after'⟩, hmethods, h⟩ := h
    cases h
    obtain ⟨hcount, rfl⟩ := readField_iff.1 hmethods
    have hver : ver = 0x05 := not_not.1 hver
    refine ⟨methods, hcount ▸ count.toNat_lt, ?_⟩
    rw [hver, hcount, UInt8.ofNat_toNat]
    rfl
  · rintro ⟨methods, hcount, rfl⟩
    have hver : [0x05, UInt8.ofNat methods.length].getD 0 0 = 0x05 := rfl
    refine ⟨([0x05, UInt8.ofNat methods.length], methods ++ rest), readField_iff.2 ⟨rfl, rfl⟩, ?_⟩
    dsimp only
    rw [if_neg (not_not.2 hver), bind_iff]
    exact ⟨(methods, rest), readField_ok (UInt8.toNat_ofNat_of_lt' hcount).symm _ _, rfl⟩

theorem readHost_iff {atyp : UInt8} : readHost atyp stream = .ok (host, rest) ↔
    ∃ address : Address, address.Fits ∧ host = address.text ∧ atyp :: stream = address.octets ++ rest := by
  constructor
  · intro h
    unfold readHost at h
    split_ifs at h with h4 hname h6
    · rw [bind_iff] at h
      obtain ⟨⟨addr, after⟩, haddr, h⟩ := h
      cases h
      obtain ⟨hlen, rfl⟩ := readField_iff.1 haddr
      exact ⟨.ipv4 ⟨addr, hlen⟩, trivial, rfl, by rw [h4]; rfl⟩
    · rw [bind_iff] at h
      obtain ⟨⟨len, after⟩, hlength, h⟩ := h
      obtain ⟨hlen, rfl⟩ := readField_iff.1 hlength
      obtain ⟨count, rfl⟩ := length_eq_one_iff.1 hlen
      rw [bind_iff] at h
      obtain ⟨⟨domain, after⟩, hdomain, h⟩ := h
      obtain ⟨hcount, rfl⟩ := readField_iff.1 hdomain
      dsimp only at h
      split at h
      · next name hutf8 =>
        cases h
        have hbytes : utf8 host = domain := fromUtf8_eq_some_iff.1 hutf8
        have hfits : (utf8 host).length < 256 := by
          rw [hbytes, hcount]
          exact count.toNat_lt
        refine ⟨.domain host, hfits, rfl, ?_⟩
        show _ = 0x03 :: UInt8.ofNat (utf8 host).length :: utf8 host ++ rest
        rw [hname, hbytes, hcount, UInt8.ofNat_toNat]
        rfl
      · cases h
    · rw [bind_iff] at h
      obtain ⟨⟨addr, after⟩, haddr, h⟩ := h
      cases h
      obtain ⟨hlen, rfl⟩ := readField_iff.1 haddr
      exact ⟨.ipv6 ⟨addr, hlen⟩, trivial, rfl, by rw [h6]; rfl⟩
  · rintro ⟨address, hfits, rfl, heq⟩
    unfold readHost
    cases address with
    | ipv4 addr =>
      obtain ⟨rfl, rfl⟩ := List.cons.inj heq
      rw [if_pos rfl, bind_iff]
      exact ⟨(addr.1, rest), readField_ok addr.2 _ _, rfl⟩
    | domain name =>
      obtain ⟨rfl, rfl⟩ := List.cons.inj heq
      rw [if_neg (by decide), if_pos rfl, bind_iff]
      refine ⟨([UInt8.ofNat (utf8 name).length], utf8 name ++ rest), readField_iff.2 ⟨rfl, rfl⟩, ?_⟩
      rw [bind_iff]
      refine ⟨(utf8 name, rest), readField_ok (UInt8.toNat_ofNat_of_lt' hfits).symm _ _, ?_⟩
      dsimp only
      rw [fromUtf8_utf8]
      rfl
    | ipv6 addr =>
      obtain ⟨rfl, rfl⟩ := List.cons.inj heq
      rw [if_neg (by decide), if_neg (by decide), if_pos rfl, bind_iff]
      exact ⟨(addr.1, rest), readField_ok addr.2 _ _, rfl⟩

theorem readRequest_iff : readRequest stream = .ok (host, port, rest) ↔
    ∃ (rsv : UInt8) (address : Address), address.Fits ∧ host = address.text ∧ port < 65536 ∧
      stream = 0x05 :: 0x01 :: rsv :: (address.octets ++ (UInt8.ofNat (port / 256) :: UInt8.ofNat port :: rest)) := by
  unfold readRequest
  rw [bind_iff]
  constructor
  · rintro ⟨⟨head, after⟩, hhead, h⟩
    obtain ⟨hlen, rfl⟩ := readField_iff.1 hhead
    obtain ⟨ver, cmd, rsv, atyp, rfl⟩ := length_eq_four.1 hlen
    dsimp only at h
    split_ifs at h with hver hcmd
    have hver : ver = 0x05 := not_not.1 hver
    have hcmd : cmd = 0x01 := not_not.1 hcmd
    rw [bind_iff] at h
    obtain ⟨⟨host', after'⟩, hhost, h⟩ := h
    obtain ⟨address, hfits, rfl, haddress⟩ := readHost_iff.1 hhost
    rw [bind_iff] at h
    obtain ⟨⟨portBytes, after''⟩, hport, h⟩ := h
    obtain ⟨hlen, rfl⟩ := readField_iff.1 hport
    obtain ⟨hi, lo, rfl⟩ := length_eq_two.1 hlen
    have hvalue : (word hi lo).toNat = hi.toNat * 256 + lo.toNat := toNat_word hi lo
    have hhi := hi.toNat_lt
    have hlo := lo.toNat_lt
    have hdiv : UInt8.ofNat ((word hi lo).toNat / 256) = hi := by
      apply UInt8.toNat_inj.1
      rw [hvalue, UInt8.toNat_ofNat']
      omega
    have hmod : UInt8.ofNat (word hi lo).toNat = lo := by
      apply UInt8.toNat_inj.1
      rw [hvalue, UInt8.toNat_ofNat']
      omega
    cases h
    refine ⟨rsv, address, hfits, rfl, (word hi lo).toNat_lt, ?_⟩
    show ver :: cmd :: rsv :: atyp :: after = 0x05 :: 0x01 :: rsv :: (address.octets ++
      (UInt8.ofNat ((word hi lo).toNat / 256) :: UInt8.ofNat (word hi lo).toNat :: after''))
    rw [hver, hcmd, hdiv, hmod]
    exact congrArg (fun bytes => 0x05 :: 0x01 :: rsv :: bytes) haddress
  · rintro ⟨rsv, address, hfits, rfl, hport, rfl⟩
    obtain ⟨atyp, body, hbody⟩ : ∃ atyp body, address.octets = atyp :: body := by
      cases address <;> exact ⟨_, _, rfl⟩
    have hhost : readHost atyp (body ++ (UInt8.ofNat (port / 256) :: UInt8.ofNat port :: rest)) =
        .ok (address.text, UInt8.ofNat (port / 256) :: UInt8.ofNat port :: rest) := by
      refine readHost_iff.2 ⟨address, hfits, rfl, ?_⟩
      rw [hbody, cons_append]
    have hvalue : (word (UInt8.ofNat (port / 256)) (UInt8.ofNat port)).toNat = port := by
      rw [toNat_word, UInt8.toNat_ofNat', UInt8.toNat_ofNat']
      omega
    have hver : [0x05, 0x01, rsv, atyp].getD 0 0 = 0x05 := rfl
    have hcmd : [0x05, 0x01, rsv, atyp].getD 1 0 = 0x01 := rfl
    rw [hbody]
    refine ⟨([0x05, 0x01, rsv, atyp], body ++ (UInt8.ofNat (port / 256) :: UInt8.ofNat port :: rest)),
      readField_iff.2 ⟨rfl, rfl⟩, ?_⟩
    dsimp only
    rw [if_neg (not_not.2 hver), if_neg (not_not.2 hcmd), bind_iff]
    refine ⟨_, hhost, ?_⟩
    rw [bind_iff]
    refine ⟨([UInt8.ofNat (port / 256), UInt8.ofNat port], rest), readField_iff.2 ⟨rfl, rfl⟩, ?_⟩
    exact congrArg (fun port => Except.ok (address.text, port, rest)) hvalue

/-! ## What is opened and forwarded -/

variable {w : World} {address : Address}

theorem denotes_text (address : Address) : Denotes address.text address := by
  cases address with
  | ipv4 addr =>
    show parseIpv4 (String.ofList _).toList = _
    rw [String.toList_ofList]
    exact parseIpv4_text addr.2
  | domain name => rfl
  | ipv6 addr =>
    have hwords : ∀ bytes : Bytes, bytes.length % 2 = 0 → ∃ words : List (UInt8 × UInt8),
        words.length = bytes.length / 2 ∧ words.flatMap (fun w => [w.1, w.2]) = bytes ∧
        (wordsOf bytes).map (fun w => Nat.toDigits 16 w.toNat) = words.map hexText := by
      intro bytes
      induction bytes using wordsOf.induct with
      | case1 hi lo rest ih =>
        intro heven
        rw [length_cons, length_cons] at heven
        obtain ⟨words, hlen, hflat, hmap⟩ := ih (by omega)
        refine ⟨(hi, lo) :: words, ?_, ?_, ?_⟩
        · rw [length_cons, length_cons, length_cons, hlen]
          omega
        · rw [flatMap_cons, hflat]
          rfl
        · rw [wordsOf, map_cons, map_cons, hmap, toNat_word]
          rfl
      | case2 bytes h =>
        rcases bytes with _ | ⟨b, _ | ⟨c, rest⟩⟩
        · exact fun _ => ⟨[], rfl, rfl, rfl⟩
        · exact fun hodd => absurd (show 1 % 2 = 0 from hodd) (by decide)
        · exact absurd rfl (h b c rest)
    obtain ⟨words, hlen, hflat, hmap⟩ := hwords addr.1 (by rw [addr.2])
    show parseIpv6 (String.ofList _).toList = _
    rw [String.toList_ofList, hmap, parseIpv6_text (by rw [hlen, addr.2]), hflat]

theorem copyFrom_forwarded (w : World) (i : Nat) (pieces : List Bytes) :
    (copyFrom w i pieces).1 <+: pieces.flatten ∧ ((∀ i, w.writes i = none) → (copyFrom w i pieces).1 = pieces.flatten) := by
  induction pieces generalizing i with
  | nil =>
    unfold copyFrom
    cases w.readEnd <;> exact ⟨prefix_rfl, fun _ => rfl⟩
  | cons piece pieces ih =>
    unfold copyFrom
    rw [flatten_cons]
    rcases hwrite : w.writes i with _ | ⟨n, e⟩
    · obtain ⟨hfront, hall⟩ := ih (i + 1)
      exact ⟨(prefix_append_right_inj piece).2 hfront, fun htaken => congrArg (piece ++ ·) (hall htaken)⟩
    · refine ⟨( take_prefix n piece).trans (prefix_append _ _), fun htaken => ?_⟩
      rw [htaken i] at hwrite
      cases hwrite

theorem accepted_iff : (readGreeting stream >>= readRequest) = .ok (host, port, rest) ↔
    ∃ methods address, Starts stream methods address port rest ∧ host = address.text := by
  rw [bind_iff]
  constructor
  · rintro ⟨after, hgreeting, hrequest⟩
    obtain ⟨methods, hcount, rfl⟩ := readGreeting_iff.1 hgreeting
    obtain ⟨rsv, address, hfits, hhost, hport, rfl⟩ := readRequest_iff.1 hrequest
    exact ⟨methods, address, ⟨hcount, hfits, hport, rsv, rfl⟩, hhost⟩
  · rintro ⟨methods, address, ⟨hcount, hfits, hport, rsv, rfl⟩, hhost⟩
    exact ⟨_, readGreeting_iff.2 ⟨methods, hcount, rfl⟩, readRequest_iff.2 ⟨rsv, address, hfits, hhost, hport, rfl⟩⟩

theorem handle_cases (w : World) (stream : Bytes) : ((handleSocks5Client w stream).opened = none ∧
      (w.ack = .ok () → ∀ p, (readGreeting stream >>= readRequest) ≠ .ok p)) ∨
    ∃ host port rest, (readGreeting stream >>= readRequest) = .ok (host, port, rest) ∧
      (handleSocks5Client w stream).opened = some (host, port) ∧ (handleSocks5Client w stream).forwarded <+: rest ∧
      (w.channel = .ok () → w.reply = .ok () → (∀ i, w.writes i = none) → (handleSocks5Client w stream).forwarded = rest) := by
  unfold handleSocks5Client
  rcases hgreeting : readGreeting stream with r | after
  · exact .inl ⟨rfl, fun _ _ => nofun⟩
  rcases hack : w.ack with e | ⟨⟩
  · exact .inl ⟨rfl, nofun⟩
  rcases hrequest : readRequest after with r | ⟨host, port, rest⟩
  · refine .inl ⟨by simp only [hrequest], fun _ p hp => ?_⟩
    obtain ⟨_, hafter, hp⟩ := bind_iff.1 hp
    cases hafter
    rw [hrequest] at hp
    cases hp
  right
  refine ⟨host, port, rest, bind_iff.2 ⟨after, rfl, hrequest⟩, ?_⟩
  dsimp only
  rw [hrequest]
  rcases hchannel : w.channel with e | ⟨⟩
  · exact ⟨rfl, nil_prefix, nofun⟩
  rcases hreply : w.reply with e | ⟨⟩
  · exact ⟨rfl, nil_prefix, fun _ => nofun⟩
  · obtain ⟨hfront, hall⟩ := copyFrom_forwarded w 0 (w.reads rest)
    rw [w.whole rest] at hfront hall
    exact ⟨rfl, hfront, fun _ _ => hall⟩

/-- One stream is treated by the grammar: a channel is opened when the greeting offers `NO_AUTH` and a request follows, for the
address and the port of the request, and it gets what follows the request. -/
structure ByGrammar (stream : Bytes) : Prop where
  opens : ∀ w : World, w.ack = .ok () → ((handleSocks5Client w stream).opened ≠ none ↔
    ∃ methods address port rest, Starts stream methods address port rest ∧ noAuth ∈ methods)
  target : ∀ (w : World) (host : String) (port : Nat), (handleSocks5Client w stream).opened = some (host, port) →
    ∃ methods address rest, Starts stream methods address port rest ∧ Denotes host address ∧
      (handleSocks5Client w stream).forwarded <+: rest ∧
      (w.channel = .ok () → w.reply = .ok () → (∀ i, w.writes i = none) → (handleSocks5Client w stream).forwarded = rest)

def calm : World where
  ack := .ok ()
  channel := .ok ()
  reply := .ok ()
  reads rest := rest.map fun b => [b]
  whole rest := by
    induction rest with
    | nil => rfl
    | cons b rest ih => exact congrArg (b :: ·) ih
  fits rest piece hpiece := by
    obtain ⟨b, _, rfl⟩ := List.mem_map.1 hpiece
    exact ⟨Nat.one_pos, show 1 ≤ 16 * 1024 by decide⟩
  readEnd := .ok ()
  writes _ := none
  downstream := .ok ()

theorem Starts.methods_eq {methods methods' : Bytes} {address' : Address} {port' : Nat} {rest' : Bytes}
    (h : Starts stream methods address port rest) (h' : Starts stream methods' address' port' rest') : methods = methods' := by
  obtain ⟨rsv, heq⟩ := h.whole
  obtain ⟨rsv', heq'⟩ := h'.whole
  rw [heq, List.cons.injEq, List.cons.injEq] at heq'
  obtain ⟨-, hcount, htail⟩ := heq'
  have hlen : methods.length = methods'.length := by
    have hcount := congrArg UInt8.toNat hcount
    rwa [UInt8.toNat_ofNat_of_lt' h.count, UInt8.toNat_ofNat_of_lt' h'.count] at hcount
  exact (append_inj htail hlen).1

theorem not_byGrammar {methods : Bytes} (hstarts : Starts stream methods address port rest) (hwithout : noAuth ∉ methods) :
    ¬ByGrammar stream := by
  rintro ⟨hopens, _⟩
  have hopened : (handleSocks5Client calm stream).opened ≠ none := by
    rcases handle_cases calm stream with ⟨_, hnone⟩ | ⟨host, port, rest, _, hopened, _⟩
    · exact absurd (accepted_iff.2 ⟨methods, address, hstarts, rfl⟩) (hnone rfl _)
    · rw [hopened]
      exact nofun
  obtain ⟨methods', address', port', rest', hstarts', hwith⟩ := (hopens calm rfl).1 hopened
  exact hwithout (hstarts.methods_eq hstarts' ▸ hwith)

/-- **The handshake goes by the grammar** unless a request follows a greeting without `NO_AUTH`. -/
theorem socks5_iff (stream : Bytes) : ByGrammar stream ↔
    ¬∃ methods address port rest, Starts stream methods address port rest ∧ noAuth ∉ methods := by
  constructor
  · rintro hgrammar ⟨methods, address, port, rest, hstarts, hwithout⟩
    exact not_byGrammar hstarts hwithout hgrammar
  intro hnone
  refine ⟨fun w hack => ⟨fun hopened => ?_, ?_⟩, fun w host port hopened => ?_⟩
  · rcases handle_cases w stream with ⟨hclosed, _⟩ | ⟨host, port, rest, haccepted, _⟩
    · exact absurd hclosed hopened
    · obtain ⟨methods, address, hstarts, _⟩ := accepted_iff.1 haccepted
      have hwith : noAuth ∈ methods := by_contra fun hwithout => hnone ⟨methods, address, port, rest, hstarts, hwithout⟩
      exact ⟨methods, address, port, rest, hstarts, hwith⟩
  · rintro ⟨methods, address, port, rest, hstarts, _⟩
    rcases handle_cases w stream with ⟨_, hclosed⟩ | ⟨host, port, rest, _, hopened, _⟩
    · exact absurd (accepted_iff.2 ⟨methods, address, hstarts, rfl⟩) (hclosed hack _)
    · rw [hopened]
      exact nofun
  · rcases handle_cases w stream with ⟨hclosed, _⟩ | ⟨host', port', rest, haccepted, hopened', hforwarded⟩
    · rw [hclosed] at hopened
      cases hopened
    · rw [hopened'] at hopened
      cases hopened
      obtain ⟨methods, address, hstarts, rfl⟩ := accepted_iff.1 haccepted
      exact ⟨methods, address, rest, hstarts, denotes_text address, hforwarded⟩

/-- A greeting that offers a password only, and a request for port 80 of the machine itself. -/
theorem password_only_opened : ¬ByGrammar [5, 1, 2, 5, 1, 0, 1, 127, 0, 0, 1, 0, 80] := by
  have hstarts : Starts [5, 1, 2, 5, 1, 0, 1, 127, 0, 0, 1, 0, 80] [2] (.ipv4 ⟨[127, 0, 0, 1], rfl⟩) 80 [] :=
    ⟨by decide, trivial, by decide, 0, rfl⟩
  exact not_byGrammar hstarts (by decide)

end LetsFlutSsh.Forward
