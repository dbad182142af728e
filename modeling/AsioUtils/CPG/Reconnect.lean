import AsioUtils.CPG.NetSession
import AsioUtils.Net.Connection

/-!
# Framing across a reconnect

A `ClientSession` keeps its input buffer from one connection to the next, with the piece of a packet the last one broke
off in. `connectEstablished` does not empty it, so the next connection's bytes are read behind this piece.

* `Incoming`, `connection` : what one connection brings, and what comes of it, up to the next one;
* `Framed` : exactly the complete packets of the connection's own bytes are handed over, and nothing left over takes
  part;
* `framed_iff_fresh` : when all connections of a session are framed;
* `cutRun_not_framed` : a packet that is cut, and a reconnect.
-/

namespace AsioUtils.CPG

open Net

/-- One connection of a `ClientSession`: its socket, the calls its establishing makes, its reads, and what happens to
the session from then on until it connects again. -/
structure Incoming where
  sock : SocketPtr
  calls : List TCPSession.Call
  reads : List (List UInt8)
  afterwards : List Connection.Event

/-- The bytes of the connection. -/
def Incoming.bytes (i : Incoming) : List UInt8 := i.reads.flatten

section Reconnect

variable (c : SessionClass) (fuel : Nat)

/-- What the message callback hands over during a connection, and the session afterwards. -/
def connection (s : Connection) (i : Incoming) : Option (List Delivery × Connection) :=
  let s := s.connectCallback i.sock i.calls
  (receive c fuel s.inputBuffer_ i.reads).map fun r =>
    (r.1, Runs.run Connection.step { s with inputBuffer_ := r.2 } i.afterwards)

/-- A session through its connections; `none` is a callback that does not come back. -/
def reconnected (s : Option Connection) (i : Incoming) : Option Connection :=
  s.bind fun s => (connection c fuel s i).map Prod.snd

/-- What a socket can deliver, and fuel for it. -/
def Offers (s : Connection) (i : Incoming) : Prop :=
  Offered c fuel (s.connectCallback i.sock i.calls).inputBuffer_ i.reads ∧
    s.inputBuffer_.readableBytes + i.bytes.length < fuel

instance (s : Connection) (i : Incoming) : Decidable (Offers c fuel s i) := inferInstanceAs (Decidable (_ ∧ _))

/-- No packet at the front. -/
def NoPacket (bytes : List UInt8) : Prop := ¬ ∃ (p : Packet) (rest : List UInt8), bytes = p.bytes ++ rest

/-- The callbacks come back and have handed over exactly the complete packets of the connection's own bytes; bytes of an
earlier connection, which come first in the buffer, take no part. -/
def Framed (s : Connection) (i : Incoming) : Prop :=
  ∃ (ps : List Packet) (rest : List UInt8) (s' : Connection),
    i.bytes = ps.flatMap Packet.bytes ++ rest ∧ NoPacket rest ∧
      connection c fuel s i = some (ps.map (deliver c.handlerOf), s') ∧ (s.inputBuffer_.content = [] ∨ ps = [])

/-- Nothing is left over and no short size comes up; or there is no packet to be had, neither in the connection's own
bytes nor in those behind what is left over. -/
def Fresh (s : Connection) (i : Incoming) : Prop :=
  s.inputBuffer_.content = [] ∧ NoShortSize i.bytes ∨ NoPacket i.bytes ∧ Incomplete (s.inputBuffer_.content ++ i.bytes)

/-- Asked of a connection of a session that has come so far. -/
def Each (p : Connection → Incoming → Prop) (s : Option Connection) (i : Incoming) : Prop := ∀ s₀ ∈ s, p s₀ i

instance (p : Connection → Incoming → Prop) [∀ s i, Decidable (p s i)] (s : Option Connection) (i : Incoming) :
    Decidable (Each p s i) := inferInstanceAs (Decidable (∀ s₀ ∈ s, p s₀ i))

end Reconnect

/-! ## The input buffer outlives the connection -/

open Connection (Event)

theorem startAsyncRead_content (s : Connection) : s.startAsyncRead.inputBuffer_.content = s.inputBuffer_.content := by
  unfold Connection.startAsyncRead
  split_ifs
  · obtain ⟨b', hb', hcontent, -⟩ := s.inputBuffer_.ensureWritableBytes_spec 1024
    show ((s.inputBuffer_.ensureWritableBytes 1024).get _).content = _
    rw [Option.get_of_eq_some _ hb', hcontent]
  · rfl

theorem handClose_inputBuffer (s : Connection) : s.handClose.inputBuffer_ = s.inputBuffer_ := by
  unfold Connection.handClose
  split <;> rfl

theorem forceClose_inputBuffer (s : Connection) : s.forceClose.inputBuffer_ = s.inputBuffer_ := by
  unfold Connection.forceClose
  split_ifs
  · exact handClose_inputBuffer s
  · rfl

theorem connectEstablished_content (s : Connection) (calls : List TCPSession.Call) :
    (s.connectEstablished calls).inputBuffer_.content = s.inputBuffer_.content := by
  unfold Connection.connectEstablished
  rw [Connection.calls_eq]
  exact startAsyncRead_content { s with state_ := .kConnected }

theorem connectCallback_content (s : Connection) (sock : SocketPtr) (calls : List TCPSession.Call) :
    (s.connectCallback sock calls).inputBuffer_.content = s.inputBuffer_.content :=
  connectEstablished_content { s with socket_ := some sock } calls

/-- **Nothing that happens to a session** takes a byte out of its input buffer, but the reads. -/
theorem step_content (s : Connection) (e : Event) : (s.step e).inputBuffer_.content = s.inputBuffer_.content := by
  cases e with
  | call _ => rfl
  | written k calls =>
    rcases hsending : s.sending with _ | ⟨op, later⟩ <;> simp only [Connection.step, hsending]
  | failed =>
    rcases hsending : s.sending with _ | ⟨op, later⟩ <;> simp only [Connection.step, hsending]
  | readError ec =>
    cases ec with
    | operation_aborted => rfl
    | interrupted => exact startAsyncRead_content s
    | try_again => exact startAsyncRead_content s
    | other => exact congrArg DataBuffer.content (handClose_inputBuffer s)
  | shutdown =>
    show s.shutdown.inputBuffer_.content = _
    unfold Connection.shutdown
    split_ifs <;> rfl
  | forceClose => exact congrArg DataBuffer.content (forceClose_inputBuffer s)
  | reconnect =>
    show s.reconnect.inputBuffer_.content = _
    unfold Connection.reconnect Connection.connectDestroyed
    split_ifs
    · exact congrArg DataBuffer.content (forceClose_inputBuffer s)
    · rfl
  | connectEstablished calls => exact connectEstablished_content s calls
  | connectCallback sock calls => exact connectCallback_content s sock calls

theorem run_content (s : Connection) (es : List Event) :
    (Runs.run Connection.step s es).inputBuffer_.content = s.inputBuffer_.content := by
  induction es generalizing s with
  | nil => rfl
  | cons e es ih => rw [Runs.run_cons, ih, step_content]

/-! ## Streams of arbitrary bytes -/

theorem Incomplete.mono {pre bytes : List UInt8} (h : Incomplete bytes) (hpre : pre <+: bytes) : Incomplete pre := by
  obtain ⟨tail, rfl⟩ := hpre
  rintro ⟨h12, hlow, hle⟩
  apply h
  rw [PacketHeader.read_append h12, List.length_append]
  omega

/-- Behind a packet there is one at the front. -/
theorem not_incomplete_packet (p : Packet) (rest : List UInt8) : ¬ Incomplete (p.bytes ++ rest) := by
  intro h
  apply h
  have hsize := p.size_header
  rw [p.read_bytes, hsize, List.length_append, Packet.length_bytes]
  omega

theorem Incomplete.noPacket {bytes : List UInt8} (h : Incomplete bytes) : NoPacket bytes := by
  rintro ⟨p, rest, rfl⟩
  exact not_incomplete_packet p rest h

/-- Incomplete bytes hold no packet at all. -/
theorem Incomplete.eq_nil {ps : List Packet} {rest : List UInt8} (h : Incomplete (ps.flatMap Packet.bytes ++ rest)) :
    ps = [] := by
  cases ps with
  | nil => rfl
  | cons p ps =>
    rw [List.flatMap_cons, List.append_assoc] at h
    exact absurd h (not_incomplete_packet p _)

theorem Incomplete.noShortSize {bytes : List UInt8} (h : Incomplete bytes) : NoShortSize bytes := by
  rintro ps rest rfl h12 ⟨hlow, hneg⟩
  obtain rfl := h.eq_nil
  apply h
  simp only [List.flatMap_nil, List.nil_append]
  omega

theorem NoShortSize.mono {pre bytes : List UInt8} (h : NoShortSize bytes) (hpre : pre <+: bytes) :
    NoShortSize pre := by
  obtain ⟨tail, rfl⟩ := hpre
  rintro ps rest rfl h12
  have hrest := h ps (rest ++ tail) (by rw [List.append_assoc]) (by rw [List.length_append]; omega)
  rwa [PacketHeader.read_append h12] at hrest

theorem NoShortSize.drop {ps : List Packet} {rest : List UInt8} (h : NoShortSize (ps.flatMap Packet.bytes ++ rest)) :
    NoShortSize rest := by
  induction ps with
  | nil => exact h
  | cons p ps ih =>
    rw [List.flatMap_cons, List.append_assoc] at h
    exact ih h.tail

/-- Without a short size, bytes are packets and an incomplete rest. -/
theorem NoShortSize.split {bytes : List UInt8} (h : NoShortSize bytes) :
    ∃ (ps : List Packet) (rest : List UInt8), bytes = ps.flatMap Packet.bytes ++ rest ∧ Incomplete rest := by
  induction hn : bytes.length using Nat.strongRecOn generalizing bytes with
  | _ n ih =>
    by_cases hinc : Incomplete bytes
    · exact ⟨[], bytes, rfl, hinc⟩
    · obtain ⟨h12, hlow, hle⟩ := not_not.mp hinc
      have hnot := h [] bytes rfl h12
      obtain ⟨p, tail, rfl⟩ := Packet.exists_of_read h12 (by omega) hle
      have hlt : tail.length < n := by
        rw [← hn, List.length_append, Packet.length_bytes]
        omega
      obtain ⟨ps, rest, htail, hrest⟩ := ih tail.length hlt h.tail rfl
      refine ⟨p :: ps, rest, ?_, hrest⟩
      rw [htail, List.flatMap_cons, List.append_assoc]

/-- Bytes split into no more packets than there are before a rest that begins with none. -/
theorem packets_length_le {ps qs : List Packet} {rest rest' : List UInt8}
    (h : ps.flatMap Packet.bytes ++ rest = qs.flatMap Packet.bytes ++ rest') (hrest' : NoPacket rest') :
    ps.length ≤ qs.length := by
  induction ps generalizing qs with
  | nil => exact Nat.zero_le _
  | cons p ps ih =>
    cases qs with
    | nil =>
      rw [List.flatMap_cons, List.append_assoc] at h
      exact absurd ⟨p, _, h.symm⟩ hrest'
    | cons q qs =>
      rw [List.flatMap_cons, List.flatMap_cons, List.append_assoc, List.append_assoc] at h
      have hlength := ih (Packet.append_inj h).2
      simp only [List.length_cons]
      omega

/-- A first part of packets and a rest: an incomplete piece behind some of the packets, or all of them and more. -/
theorem split_prefix {pre rest : List UInt8} {ps : List Packet} (h : pre <+: ps.flatMap Packet.bytes ++ rest) :
    (∃ done todo piece, ps = done ++ todo ∧ pre = done.flatMap Packet.bytes ++ piece ∧ Incomplete piece) ∨
      ∃ piece, pre = ps.flatMap Packet.bytes ++ piece ∧ ¬ Incomplete piece := by
  by_cases hlen : pre.length ≤ (ps.flatMap Packet.bytes).length
  · exact .inl (prefix_packets (List.prefix_of_prefix_length_le h (List.prefix_append _ _) hlen))
  · obtain ⟨piece, rfl⟩ : ps.flatMap Packet.bytes <+: pre :=
      List.prefix_of_prefix_length_le (List.prefix_append _ _) h (Nat.le_of_not_le hlen)
    by_cases hpiece : Incomplete piece
    · exact .inl ⟨ps, [], piece, (List.append_nil ps).symm, rfl, hpiece⟩
    · exact .inr ⟨piece, rfl, hpiece⟩

/-! ## Reads -/

section Reads

variable {c : SessionClass} {fuel : Nat} {data data' : DataBuffer} {ds : List Delivery}

/-- A read that brings more than some packets and an incomplete rest hands over more than these packets, if it comes
back at all. -/
theorem handRead_exceeds {chunk rest : List UInt8} {ps : List Packet} (hroom : chunk.length ≤ data.writableBytes)
    (hlt : data.readableBytes + chunk.length < 2147483648)
    (hbytes : data.content ++ chunk = ps.flatMap Packet.bytes ++ rest) (hrest : ¬ Incomplete rest)
    (h : handRead c fuel data chunk = some (ds, data')) : ps.length < ds.length := by
  obtain ⟨data₁, hwrite, hdata₁, -⟩ := DataBuffer.written_spec hroom
  have hlen₁ : data₁.readableBytes < 2147483648 := by
    rw [← DataBuffer.length_content, hdata₁, List.length_append, DataBuffer.length_content]
    exact hlt
  obtain ⟨data₂, hafter, hdata₂⟩ := after_packets c.handlerOf hlen₁ (hdata₁.trans hbytes)
  have hlen₂ : data₂.readableBytes < 2147483648 := by
    rw [← DataBuffer.length_content, hdata₁, hbytes, List.length_append] at hlen₁
    rw [← DataBuffer.length_content, hdata₂]
    omega
  have hgoes : iteration c.handlerOf data₂ ≠ none := by
    rw [Ne, iteration_eq_none c.handlerOf hlen₂, ← DataBuffer.length_content, hdata₂]
    exact hrest
  unfold handRead at h
  rw [hwrite, Option.bind_some, SessionClass.defaultMessageCallback_eq] at h
  rcases hloop : messageLoop c.handlerOf fuel data₁ with ⟨out, data₃⟩ | ⟨out⟩ | ⟨out, data₃⟩ <;>
    simp only [hloop] at h
  · obtain ⟨data₄, -, hpair⟩ := Option.map_eq_some_iff.mp h
    obtain ⟨rfl, -⟩ := Prod.mk.inj hpair
    exact Loop.lt_length_of_after hafter hgoes hloop
  · cases h
  · cases h

/-- **Reads of a stream without a short size** hand over its packets; an incomplete rest stays in the buffer. -/
theorem receive_split {chunks : List (List UInt8)} (hinc : Incomplete data.content)
    (hno : NoShortSize (data.content ++ chunks.flatten)) (hoffered : Offered c fuel data chunks)
    (hfuel : data.readableBytes + chunks.flatten.length < fuel) :
    ∃ (ps : List Packet) (data' : DataBuffer), receive c fuel data chunks = some (ps.map (deliver c.handlerOf), data') ∧
      data.content ++ chunks.flatten = ps.flatMap Packet.bytes ++ data'.content ∧ Incomplete data'.content := by
  induction chunks generalizing data with
  | nil => exact ⟨[], data, rfl, List.append_nil _, hinc⟩
  | cons chunk chunks ih =>
    obtain ⟨hroom, hlt, hlater⟩ := hoffered
    rw [List.flatten_cons, ← List.append_assoc] at hno
    rw [List.flatten_cons, List.length_append] at hfuel
    obtain ⟨done, rest, hsplit, hrest⟩ := (hno.mono (List.prefix_append _ _)).split
    have hlength := congrArg List.length hsplit
    rw [List.length_append, List.length_append, DataBuffer.length_content] at hlength
    have hcount := length_le_flatMap done
    obtain ⟨data₁, hread, hdata₁⟩ := handRead_split (c := c) hroom hlt hsplit hrest (show done.length < fuel by omega)
    rw [hread] at hlater
    have hstream : data.content ++ chunk ++ chunks.flatten =
        done.flatMap Packet.bytes ++ (data₁.content ++ chunks.flatten) := by
      rw [hsplit, hdata₁, List.append_assoc]
    rw [hstream] at hno
    have hless : data₁.readableBytes + chunks.flatten.length < fuel := by
      rw [← DataBuffer.length_content, hdata₁]
      omega
    obtain ⟨ps, data', hreceive, hps, hinc'⟩ := ih (by rw [hdata₁]; exact hrest) hno.drop hlater hless
    refine ⟨done ++ ps, data', ?_, ?_, hinc'⟩
    · unfold receive
      rw [hread]
      dsimp only
      rw [hreceive, List.map_append]
      rfl
    · rw [List.flatten_cons, ← List.append_assoc, hstream, hps, List.flatMap_append, List.append_assoc]

/-- Reads of a stream that goes on with something to hand over, behind some packets, hand over more than these packets,
if they come back at all. -/
theorem receive_exceeds {chunks : List (List UInt8)} {ps : List Packet} {rest : List UInt8}
    (hinc : Incomplete data.content) (hstream : data.content ++ chunks.flatten = ps.flatMap Packet.bytes ++ rest)
    (hrest : ¬ Incomplete rest) (hoffered : Offered c fuel data chunks)
    (hfuel : data.readableBytes + chunks.flatten.length < fuel)
    (h : receive c fuel data chunks = some (ds, data')) : ps.length < ds.length := by
  induction chunks generalizing data ps ds with
  | nil =>
    rw [List.flatten_nil, List.append_nil] at hstream
    rw [hstream] at hinc
    obtain rfl := hinc.eq_nil
    exact absurd hinc hrest
  | cons chunk chunks ih =>
    obtain ⟨hroom, hlt, hlater⟩ := hoffered
    rw [List.flatten_cons, ← List.append_assoc] at hstream
    rw [List.flatten_cons, List.length_append] at hfuel
    unfold receive at h
    rcases hread : handRead c fuel data chunk with _ | ⟨ds₁, data₁⟩ <;> simp only [hread] at h hlater
    · cases h
    obtain ⟨⟨ds₂, data₂⟩, hreceive, hpair⟩ := Option.map_eq_some_iff.mp h
    obtain ⟨rfl, rfl⟩ := Prod.mk.inj hpair
    show ps.length < (ds₁ ++ ds₂).length
    rw [List.length_append]
    have hpre : data.content ++ chunk <+: ps.flatMap Packet.bytes ++ rest := ⟨chunks.flatten, hstream⟩
    rcases split_prefix hpre with ⟨done, todo, piece, rfl, hbytes, hpiece⟩ | ⟨piece, hbytes, hpiece⟩
    · have hlength := congrArg List.length hbytes
      rw [List.length_append, List.length_append, DataBuffer.length_content] at hlength
      have hcount := length_le_flatMap done
      obtain ⟨data₁', hread', hdata₁⟩ :=
        handRead_split (c := c) hroom hlt hbytes hpiece (show done.length < fuel by omega)
      obtain ⟨rfl, rfl⟩ := Prod.mk.inj (Option.some.inj (hread'.symm.trans hread))
      have hstream₁ : data₁'.content ++ chunks.flatten = todo.flatMap Packet.bytes ++ rest := by
        rw [hbytes, List.flatMap_append, List.append_assoc, List.append_assoc] at hstream
        rw [hdata₁]
        exact List.append_cancel_left hstream
      have hless : data₁'.readableBytes + chunks.flatten.length < fuel := by
        rw [← DataBuffer.length_content, hdata₁]
        omega
      have := ih (by rw [hdata₁]; exact hpiece) hstream₁ hlater hless hreceive
      rw [List.length_append, List.length_map]
      omega
    · have := handRead_exceeds hroom hlt hbytes hpiece hread
      omega

end Reads

/-! ## Connections -/

section Connections

variable {c : SessionClass} {fuel : Nat} {s : Connection} {i : Incoming}

theorem noPacket_of_short {bytes : List UInt8} (h : (PacketHeader.read bytes).size.toInt < 0) : NoPacket bytes := by
  rintro ⟨p, rest, rfl⟩
  have hsize := p.size_header
  rw [p.read_bytes, hsize] at h
  omega

theorem not_incomplete_of_short {bytes : List UInt8} (h12 : 12 ≤ bytes.length)
    (hlow : -12 ≤ (PacketHeader.read bytes).size.toInt) (hneg : (PacketHeader.read bytes).size.toInt < 0) :
    ¬ Incomplete bytes := by
  intro h
  apply h
  omega

/-- The callback ran on the buffer of the connection. -/
theorem connection_eq_some {ds : List Delivery} {s' : Connection} (h : connection c fuel s i = some (ds, s')) :
    ∃ data, receive c fuel (s.connectCallback i.sock i.calls).inputBuffer_ i.reads = some (ds, data) ∧
      s'.inputBuffer_.content = data.content := by
  obtain ⟨⟨ds', data⟩, hreceive, hpair⟩ := Option.map_eq_some_iff.mp h
  obtain ⟨rfl, rfl⟩ := Prod.mk.inj hpair
  exact ⟨data, hreceive, run_content _ _⟩

theorem connection_of_receive {ds : List Delivery} {data : DataBuffer}
    (h : receive c fuel (s.connectCallback i.sock i.calls).inputBuffer_ i.reads = some (ds, data)) :
    ∃ s', connection c fuel s i = some (ds, s') ∧ s'.inputBuffer_.content = data.content := by
  unfold connection
  dsimp only
  rw [h, Option.map_some]
  exact ⟨_, rfl, run_content _ _⟩

/-- A connection in which no short size comes up hands over what its bytes, behind those left over, hold. -/
theorem connection_split (hinc : Incomplete s.inputBuffer_.content)
    (hno : NoShortSize (s.inputBuffer_.content ++ i.bytes)) (hoffers : Offers c fuel s i) :
    ∃ (ps : List Packet) (s' : Connection), connection c fuel s i = some (ps.map (deliver c.handlerOf), s') ∧
      s.inputBuffer_.content ++ i.bytes = ps.flatMap Packet.bytes ++ s'.inputBuffer_.content ∧
      Incomplete s'.inputBuffer_.content := by
  obtain ⟨hoffered, hfuel⟩ := hoffers
  have hcontent := connectCallback_content s i.sock i.calls
  have hreadable := congrArg List.length hcontent
  rw [DataBuffer.length_content, DataBuffer.length_content] at hreadable
  obtain ⟨ps, data, hreceive, hsplit, hinc'⟩ := receive_split (by rw [hcontent]; exact hinc)
    (by rw [hcontent]; exact hno) hoffered (by rw [hreadable]; exact hfuel)
  obtain ⟨s', hconnection, hs'⟩ := connection_of_receive hreceive
  rw [hcontent] at hsplit
  exact ⟨ps, s', hconnection, by rw [hs']; exact hsplit, by rw [hs']; exact hinc'⟩

/-- A connection with something to hand over behind some packets hands over more than these packets. -/
theorem connection_exceeds {ps : List Packet} {rest : List UInt8} {ds : List Delivery} {s' : Connection}
    (hinc : Incomplete s.inputBuffer_.content)
    (hstream : s.inputBuffer_.content ++ i.bytes = ps.flatMap Packet.bytes ++ rest) (hrest : ¬ Incomplete rest)
    (hoffers : Offers c fuel s i) (h : connection c fuel s i = some (ds, s')) : ps.length < ds.length := by
  obtain ⟨hoffered, hfuel⟩ := hoffers
  have hcontent := connectCallback_content s i.sock i.calls
  have hreadable := congrArg List.length hcontent
  rw [DataBuffer.length_content, DataBuffer.length_content] at hreadable
  obtain ⟨data, hreceive, -⟩ := connection_eq_some h
  exact receive_exceeds (by rw [hcontent]; exact hinc) (by rw [hcontent]; exact hstream) hrest hoffered
    (by rw [hreadable]; exact hfuel) hreceive

/-- A fresh connection is framed, and leaves no packet in the buffer. -/
theorem Fresh.framed (hinc : Incomplete s.inputBuffer_.content) (hoffers : Offers c fuel s i) (h : Fresh s i) :
    Framed c fuel s i ∧ ∃ ds s', connection c fuel s i = some (ds, s') ∧ Incomplete s'.inputBuffer_.content := by
  have hno : NoShortSize (s.inputBuffer_.content ++ i.bytes) := by
    rcases h with ⟨hempty, hno⟩ | ⟨-, hall⟩
    · rw [hempty]
      exact hno
    · exact hall.noShortSize
  obtain ⟨ps, s', hconnection, hsplit, hinc'⟩ := connection_split hinc hno hoffers
  refine ⟨?_, _, s', hconnection, hinc'⟩
  rcases h with ⟨hempty, -⟩ | ⟨hown, hall⟩
  · rw [hempty, List.nil_append] at hsplit
    exact ⟨ps, s'.inputBuffer_.content, s', hsplit, hinc'.noPacket, hconnection, .inl hempty⟩
  · rw [hsplit] at hall
    obtain rfl := hall.eq_nil
    exact ⟨[], i.bytes, s', rfl, hown, hconnection, .inr rfl⟩

/-- A framed connection is fresh. -/
theorem Framed.fresh (hinc : Incomplete s.inputBuffer_.content) (hoffers : Offers c fuel s i)
    (h : Framed c fuel s i) : Fresh s i := by
  obtain ⟨ps, rest, s', hbytes, hrest, hconnection, hempty | rfl⟩ := h
  · refine .inl ⟨hempty, fun qs tail hqs h12 hshort => ?_⟩
    -- what comes with the short size is handed over as well
    have hstream : s.inputBuffer_.content ++ i.bytes = qs.flatMap Packet.bytes ++ tail := by
      rw [hempty, List.nil_append, hqs]
    have hmore := connection_exceeds hinc hstream (not_incomplete_of_short h12 hshort.1 hshort.2) hoffers hconnection
    have hfewer := packets_length_le (hbytes.symm.trans hqs) (noPacket_of_short hshort.2)
    rw [List.length_map] at hmore
    omega
  · refine .inr ⟨by rw [hbytes]; exact hrest, ?_⟩
    by_contra hall
    have hstream : s.inputBuffer_.content ++ i.bytes =
        List.flatMap Packet.bytes [] ++ (s.inputBuffer_.content ++ i.bytes) := rfl
    have hmore := connection_exceeds hinc hstream hall hoffers hconnection
    exact absurd hmore (Nat.lt_irrefl 0)

/-- The callbacks have come back so far, and no packet waits in the buffer. -/
def Resting (s : Option Connection) : Prop := ∃ s₀, s = some s₀ ∧ Incomplete s₀.inputBuffer_.content

theorem Resting.framed_iff {s : Option Connection} (h : Resting s) (hoffers : Each (Offers c fuel) s i) :
    Each (Framed c fuel) s i ↔ Each Fresh s i := by
  obtain ⟨s₀, rfl, hinc⟩ := h
  have hoffered := hoffers s₀ rfl
  constructor
  · intro hframed s₁ hs₁
    obtain rfl := Option.some.inj hs₁
    exact (hframed s₀ rfl).fresh hinc hoffered
  · intro hfresh s₁ hs₁
    obtain rfl := Option.some.inj hs₁
    exact ((hfresh s₀ rfl).framed hinc hoffered).1

theorem Resting.next {s : Option Connection} (h : Resting s) (hoffers : Each (Offers c fuel) s i)
    (hfresh : Each Fresh s i) : Resting (reconnected c fuel s i) := by
  obtain ⟨s₀, rfl, hinc⟩ := h
  obtain ⟨-, ds, s', hconnection, hinc'⟩ := (hfresh s₀ rfl).framed hinc (hoffers s₀ rfl)
  refine ⟨s', ?_, hinc'⟩
  show (connection c fuel s₀ i).map Prod.snd = some s'
  rw [hconnection, Option.map_some]

end Connections

/-- A `ClientSession` as its constructor leaves it. -/
def clientSession (closeCallback_ : Bool) : Option Connection := some (.constructed none closeCallback_)

/-- **Framing across reconnects, exactly**: in every connection of a session exactly the complete packets of the
connection's own bytes are handed over, and no byte of an earlier one takes part, if and only if every connection starts
with nothing left over and brings no short size, or there is no packet to be had in it. -/
theorem framed_iff_fresh (c : SessionClass) (fuel : Nat) (closeCallback_ : Bool) (is : List Incoming)
    (hoffers : Runs.Along (reconnected c fuel) (Each (Offers c fuel)) (clientSession closeCallback_) is) :
    Runs.Along (reconnected c fuel) (Each (Framed c fuel)) (clientSession closeCallback_) is ↔
      Runs.Along (reconnected c fuel) (Each Fresh) (clientSession closeCallback_) is := by
  have hstart : Resting (clientSession closeCallback_) := ⟨_, rfl, incomplete_nil⟩
  exact Runs.along_iff_along (fun _ _ h ho => h.framed_iff ho) (fun _ _ h ho hf => h.next ho hf) hstart hoffers

/-- The answer to a heartbeat, with a body of two bytes. -/
def heartBeat : Packet := { type := kHeartBeatRS, extraID := 0, body := [8, 1], body_lt := by decide }

/-- A connection that is lost after `bytes`. -/
def lostAfter (sock : SocketPtr) (bytes : List UInt8) : Incoming := ⟨sock, [], [bytes], [.readError .other, .reconnect]⟩

/-- The packet is cut in its header; the next connection brings it whole. -/
def cutRun : List Incoming := [lostAfter 0 (heartBeat.bytes.take 5), lostAfter 1 heartBeat.bytes]

theorem cutRun_framed_iff :
    Runs.Along (reconnected .CPGClientSession 40) (Each (Framed .CPGClientSession 40)) (clientSession true) cutRun ↔
      Runs.Along (reconnected .CPGClientSession 40) (Each Fresh) (clientSession true) cutRun :=
  framed_iff_fresh .CPGClientSession 40 true cutRun (by decide +kernel)

/-- The five bytes of the first connection are read as the beginning of the second one's packet. -/
theorem cutRun_not_framed : ¬ ∀ c fuel closeCallback_ is,
    Runs.Along (reconnected c fuel) (Each (Offers c fuel)) (clientSession closeCallback_) is →
      Runs.Along (reconnected c fuel) (Each (Framed c fuel)) (clientSession closeCallback_) is := by
  intro h
  obtain ⟨-, hsecond, -⟩ := h .CPGClientSession 40 true cutRun (by decide +kernel)
  set first := reconnected .CPGClientSession 40 (clientSession true) (lostAfter 0 (heartBeat.bytes.take 5)) with hfirst
  have hsome : first.isSome = true := by decide +kernel
  have hleft : ∀ s ∈ first, s.inputBuffer_.content ≠ [] := by decide +kernel
  obtain ⟨ps, rest, s', hbytes, hrest, -, hempty | rfl⟩ := hsecond _ (Option.get_mem hsome)
  · exact hleft _ (Option.get_mem hsome) hempty
  · rw [List.flatMap_nil, List.nil_append] at hbytes
    apply hrest
    exact ⟨heartBeat, [], by rw [← hbytes]; rfl⟩

end AsioUtils.CPG
