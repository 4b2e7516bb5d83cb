import Rtpkit.RtcpBodyRoundTrip

namespace Rtpkit

open Outcome Chunk Alignment

/-- The data of an APP packet fills whole words, so that alignment adds nothing to it. -/
def RtcpPacket.DataAligned : RtcpPacket → Prop
  | .applicationDefined pkt => pkt.data.length % 4 = 0
  | _ => True

theorem length_trailer (n : Nat) {padding : Int} (h : 0 ≤ padding) :
    ((trailer n padding).length : Int) = fill 4 n + padding := by
  unfold trailer
  split
  next hp => simp [hp]
  next hp =>
    simp only [List.length_append, length_zeros, List.length_singleton]
    omega

theorem RtcpPacket.Buildable.payload_mod {pkt : RtcpPacket} (h : pkt.Buildable) :
    pkt.payload.length % 4 = 0 := by
  have htrailer := length_trailer pkt.body.length h.paddingRange.1
  have halign := add_fill_mod 4 pkt.body.length
  have hpadding := h.paddingAligned
  simp only [RtcpPacket.payload, List.length_append]
  omega

/-- The five known packet types are dispatched to their own body parsers. -/
theorem parseOne_value (t : RtcpPacketType) (count : Nat) (content : Bytes) (paddingSize : Int) :
    parseOne t.value count content paddingSize =
      match t with
      | .sr => .senderReport <$> parseSr content count paddingSize
      | .rr => .receiverReport <$> parseRr content count paddingSize
      | .sdes => .sourceDescription <$> parseSdes content count paddingSize
      | .bye => .goodbye <$> parseBye content count paddingSize
      | .app => .applicationDefined <$> parseApp content count paddingSize := by
  cases t with
  | sr => rfl
  | rr => rfl
  | sdes => rfl
  | bye => rfl
  | app => rfl

theorem parseOne_of_buildable {pkt : RtcpPacket} (hb : pkt.BodyBuildable) (ha : pkt.DataAligned) :
    parseOne pkt.packetType.value pkt.count.toNat (pkt.body ++ zeros (fill 4 pkt.body.length))
      pkt.paddingSize = .ok pkt := by
  have hbody : StandsAt (pkt.body ++ zeros (fill 4 pkt.body.length)) 0 pkt.body :=
    ⟨[], zeros (fill 4 pkt.body.length), by simp, rfl⟩
  rw [parseOne_value]
  cases pkt with
  | senderReport pkt =>
    exact congrArg (RtcpPacket.senderReport <$> ·) (parseSr_of_standsAt hb hbody)
  | receiverReport pkt =>
    exact congrArg (RtcpPacket.receiverReport <$> ·) (parseRr_of_standsAt hb hbody)
  | sourceDescription pkt =>
    exact congrArg (RtcpPacket.sourceDescription <$> ·) (parseSdes_of_standsAt hb hbody)
  | goodbye pkt =>
    exact congrArg (RtcpPacket.goodbye <$> ·) (parseBye_of_standsAt hb hbody (by simp))
  | applicationDefined pkt =>
    have h := parseApp_of_body hb
    obtain ⟨_, ⟨name, hname, hlen⟩, _⟩ := hb
    have hmod : (RtcpPacket.applicationDefined pkt).body.length % 4 = 0 := by
      simp only [RtcpPacket.DataAligned] at ha
      simp only [RtcpPacket.body, hname, Option.getD_some, List.length_append, Fmt.length_wire,
        Fmt.size_I, hlen]
      omega
    rw [fill_eq_zero hmod, zeros, List.replicate_zero, List.append_nil]
    exact congrArg (RtcpPacket.applicationDefined <$> ·) h

theorem RtcpPacket.count_range {pkt : RtcpPacket} (h : pkt.BodyBuildable) :
    0 ≤ pkt.count ∧ pkt.count < 32 := by
  cases pkt with
  | senderReport pkt => have := h.2.2.1; simp only [maxCount, RtcpPacket.count] at *; omega
  | receiverReport pkt => have := h.2.1; simp only [maxCount, RtcpPacket.count] at *; omega
  | sourceDescription pkt => have := h.1; simp only [maxCount, RtcpPacket.count] at *; omega
  | goodbye pkt => have := h.1; simp only [maxCount, RtcpPacket.count] at *; omega
  | applicationDefined pkt => have := h.1; simp only [maxCount, RtcpPacket.count] at *; omega

/-- The three fields of the first byte of an RTCP header. -/
theorem rtcpByte0_fields :
    ∀ flag < 2, ∀ count < 32,
      (((2 <<< 6) ||| (flag <<< 5) ||| count) >>> 6) &&& 0x03 = 2 ∧
      (((2 <<< 6) ||| (flag <<< 5) ||| count) >>> 5) &&& 0x01 = flag ∧
      ((2 <<< 6) ||| (flag <<< 5) ||| count) &&& 0x1F = count := by
  decide

theorem readHeader_of_standsAt {pkt : RtcpPacket} {data : Bytes} {off : Nat} (hb : pkt.Buildable)
    (h : StandsAt data off pkt.header) :
    readHeader data off = .ok {
      version := 2
      paddingFlag := pkt.paddingSize ≠ 0
      count := pkt.count.toNat
      packetType := pkt.packetType.value
      lengthWords := pkt.payload.length / 4 } := by
  have hcount := pkt.count_range hb.body
  have hbyte := rtcpByte0_lt pkt.paddingSize pkt.count
  have hwords := hb.words
  simp only [RtcpPacket.header, standsAt_append, Fmt.length_wire, Fmt.size_B, Nat.add_assoc,
    Nat.reduceAdd] at h
  obtain ⟨h0, h1, h2⟩ := h
  obtain ⟨first, r0, e0⟩ := getByte_of_standsAt (Fmt.fits_B.mpr (by omega)) h0
  obtain ⟨type, r1, e1⟩ := getByte_of_standsAt pkt.packetType.value_fits h1
  obtain ⟨words, r2, e2⟩ := unpackFrom_of_standsAt (Fmt.fits_H.mpr (by omega)) h2
  cases Int.ofNat.inj e0
  cases Int.ofNat.inj e1
  cases Int.ofNat.inj e2
  have hmod : pkt.count % 0x20 = pkt.count := by omega
  simp only [readHeader, r0, r1, r2, bind_ok, rtcpByte0, hmod]
  by_cases hp : pkt.paddingSize = 0
  · obtain ⟨f0, f1, f2⟩ := rtcpByte0_fields 0 (by decide) pkt.count.toNat (by omega)
    simp only [hp, ne_eq, not_true_eq_false, if_false, f0, f1, f2]
    rfl
  · obtain ⟨f0, f1, f2⟩ := rtcpByte0_fields 1 (by decide) pkt.count.toNat (by omega)
    simp only [hp, ne_eq, not_false_eq_true, if_true, f0, f1, f2]
    rfl

theorem readPadding_payload {pkt : RtcpPacket} (strict : Bool) (hb : pkt.Buildable) :
    readPadding strict (decide (pkt.paddingSize ≠ 0)) pkt.payload = .ok pkt.paddingSize.toNat := by
  have hrange := hb.paddingRange
  simp only [u8] at hrange
  by_cases hp : pkt.paddingSize = 0
  · simp [readPadding, hp]
    rfl
  · have hlen := length_trailer pkt.body.length hrange.1
    have hpayload : pkt.payload = (pkt.body ++ zeros (fill 4 pkt.body.length) ++
        zeros (pkt.paddingSize - 1).toNat) ++ [UInt8.ofNat pkt.paddingSize.toNat] := by
      simp [RtcpPacket.payload, trailer, hp]
    have hlength : pkt.payload.length = pkt.body.length + (trailer pkt.body.length
        pkt.paddingSize).length := by simp [RtcpPacket.payload]
    have hlast : getByte pkt.payload (pkt.payload.length - 1) = .ok pkt.paddingSize.toNat := by
      refine getByte_eq_ok.mpr ⟨UInt8.ofNat pkt.paddingSize.toNat, ?_, ?_⟩
      · rw [hpayload, List.length_append, List.length_singleton, Nat.add_sub_cancel]
        exact List.getElem?_concat_length
      · rw [UInt8.toNat_ofNat']
        omega
    simp only [readPadding, decide_not, hp, decide_false, Bool.not_false, if_true]
    rw [if_neg (by omega), hlast, bind_ok, if_neg (by omega)]
    rfl

theorem parseBody_of_buildable {pkt : RtcpPacket} (strict : Bool) (hb : pkt.Buildable)
    (ha : pkt.DataAligned) :
    parseBody strict {
      version := 2
      paddingFlag := pkt.paddingSize ≠ 0
      count := pkt.count.toNat
      packetType := pkt.packetType.value
      lengthWords := pkt.payload.length / 4 } pkt.payload = .ok (some pkt) := by
  have hrange := hb.paddingRange
  have hlen := length_trailer pkt.body.length hrange.1
  have hcontent : slice pkt.payload 0 (pkt.payload.length - pkt.paddingSize.toNat) =
      pkt.body ++ zeros (fill 4 pkt.body.length) := by
    have hcut : pkt.payload.length - pkt.paddingSize.toNat =
        (pkt.body ++ zeros (fill 4 pkt.body.length)).length := by
      simp only [RtcpPacket.payload, List.length_append, length_zeros]
      omega
    rw [hcut, slice_zero, RtcpPacket.payload, trailer, ← List.append_assoc, List.take_left]
  have hpad : ((pkt.paddingSize.toNat : Nat) : Int) = pkt.paddingSize :=
    Int.toNat_of_nonneg hrange.1
  simp only [parseBody, readPadding_payload strict hb, bind_ok, hcontent, hpad,
    parseOne_of_buildable hb.body ha]
  rfl

theorem RtcpPacket.length_wire (pkt : RtcpPacket) : pkt.wire.length = 4 + pkt.payload.length := by
  simp only [RtcpPacket.wire, RtcpPacket.header, List.length_append, Fmt.length_wire, Fmt.size_B,
    Fmt.size_H]

/-- One turn of the loop over a packet that lies within the data. -/
theorem parseLoop_next {strict : Bool} {data : Bytes} {off : Nat} {hdr : RtcpHeader}
    (packet : Option RtcpPacket) {packets : List RtcpPacket} (hroom : off + 4 ≤ data.length)
    (hheader : readHeader data off = .ok hdr) (hversion : hdr.version = 2)
    (hlen : off + hdr.packetLen ≤ data.length)
    (hbody : parseBody strict hdr (slice data (off + headerSize) (off + hdr.packetLen)) =
      .ok packet)
    (hrest : parseLoop strict data (off + hdr.packetLen) = .ok packets) :
    parseLoop strict data off = .ok (packet.toList ++ packets) := by
  rw [parseLoop, dif_pos (by omega)]
  simp only [hheader, bind_ok, hbody, hrest]
  rw [if_neg (show ¬data.length - off < headerSize by simp only [headerSize]; omega),
    if_neg (show ¬(hdr.version ≠ 2 ∧ strict = true) by simp [hversion]),
    if_neg (show ¬data.length < off + hdr.packetLen by omega)]
  rfl

/-- Reading the wire images of packets from an offset to the end of the data yields the packets. -/
theorem parseLoop_of_standsAt {packets : List RtcpPacket} (strict : Bool) {data : Bytes} {off : Nat}
    (hb : ∀ pkt ∈ packets, pkt.Buildable ∧ pkt.DataAligned)
    (h : StandsAt data off (packets.map RtcpPacket.wire).flatten)
    (hend : off + (packets.map RtcpPacket.wire).flatten.length = data.length) :
    parseLoop strict data off = .ok packets := by
  induction packets generalizing off with
  | nil =>
    simp only [List.map_nil, List.flatten_nil, List.length_nil] at hend
    rw [parseLoop, dif_neg (by omega)]
    rfl
  | cons pkt packets ih =>
    obtain ⟨hpkt, ha⟩ := hb pkt (by simp)
    simp only [List.map_cons, List.flatten_cons, List.length_append, standsAt_append] at h hend
    obtain ⟨hwire, hrest⟩ := h
    have hlen := pkt.length_wire
    have hmod := hpkt.payload_mod
    obtain ⟨hheader, hpayload⟩ := standsAt_append.mp hwire
    have hpacketEnd : off + (pkt.payload.length / 4 + 1) * 4 = off + pkt.wire.length := by omega
    have hbody : slice data (off + 4) (off + pkt.wire.length) = pkt.payload := by
      have hslice := hpayload.slice_eq
      simp only [RtcpPacket.header, List.length_append, Fmt.length_wire, Fmt.size_B,
        Fmt.size_H] at hslice
      rwa [show off + (1 + (1 + 2)) + pkt.payload.length = off + pkt.wire.length by omega] at hslice
    have htail := ih (fun p hp => hb p (by simp [hp])) hrest (by omega)
    refine parseLoop_next (some pkt) (by omega) (readHeader_of_standsAt hpkt hheader) rfl
      ?_ ?_ ?_
    · simp only [RtcpHeader.packetLen]
      omega
    · simp only [RtcpHeader.packetLen, hpacketEnd, headerSize, hbody]
      exact parseBody_of_buildable strict hpkt ha
    · simp only [RtcpHeader.packetLen, hpacketEnd]
      exact htail

theorem parseCompound_wire {packets : List RtcpPacket} (strict : Bool) (hne : packets ≠ [])
    (hb : ∀ pkt ∈ packets, pkt.Buildable ∧ pkt.DataAligned) :
    parseCompound strict (packets.map RtcpPacket.wire).flatten = .ok packets := by
  have hlen : headerSize ≤ (packets.map RtcpPacket.wire).flatten.length := by
    cases packets with
    | nil => exact absurd rfl hne
    | cons pkt packets =>
      simp only [List.map_cons, List.flatten_cons, List.length_append, pkt.length_wire, headerSize]
      omega
  rw [parseCompound, require_pos hlen, bind_ok]
  exact parseLoop_of_standsAt strict hb (standsAt_self _) (by simp)

/-- What the builder returns is parsed back to the packets it was built from. -/
theorem parseRtcp_buildRtcp_roundTrip {packets : List RtcpPacket} {data : Bytes}
    (hne : packets ≠ []) (hbuild : buildRtcp packets = .ok data)
    (happ : ∀ app, RtcpPacket.applicationDefined app ∈ packets → app.data.length % 4 = 0) :
    parseRtcp data = .ok packets := by
  obtain ⟨hv, rfl⟩ := buildRtcp_eq_ok.mp hbuild
  refine parseCompound_wire true hne fun pkt hp => ⟨hv pkt hp, ?_⟩
  cases pkt with
  | applicationDefined app => exact happ app hp
  | senderReport _ => trivial
  | receiverReport _ => trivial
  | sourceDescription _ => trivial
  | goodbye _ => trivial

theorem parseRtcp_buildRtcp_roundTrip_compound :
    parseRtcp [161, 201, 0, 8, 0, 0, 0, 1, 0, 0, 0, 1, 10, 255, 255, 251, 0, 0, 3, 232, 0, 0, 0, 7,
        0, 0, 0, 8, 0, 0, 0, 9, 0, 0, 0, 4, 129, 202, 0, 3, 0, 0, 0, 1, 1, 2, 97, 98, 0, 0, 0, 0,
        128, 203, 0, 1, 0, 0, 0, 0] =
      .ok [.receiverReport ⟨1, [⟨1, 10, -5, 1000, 7, 8, 9⟩], 4⟩,
        .sourceDescription ⟨[⟨1, [⟨1, [97, 98]⟩]⟩], 0⟩, .goodbye ⟨[], some [], 0⟩] := by
  apply parseRtcp_buildRtcp_roundTrip (by simp) (by decide)
  intro app h
  simp at h

end Rtpkit
