import Rtpkit.RtcpAccepted

namespace Rtpkit

open Outcome Chunk Alignment

/-- An APP name without replacement characters; other packets have no name. -/
def RtcpPacket.NameAscii : RtcpPacket → Prop
  | .applicationDefined pkt => pkt.name.toList.all isAscii = true
  | _ => True

theorem parseOne_spec {packetType count : Nat} {content : Bytes} {padding : Int} {pkt : RtcpPacket}
    (h : parseOne packetType count content padding = .ok pkt) (hcount : count ≤ maxCount)
    (hascii : pkt.NameAscii) : pkt.ReadFrom content ∧ pkt.paddingSize = padding := by
  unfold parseOne at h
  split at h
  next =>
    obtain ⟨p, hp, rfl⟩ := map_eq_ok.mp h
    exact parseSr_spec hp hcount
  split at h
  next =>
    obtain ⟨p, hp, rfl⟩ := map_eq_ok.mp h
    exact parseRr_spec hp hcount
  split at h
  next =>
    obtain ⟨p, hp, rfl⟩ := map_eq_ok.mp h
    exact parseSdes_spec hp hcount
  split at h
  next =>
    obtain ⟨p, hp, rfl⟩ := map_eq_ok.mp h
    exact parseBye_spec hp hcount
  split at h
  next =>
    obtain ⟨p, hp, rfl⟩ := map_eq_ok.mp h
    exact parseApp_spec hp hcount hascii
  next => simp at h

theorem readPadding_spec {flag : Bool} {body : Bytes} {n : Nat}
    (h : readPadding true flag body = .ok n) : n ≤ body.length ∧ n ≤ 255 := by
  unfold readPadding at h
  split at h
  next =>
    split at h
    next => simp at h
    next hne =>
      obtain ⟨padCount, hp, h⟩ := bind_eq_ok.mp h
      have hlt := getByte_lt hp
      split at h
      next => simp at h
      next hok =>
        cases pure_eq_ok.mp h
        omega
  next =>
    cases pure_eq_ok.mp h
    omega

theorem skipMalformed_strict {r : Except Error RtcpPacket} {packet : Option RtcpPacket}
    (h : skipMalformed true r = .ok packet) : ∃ pkt, r = .ok pkt ∧ packet = some pkt := by
  cases r with
  | ok pkt => exact ⟨pkt, rfl, (Except.ok.inj h).symm⟩
  | error e => cases e <;> simp [skipMalformed] at h

theorem readHeader_spec {data : Bytes} {off : Nat} {hdr : RtcpHeader}
    (h : readHeader data off = .ok hdr) : hdr.count ≤ maxCount ∧ hdr.lengthWords ≤ 0xFFFF := by
  simp only [readHeader, bind_eq_ok] at h
  obtain ⟨first, _, type, _, words, rw, h⟩ := h
  cases pure_eq_ok.mp h
  have hwords := Fmt.fits_H.mp (unpackFrom_spec rw).1
  have hcount : first &&& 0x1F ≤ 0x1F := Nat.and_le_right
  simp only [maxCount]
  omega

/-- In strict mode every turn of the loop either is past the data or reads one packet. -/
theorem parseLoop_strict_cases {data : Bytes} {off : Nat} {packets : List RtcpPacket}
    (h : parseLoop true data off = .ok packets) :
    (data.length ≤ off ∧ packets = []) ∨
    ∃ hdr pkt rest padding, readHeader data off = .ok hdr ∧ off + hdr.packetLen ≤ data.length ∧
      readPadding true hdr.paddingFlag
        (slice data (off + headerSize) (off + hdr.packetLen)) = .ok padding ∧
      parseOne hdr.packetType hdr.count
        (slice (slice data (off + headerSize) (off + hdr.packetLen)) 0
          ((slice data (off + headerSize) (off + hdr.packetLen)).length - padding)) padding =
        .ok pkt ∧
      parseLoop true data (off + hdr.packetLen) = .ok rest ∧ packets = pkt :: rest := by
  rw [parseLoop] at h
  split at h
  next hlt =>
    dsimp only at h
    split at h
    next => simp at h
    next =>
      obtain ⟨hdr, hheader, h⟩ := bind_eq_ok.mp h
      split at h
      next => simp at h
      split at h
      next => simp at h
      next hlen =>
        obtain ⟨packet, hbody, h⟩ := bind_eq_ok.mp h
        obtain ⟨rest, hrest, h⟩ := bind_eq_ok.mp h
        obtain ⟨padding, hpadding, hbody⟩ := bind_eq_ok.mp hbody
        obtain ⟨pkt, hpkt, rfl⟩ := skipMalformed_strict hbody
        cases pure_eq_ok.mp h
        exact .inr ⟨hdr, pkt, rest, padding, hheader, by omega, hpadding, hpkt, hrest, rfl⟩
  next hge =>
    cases pure_eq_ok.mp h
    exact .inl ⟨by omega, rfl⟩

/-- A packet that the loop has read can be built again, within the words its header had. -/
theorem buildable_of_read {data : Bytes} {off padding : Nat} {hdr : RtcpHeader} {pkt : RtcpPacket}
    (hheader : readHeader data off = .ok hdr) (hlen : off + hdr.packetLen ≤ data.length)
    (hpadding : readPadding true hdr.paddingFlag
      (slice data (off + headerSize) (off + hdr.packetLen)) = .ok padding)
    (hpkt : parseOne hdr.packetType hdr.count
      (slice (slice data (off + headerSize) (off + hdr.packetLen)) 0
        ((slice data (off + headerSize) (off + hdr.packetLen)).length - padding)) padding = .ok pkt)
    (hmod : pkt.paddingSize % 4 = 0) (hascii : pkt.NameAscii) :
    (pkt.Buildable ∧ pkt.DataAligned) ∧ pkt.payload.length ≤ hdr.lengthWords * 4 := by
  obtain ⟨hcount, hwords⟩ := readHeader_spec hheader
  obtain ⟨hread, hsize⟩ := parseOne_spec hpkt hcount hascii
  obtain ⟨hfits, h255⟩ := readPadding_spec hpadding
  have hshort := hread.shorter
  have halign := add_fill_mod 4 pkt.body.length
  have hlt := fill_lt 4 pkt.body.length
  have hpadding0 : 0 ≤ pkt.paddingSize := by omega
  have htrailer := length_trailer pkt.body.length hpadding0
  simp only [length_slice, headerSize, RtcpHeader.packetLen] at hlen hfits hshort
  have hpayload : pkt.payload.length ≤ hdr.lengthWords * 4 := by
    simp only [RtcpPacket.payload, List.length_append]
    omega
  have hcontent : (slice (slice data (off + headerSize) (off + hdr.packetLen)) 0
      ((slice data (off + headerSize) (off + hdr.packetLen)).length - padding)).length % 4 = 0 := by
    simp only [length_slice, headerSize, RtcpHeader.packetLen]
    omega
  have hrange : 0 ≤ pkt.paddingSize ∧ pkt.paddingSize ≤ u8 := by
    simp only [u8]
    omega
  exact ⟨⟨⟨hread.buildable, hrange, hmod, by omega⟩, hread.aligned hcontent⟩, hpayload⟩

theorem parseLoop_each_buildable {data : Bytes} {off : Nat} {packets : List RtcpPacket}
    (h : parseLoop true data off = .ok packets) :
    ∀ pkt ∈ packets, pkt.paddingSize % 4 = 0 → pkt.NameAscii →
      pkt.Buildable ∧ pkt.DataAligned := by
  induction hn : data.length - off using Nat.strong_induction_on generalizing off packets with
  | _ n ih =>
    rcases parseLoop_strict_cases h with
      ⟨_, rfl⟩ | ⟨hdr, pkt, rest, padding, hheader, hlen, hpadding, hpkt, hrest, rfl⟩
    · simp
    · have hrestBuildable := ih _ (by simp only [RtcpHeader.packetLen] at *; omega) hrest rfl
      intro p hp hmod hascii
      rcases List.mem_cons.mp hp with rfl | hp
      · exact (buildable_of_read hheader hlen hpadding hpkt hmod hascii).1
      · exact hrestBuildable p hp hmod hascii

/-- The parsed packets are together no longer than what was read. -/
theorem parseLoop_length_wire {data : Bytes} {off : Nat} {packets : List RtcpPacket}
    (h : parseLoop true data off = .ok packets)
    (hpad : ∀ pkt ∈ packets, pkt.paddingSize % 4 = 0) (hascii : ∀ pkt ∈ packets, pkt.NameAscii) :
    (packets.map RtcpPacket.wire).flatten.length ≤ data.length - off := by
  induction hn : data.length - off using Nat.strong_induction_on generalizing off packets with
  | _ n ih =>
    rcases parseLoop_strict_cases h with
      ⟨_, rfl⟩ | ⟨hdr, pkt, rest, padding, hheader, hlen, hpadding, hpkt, hrest, rfl⟩
    · simp
    · have hpayload := (buildable_of_read hheader hlen hpadding hpkt (hpad pkt (by simp))
        (hascii pkt (by simp))).2
      simp only [RtcpHeader.packetLen] at hlen hrest
      have htotal := ih _ (by omega) hrest (fun p hp => hpad p (by simp [hp]))
        (fun p hp => hascii p (by simp [hp])) rfl
      simp only [List.map_cons, List.flatten_cons, List.length_append, pkt.length_wire]
      omega

theorem parseRtcp_ne_nil {data : Bytes} {packets : List RtcpPacket}
    (h : parseRtcp data = .ok packets) : packets ≠ [] := by
  obtain ⟨_, hlen, h⟩ := bind_eq_ok.mp h
  have hlen := require_eq_ok.mp hlen
  rcases parseLoop_strict_cases h with ⟨hle, _⟩ | ⟨_, _, _, _, _, _, _, _, _, rfl⟩
  · simp only [headerSize] at hlen
    omega
  · simp

theorem nameAscii_iff {packets : List RtcpPacket} :
    (∀ pkt ∈ packets, pkt.NameAscii) ↔ ∀ app, RtcpPacket.applicationDefined app ∈ packets →
      app.name.toList.all isAscii = true := by
  constructor
  · intro h app happ
    exact h _ happ
  · intro h pkt hp
    cases pkt with
    | applicationDefined app => exact h app hp
    | senderReport _ => trivial
    | receiverReport _ => trivial
    | sourceDescription _ => trivial
    | goodbye _ => trivial

/-- Building what was parsed gives an image that is no longer and means the same. -/
theorem buildRtcp_parseRtcp_normalises {data : Bytes} {packets : List RtcpPacket}
    (hparse : parseRtcp data = .ok packets) (hpad : ∀ pkt ∈ packets, pkt.paddingSize % 4 = 0)
    (hascii : ∀ app, RtcpPacket.applicationDefined app ∈ packets →
      app.name.toList.all isAscii = true) :
    ∃ image, buildRtcp packets = .ok image ∧ image.length ≤ data.length ∧
      parseRtcp image = .ok packets := by
  have hne := parseRtcp_ne_nil hparse
  obtain ⟨_, _, hloop⟩ := bind_eq_ok.mp hparse
  have hnames := nameAscii_iff.mpr hascii
  have hlen := parseLoop_length_wire hloop hpad hnames
  have hvalid : ∀ pkt ∈ packets, pkt.Buildable ∧ pkt.DataAligned := fun pkt hp =>
    parseLoop_each_buildable hloop pkt hp (hpad pkt hp) (hnames pkt hp)
  exact ⟨_, buildRtcp_eq_ok.mpr ⟨fun pkt hp => (hvalid pkt hp).1, rfl⟩, by simpa using hlen,
    parseCompound_wire true hne hvalid⟩

theorem buildRtcp_parseRtcp_normalises_bye :
    ∃ image, buildRtcp [.goodbye ⟨[7], some [104, 105], 0⟩] = .ok image ∧ image.length ≤ 16 ∧
      parseRtcp image = .ok [.goodbye ⟨[7], some [104, 105], 0⟩] :=
  @buildRtcp_parseRtcp_normalises [129, 203, 0, 3, 0, 0, 0, 7, 2, 104, 105, 1, 2, 3, 4, 5] _
    (by decide +kernel) (by decide) (by simp)

end Rtpkit
