import Rtpkit.CaptureEditing
import Rtpkit.Detection
import Rtpkit.RtcpSafety
import Rtpkit.SyntheticCapture

namespace Rtpkit

open Outcome

/-- What the two sides of a session send to each other. -/
inductive SessionPayload
  | media (builder : RtpBuilder)
  | report (packets : List RtcpPacket)

def SessionPayload.build : SessionPayload → Except Error Bytes
  | media builder => builder.build
  | report packets => buildRtcp packets

/-- A payload of a session with the way it takes. -/
structure SessionItem extends Route where
  payload : SessionPayload

def SessionItem.record (lib : IpAddressModule) (item : SessionItem) : Except Error PcapPacket :=
  item.toRoute.record lib item.payload.build

theorem looksLikeRtcp_of_looksLikeRtp {data : Bytes} (h : looksLikeRtp data = .ok true) :
    looksLikeRtcp data = .ok false := by
  unfold looksLikeRtcp
  cases hparse : parseRtcp data with
  | ok packets =>
    rw [looksLikeRtp_of_parseRtcp hparse] at h
    cases h
  | error e =>
    have hsafe : IsRtcpParseError e := parseCompound_failsOnly true data e hparse
    have hrtcp : e.isRtcpError = true := by
      cases e <;> first | rfl | exact hsafe.elim
    exact if_pos hrtcp

namespace SessionPayload

/-- What the strict parsers take back: media of version 2, and compounds of at least one packet
with application data of whole words. -/
def Regular : SessionPayload → Prop
  | media builder => builder.version = 2
  | report packets => packets ≠ [] ∧ ∀ pkt ∈ packets, pkt.DataAligned

/-- The payload parses as what it was built from, and is taken for nothing else. -/
def RecognisedIn (data : Bytes) : SessionPayload → Prop
  | media builder => parseRtp data = .ok (builder.packet builder.wire) ∧
      looksLikeRtp data = .ok ¬(72 ≤ builder.payloadType ∧ builder.payloadType ≤ 76) ∧
      (¬(72 ≤ builder.payloadType ∧ builder.payloadType ≤ 76) → looksLikeRtcp data = .ok false)
  | report packets => parseRtcp data = .ok packets ∧ looksLikeRtp data = .ok false ∧
      looksLikeRtcp data = .ok (startsWithReport packets)

theorem recognisedIn_build {payload : SessionPayload} {data : Bytes} (h : payload.Regular)
    (hbuild : payload.build = .ok data) : payload.RecognisedIn data := by
  cases payload with
  | media builder =>
    obtain ⟨hvalid, rfl⟩ := RtpBuilder.build_eq_ok.mp hbuild
    have hparse : parseRtp builder.wire = .ok (builder.packet builder.wire) :=
      (RtpBuilder.parse_wire hvalid true).trans (if_pos (.inl h))
    have hlooks : looksLikeRtp builder.wire =
        .ok ¬(72 ≤ builder.payloadType ∧ builder.payloadType ≤ 76) := by
      rw [looksLikeRtp, hparse]
      exact congrArg Except.ok (decide_eq_decide.mpr (not_congr mem_rtcpCollisionRange))
    refine ⟨hparse, hlooks, fun houtside => looksLikeRtcp_of_looksLikeRtp ?_⟩
    rw [hlooks, decide_eq_true houtside]
  | report packets =>
    obtain ⟨hbuildable, rfl⟩ := buildRtcp_eq_ok.mp hbuild
    have hparse : parseRtcp (packets.map RtcpPacket.wire).flatten = .ok packets :=
      parseCompound_wire true h.1 fun pkt hpkt => ⟨hbuildable pkt hpkt, h.2 pkt hpkt⟩
    refine ⟨hparse, looksLikeRtp_of_parseRtcp hparse, ?_⟩
    rw [looksLikeRtcp, hparse]

end SessionPayload

/-- A record of a capture holds the datagram of the item. -/
structure SessionItem.RecoveredIn (lib : IpAddressModule) (item : SessionItem)
    (pkt : PcapPacket) (udp : DecapsulatedUdp) : Prop where
  decapsulates : decapsulateUdp lib pkt.linkType pkt.data = .ok (some udp)
  recognised : item.payload.RecognisedIn udp.payload.toList
  srcIp : lib.Canonical item.srcIp → udp.srcIp = item.srcIp
  dstIp : lib.Canonical item.dstIp → udp.dstIp = item.dstIp
  srcPort : udp.srcPort = item.srcPort
  dstPort : udp.dstPort = item.dstPort

section Recovery

variable {lib : IpAddressModule} {item : SessionItem} {pkt : PcapPacket}

theorem SessionItem.exists_recoveredIn (hregular : item.payload.Regular)
    (h : item.record lib = .ok pkt) : ∃ udp, item.RecoveredIn lib pkt udp := by
  obtain ⟨data, udp, hbuild, hcarries⟩ := Route.exists_carries h
  refine ⟨udp, hcarries.decapsulates, ?_, hcarries.srcIp, hcarries.dstIp, hcarries.srcPort,
    hcarries.dstPort⟩
  rw [hcarries.payload]
  exact SessionPayload.recognisedIn_build hregular hbuild

end Recovery

/-- The regular media and reports of a session that share their ports are told apart in a capture of
either kind: each record holds the datagram that was sent, and it is recognised as what it is. -/
theorem session_recovered (lib : IpAddressModule) {items : List SessionItem}
    {records : List PcapPacket} {format : CaptureFormat} {b : Bytes}
    (hregular : ∀ item ∈ items, item.payload.Regular) (htime : ∀ item ∈ items, 0 ≤ item.timestamp)
    (hrecords : items.mapM (SessionItem.record lib) = .ok records)
    (hwrite : format.write records = .ok b) :
    ∃ packets, readCapture b = ⟨packets, none⟩ ∧
      List.Forall₂ (fun item pkt => ∃ udp, item.RecoveredIn lib pkt udp) items packets := by
  have htimes := Route.timestamps_nonneg SessionItem.toRoute
    (fun item => item.payload.build) htime hrecords
  refine ⟨_, readCapture_write htimes hwrite, ?_⟩
  rw [List.forall₂_map_right_iff]
  have hall := (List.forall₂_and_left _ _).mpr ⟨hregular, mapM_eq_ok.mp hrecords⟩
  refine hall.imp fun item pkt hitem => ?_
  obtain ⟨udp, hudp⟩ := SessionItem.exists_recoveredIn hitem.1 hitem.2
  -- the file keeps the link type and the data, which is all that the datagram is read from
  exact ⟨udp, { hudp with decapsulates := hudp.decapsulates }⟩

def smallSessionItem (payload : SessionPayload) (timestamp : ℚ) : SessionItem where
  payload := payload
  linkType := dltRaw
  srcIp := "10.0.0.1"
  dstIp := "10.0.0.2"
  srcPort := 5004
  dstPort := 5004
  timestamp := timestamp

/-- Media and a receiver report from one port to one port. -/
def smallSession : List SessionItem :=
  [smallSessionItem (.media { payloadType := 96, seq := 7, ssrc := 3, payload := [1, 2] }) (1 / 3),
    smallSessionItem (.report [.receiverReport ⟨3, [], 0⟩, .goodbye ⟨[3], none, 0⟩]) 1]

theorem session_recovered_small : ∃ b media report, readCapture b = ⟨[media, report], none⟩ ∧
    (∃ udp, decapsulateUdp sampleAddresses media.linkType media.data = .ok (some udp) ∧
      looksLikeRtp udp.payload.toList = .ok true ∧ looksLikeRtcp udp.payload.toList = .ok false) ∧
    ∃ udp, decapsulateUdp sampleAddresses report.linkType report.data = .ok (some udp) ∧
      looksLikeRtp udp.payload.toList = .ok false ∧ looksLikeRtcp udp.payload.toList = .ok true := by
  have hregular : ∀ item ∈ smallSession, item.payload.Regular := by
    simp [smallSession, smallSessionItem, SessionPayload.Regular, RtcpPacket.DataAligned]
  have htime : ∀ item ∈ smallSession, 0 ≤ item.timestamp := by
    simp [smallSession, smallSessionItem]
  have hok : (smallSession.mapM (SessionItem.record sampleAddresses) >>=
      CaptureFormat.pcap.write).isOk = true := by
    decide +kernel
  cases hrecords : smallSession.mapM (SessionItem.record sampleAddresses) with
  | error e => simp [hrecords, bind_error, Except.isOk, Except.toBool] at hok
  | ok records =>
    rw [hrecords, bind_ok] at hok
    cases hwrite : CaptureFormat.pcap.write records with
    | error e => simp [hwrite, Except.isOk, Except.toBool] at hok
    | ok b =>
      obtain ⟨packets, hread, hall⟩ :=
        session_recovered sampleAddresses hregular htime hrecords hwrite
      obtain ⟨media, _, ⟨udp, hmedia⟩, hrest, rfl⟩ := List.forall₂_cons_left_iff.mp hall
      obtain ⟨report, _, ⟨udp', hreport⟩, hnil, rfl⟩ := List.forall₂_cons_left_iff.mp hrest
      rw [List.forall₂_nil_left_iff] at hnil
      subst hnil
      obtain ⟨-, hrtp, hrtcp⟩ := hmedia.recognised
      exact ⟨b, media, report, hread, ⟨udp, hmedia.decapsulates, hrtp, hrtcp (by decide)⟩,
        udp', hreport.decapsulates, hreport.recognised.2⟩

end Rtpkit
